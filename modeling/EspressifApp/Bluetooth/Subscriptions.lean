import EspressifApp.Bluetooth.Sessions

/-!
Whom the services notify. A service should notify a client that has subscribed
in its present session, and in the mode it asked for. The mode is a variable
that outlives the session: only a client-configuration write changes it.
-/

namespace EspressifApp.Bluetooth

open Reactive

/-- A notification goes to a client that is connected and subscribed, and asks
for a confirmation exactly when the client subscribed to indications. -/
def Subscribed (s : Device × View) (i : Input) : Prop :=
  ∀ n ∈ notifications s.1 i, ∃ c ∈ (s.2 n.service).client,
    c.mode ≠ .none ∧ (n.needConfirm = true ↔ c.mode = .indicate)

instance (s : Device × View) (i : Input) : Decidable (Subscribed s i) :=
  inferInstanceAs (Decidable (∀ n ∈ notifications s.1 i, _))

/-- The mode of a service stays the one its client asked for: no client leaves
while the mode is not none, and no write that is only being prepared names
another mode to the application service. -/
def ModeKept (s : Device × View) : Input → Prop
  | .gatts (.disconnectEvt _) gattsIf =>
      ∀ idx, (s.2 idx).Receives gattsIf → (s.1.part idx).mode = .none
  | .gatts (.writeEvt p) gattsIf =>
      p.isPrep = true → (s.2 .app).Receives gattsIf →
        (s.2 .app).configHandle = some p.handle →
          ∀ mode ∈ clientConfig p.value, mode = (s.1.part .app).mode
  | _ => True

instance (s : Device × View) (i : Input) : Decidable (ModeKept s i) := by
  induction i using Input.casesOn with
  | gatts event gattsIf =>
      induction event using GattsEvent.casesOn with
      | disconnectEvt connId =>
          exact inferInstanceAs (Decidable (∀ idx, (s.2 idx).Receives gattsIf → _))
      | writeEvt p =>
          have : Decidable (∀ mode ∈ clientConfig p.value, mode = (s.1.part .app).mode) :=
            Option.decidableForallMem _
          exact inferInstanceAs (Decidable (p.isPrep = true → _ → _ → _))
      | _ => exact instDecidableTrue
  | _ => exact instDecidableTrue

/-- The mode of a service with a configuration handle is that of its client,
and none without one. -/
def ModeOfClient (idx : ServiceIdx) (s : ServicePart) (v : ServiceView) : Prop :=
  idx ≠ .dis → s.mode = (v.client.map Client.mode).getD .none

variable {idx : ServiceIdx} {s : ServicePart} {v : ServiceView}

theorem ModeOfClient.deliver_connect (hJ : ModeOfClient idx s v) (hclient : v.client = none)
    (p : ConnectParam) :
    ModeOfClient idx (s.deliver idx (.connectEvt p)) (v.deliver idx (.connectEvt p)) := by
  intro hidx
  have hmode := hJ hidx
  rw [hclient] at hmode
  simp only [ServicePart.deliver, ServiceView.deliver]
  split <;> exact hmode

theorem ModeOfClient.deliver_write (hJ : ModeOfClient idx s v) (hT : Tracks idx s v)
    {p : WriteParam} (hhandle : p.handle ≠ 0) (hclient : v.client ≠ none)
    (hprep : idx = .app → p.isPrep = true → v.configHandle = some p.handle →
      ∀ mode ∈ clientConfig p.value, mode = s.mode) :
    ModeOfClient idx (s.deliver idx (.writeEvt p)) (v.deliver idx (.writeEvt p)) := by
  intro hidx
  have hmode := hJ hidx
  obtain ⟨c, hc⟩ := Option.ne_none_iff_exists'.mp hclient
  rw [hc, Option.map_some, Option.getD_some] at hmode
  simp only [ServicePart.deliver, ServiceView.deliver, hT.configHandle_iff hhandle]
  by_cases hconfig : v.configHandle = some p.handle
  · cases hp : p.isPrep with
    | false =>
        -- both sides take the mode the payload names, if it names one
        have hheeds : idx.Heeds p := by cases idx <;> trivial
        simp [hheeds, hconfig, hc, hmode]
    | true =>
        simp only [hconfig, and_true, reduceCtorEq, if_false, hc, Option.map_some,
          Option.getD_some]
        split
        · rename_i hheeds
          have happ : idx = .app := by
            cases idx with
            | app => rfl
            | dis => exact absurd rfl hidx
            | batt => rw [ServiceIdx.Heeds, hp] at hheeds; cases hheeds
          cases hcfg : clientConfig p.value with
          | none => exact hmode
          | some mode => exact (hprep happ hp hconfig mode hcfg).trans hmode
        · exact hmode
  · simp [hconfig, hc, hmode]

/-- A client-configuration write or the end of a session apart, no event
touches the mode or the client. -/
theorem sessions_modeOfClient {d : Device} {v : View} {i : Input}
    (hT : ∀ idx, Tracks idx (d.part idx) (v idx))
    (hJ : ∀ idx, ModeOfClient idx (d.part idx) (v idx))
    (htraffic : ClientTraffic (d, v) i) (hkept : ModeKept (d, v) i) :
    ∀ idx, Tracks idx ((sessions.next (d, v) i).1.part idx) ((sessions.next (d, v) i).2 idx) ∧
      ModeOfClient idx ((sessions.next (d, v) i).1.part idx)
        ((sessions.next (d, v) i).2 idx) := by
  apply sessions_keep i hT hJ (fun _ _ _ _ h => h) (fun _ _ _ _ h => h)
  intro idx event g hi hrec s hTs hmode hJs
  subst hi
  cases event with
  | connectEvt p => exact hJs.deliver_connect (htraffic.2 idx hrec) p
  | disconnectEvt connId =>
      intro _
      exact hmode.trans (hkept idx hrec)
  | writeEvt p =>
      apply hJs.deliver_write hTs htraffic.2.1 (htraffic.2.2 idx hrec)
      intro happ hp hconfig mode hcfg
      subst happ
      exact (hkept hp hrec hconfig mode hcfg).trans hmode.symm
  | regEvt p =>
      simp only [ServicePart.deliver, ServiceView.deliver]
      split <;> exact hJs
  | creatAttrTabEvt p =>
      simp only [ServicePart.deliver, ServiceView.deliver]
      split <;> exact hJs
  | _ => exact hJs

/-- As long as every client unsubscribes before it leaves, and no prepared
write reconfigures the application service, notifications go to subscribed
clients only. -/
theorem notifications_subscribed (h : List Input) (htraffic : sessions.Along ClientTraffic h)
    (hkept : sessions.Along ModeKept h) : sessions.Along Subscribed h := by
  refine (Machine.along_and.mpr ⟨htraffic, hkept⟩).of_invariant
    (I := fun s => ∀ idx, Tracks idx (s.1.part idx) (s.2 idx) ∧
      ModeOfClient idx (s.1.part idx) (s.2 idx)) ?_ ?_ ?_
  · exact fun idx => ⟨tracks_boot idx, fun _ => by cases idx <;> rfl⟩
  · rintro ⟨d, v⟩ i hI ⟨htr, hk⟩
    exact sessions_modeOfClient (fun idx => (hI idx).1) (fun idx => (hI idx).2) htr hk
  · rintro ⟨d, v⟩ i hI - n hn
    obtain ⟨hidx, hmode, hn'⟩ := eq_of_mem_notifications hn
    have hJ := (hI n.service).2 hidx
    dsimp only at hJ ⊢
    cases hclient : (v n.service).client with
    | none => rw [hclient] at hJ; exact absurd hJ hmode
    | some c =>
        rw [hclient, Option.map_some, Option.getD_some] at hJ
        refine ⟨c, rfl, hJ ▸ hmode, ?_⟩
        rw [hn', ← hJ]
        simp [Device.notification]

/-- A client connects, subscribes to indications of data and notifications of
the battery level, is notified by both services, and unsubscribes before it
leaves. The next one subscribes to the battery level alone. -/
def orderlySession : List Input :=
  [.gatts (.regEvt ⟨.ok, 0x10⟩) 3, .gatts (.regEvt ⟨.ok, 0x12⟩) 5,
    .gatts (.creatAttrTabEvt ⟨.ok, 0, [40, 41, 42, 43]⟩) 3,
    .gatts (.creatAttrTabEvt ⟨.ok, 2, [60, 61, 62, 63]⟩) 5,
    .gatts (.connectEvt ⟨0, Vector.replicate 6 1⟩) 3,
    .gatts (.connectEvt ⟨0, Vector.replicate 6 1⟩) 5,
    .gatts (.writeEvt ⟨0, 1, 43, true, false, [2, 0]⟩) 3,
    .gatts (.writeEvt ⟨0, 2, 63, true, false, [1, 0]⟩) 5, .sendData [1, 2, 3],
    .setBatteryLevel 80, .gatts (.writeEvt ⟨0, 3, 43, true, false, [0, 0]⟩) 3,
    .gatts (.writeEvt ⟨0, 4, 63, true, false, [0, 0]⟩) 5, .gatts (.disconnectEvt 0) 3,
    .gatts (.disconnectEvt 0) 5, .setBatteryLevel 79,
    .gatts (.connectEvt ⟨1, Vector.replicate 6 2⟩) 3,
    .gatts (.connectEvt ⟨1, Vector.replicate 6 2⟩) 5,
    .gatts (.writeEvt ⟨1, 1, 63, true, false, [1, 0]⟩) 5, .setBatteryLevel 78,
    .sendData [4], .gatts (.writeEvt ⟨1, 2, 63, true, false, [0, 0]⟩) 5,
    .gatts (.disconnectEvt 1) 3, .gatts (.disconnectEvt 1) 5]

theorem notifications_subscribed_orderly : sessions.Along Subscribed orderlySession :=
  notifications_subscribed orderlySession (by decide) (by decide)

/-- A client subscribes to the application service and leaves; another one
connects, and is sent data it never asked for. -/
def inheritedSubscription : List Input :=
  [.gatts (.regEvt ⟨.ok, 0x10⟩) 3, .gatts (.creatAttrTabEvt ⟨.ok, 0, [40, 41, 42, 43]⟩) 3,
    .gatts (.connectEvt ⟨0, Vector.replicate 6 1⟩) 3,
    .gatts (.writeEvt ⟨0, 1, 43, true, false, [1, 0]⟩) 3, .gatts (.disconnectEvt 0) 3,
    .gatts (.connectEvt ⟨0, Vector.replicate 6 2⟩) 3, .sendData [1, 2, 3]]

theorem inheritedSubscription_notified :
    ¬ ∀ h, sessions.Along ClientTraffic h → sessions.Along Subscribed h := by
  intro hall
  have hsent : ¬ sessions.Along Subscribed inheritedSubscription := by decide
  exact hsent (hall inheritedSubscription (by decide))

end EspressifApp.Bluetooth
