import EspressifApp.Bluetooth.Sessions

/-!
How notifications are addressed: interface, connection id and attribute handle.
The battery handler records the id of every connection it is told of. The
application handler does not, and goes on sending to connection 0.
-/

namespace EspressifApp.Bluetooth

open Reactive

/-- A notification sent while a client is connected carries the id of the latest
connection the service was told of, the interface of its latest registration,
and the value handle of its latest table. -/
def Addressed (s : Device × View) (i : Input) : Prop :=
  s.2.Connected → ∀ n ∈ notifications s.1 i,
    (s.2 n.service).connId = some n.connId ∧ (s.2 n.service).gattsIf = some n.gattsIf ∧
      (s.2 n.service).valueHandle = some n.handle

instance (s : Device × View) (i : Input) : Decidable (Addressed s i) :=
  inferInstanceAs (Decidable (_ → ∀ n ∈ notifications s.1 i, _))

/-- The application service notifies nobody while a client is connected, unless
the latest connection it was told of has id zero. -/
def AppConnIdZero (s : Device × View) : Input → Prop
  | .sendData data =>
      data ≠ [] → (s.1.part .app).mode ≠ .none → s.2.Connected → (s.2 .app).connId = some 0
  | _ => True

instance (s : Device × View) (i : Input) : Decidable (AppConnIdZero s i) := by
  unfold AppConnIdZero
  split <;> infer_instance

/-- What the profile entry and the mode of a service say about its account: the
application service has connection id 0 and the battery service that of the
latest connection, a client has connected, and a service with a mode has been
registered, given a table and told of a connection. -/
structure Addressable (idx : ServiceIdx) (s : ServicePart) (v : ServiceView) : Prop where
  app : idx = .app → s.inst.connId = 0
  batt : idx = .batt → ∀ c ∈ v.connId, s.inst.connId = c
  told : v.client ≠ none → v.connId ≠ none
  ready : s.mode ≠ .none → v.gattsIf ≠ none ∧ v.handles ≠ none ∧ v.connId ≠ none

variable {idx : ServiceIdx} {s : ServicePart} {v : ServiceView}

theorem Addressable.deliver_connect (hJ : Addressable idx s v) (p : ConnectParam) :
    Addressable idx (s.deliver idx (.connectEvt p)) (v.deliver idx (.connectEvt p)) := by
  have hready : s.mode ≠ .none → v.gattsIf ≠ none ∧ v.handles ≠ none ∧ some p.connId ≠ none :=
    fun hmode => ⟨(hJ.ready hmode).1, (hJ.ready hmode).2.1, Option.some_ne_none _⟩
  simp only [ServicePart.deliver, ServiceView.deliver]
  by_cases hidx : idx = .batt
  · subst hidx
    rw [if_pos rfl]
    refine ⟨fun h => absurd h (by decide), fun _ c hc => ?_, fun _ => Option.some_ne_none _, hready⟩
    exact Option.some.inj hc
  · rw [if_neg hidx]
    exact ⟨hJ.app, fun h => absurd h hidx, fun _ => Option.some_ne_none _, hready⟩

theorem Addressable.deliver_write (hJ : Addressable idx s v) (hT : Tracks idx s v)
    {p : WriteParam} (hhandle : p.handle ≠ 0) (hif : v.gattsIf ≠ none) (hclient : v.client ≠ none) :
    Addressable idx (s.deliver idx (.writeEvt p)) (v.deliver idx (.writeEvt p)) := by
  have hconn := hJ.told hclient
  simp only [ServicePart.deliver, ServiceView.deliver]
  by_cases hs : idx.Heeds p ∧ p.handle = s.configHandle
  · -- the handle written is a configuration handle, so there is a table
    have hhandles : v.handles ≠ none := by
      intro hnone
      have hconfig := (hT.configHandle_iff hhandle).mp hs.2
      rw [ServiceView.configHandle, hnone] at hconfig
      cases hconfig
    -- the new mode may be any; the connection is the one that writes
    rw [if_pos hs]
    split <;> exact ⟨hJ.app, hJ.batt, fun _ => hconn, fun _ => ⟨hif, hhandles, hconn⟩⟩
  · rw [if_neg hs]
    split <;> exact ⟨hJ.app, hJ.batt, fun _ => hconn, hJ.ready⟩

theorem sessions_addressable {d : Device} {v : View} {i : Input}
    (hT : ∀ idx, Tracks idx (d.part idx) (v idx))
    (hJ : ∀ idx, Addressable idx (d.part idx) (v idx)) (htraffic : ClientTraffic (d, v) i) :
    ∀ idx, Tracks idx ((sessions.next (d, v) i).1.part idx) ((sessions.next (d, v) i).2 idx) ∧
      Addressable idx ((sessions.next (d, v) i).1.part idx)
        ((sessions.next (d, v) i).2 idx) := by
  refine sessions_keep i hT hJ (fun _ _ _ _ h => ⟨h.app, h.batt, h.told, h.ready⟩)
    (fun _ _ _ _ h => ⟨h.app, h.batt, h.told, fun hmode => ?_⟩) ?_
  · exact ⟨Option.some_ne_none _, (h.ready hmode).2⟩
  intro idx event g hi hrec s hTs hmode hJs
  subst hi
  cases event with
  | connectEvt p => exact hJs.deliver_connect p
  | disconnectEvt connId => exact ⟨hJs.app, hJs.batt, fun h => absurd rfl h, hJs.ready⟩
  | writeEvt p =>
      refine hJs.deliver_write hTs htraffic.2.1 ?_ (htraffic.2.2 idx hrec)
      have hif : (v idx).gattsIf = some g := hrec.resolve_left htraffic.1
      exact fun hnone => by rw [show (v idx).gattsIf = none from hnone] at hif; cases hif
  | regEvt p =>
      simp only [ServicePart.deliver, ServiceView.deliver]
      split <;> exact ⟨hJs.app, hJs.batt, hJs.told, hJs.ready⟩
  | creatAttrTabEvt p =>
      simp only [ServicePart.deliver, ServiceView.deliver]
      split
      · refine ⟨hJs.app, hJs.batt, hJs.told, fun hm => ?_⟩
        exact ⟨(hJs.ready hm).1, Option.some_ne_none _, (hJs.ready hm).2.2⟩
      · exact hJs
  | _ => exact hJs

/-- The address a service puts on a notification, compared with its account. -/
theorem Addressable.notification {d : Device} {v : View}
    (hT : Tracks idx (d.part idx) (v idx)) (hJ : Addressable idx (d.part idx) (v idx))
    (hidx : idx ≠ .dis) (hmode : (d.part idx).mode ≠ .none) (value : List UInt8) :
    (v idx).gattsIf = some (d.notification idx value).gattsIf ∧
      (v idx).valueHandle = some (d.notification idx value).handle := by
  obtain ⟨hif, hhandles, -⟩ := hJ.ready hmode
  obtain ⟨g, hg⟩ := Option.ne_none_iff_exists'.mp hif
  refine ⟨?_, hT.valueHandle_eq hidx hhandles⟩
  rw [Device.notification, hT.gattsIf, hg, Option.getD_some, UInt8.toUInt8_toUInt16]

theorem Addressable.connId_app {d : Device} {v : View}
    (hJ : Addressable .app (d.part .app) (v .app)) (value : List UInt8) :
    (d.notification .app value).connId = 0 :=
  hJ.app rfl

theorem Addressable.connId_batt {d : Device} {v : View}
    (hJ : Addressable .batt (d.part .batt) (v .batt)) (hmode : (d.part .batt).mode ≠ .none)
    (value : List UInt8) : (v .batt).connId = some (d.notification .batt value).connId := by
  obtain ⟨c, hc⟩ := Option.ne_none_iff_exists'.mp (hJ.ready hmode).2.2
  rw [hc, Device.notification, hJ.batt rfl c hc]

/-- Notifications are addressed to the latest client exactly when the
application service, while a client is connected, notifies only with 0 as the id
of the latest connection it was told of. -/
theorem notifications_addressed_iff (h : List Input)
    (htraffic : sessions.Along ClientTraffic h) :
    sessions.Along Addressed h ↔ sessions.Along AppConnIdZero h := by
  refine Machine.along_iff_of_invariant (I := fun s => ∀ idx,
    Tracks idx (s.1.part idx) (s.2 idx) ∧ Addressable idx (s.1.part idx) (s.2 idx))
    ?_ ?_ ?_ htraffic
  · refine fun idx => ⟨tracks_boot idx, fun h => ?_, fun _ => nofun, fun h => absurd rfl h,
      fun hmode => ?_⟩
    · subst h; rfl
    · exact absurd (by cases idx <;> rfl) hmode
  · rintro ⟨d, v⟩ i hI htr -
    exact sessions_addressable (fun idx => (hI idx).1) (fun idx => (hI idx).2) htr
  · rintro ⟨d, v⟩ i hI -
    constructor
    · intro haddr
      cases i with
      | sendData data =>
          intro hdata hmode hconnected
          have hn : d.notification .app data ∈ notifications d (.sendData data) := by
            rw [notifications_sendData, if_pos ⟨hdata, hmode⟩]
            exact List.mem_singleton_self _
          have hsent := (haddr hconnected _ hn).1
          rwa [(hI .app).2.connId_app data] at hsent
      | _ => trivial
    · intro hzero hconnected n hn
      obtain ⟨hidx, hmode, hn'⟩ := eq_of_mem_notifications hn
      -- the application sends with id 0, the battery with the id it was told
      have hconn : (v n.service).connId = some n.connId := by
        cases i with
        | sendData data =>
            rw [notifications_sendData] at hn
            split at hn
            · rename_i hsend
              rw [List.mem_singleton.mp hn, (hI .app).2.connId_app data]
              exact hzero hsend.1 hsend.2 hconnected
            · cases hn
        | setBatteryLevel percentage =>
            rw [notifications_setBatteryLevel] at hn
            split at hn
            · rename_i hsend
              rw [List.mem_singleton.mp hn]
              exact (hI .batt).2.connId_batt hsend.2 [percentage]
            · cases hn
        | gatts event g => rw [notifications_gatts] at hn; cases hn
        | gap event => rw [notifications_gap] at hn; cases hn
      have haddr := (hI n.service).2.notification (hI n.service).1 hidx hmode n.value
      rw [← hn'] at haddr
      exact ⟨hconn, haddr⟩

/-- A client with connection id 0 subscribes to both services, is notified by
both, and leaves. The next one is given connection id 1; the battery service is
told of it first, and data is sent before and after the application service is
told. -/
def secondConnection : List Input :=
  [.gatts (.regEvt ⟨.ok, 0x10⟩) 3, .gatts (.regEvt ⟨.ok, 0x12⟩) 5,
    .gatts (.creatAttrTabEvt ⟨.ok, 0, [40, 41, 42, 43]⟩) 3,
    .gatts (.creatAttrTabEvt ⟨.ok, 2, [60, 61, 62, 63]⟩) 5,
    .gatts (.connectEvt ⟨0, Vector.replicate 6 0⟩) 3,
    .gatts (.connectEvt ⟨0, Vector.replicate 6 0⟩) 5,
    .gatts (.writeEvt ⟨0, 1, 43, true, false, [1, 0]⟩) 3,
    .gatts (.writeEvt ⟨0, 2, 63, true, false, [1, 0]⟩) 5, .setBatteryLevel 80,
    .sendData [1, 2, 3], .gatts (.disconnectEvt 0) 3, .gatts (.disconnectEvt 0) 5,
    .gatts (.connectEvt ⟨1, Vector.replicate 6 1⟩) 5, .sendData [4],
    .gatts (.connectEvt ⟨1, Vector.replicate 6 1⟩) 3, .setBatteryLevel 79, .sendData [5, 6]]

theorem notifications_addressed_iff_secondConnection :
    sessions.Along Addressed secondConnection ↔ sessions.Along AppConnIdZero secondConnection :=
  notifications_addressed_iff secondConnection (by decide)

theorem secondConnection_misaddressed :
    ¬ ∀ h, sessions.Along ClientTraffic h → sessions.Along Addressed h := by
  intro hall
  have hsent : ¬ sessions.Along Addressed secondConnection := by decide
  exact hsent (hall secondConnection (by decide))

end EspressifApp.Bluetooth
