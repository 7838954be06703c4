import EspressifApp.Bluetooth.Calls

/-!
Advertising. `prepare_advertising` asks for two payloads and raises a flag for
each in `adv_config_done`; `gap_event_handler` lowers them in
`adv_config_complete`, a variable nobody raises. So the handler finds its
condition met at every completion event, and starts advertising at each.

Two monitors measure what that does. `gate` counts the rounds of
configuration, which payloads of which round have been reported, and the starts
of the latest round. `air` keeps the state of the radio: whether it advertises,
and how many clients are connected.
-/

namespace EspressifApp.Bluetooth

open Reactive

def Emission.startsAdvertising (e : Emission) : Bool :=
  match e.call with
  | .gapStartAdvertising _ => true
  | _ => false

/-! ### The flag -/

theorem gattsCb_advConfigComplete (idx : ServiceIdx) (event : GattsEvent) (gattsIf : GattIf)
    (d : Device) : (gattsCb idx event gattsIf d).1.advConfigComplete = d.advConfigComplete := by
  cases idx <;> cases event <;>
    simp only [gattsCb, appSvcProfileEventHandler, disProfileEventHandler,
      battProfileEventHandler, prepareAdvertising, Device.setProfile]
  case app.writeEvt p | batt.writeEvt p => split_ifs <;> rfl
  case app.creatAttrTabEvt p => cases acceptAttrTab appIdxNb p <;> rfl
  case dis.creatAttrTabEvt p => cases acceptAttrTab disIdxNb p <;> rfl
  case batt.creatAttrTabEvt p => cases acceptAttrTab battIdxNb p <;> rfl

theorem dispatch_advConfigComplete (event : GattsEvent) (gattsIf : GattIf) :
    ∀ (idxs : List ServiceIdx) (d : Device),
      (dispatch event gattsIf idxs d).1.advConfigComplete = d.advConfigComplete
  | [], _ => rfl
  | idx :: rest, d => by
      rw [dispatch]
      split_ifs
      · exact (dispatch_advConfigComplete event gattsIf rest _).trans
          (gattsCb_advConfigComplete idx event gattsIf d)
      · exact dispatch_advConfigComplete event gattsIf rest d

theorem registerOnEvent_advConfigComplete (event : GattsEvent) (gattsIf : GattIf) (d : Device) :
    (registerOnEvent event gattsIf d).advConfigComplete = d.advConfigComplete := by
  cases event with
  | regEvt p =>
      simp only [registerOnEvent, registerGattsIntf]
      split_ifs
      · cases serviceOfAppId p.appId <;> rfl
      · rfl
  | _ => rfl

/-- Nothing raises `adv_config_complete`. -/
theorem ble_next_advConfigComplete {d : Device} (i : Input) (h : d.advConfigComplete = false) :
    (ble.next d i).advConfigComplete = false := by
  cases i with
  | gatts event gattsIf =>
      exact (dispatch_advConfigComplete event gattsIf serviceIdxs _).trans
        ((registerOnEvent_advConfigComplete event gattsIf d).trans h)
  | gap event =>
      show (gapEventHandler event d).1.advConfigComplete = false
      cases event <;> simp [gapEventHandler, clearFlag, h]
  | sendData data => exact h
  | setBatteryLevel percentage =>
      show (battSetBatteryLevel percentage d).1.advConfigComplete = false
      unfold battSetBatteryLevel
      split_ifs <;> exact h

/-- Every completion event starts advertising. -/
theorem out_complete {d : Device} (h : d.advConfigComplete = false) (payload : Payload) :
    ble.out d (.gap payload.complete) =
      [⟨.gapEventHandler, .gapStartAdvertising advParams⟩] := by
  cases payload <;> simp [ble, Payload.complete, gapEventHandler, clearFlag, h]

theorem input_of_startsAdvertising {d : Device} {i : Input} {e : Emission}
    (he : e ∈ ble.out d i) (hstart : e.startsAdvertising = true) :
    (∃ connId gattsIf, i = .gatts (.disconnectEvt connId) gattsIf ∧
      e.origin = .profile .app ∧ d.Routes gattsIf .app) ∨
    ∃ payload : Payload, i = .gap payload.complete := by
  cases makes_of_mem_out he with
  | profile hroute h =>
      cases h with
      | advertise connId happ =>
          subst happ
          exact .inl ⟨connId, _, rfl, rfl, hroute⟩
      | _ => cases hstart
  | advertise payload => exact .inr ⟨payload, rfl⟩
  | _ => cases hstart

/-! ### One start for each round -/

/-- An input, a completion event with the round whose request it answers. -/
inductive RoundInput
  | completed (payload : Payload) (round : ℕ)
  | other (i : Input)
  deriving DecidableEq, Repr

def RoundInput.input : RoundInput → Input
  | .completed payload _ => .gap payload.complete
  | .other i => i

/-- The rounds of configuration so far, the completions that have arrived, and
the starts of advertising by `gap_event_handler` since the latest round
began. -/
structure Gate where
  round : ℕ
  arrived : List (Payload × ℕ)
  starts : ℕ

def Gate.boot : Gate := { round := 0, arrived := [], starts := 0 }

def rounds (d : Device) (i : Input) : ℕ :=
  (ble.out d i).count ⟨.profile .app, .gapConfigAdvData advData⟩

/-- The starts of advertising by `gap_event_handler` in a step. -/
def gapStarts (d : Device) (i : Input) : ℕ :=
  (ble.out d i).countP fun e => e.origin == .gapEventHandler && e.startsAdvertising

def Gate.watch (g : Gate) (d : Device) (k : RoundInput) : Gate where
  round := g.round + rounds d k.input
  arrived :=
    match k with
    | .completed payload round => (payload, round) :: g.arrived
    | .other _ => g.arrived
  starts := (if rounds d k.input = 0 then g.starts else 0) + gapStarts d k.input

def Gate.Complete (g : Gate) : Prop :=
  (Payload.advData, g.round) ∈ g.arrived ∧ (Payload.scanRspData, g.round) ∈ g.arrived

instance (g : Gate) : Decidable g.Complete := inferInstanceAs (Decidable (_ ∧ _))

/-- The firmware, with the account of the rounds beside it. -/
def gate : Machine (Device × Gate) RoundInput Emission :=
  (ble.via fun k => some k.input).monitor Gate.boot Gate.watch

theorem gate_after (h : List RoundInput) :
    (gate.after h).1 = ble.after (h.map RoundInput.input) := by
  rw [gate, Machine.monitor_after_fst, Machine.via_after, List.filterMap_eq_map']

/-- A completion event answers a request that was made, once. -/
def CompletedOnce (s : Device × Gate) : RoundInput → Prop
  | .completed payload round =>
      1 ≤ round ∧ round ≤ s.2.round ∧ (payload, round) ∉ s.2.arrived
  | .other i => ∀ payload : Payload, i ≠ .gap payload.complete

instance (s : Device × Gate) (k : RoundInput) : Decidable (CompletedOnce s k) := by
  unfold CompletedOnce
  split <;> infer_instance

/-- Advertising starts only when both payloads of the latest round have been
reported, and then once. -/
structure StartedOnce (s : Device × Gate) (k : RoundInput) : Prop where
  only : gapStarts s.1 k.input ≠ 0 → (gate.next s k).2.Complete
  once : (gate.next s k).2.starts = if (gate.next s k).2.Complete then 1 else 0

def NotCompleted (_ : Device × Gate) : RoundInput → Prop
  | .completed _ _ => False
  | .other _ => True

theorem gapStarts_complete {d : Device} (h : d.advConfigComplete = false) (payload : Payload) :
    gapStarts d (.gap payload.complete) = 1 := by
  rw [gapStarts, out_complete h]
  rfl

theorem gapStarts_eq_zero (d : Device) {i : Input}
    (hi : ∀ payload : Payload, i ≠ .gap payload.complete) : gapStarts d i = 0 := by
  rw [gapStarts, List.countP_eq_zero]
  intro e he hstart
  simp only [Bool.and_eq_true, beq_iff_eq] at hstart
  rcases input_of_startsAdvertising he hstart.2 with ⟨_, _, _, horigin, _⟩ | ⟨payload, heq⟩
  · rw [horigin] at hstart
    cases hstart.1
  · exact hi payload heq

/-- No completion has arrived, and no start has been made. -/
structure Gate.Closed (s : Device × Gate) : Prop where
  flag : s.1.advConfigComplete = false
  arrived : s.2.arrived = []
  starts : s.2.starts = 0

theorem Gate.Closed.next_other {s : Device × Gate} {i : Input} (hI : Gate.Closed s)
    (hi : ∀ payload : Payload, i ≠ .gap payload.complete) :
    Gate.Closed (gate.next s (.other i)) := by
  obtain ⟨hflag, harrived, hstarts⟩ := hI
  refine ⟨ble_next_advConfigComplete i hflag, harrived, ?_⟩
  show (if rounds s.1 i = 0 then s.2.starts else 0) + gapStarts s.1 i = 0
  rw [gapStarts_eq_zero s.1 hi, hstarts, ite_self]

theorem Gate.Closed.not_complete {s : Device × Gate} (hI : Gate.Closed s) : ¬ s.2.Complete := by
  rintro ⟨hadv, -⟩
  rw [hI.arrived] at hadv
  cases hadv

/-- Advertising is started as it should be exactly as long as no completion
event arrives: the first one that does already starts it. -/
theorem advertising_started_once_iff (h : List RoundInput) (hok : gate.Along CompletedOnce h) :
    gate.Along StartedOnce h ↔ gate.Along NotCompleted h := by
  refine Machine.along_iff_of_invariant (I := Gate.Closed) ⟨rfl, rfl, rfl⟩ ?_ ?_ hok
  · intro s k hI hk hnot
    cases k with
    | completed payload round => exact hnot.elim
    | other i => exact hI.next_other hk
  · intro s k hI hk
    cases k with
    | completed payload round =>
        refine iff_of_false (fun hP => ?_) id
        have hone : gapStarts s.1 (RoundInput.completed payload round).input = 1 :=
          gapStarts_complete hI.flag payload
        obtain ⟨hadv, hscan⟩ := hP.only (by rw [hone]; decide)
        -- one completion cannot be that of both payloads
        change _ ∈ (payload, round) :: s.2.arrived at hadv hscan
        rw [hI.arrived, List.mem_singleton] at hadv hscan
        have hpayload := congrArg Prod.fst (hadv.trans hscan.symm)
        cases hpayload
    | other i =>
        have hnext := hI.next_other hk
        refine iff_of_true ⟨fun hstart => ?_, ?_⟩ trivial
        · exact absurd (gapStarts_eq_zero s.1 hk) hstart
        · rw [hnext.starts, if_neg hnext.not_complete]

/-- The application service is registered, and its payloads are reported one
after the other. -/
def roundCompleted : List RoundInput :=
  [.other (.gatts (.regEvt ⟨.ok, 0x10⟩) 3), .completed .advData 1, .completed .scanRspData 1]

theorem advertising_started_once_iff_roundCompleted :
    gate.Along StartedOnce roundCompleted ↔ gate.Along NotCompleted roundCompleted :=
  advertising_started_once_iff roundCompleted (by decide)

theorem roundCompleted_started_twice :
    ¬ ∀ h, gate.Along CompletedOnce h → gate.Along StartedOnce h := by
  intro hall
  have honce := (hall roundCompleted (by decide)).2.1.once
  exact absurd honce (by decide)

/-! ### One client at a time -/

/-- The state of the radio: the payload requests not yet reported, whether the
device advertises, and the clients connected, as the application service is
told of them. -/
structure Air where
  requested : Payload → ℕ
  active : Bool
  clients : ℕ

def Air.boot : Air := { requested := fun _ => 0, active := false, clients := 0 }

/-- A connection ends advertising. -/
def Air.receive (a : Air) (d : Device) : Input → Air
  | .gatts event gattsIf =>
      match event with
      | .connectEvt _ =>
          if d.Routes gattsIf .app then { a with active := false, clients := a.clients + 1 } else a
      | .disconnectEvt _ =>
          if d.Routes gattsIf .app then { a with clients := a.clients - 1 } else a
      | _ => a
  | .gap .advDataSetCompleteEvt =>
      { a with requested := Function.update a.requested .advData (a.requested .advData - 1) }
  | .gap .scanRspDataSetCompleteEvt =>
      { a with
        requested := Function.update a.requested .scanRspData (a.requested .scanRspData - 1) }
  | _ => a

def StackCall.payload : StackCall → Option Payload
  | .gapConfigAdvData data => some (if data.setScanRsp then .scanRspData else .advData)
  | _ => none

/-- A start makes the device advertise, and a request waits to be reported. -/
def Air.call (a : Air) (e : Emission) : Air where
  requested payload := a.requested payload + if e.call.payload = some payload then 1 else 0
  active := a.active || e.startsAdvertising
  clients := a.clients

def Air.watch (a : Air) (d : Device) (i : Input) : Air :=
  (ble.out d i).foldl Air.call (a.receive d i)

/-- The firmware, with the radio beside it. -/
def air : Machine (Device × Air) Input Emission := ble.monitor Air.boot Air.watch

theorem air_after (h : List Input) : (air.after h).1 = ble.after h :=
  ble.monitor_after_fst Air.boot Air.watch h

/-- A connection is made only while the device advertises, a client leaves only
when there is one, and a completion event follows its request. -/
def AirTraffic (s : Device × Air) : Input → Prop
  | .gatts event gattsIf =>
      match event with
      | .connectEvt _ => s.1.Routes gattsIf .app → s.2.active = true
      | .disconnectEvt _ => s.1.Routes gattsIf .app → 0 < s.2.clients
      | _ => True
  | .gap .advDataSetCompleteEvt => 0 < s.2.requested .advData
  | .gap .scanRspDataSetCompleteEvt => 0 < s.2.requested .scanRspData
  | _ => True

instance (s : Device × Air) (i : Input) : Decidable (AirTraffic s i) := by
  unfold AirTraffic
  split
  · split <;> infer_instance
  all_goals infer_instance

/-- Advertising is started only while no client is connected, and there is one
client at most. -/
structure OneClient (s : Device × Air) (i : Input) : Prop where
  alone : ∀ e ∈ ble.out s.1 i, e.startsAdvertising = true → (s.2.receive s.1 i).clients = 0
  single : (air.next s i).2.clients ≤ 1

/-- A completion event arrives only while no client is connected. -/
def CompletedAlone (s : Device × Air) : Input → Prop
  | .gap .advDataSetCompleteEvt => s.2.clients = 0
  | .gap .scanRspDataSetCompleteEvt => s.2.clients = 0
  | _ => True

instance (s : Device × Air) (i : Input) : Decidable (CompletedAlone s i) := by
  unfold CompletedAlone
  split <;> infer_instance

/-- A client is connected only when the device does not advertise. -/
structure Air.Sound (s : Device × Air) : Prop where
  flag : s.1.advConfigComplete = false
  single : s.2.clients = 0 ∨ s.2.clients = 1 ∧ s.2.active = false

theorem foldl_call_clients (es : List Emission) (a : Air) :
    (es.foldl Air.call a).clients = a.clients := by
  induction es generalizing a with
  | nil => rfl
  | cons e es ih => exact ih _

theorem foldl_call_active (es : List Emission) (a : Air)
    (hes : ∀ e ∈ es, e.startsAdvertising = false) :
    (es.foldl Air.call a).active = a.active := by
  induction es generalizing a with
  | nil => rfl
  | cons e es ih =>
      rw [List.foldl_cons, ih _ fun e he => hes e (List.mem_cons_of_mem _ he)]
      simp [Air.call, hes e List.mem_cons_self]

theorem air_next_clients (s : Device × Air) (i : Input) :
    (air.next s i).2.clients = (s.2.receive s.1 i).clients :=
  foldl_call_clients _ _

/-- At a step that meets the condition, advertising is started only with no
client connected. -/
theorem receive_clients_of_start {s : Device × Air} {i : Input} (hI : Air.Sound s)
    (hcond : CompletedAlone s i) {e : Emission} (he : e ∈ ble.out s.1 i)
    (hstart : e.startsAdvertising = true) : (s.2.receive s.1 i).clients = 0 := by
  rcases input_of_startsAdvertising he hstart with ⟨connId, g, rfl, -, hroute⟩ | ⟨payload, rfl⟩
  · -- the client that leaves was the only one
    rw [Air.receive, if_pos hroute]
    rcases hI.single with hzero | ⟨hone, -⟩
    · simp [hzero]
    · simp [hone]
  · cases payload <;> exact hcond

theorem Air.Sound.receive {s : Device × Air} {i : Input} (hI : Air.Sound s)
    (hok : AirTraffic s i) : (s.2.receive s.1 i).clients = 0 ∨
      (s.2.receive s.1 i).clients = 1 ∧ (s.2.receive s.1 i).active = false := by
  obtain ⟨-, hsingle⟩ := hI
  unfold Air.receive
  split
  · split
    · -- a connection: the device advertised, so there was no client
      split_ifs with hroute
      · rcases hsingle with hzero | ⟨-, hidle⟩
        · exact .inr ⟨by simp [hzero], rfl⟩
        · rw [hok hroute] at hidle
          cases hidle
      · exact hsingle
    · split_ifs
      · rcases hsingle with hzero | ⟨hone, -⟩
        · exact .inl (by simp [hzero])
        · exact .inl (by simp [hone])
      · exact hsingle
    · exact hsingle
  all_goals exact hsingle

theorem Air.Sound.next {s : Device × Air} {i : Input} (hI : Air.Sound s) (hok : AirTraffic s i)
    (hcond : CompletedAlone s i) : Air.Sound (air.next s i) := by
  refine ⟨ble_next_advConfigComplete i hI.flag, ?_⟩
  rw [air_next_clients]
  by_cases hstart : ∃ e ∈ ble.out s.1 i, e.startsAdvertising = true
  · obtain ⟨e, he, hstart⟩ := hstart
    exact .inl (receive_clients_of_start hI hcond he hstart)
  · rcases hI.receive hok with hzero | ⟨hone, hidle⟩
    · exact .inl hzero
    · refine .inr ⟨hone, (foldl_call_active _ _ fun e he => ?_).trans hidle⟩
      exact Bool.eq_false_iff.mpr fun h => hstart ⟨e, he, h⟩

/-- The device does not advertise while a client is connected, and serves one
client at most, exactly when completion events arrive only while no client is
connected. -/
theorem one_client_iff (h : List Input) (hok : air.Along AirTraffic h) :
    air.Along OneClient h ↔ air.Along CompletedAlone h := by
  refine Machine.along_iff_of_invariant (I := Air.Sound) ⟨rfl, .inl rfl⟩
    (fun s i hI hk hcond => hI.next hk hcond) (fun s i hI hk => ⟨fun hP => ?_, fun hcond => ?_⟩) hok
  · -- a completion event starts advertising whoever is connected
    have hcomplete : ∀ payload : Payload, i = .gap payload.complete →
        (s.2.receive s.1 i).clients = 0 := by
      rintro payload rfl
      refine hP.alone ⟨.gapEventHandler, .gapStartAdvertising advParams⟩ ?_ rfl
      rw [out_complete hI.flag]
      exact List.mem_singleton_self _
    unfold CompletedAlone
    split
    · exact hcomplete .advData rfl
    · exact hcomplete .scanRspData rfl
    · trivial
  · refine ⟨fun e he hstart => receive_clients_of_start hI hcond he hstart, ?_⟩
    rcases (hI.next hk hcond).single with hzero | ⟨hone, -⟩ <;> omega

/-- Both payloads are reported before a client connects; it leaves, and another
one connects. -/
def twoSessions : List Input :=
  [.gatts (.regEvt ⟨.ok, 0x10⟩) 3, .gap .advDataSetCompleteEvt, .gap .scanRspDataSetCompleteEvt,
    .gatts (.connectEvt ⟨0, Vector.replicate 6 1⟩) 3, .gatts (.disconnectEvt 0) 3,
    .gatts (.connectEvt ⟨0, Vector.replicate 6 2⟩) 3]

theorem one_client_iff_twoSessions :
    air.Along OneClient twoSessions ↔ air.Along CompletedAlone twoSessions :=
  one_client_iff twoSessions (by decide)

/-- A client connects between the two completion events: the second one starts
advertising again, and a second client connects. -/
def earlyConnection : List Input :=
  [.gatts (.regEvt ⟨.ok, 0x10⟩) 3, .gap .advDataSetCompleteEvt,
    .gatts (.connectEvt ⟨0, Vector.replicate 6 1⟩) 3, .gap .scanRspDataSetCompleteEvt,
    .gatts (.connectEvt ⟨1, Vector.replicate 6 2⟩) 3]

theorem earlyConnection_two_clients :
    ¬ ∀ h, air.Along AirTraffic h → air.Along OneClient h := by
  intro hall
  have hsingle := (hall earlyConnection (by decide)).2.2.2.2.1.single
  exact absurd hsingle (by decide)

end EspressifApp.Bluetooth
