import EspressifApp.Bluetooth.Calls

/-!
Client sessions.

Whom a service may notify, and under which address, is settled by the events
that reached it: its latest registration, its latest accepted table, the
connection it was told of and the client-configuration writes of that client.
`ServiceView` is this account, kept from the events alone; it is what the
variables of the service are meant to record. The machine `sessions` is the
firmware with the three views beside it.

The stack brings the traffic of a client to a registered interface, reports a
connection before anything else the client does, and has one client at a time
(`ClientTraffic`). The interface and the handles a service has stored then
follow the account (`Tracks`), and what else relates a service to its account is
kept by the same rule (`sessions_keep`). Whether the notifications sent agree
with the account is settled in the modules on subscriptions and on addressing.
-/

namespace EspressifApp.Bluetooth

open Reactive

/-! ### What the events say -/

/-- The client a service was told of: the id of its connection and the mode it
asked for last. -/
structure Client where
  connId : UInt16
  mode : NotificationType
  deriving DecidableEq, Repr

/-- What the events delivered to a service say: the interface of its latest
successful registration, the handles of its latest accepted table, the id of the
latest connection it was told of, which outlives the connection, and the client
connected. -/
structure ServiceView where
  gattsIf : Option GattIf
  handles : Option (List UInt16)
  connId : Option UInt16
  client : Option Client
  deriving DecidableEq, Repr

abbrev View := ServiceIdx → ServiceView

def View.boot : View :=
  fun _ => { gattsIf := none, handles := none, connId := none, client := none }

/-- Some service has been told of a client that is connected. -/
def View.Connected (v : View) : Prop := ∃ idx, (v idx).client ≠ none

instance (v : View) : Decidable v.Connected :=
  inferInstanceAs (Decidable (∃ idx, (v idx).client ≠ none))

def ServiceView.valueHandle (v : ServiceView) : Option UInt16 := v.handles.bind (·[2]?)

def ServiceView.configHandle (v : ServiceView) : Option UInt16 := v.handles.bind (·[3]?)

/-- An event reaches a service through its interface, or through none in
particular. -/
def ServiceView.Receives (v : ServiceView) (gattsIf : GattIf) : Prop :=
  gattsIf = espGattIfNone ∨ v.gattsIf = some gattsIf

instance (v : ServiceView) (gattsIf : GattIf) : Decidable (v.Receives gattsIf) :=
  inferInstanceAs (Decidable (_ ∨ _))

def ServiceView.register (idx : ServiceIdx) (v : ServiceView) (event : GattsEvent)
    (gattsIf : GattIf) : ServiceView :=
  if event.registration = some idx.appId then { v with gattsIf := some gattsIf } else v

/-- A connection starts a session without a subscription; a write of the
client to the configuration handle subscribes it, unless it is only being
prepared. -/
def ServiceView.deliver (idx : ServiceIdx) (v : ServiceView) : GattsEvent → ServiceView
  | .connectEvt p =>
      { v with
        connId := some p.connId
        client := some { connId := p.connId, mode := .none } }
  | .disconnectEvt _ => { v with client := none }
  | .writeEvt p =>
      if p.isPrep = false ∧ v.configHandle = some p.handle then
        { v with
          client := v.client.map fun c => { c with mode := (clientConfig p.value).getD c.mode } }
      else v
  | .creatAttrTabEvt p => if idx.Accepts p then { v with handles := some p.handles } else v
  | _ => v

def View.watch (v : View) (_ : Device) : Input → View
  | .gatts event gattsIf => fun idx =>
      let r := (v idx).register idx event gattsIf
      if r.Receives gattsIf then r.deliver idx event else r
  | _ => v

/-- The firmware, with the account of the events beside it. -/
def sessions : Machine (Device × View) Input Emission := ble.monitor View.boot View.watch

theorem sessions_after (h : List Input) : (sessions.after h).1 = ble.after h :=
  ble.monitor_after_fst View.boot View.watch h

/-- What the stack does with the traffic of a client: it belongs to a
registered interface, a service is told of one client at a time, before that
client writes and until it leaves, and attribute handle 0 is never written. -/
def ClientTraffic (s : Device × View) : Input → Prop
  | .gatts (.connectEvt _) gattsIf =>
      gattsIf ≠ espGattIfNone ∧ ∀ idx, (s.2 idx).Receives gattsIf → (s.2 idx).client = none
  | .gatts (.disconnectEvt _) gattsIf =>
      gattsIf ≠ espGattIfNone ∧ ∀ idx, (s.2 idx).Receives gattsIf → (s.2 idx).client ≠ none
  | .gatts (.writeEvt p) gattsIf =>
      gattsIf ≠ espGattIfNone ∧ p.handle ≠ 0 ∧
        ∀ idx, (s.2 idx).Receives gattsIf → (s.2 idx).client ≠ none
  | _ => True

instance (s : Device × View) (i : Input) : Decidable (ClientTraffic s i) := by
  unfold ClientTraffic
  split <;> infer_instance

/-! ### The variables follow the account -/

/-- The interface and the handles a service has stored are those of the
account. -/
structure Tracks (idx : ServiceIdx) (s : ServicePart) (v : ServiceView) : Prop where
  gattsIf : s.inst.gattsIf = (v.gattsIf.getD espGattIfNone).toUInt16
  handles : s.handles = v.handles.getD (List.replicate idx.idxNb 0)
  length : ∀ handles, v.handles = some handles → handles.length = idx.idxNb

variable {idx : ServiceIdx} {s : ServicePart} {v : ServiceView} {gattsIf : GattIf}

theorem Tracks.routes_iff (h : Tracks idx s v) :
    (gattsIf = espGattIfNone ∨ gattsIf.toUInt16 = s.inst.gattsIf) ↔ v.Receives gattsIf := by
  rw [h.gattsIf, ServiceView.Receives]
  exact or_congr_right' fun hne => toUInt16_eq_getD_iff hne v.gattsIf

theorem Tracks.configHandle_iff (h : Tracks idx s v) {handle : UInt16} (hne : handle ≠ 0) :
    handle = s.configHandle ↔ v.configHandle = some handle := by
  rw [ServicePart.configHandle, ServiceView.configHandle, h.handles,
    List.getD_eq_getElem?_getD]
  cases v.handles with
  | none =>
      have hzero : (List.replicate idx.idxNb (0 : UInt16))[3]?.getD 0 = 0 := by
        rw [List.getElem?_replicate]; split <;> rfl
      simpa [hzero] using hne
  | some handles =>
      simp only [Option.getD_some, Option.bind_some]
      cases handles[3]? with
      | none => simpa using hne
      | some a => simp [eq_comm]

theorem Tracks.valueHandle_eq (h : Tracks idx s v) (hidx : idx ≠ .dis)
    (hhandles : v.handles ≠ none) : v.valueHandle = some s.valueHandle := by
  obtain ⟨handles, hsome⟩ := Option.ne_none_iff_exists'.mp hhandles
  have hlen : handles.length = 4 := by
    rw [h.length handles hsome]
    cases idx <;> first | rfl | exact absurd rfl hidx
  rw [ServiceView.valueHandle, ServicePart.valueHandle, h.handles, hsome, Option.getD_some,
    Option.bind_some, List.getD_eq_getElem?_getD, List.getElem?_eq_getElem (by omega),
    Option.getD_some]

theorem Tracks.register (h : Tracks idx s v) :
    Tracks idx (s.register idx gattsIf) { v with gattsIf := some gattsIf } :=
  ⟨rfl, h.handles, h.length⟩

theorem Tracks.deliver (h : Tracks idx s v) (event : GattsEvent) :
    Tracks idx (s.deliver idx event) (v.deliver idx event) := by
  obtain ⟨hif, hhandles, hlen⟩ := h
  cases event with
  | creatAttrTabEvt p =>
      simp only [ServicePart.deliver, ServiceView.deliver]
      by_cases hp : idx.Accepts p
      · rw [if_pos hp, if_pos hp]
        exact ⟨hif, rfl, fun handles hh => by cases hh; exact hp.2⟩
      · rw [if_neg hp, if_neg hp]
        exact ⟨hif, hhandles, hlen⟩
  | regEvt p | connectEvt p =>
      simp only [ServicePart.deliver, ServiceView.deliver]
      split <;> exact ⟨hif, hhandles, hlen⟩
  | writeEvt p =>
      simp only [ServicePart.deliver, ServiceView.deliver]
      split <;> split <;> exact ⟨hif, hhandles, hlen⟩
  | _ => exact ⟨hif, hhandles, hlen⟩

/-- The rule for an invariant `J` of a service and its account: it has to
survive a registration, the delivery of an event, and a new battery level. -/
theorem sessions_keep {J : ServiceIdx → ServicePart → ServiceView → Prop} {d : Device}
    {v : View} (i : Input)
    (hT : ∀ idx, Tracks idx (d.part idx) (v idx)) (hJ : ∀ idx, J idx (d.part idx) (v idx))
    (hlevel : ∀ idx s v level, J idx s v → J idx { s with level := level } v)
    (hregister : ∀ idx s v g, J idx s v → J idx (s.register idx g) { v with gattsIf := some g })
    (hdeliver : ∀ idx event g, i = .gatts event g → ((v idx).register idx event g).Receives g →
      ∀ s, Tracks idx s ((v idx).register idx event g) →
        s.mode = (d.part idx).mode → J idx s ((v idx).register idx event g) →
        J idx (s.deliver idx event) (((v idx).register idx event g).deliver idx event)) :
    ∀ idx, Tracks idx ((sessions.next (d, v) i).1.part idx) ((sessions.next (d, v) i).2 idx) ∧
      J idx ((sessions.next (d, v) i).1.part idx) ((sessions.next (d, v) i).2 idx) := by
  intro idx
  cases i with
  | gatts event g =>
      have hreg : Tracks idx ((registerOnEvent event g d).part idx)
            ((v idx).register idx event g) ∧
          ((registerOnEvent event g d).part idx).mode = (d.part idx).mode ∧
          J idx ((registerOnEvent event g d).part idx) ((v idx).register idx event g) := by
        rw [registerOnEvent_part, ServiceView.register]
        split_ifs
        · exact ⟨(hT idx).register, rfl, hregister _ _ _ _ (hJ idx)⟩
        · exact ⟨hT idx, rfl, hJ idx⟩
      obtain ⟨hT', hmode, hJ'⟩ := hreg
      show Tracks idx ((gattsEventHandler event g d).1.part idx)
          (if ((v idx).register idx event g).Receives g then _ else _) ∧
        J idx ((gattsEventHandler event g d).1.part idx)
          (if ((v idx).register idx event g).Receives g then _ else _)
      rw [gattsEventHandler_part]
      -- the loop routes by the entry, the account by its interface, and they agree
      by_cases hrec : ((v idx).register idx event g).Receives g
      · rw [if_pos hrec, if_pos (routes_iff_part.mpr (hT'.routes_iff.mpr hrec))]
        exact ⟨hT'.deliver event, hdeliver idx event g rfl hrec _ hT' hmode hJ'⟩
      · rw [if_neg hrec, if_neg (fun h => hrec (hT'.routes_iff.mp (routes_iff_part.mp h)))]
        exact ⟨hT', hJ'⟩
  | gap event =>
      show Tracks idx ((gapEventHandler event d).1.part idx) (v idx) ∧
        J idx ((gapEventHandler event d).1.part idx) (v idx)
      rw [gapEventHandler_part]
      exact ⟨hT idx, hJ idx⟩
  | sendData data => exact ⟨hT idx, hJ idx⟩
  | setBatteryLevel percentage =>
      show Tracks idx ((battSetBatteryLevel percentage d).1.part idx) (v idx) ∧
        J idx ((battSetBatteryLevel percentage d).1.part idx) (v idx)
      rw [battSetBatteryLevel_part]
      split_ifs
      · exact ⟨⟨(hT idx).gattsIf, (hT idx).handles, (hT idx).length⟩, hlevel _ _ _ _ (hJ idx)⟩
      · exact ⟨hT idx, hJ idx⟩

theorem tracks_boot (idx : ServiceIdx) : Tracks idx (Device.boot.part idx) (View.boot idx) := by
  refine ⟨by cases idx <;> rfl, ?_, fun handles h => by cases h⟩
  cases idx <;> simp [Device.boot, Device.part, View.boot, ServiceIdx.idxNb]

/-! ### Notifications -/

/-- An `esp_ble_gatts_send_indicate` call, with the service that made it. -/
structure Notification where
  service : ServiceIdx
  gattsIf : GattIf
  connId : UInt16
  handle : UInt16
  value : List UInt8
  needConfirm : Bool
  deriving DecidableEq, Repr

/-- The call as a notification of the service whose function made it. -/
def Emission.notification (e : Emission) : Option Notification :=
  match e.origin, e.call with
  | .appSvcSendData, .gattsSendIndicate g c h _ value confirm =>
      some ⟨.app, g, c, h, value, confirm⟩
  | .battSetBatteryLevel, .gattsSendIndicate g c h _ value confirm =>
      some ⟨.batt, g, c, h, value, confirm⟩
  | .profile idx, .gattsSendIndicate g c h _ value confirm => some ⟨idx, g, c, h, value, confirm⟩
  | _, _ => none

def notifications (d : Device) (i : Input) : List Notification :=
  (ble.out d i).filterMap Emission.notification

def Device.notification (d : Device) (idx : ServiceIdx) (value : List UInt8) : Notification where
  service := idx
  gattsIf := (d.part idx).inst.gattsIf.toUInt8
  connId := (d.part idx).inst.connId
  handle := (d.part idx).valueHandle
  value := value
  needConfirm := (d.part idx).mode == .indicate

theorem notifications_sendData (d : Device) (data : List UInt8) :
    notifications d (.sendData data) =
      if data ≠ [] ∧ (d.part .app).mode ≠ .none then [d.notification .app data] else [] := by
  simp only [notifications, ble, appSvcSendData, gt_iff_lt, List.length_pos_iff]
  by_cases hdata : data ≠ []
  · by_cases hmode : d.notifySvcAppSpp ≠ .none
    · rw [if_pos hdata, if_pos hmode, if_pos ⟨hdata, hmode⟩]
      simp only [List.map_cons, List.map_nil, Emission.notification, List.filterMap_cons,
        List.filterMap_nil, Device.notification, d.part_app_valueHandle]
      rfl
    · rw [if_pos hdata, if_neg hmode, if_neg (fun h => hmode h.2)]
      rfl
  · rw [if_neg hdata, if_neg (fun h => hdata h.1)]
    rfl

theorem notifications_setBatteryLevel (d : Device) (percentage : UInt8) :
    notifications d (.setBatteryLevel percentage) =
      if percentage ≤ 100 ∧ (d.part .batt).mode ≠ .none then
        [d.notification .batt [percentage]]
      else [] := by
  simp only [notifications, ble, battSetBatteryLevel]
  by_cases hlevel : percentage ≤ 100
  · by_cases hmode : d.notifyBattery ≠ .none
    · rw [if_pos hlevel, if_pos hmode, if_pos ⟨hlevel, hmode⟩]
      simp only [List.map_cons, List.map_nil, Emission.notification, List.filterMap_cons,
        List.filterMap_nil, Device.notification, d.part_batt_valueHandle]
      rfl
    · rw [if_pos hlevel, if_neg hmode, if_neg (fun h => hmode h.2)]
      rfl
  · rw [if_neg hlevel, if_neg (fun h => hlevel h.1)]
    rfl

theorem notifications_gatts (d : Device) (event : GattsEvent) (gattsIf : GattIf) :
    notifications d (.gatts event gattsIf) = [] := by
  rw [notifications, List.filterMap_eq_nil_iff]
  intro e he
  cases makes_of_mem_out he with
  | profile _ h => cases h <;> rfl

theorem notifications_gap (d : Device) (event : GapEvent) :
    notifications d (.gap event) = [] := by
  rw [notifications, List.filterMap_eq_nil_iff]
  intro e he
  cases makes_of_mem_out he
  rfl

/-- A notification comes from the application or the battery service, in a mode
other than none, and carries what the service has stored. -/
theorem eq_of_mem_notifications {d : Device} {i : Input} {n : Notification}
    (hn : n ∈ notifications d i) :
    n.service ≠ .dis ∧ (d.part n.service).mode ≠ .none ∧
      n = d.notification n.service n.value := by
  cases i with
  | gatts event g => rw [notifications_gatts] at hn; cases hn
  | gap event => rw [notifications_gap] at hn; cases hn
  | sendData data =>
      rw [notifications_sendData] at hn
      split at hn
      · rename_i h
        rw [List.mem_singleton.mp hn]
        exact ⟨ServiceIdx.noConfusion, h.2, rfl⟩
      · cases hn
  | setBatteryLevel percentage =>
      rw [notifications_setBatteryLevel] at hn
      split at hn
      · rename_i h
        rw [List.mem_singleton.mp hn]
        exact ⟨ServiceIdx.noConfusion, h.2, rfl⟩
      · cases hn

end EspressifApp.Bluetooth
