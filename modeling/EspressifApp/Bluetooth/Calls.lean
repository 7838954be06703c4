import EspressifApp.Bluetooth.Parts

/-!
The calls the firmware makes. What a handler calls on an event is read off the
event alone (`gattsCb_calls`), so the dispatch loop decides by the interfaces
who calls and not what (`gattsEventHandler_log`); and what the two operations of
the application call is read off the part of their service. `ProfileMakes` and
`Makes` sort the calls by kind, each with what brings it about, for the results
that ask where a call can come from.
-/

namespace EspressifApp.Bluetooth

/-! ### The calls of a handler -/

def ServiceIdx.setupCalls (gattsIf : GattIf) : ServiceIdx → List StackCall
  | .app =>
      [.gapSetDeviceName "devicename", .gapConfigAdvData advData, .gapConfigAdvData scanRspData,
        .gattsCreateAttrTab .appSvcDb gattsIf appIdxNb ServiceIdx.app.svcInstId]
  | .dis => [.gattsCreateAttrTab .disDb gattsIf disIdxNb ServiceIdx.dis.svcInstId]
  | .batt =>
      [.consoleCmdRegister "battery",
        .gattsCreateAttrTab .battDb gattsIf battIdxNb ServiceIdx.batt.svcInstId]

/-- The calls of a profile that installs a table, before it starts the
service. -/
def ServiceIdx.fillCalls (handles : List UInt16) : ServiceIdx → List StackCall
  | .dis =>
      [.gattsSetAttrValue (handles.getD 2 0) (textBytes "model number"),
        .gattsSetAttrValue (handles.getD 4 0) (textBytes "serial number"),
        .gattsSetAttrValue (handles.getD 6 0) (textBytes "fw revision"),
        .gattsSetAttrValue (handles.getD 8 0) (textBytes "hw_revision"),
        .gattsSetAttrValue (handles.getD 10 0) (textBytes "sw_revision")]
  | _ => []

/-- The calls the handler of a service makes on an event. They read no variable
of the device. -/
def profileCalls (gattsIf : GattIf) (idx : ServiceIdx) : GattsEvent → List StackCall
  | .regEvt _ => idx.setupCalls gattsIf
  | .writeEvt p => if idx.Heeds p then sendWriteResponse gattsIf p else []
  | .connectEvt p => if idx = .app then setConnectionParams p else []
  | .disconnectEvt _ => if idx = .app then [.gapStartAdvertising advParams] else []
  | .creatAttrTabEvt p =>
      if idx.Accepts p then
        idx.fillCalls p.handles ++ [.gattsStartService (p.handles.getD 0 0)]
      else []
  | _ => []

/-- The kinds of call a handler makes, by the event it makes them on. -/
inductive ProfileMakes (gattsIf : GattIf) (idx : ServiceIdx) : GattsEvent → StackCall → Prop
  | deviceName (p name) : ProfileMakes gattsIf idx (.regEvt p) (.gapSetDeviceName name)
  | advData (p data) (h : idx = .app) :
      ProfileMakes gattsIf idx (.regEvt p) (.gapConfigAdvData data)
  | command (p command) : ProfileMakes gattsIf idx (.regEvt p) (.consoleCmdRegister command)
  | table (p db) :
      ProfileMakes gattsIf idx (.regEvt p)
        (.gattsCreateAttrTab db gattsIf idx.idxNb idx.svcInstId)
  | response (p) :
      ProfileMakes gattsIf idx (.writeEvt p) (.gattsSendResponse gattsIf p.connId p.transId .ok)
  | connParams (p params) : ProfileMakes gattsIf idx (.connectEvt p) (.gapUpdateConnParams params)
  | advertise (connId) (h : idx = .app) :
      ProfileMakes gattsIf idx (.disconnectEvt connId) (.gapStartAdvertising advParams)
  | value (p n text) (hidx : idx = .dis) (h : idx.Accepts p) :
      ProfileMakes gattsIf idx (.creatAttrTabEvt p)
        (.gattsSetAttrValue (p.handles.getD n 0) text)
  | start (p) (h : idx.Accepts p) :
      ProfileMakes gattsIf idx (.creatAttrTabEvt p) (.gattsStartService (p.handles.getD 0 0))

theorem profileMakes_of_mem {gattsIf : GattIf} {idx : ServiceIdx} {event : GattsEvent}
    {call : StackCall} (hcall : call ∈ profileCalls gattsIf idx event) :
    ProfileMakes gattsIf idx event call := by
  cases event with
  | regEvt p =>
      cases idx <;> simp only [profileCalls, ServiceIdx.setupCalls, List.mem_cons,
        List.not_mem_nil, or_false] at hcall
      case app =>
        rcases hcall with rfl | rfl | rfl | rfl
        · exact .deviceName p _
        · exact .advData p _ rfl
        · exact .advData p _ rfl
        · exact .table p _
      case dis => rw [hcall]; exact .table p _
      case batt =>
        rcases hcall with rfl | rfl
        · exact .command p _
        · exact .table p _
  | writeEvt p =>
      simp only [profileCalls, sendWriteResponse] at hcall
      split_ifs at hcall
      · rw [List.mem_singleton.mp hcall]; exact .response p
      · cases hcall
      · cases hcall
  | connectEvt p =>
      simp only [profileCalls, setConnectionParams] at hcall
      split_ifs at hcall
      · rw [List.mem_singleton.mp hcall]; exact .connParams p _
      · cases hcall
  | disconnectEvt connId =>
      simp only [profileCalls] at hcall
      split_ifs at hcall with happ
      · rw [List.mem_singleton.mp hcall]; exact .advertise connId happ
      · cases hcall
  | creatAttrTabEvt p =>
      simp only [profileCalls] at hcall
      split_ifs at hcall with hp
      · rcases List.mem_append.mp hcall with hfill | hstart
        · cases idx with
          | dis =>
              simp only [ServiceIdx.fillCalls, List.mem_cons, List.not_mem_nil, or_false] at hfill
              rcases hfill with rfl | rfl | rfl | rfl | rfl <;> exact .value p _ _ rfl hp
          | app | batt => cases hfill
        · rw [List.mem_singleton.mp hstart]; exact .start p hp
      · cases hcall
  | _ => cases hcall

theorem gattsCb_calls (idx : ServiceIdx) (event : GattsEvent) (gattsIf : GattIf) (d : Device) :
    (gattsCb idx event gattsIf d).2 = profileCalls gattsIf idx event := by
  cases event with
  | writeEvt p =>
      cases idx with
      | app => simp [profileCalls, gattsCb, appSvcProfileEventHandler, ServiceIdx.Heeds]
      | dis => simp [profileCalls, gattsCb, disProfileEventHandler, ServiceIdx.Heeds]
      | batt =>
          cases hprep : p.isPrep <;>
            simp [profileCalls, gattsCb, battProfileEventHandler, ServiceIdx.Heeds, hprep]
  | creatAttrTabEvt p =>
      rcases acceptAttrTab_cases idx p with ⟨hp, table, htable, hhandles⟩ | ⟨hp, htable⟩
      · rw [profileCalls, if_pos hp, hhandles]
        cases idx <;> simp only [ServiceIdx.idxNb] at htable table <;>
          simp only [gattsCb, appSvcProfileEventHandler, disProfileEventHandler,
            battProfileEventHandler, htable, disSetAttrValues, ServiceIdx.fillCalls,
            ← toList_getD_get] <;> rfl
      · rw [profileCalls, if_neg hp]
        cases idx <;> simp only [ServiceIdx.idxNb] at htable <;>
          simp only [gattsCb, appSvcProfileEventHandler, disProfileEventHandler,
            battProfileEventHandler, htable]
  | _ => cases idx <;> rfl

theorem dispatch_log (event : GattsEvent) (gattsIf : GattIf) :
    ∀ (idxs : List ServiceIdx) (d : Device),
      (dispatch event gattsIf idxs d).2 =
        (idxs.filter fun idx => d.Routes gattsIf idx).map
          fun idx => (idx, profileCalls gattsIf idx event)
  | [], d => rfl
  | j :: rest, d => by
      by_cases hroute : d.Routes gattsIf j
      · rw [dispatch, if_pos hroute]
        dsimp only
        rw [dispatch_log event gattsIf rest, List.filter_cons_of_pos (by simpa using hroute),
          List.map_cons]
        simp only [gattsCb_routes, gattsCb_calls]
      · rw [dispatch, if_neg hroute, dispatch_log event gattsIf rest,
          List.filter_cons_of_neg (by simpa using hroute)]

/-! ### The calls of an event -/

theorem gattsEventHandler_log (event : GattsEvent) (gattsIf : GattIf) (d : Device) :
    (gattsEventHandler event gattsIf d).2 =
      (serviceIdxs.filter fun idx => (registerOnEvent event gattsIf d).Routes gattsIf idx).map
        fun idx => (idx, profileCalls gattsIf idx event) :=
  dispatch_log event gattsIf serviceIdxs _

def handlersCalled (event : GattsEvent) (gattsIf : GattIf) (d : Device) : List ServiceIdx :=
  (gattsEventHandler event gattsIf d).2.map Prod.fst

theorem handlersCalled_eq (event : GattsEvent) (gattsIf : GattIf) (d : Device) :
    handlersCalled event gattsIf d =
      serviceIdxs.filter fun idx => (registerOnEvent event gattsIf d).Routes gattsIf idx := by
  rw [handlersCalled, gattsEventHandler_log, List.map_map]
  exact List.map_id _

theorem mem_handlersCalled {event : GattsEvent} {gattsIf : GattIf} {d : Device}
    {idx : ServiceIdx} : idx ∈ handlersCalled event gattsIf d ↔
      (registerOnEvent event gattsIf d).Routes gattsIf idx := by
  rw [handlersCalled_eq, List.mem_filter]
  simp [mem_serviceIdxs]

theorem mem_out_gatts {event : GattsEvent} {gattsIf : GattIf} {d : Device} {e : Emission} :
    e ∈ ble.out d (.gatts event gattsIf) ↔
      ∃ idx, (registerOnEvent event gattsIf d).Routes gattsIf idx ∧
        ∃ call ∈ profileCalls gattsIf idx event, Emission.mk (.profile idx) call = e := by
  simp [ble, emissions, gattsEventHandler_log, List.mem_flatMap, mem_serviceIdxs]

/-! ### The calls of the application -/

theorem appSvcSendData_congr (data : List UInt8) {d d' : Device}
    (h : d.part .app = d'.part .app) : appSvcSendData data d = appSvcSendData data d' := by
  simp only [Device.part, ServicePart.mk.injEq] at h
  obtain ⟨hinst, hhandles, hmode, -, -⟩ := h
  rw [appSvcSendData, appSvcSendData, hinst, hmode, Vector.toList_inj.mp hhandles]

theorem battSetBatteryLevel_congr (level : UInt8) {d d' : Device}
    (h : d.part .batt = d'.part .batt) :
    (battSetBatteryLevel level d).2 = (battSetBatteryLevel level d').2 := by
  simp only [Device.part, ServicePart.mk.injEq] at h
  obtain ⟨hinst, hhandles, hmode, -, -⟩ := h
  unfold battSetBatteryLevel
  rw [hinst, hmode, Vector.toList_inj.mp hhandles]
  split_ifs <;> rfl

/-! ### Who calls what -/

/-- The payloads `prepare_advertising` asks the stack to configure. -/
inductive Payload
  | advData
  | scanRspData
  deriving DecidableEq, Repr

instance : Fintype Payload where
  elems := {.advData, .scanRspData}
  complete p := by cases p <;> decide

def Payload.complete : Payload → GapEvent
  | .advData => .advDataSetCompleteEvt
  | .scanRspData => .scanRspDataSetCompleteEvt

/-- The kinds of call the firmware makes, by the input it makes them on. -/
inductive Makes (d : Device) : Input → Emission → Prop
  | profile {event gattsIf idx call}
      (hroute : (registerOnEvent event gattsIf d).Routes gattsIf idx)
      (h : ProfileMakes gattsIf idx event call) :
      Makes d (.gatts event gattsIf) ⟨.profile idx, call⟩
  | advertise (payload : Payload) :
      Makes d (.gap payload.complete) ⟨.gapEventHandler, .gapStartAdvertising advParams⟩
  | sendData (data gattsIf connId handle len confirm) :
      Makes d (.sendData data)
        ⟨.appSvcSendData, .gattsSendIndicate gattsIf connId handle len data confirm⟩
  | storeLevel (level) (h : level ≤ 100) :
      Makes d (.setBatteryLevel level)
        ⟨.battSetBatteryLevel, .gattsSetAttrValue (d.part .batt).valueHandle [level]⟩
  | sendLevel (level gattsIf connId handle len confirm) (h : level ≤ 100) :
      Makes d (.setBatteryLevel level)
        ⟨.battSetBatteryLevel, .gattsSendIndicate gattsIf connId handle len [level] confirm⟩

theorem makes_of_mem_out {d : Device} {i : Input} {e : Emission} (he : e ∈ ble.out d i) :
    Makes d i e := by
  cases i with
  | gatts event gattsIf =>
      obtain ⟨idx, hroute, call, hcall, rfl⟩ := mem_out_gatts.mp he
      exact .profile hroute (profileMakes_of_mem hcall)
  | gap event =>
      obtain ⟨call, hcall, rfl⟩ := List.mem_map.mp he
      cases event with
      | advDataSetCompleteEvt =>
          simp only [gapEventHandler] at hcall
          split_ifs at hcall
          · rw [List.mem_singleton.mp hcall]; exact .advertise .advData
          · cases hcall
      | scanRspDataSetCompleteEvt =>
          simp only [gapEventHandler] at hcall
          split_ifs at hcall
          · rw [List.mem_singleton.mp hcall]; exact .advertise .scanRspData
          · cases hcall
      | _ => cases hcall
  | sendData data =>
      obtain ⟨call, hcall, rfl⟩ := List.mem_map.mp he
      simp only [appSvcSendData] at hcall
      split_ifs at hcall
      · rw [List.mem_singleton.mp hcall]; exact .sendData ..
      · cases hcall
      · cases hcall
  | setBatteryLevel percentage =>
      obtain ⟨call, hcall, rfl⟩ := List.mem_map.mp he
      simp only [battSetBatteryLevel, ← d.part_batt_valueHandle] at hcall
      split_ifs at hcall with hlevel
      · rcases List.mem_cons.mp hcall with rfl | hsend
        · exact .storeLevel percentage hlevel
        · rw [List.mem_singleton.mp hsend]; exact .sendLevel _ _ _ _ _ _ hlevel
      · rw [List.mem_singleton.mp hcall]; exact .storeLevel percentage hlevel
      · cases hcall

end EspressifApp.Bluetooth
