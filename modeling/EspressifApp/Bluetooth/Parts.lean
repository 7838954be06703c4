import EspressifApp.Bluetooth.Ble

/-!
The device as three services.

Each service owns one entry of the profile table, its handle table and the few
variables of its own file. `Device.part` reads that part off the device in one
shape for the three of them, and `ServicePart.deliver` says, once for all
services, what an event does to the part of the service it is delivered to.
The handlers are proved to do just that to their own part and nothing to the
others (`gattsCb_part`, `gattsCb_part_of_ne`), so the dispatch loop can be
taken apart: the part of a service after an event depends only on whether the
event is routed to it (`gattsEventHandler_part`). What comes later argues about
parts and leaves the handlers closed.
-/

namespace EspressifApp.Bluetooth

/-! ### Client-configuration values -/

/-- What a client-configuration write of two bytes, little endian, asks for. -/
def clientConfig : List UInt8 → Option NotificationType
  | [lo, hi] =>
      if lo.toNat + 256 * hi.toNat = 0 then some .none
      else if lo.toNat + 256 * hi.toNat = 1 then some .notify
      else if lo.toNat + 256 * hi.toNat = 2 then some .indicate
      else none
  | _ => none

theorem descrValue_eq_iff {lo hi : UInt8} {n : UInt16} :
    descrValue lo hi = n ↔ lo.toNat + 256 * hi.toNat = n.toNat := by
  rw [← UInt16.toNat_inj, descrValue_toNat]

theorem updateNotifyValue_eq (p : WriteParam) (mode : NotificationType) :
    updateNotifyValue p mode = (clientConfig p.value).getD mode := by
  rcases p with ⟨_, _, _, _, _, value⟩
  match value with
  | [] | [_] | _ :: _ :: _ :: _ => simp [updateNotifyValue, clientConfig]
  | [lo, hi] =>
      simp only [updateNotifyValue, clientConfig, descrValue_eq_iff, UInt16.reduceToNat]
      split_ifs <;> rfl

theorem battClientConfig_eq (p : WriteParam) (mode : NotificationType) :
    battClientConfig p mode = (clientConfig p.value).getD mode := by
  rcases p with ⟨_, _, _, _, _, value⟩
  match value with
  | [] | [_] | _ :: _ :: _ :: _ => simp [battClientConfig, clientConfig]
  | [lo, hi] =>
      simp only [battClientConfig, clientConfig, descrValue_eq_iff, UInt16.reduceToNat]
      split_ifs <;> first | rfl | omega

/-! ### Parts -/

/-- What belongs to one service. The level is the battery's, `advConfigDone`
the application's. -/
structure ServicePart where
  inst : GattsProfileInst
  handles : List UInt16
  mode : NotificationType
  level : UInt8
  advConfigDone : UInt8
  deriving DecidableEq, Repr

def Device.part (d : Device) : ServiceIdx → ServicePart
  | .app =>
      { inst := d.serviceProfileTab .app, handles := d.appSvcHandleTable.toList,
        mode := d.notifySvcAppSpp, level := 0, advConfigDone := d.advConfigDone }
  | .dis =>
      { inst := d.serviceProfileTab .dis, handles := d.disHandleTable.toList,
        mode := .none, level := 0, advConfigDone := 0 }
  | .batt =>
      { inst := d.serviceProfileTab .batt, handles := d.battHandleTable.toList,
        mode := d.notifyBattery, level := d.battLevel, advConfigDone := 0 }

theorem Device.part_inst (d : Device) (idx : ServiceIdx) :
    (d.part idx).inst = d.serviceProfileTab idx := by
  cases idx <;> rfl

/-- The value-characteristic handle of the application and battery services. -/
def ServicePart.valueHandle (s : ServicePart) : UInt16 := s.handles.getD 2 0

def ServicePart.configHandle (s : ServicePart) : UInt16 := s.handles.getD 3 0

/-- The client-configuration writes a service acts on: the application service
does not look whether a write is only being prepared. -/
def ServiceIdx.Heeds (idx : ServiceIdx) (p : WriteParam) : Prop :=
  match idx with
  | .app => True
  | .dis => False
  | .batt => p.isPrep = false

instance (idx : ServiceIdx) (p : WriteParam) : Decidable (idx.Heeds p) := by
  cases idx <;> unfold ServiceIdx.Heeds <;> infer_instance

/-- A creation event with the right status and count for the service. -/
def ServiceIdx.Accepts (idx : ServiceIdx) (p : AddAttrTabParam) : Prop :=
  p.status = .ok ∧ p.numHandle = idx.idxNb

instance (idx : ServiceIdx) (p : AddAttrTabParam) : Decidable (idx.Accepts p) :=
  inferInstanceAs (Decidable (_ ∧ _))

/-- What an event does to the part of the service it is delivered to. -/
def ServicePart.deliver (idx : ServiceIdx) (s : ServicePart) : GattsEvent → ServicePart
  | .regEvt _ =>
      if idx = .app then
        { s with advConfigDone := s.advConfigDone ||| advConfigFlag ||| scanRspConfigFlag }
      else s
  | .writeEvt p =>
      if idx.Heeds p ∧ p.handle = s.configHandle then
        { s with mode := (clientConfig p.value).getD s.mode }
      else s
  | .connectEvt p =>
      if idx = .batt then { s with inst := { s.inst with connId := p.connId } } else s
  | .creatAttrTabEvt p => if idx.Accepts p then { s with handles := p.handles } else s
  | _ => s

/-- What a successful registration does to the part of its service. -/
def ServicePart.register (idx : ServiceIdx) (s : ServicePart) (gattsIf : GattIf) : ServicePart :=
  { s with inst := { s.inst with gattsIf := gattsIf.toUInt16, appId := idx.appId } }

@[simp] theorem ServicePart.deliver_gattsIf (idx : ServiceIdx) (s : ServicePart)
    (event : GattsEvent) : (s.deliver idx event).inst.gattsIf = s.inst.gattsIf := by
  cases event <;> simp only [ServicePart.deliver] <;> split_ifs <;> rfl

/-! ### The handlers on parts -/

theorem toList_getD_get {n : ℕ} (v : Vector UInt16 n) (i : Fin n) :
    v.toList.getD i 0 = v.get i := by
  rw [List.getD_eq_getElem?_getD, List.getElem?_eq_getElem (by simp), Option.getD_some,
    Vector.getElem_toList]
  rfl

theorem Device.part_app_configHandle (d : Device) :
    (d.part .app).configHandle = d.appSvcHandleTable.get idxAppCharCfgSpp :=
  toList_getD_get _ idxAppCharCfgSpp

theorem Device.part_batt_configHandle (d : Device) :
    (d.part .batt).configHandle = d.battHandleTable.get idxBattCharCfgBattLevel :=
  toList_getD_get _ idxBattCharCfgBattLevel

theorem Device.part_app_valueHandle (d : Device) :
    (d.part .app).valueHandle = d.appSvcHandleTable.get idxAppCharValSpp :=
  toList_getD_get _ idxAppCharValSpp

theorem Device.part_batt_valueHandle (d : Device) :
    (d.part .batt).valueHandle = d.battHandleTable.get idxBattCharValBattLevel :=
  toList_getD_get _ idxBattCharValBattLevel

theorem acceptAttrTab_cases (idx : ServiceIdx) (p : AddAttrTabParam) :
    (idx.Accepts p ∧ ∃ table, acceptAttrTab idx.idxNb p = some table ∧ p.handles = table.toList) ∨
      (¬ idx.Accepts p ∧ acceptAttrTab idx.idxNb p = none) := by
  cases htable : acceptAttrTab idx.idxNb p with
  | none => exact .inr ⟨acceptAttrTab_eq_none.mp htable, rfl⟩
  | some table =>
      obtain ⟨hstatus, hhandles⟩ := acceptAttrTab_eq_some.mp htable
      refine .inl ⟨⟨hstatus, ?_⟩, table, rfl, hhandles⟩
      rw [AddAttrTabParam.numHandle, hhandles, Vector.length_toList]

theorem appSvc_part_app (event : GattsEvent) (gattsIf : GattIf) (d : Device) :
    (appSvcProfileEventHandler event gattsIf d).1.part .app = (d.part .app).deliver .app event := by
  cases event with
  | writeEvt p =>
      simp only [appSvcProfileEventHandler, ServicePart.deliver, ServiceIdx.Heeds, true_and,
        d.part_app_configHandle, updateNotifyValue_eq]
      split_ifs <;> rfl
  | creatAttrTabEvt p =>
      rcases acceptAttrTab_cases .app p with ⟨hp, table, htable, hhandles⟩ | ⟨hp, htable⟩
      · simp only [ServiceIdx.idxNb] at htable
        simp only [appSvcProfileEventHandler, htable, ServicePart.deliver, if_pos hp, hhandles]
        rfl
      · simp only [ServiceIdx.idxNb] at htable
        simp only [appSvcProfileEventHandler, htable, ServicePart.deliver, if_neg hp]
  | _ => rfl

theorem disProfile_part_dis (event : GattsEvent) (gattsIf : GattIf) (d : Device) :
    (disProfileEventHandler event gattsIf d).1.part .dis = (d.part .dis).deliver .dis event := by
  cases event with
  | writeEvt p => simp [disProfileEventHandler, ServicePart.deliver, ServiceIdx.Heeds]
  | creatAttrTabEvt p =>
      rcases acceptAttrTab_cases .dis p with ⟨hp, table, htable, hhandles⟩ | ⟨hp, htable⟩
      · simp only [ServiceIdx.idxNb] at htable
        simp only [disProfileEventHandler, htable, ServicePart.deliver, if_pos hp, hhandles]
        rfl
      · simp only [ServiceIdx.idxNb] at htable
        simp only [disProfileEventHandler, htable, ServicePart.deliver, if_neg hp]
  | _ => rfl

theorem battProfile_part_batt (event : GattsEvent) (gattsIf : GattIf) (d : Device) :
    (battProfileEventHandler event gattsIf d).1.part .batt =
      (d.part .batt).deliver .batt event := by
  cases event with
  | writeEvt p =>
      simp only [battProfileEventHandler, ServicePart.deliver, ServiceIdx.Heeds,
        d.part_batt_configHandle, battClientConfig_eq, eq_comm (a := p.handle)]
      cases hprep : p.isPrep with
      | true => simp
      | false =>
          simp only [Bool.not_false, if_true, true_and]
          split_ifs <;> rfl
  | connectEvt p =>
      simp [battProfileEventHandler, ServicePart.deliver, Device.part, Device.setProfile]
  | creatAttrTabEvt p =>
      rcases acceptAttrTab_cases .batt p with ⟨hp, table, htable, hhandles⟩ | ⟨hp, htable⟩
      · simp only [ServiceIdx.idxNb] at htable
        simp only [battProfileEventHandler, htable, ServicePart.deliver, if_pos hp, hhandles]
        rfl
      · simp only [ServiceIdx.idxNb] at htable
        simp only [battProfileEventHandler, htable, ServicePart.deliver, if_neg hp]
  | _ => rfl

/-- A handler does to its own part what `deliver` says. -/
theorem gattsCb_part (idx : ServiceIdx) (event : GattsEvent) (gattsIf : GattIf) (d : Device) :
    (gattsCb idx event gattsIf d).1.part idx = (d.part idx).deliver idx event := by
  cases idx
  · exact appSvc_part_app event gattsIf d
  · exact disProfile_part_dis event gattsIf d
  · exact battProfile_part_batt event gattsIf d

/-- A handler leaves the parts of the other services alone. -/
theorem gattsCb_part_of_ne {idx j : ServiceIdx} (hj : j ≠ idx) (event : GattsEvent)
    (gattsIf : GattIf) (d : Device) : (gattsCb idx event gattsIf d).1.part j = d.part j := by
  cases idx with
  | app =>
      cases event <;> simp only [gattsCb, appSvcProfileEventHandler]
      case writeEvt p => split_ifs <;> cases j <;> first | rfl | exact absurd rfl hj
      case creatAttrTabEvt p =>
        cases acceptAttrTab appIdxNb p <;> cases j <;> first | rfl | exact absurd rfl hj
      case regEvt p => cases j <;> first | rfl | exact absurd rfl hj
  | dis =>
      cases event <;> simp only [gattsCb, disProfileEventHandler]
      case creatAttrTabEvt p =>
        cases acceptAttrTab disIdxNb p <;> cases j <;> first | rfl | exact absurd rfl hj
  | batt =>
      cases event <;> simp only [gattsCb, battProfileEventHandler]
      case writeEvt p => split_ifs <;> cases j <;> first | rfl | exact absurd rfl hj
      case connectEvt p => cases j <;> first | rfl | exact absurd rfl hj
      case creatAttrTabEvt p =>
        cases acceptAttrTab battIdxNb p <;> cases j <;> first | rfl | exact absurd rfl hj

/-! ### The dispatch loop on parts -/

theorem routes_iff_part {d : Device} {gattsIf : GattIf} {idx : ServiceIdx} :
    d.Routes gattsIf idx ↔
      gattsIf = espGattIfNone ∨ gattsIf.toUInt16 = (d.part idx).inst.gattsIf := by
  rw [Device.part_inst]; rfl

theorem routes_congr {d d' : Device} {gattsIf : GattIf} {idx : ServiceIdx}
    (h : d.part idx = d'.part idx) : d.Routes gattsIf idx ↔ d'.Routes gattsIf idx := by
  rw [routes_iff_part, routes_iff_part, h]

/-- A particular interface is that of an entry if the entry was given it last; an
entry that was given none has `ESP_GATT_IF_NONE`. -/
theorem toUInt16_eq_getD_iff {gattsIf : GattIf} (hne : gattsIf ≠ espGattIfNone)
    (latest : Option GattIf) :
    gattsIf.toUInt16 = (latest.getD espGattIfNone).toUInt16 ↔ latest = some gattsIf := by
  cases latest with
  | none => simpa [← UInt16.toNat_inj, UInt8.toNat_inj] using hne
  | some g => simp [← UInt16.toNat_inj, UInt8.toNat_inj, eq_comm]

/-- A handler leaves the interfaces alone, so the loop routes an event as the
table stood when it began. -/
theorem gattsCb_routes (idx j : ServiceIdx) (event : GattsEvent) (gattsIf : GattIf)
    (d : Device) : (gattsCb j event gattsIf d).1.Routes gattsIf idx ↔ d.Routes gattsIf idx := by
  by_cases hj : idx = j
  · subst hj
    rw [routes_iff_part, routes_iff_part, gattsCb_part, ServicePart.deliver_gattsIf]
  · exact routes_congr (gattsCb_part_of_ne hj event gattsIf d)

theorem dispatch_part (event : GattsEvent) (gattsIf : GattIf) (idx : ServiceIdx) :
    ∀ (idxs : List ServiceIdx) (d : Device), idxs.Nodup →
      (dispatch event gattsIf idxs d).1.part idx =
        if idx ∈ idxs ∧ d.Routes gattsIf idx then (d.part idx).deliver idx event
        else d.part idx
  | [], d, _ => by simp [dispatch]
  | j :: rest, d, hnodup => by
      obtain ⟨hj, hrest⟩ := List.nodup_cons.mp hnodup
      by_cases hroute : d.Routes gattsIf j
      · rw [dispatch, if_pos hroute]
        dsimp only
        rw [dispatch_part event gattsIf idx rest _ hrest]
        by_cases hidx : idx = j
        · subst hidx
          simp [hj, hroute, gattsCb_part]
        · simp only [gattsCb_routes, gattsCb_part_of_ne hidx, List.mem_cons, hidx, false_or]
      · rw [dispatch, if_neg hroute, dispatch_part event gattsIf idx rest d hrest]
        by_cases hidx : idx = j
        · subst hidx
          simp [hj, hroute]
        · simp [hidx]

/-! ### Registration on parts -/

def GattsEvent.registration : GattsEvent → Option UInt16
  | .regEvt p => if p.status = .ok then some p.appId else none
  | _ => none

theorem serviceOfAppId_eq_some {appId : UInt16} {idx : ServiceIdx} :
    serviceOfAppId appId = some idx ↔ appId = idx.appId := by
  unfold serviceOfAppId
  cases idx <;> split_ifs <;> simp_all <;> decide

theorem Device.part_setProfile (d : Device) (j idx : ServiceIdx) (inst : GattsProfileInst) :
    (d.setProfile j inst).part idx =
      if idx = j then { d.part idx with inst := inst } else d.part idx := by
  by_cases hidx : idx = j
  · subst hidx
    cases idx <;> simp [Device.part, Device.setProfile]
  · cases idx <;> simp [Device.part, Device.setProfile, Function.update_of_ne, hidx]

theorem registerOnEvent_part (event : GattsEvent) (gattsIf : GattIf) (d : Device)
    (idx : ServiceIdx) :
    (registerOnEvent event gattsIf d).part idx =
      if event.registration = some idx.appId then (d.part idx).register idx gattsIf
      else d.part idx := by
  cases event with
  | regEvt p =>
      by_cases hstatus : p.status = .ok
      · have hreg : (GattsEvent.regEvt p).registration = some p.appId := if_pos hstatus
        simp only [registerOnEvent, registerGattsIntf, if_pos hstatus, hreg]
        cases hsvc : serviceOfAppId p.appId with
        | none =>
            have hne : p.appId ≠ idx.appId := fun h => by
              rw [serviceOfAppId_eq_some.mpr h] at hsvc
              cases hsvc
            simp [hne]
        | some j =>
            simp only [serviceOfAppId_eq_some.mp hsvc, Option.some.injEq,
              ServiceIdx.appId_injective.eq_iff, Device.part_setProfile]
            by_cases hj : idx = j
            · subst hj
              simp [ServicePart.register, Device.part_inst]
            · rw [if_neg hj, if_neg (Ne.symm hj)]
      · have hreg : (GattsEvent.regEvt p).registration = none := if_neg hstatus
        simp [registerOnEvent, registerGattsIntf, hstatus, hreg]
  | _ => simp [registerOnEvent, GattsEvent.registration]

/-! ### The event handler on parts -/

theorem mem_serviceIdxs (idx : ServiceIdx) : idx ∈ serviceIdxs := by
  cases idx <;> decide

/-- The part of a service after an event: registered if the event registers it,
and then delivered to it if the event is routed to it. -/
theorem gattsEventHandler_part (event : GattsEvent) (gattsIf : GattIf) (d : Device)
    (idx : ServiceIdx) :
    (gattsEventHandler event gattsIf d).1.part idx =
      if (registerOnEvent event gattsIf d).Routes gattsIf idx then
        ((registerOnEvent event gattsIf d).part idx).deliver idx event
      else (registerOnEvent event gattsIf d).part idx := by
  rw [gattsEventHandler, dispatch_part _ _ _ _ _ (by decide)]
  simp [mem_serviceIdxs]

/-! ### The other inputs on parts -/

theorem gapEventHandler_part (event : GapEvent) (d : Device) (idx : ServiceIdx) :
    (gapEventHandler event d).1.part idx = d.part idx := by
  cases event <;> cases idx <;> rfl

theorem battSetBatteryLevel_part (level : UInt8) (d : Device) (idx : ServiceIdx) :
    (battSetBatteryLevel level d).1.part idx =
      if idx = .batt ∧ level ≤ 100 then { d.part idx with level := level } else d.part idx := by
  unfold battSetBatteryLevel
  by_cases hlevel : level ≤ 100
  · rw [if_pos hlevel]
    cases idx <;> simp [hlevel, Device.part]
  · rw [if_neg hlevel, if_neg (fun h => hlevel h.2)]

/-! ### A step of the firmware on parts -/

/-- The handles a service stores in a step, if it stores any. -/
def installs (d : Device) (idx : ServiceIdx) : Input → Option (List UInt16)
  | .gatts (.creatAttrTabEvt p) gattsIf =>
      if d.Routes gattsIf idx ∧ idx.Accepts p then some p.handles else none
  | _ => none

theorem installs_eq_none {d : Device} {idx : ServiceIdx} {i : Input}
    (hi : ∀ p gattsIf, i ≠ .gatts (.creatAttrTabEvt p) gattsIf) : installs d idx i = none := by
  unfold installs
  split
  · exact absurd rfl (hi _ _)
  · rfl

theorem ServicePart.deliver_handles (idx : ServiceIdx) (s : ServicePart) {event : GattsEvent}
    (hevent : ∀ p, event ≠ .creatAttrTabEvt p) : (s.deliver idx event).handles = s.handles := by
  cases event with
  | creatAttrTabEvt p => exact absurd rfl (hevent p)
  | regEvt p | writeEvt p | connectEvt p =>
      simp only [ServicePart.deliver]
      split_ifs <;> rfl
  | _ => rfl

theorem ble_next_handles (d : Device) (i : Input) (idx : ServiceIdx) :
    ((ble.next d i).part idx).handles = (installs d idx i).getD (d.part idx).handles := by
  cases i with
  | gatts event gattsIf =>
      show ((gattsEventHandler event gattsIf d).1.part idx).handles = _
      have hreg : ((registerOnEvent event gattsIf d).part idx).handles = (d.part idx).handles := by
        rw [registerOnEvent_part]
        split_ifs <;> rfl
      rw [gattsEventHandler_part]
      cases event with
      | creatAttrTabEvt p =>
          show (if d.Routes gattsIf idx then (d.part idx).deliver idx (.creatAttrTabEvt p)
            else d.part idx).handles = _
          simp only [installs, ServicePart.deliver]
          by_cases hroute : d.Routes gattsIf idx <;> by_cases hp : idx.Accepts p <;>
            simp [hroute, hp]
      | _ =>
          split_ifs
          · rw [ServicePart.deliver_handles _ _ (by simp), hreg]; rfl
          · exact hreg
  | gap event =>
      show ((gapEventHandler event d).1.part idx).handles = _
      rw [gapEventHandler_part]; rfl
  | sendData data => rfl
  | setBatteryLevel percentage =>
      show ((battSetBatteryLevel percentage d).1.part idx).handles = _
      rw [battSetBatteryLevel_part]
      split_ifs <;> rfl

theorem ServicePart.deliver_level (idx : ServiceIdx) (s : ServicePart) (event : GattsEvent) :
    (s.deliver idx event).level = s.level := by
  cases event <;> simp only [ServicePart.deliver] <;> split_ifs <;> rfl

theorem ble_next_battLevel (d : Device) (i : Input) :
    (ble.next d i).battLevel =
      match i with
      | .setBatteryLevel percentage => if percentage ≤ 100 then percentage else d.battLevel
      | _ => d.battLevel := by
  cases i with
  | gatts event gattsIf =>
      show ((gattsEventHandler event gattsIf d).1.part .batt).level = (d.part .batt).level
      rw [gattsEventHandler_part, registerOnEvent_part]
      split_ifs <;> simp only [ServicePart.deliver_level, ServicePart.register]
  | gap event => cases event <;> rfl
  | sendData data => rfl
  | setBatteryLevel percentage =>
      show ((battSetBatteryLevel percentage d).1.part .batt).level =
        if percentage ≤ 100 then percentage else (d.part .batt).level
      rw [battSetBatteryLevel_part]
      by_cases hlevel : percentage ≤ 100 <;> simp [hlevel]

end EspressifApp.Bluetooth
