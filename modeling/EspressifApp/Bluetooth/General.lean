import EspressifApp.Bluetooth.Stack

/-!
What the three services share: the numbering of `bt_general.h`, the profile
table, the decoding of a client-configuration write, and the file-level
variables of the four source files gathered in one record.
-/

namespace EspressifApp.Bluetooth

/-! ### Numbering -/

inductive ServiceIdx
  | app
  | dis
  | batt
  deriving DecidableEq, Repr

instance : Fintype ServiceIdx where
  elems := {.app, .dis, .batt}
  complete i := by cases i <;> decide

/-- The index as the `srvc_inst_id` of `esp_ble_gatts_create_attr_tab`. -/
def ServiceIdx.svcInstId : ServiceIdx → UInt8
  | .app => 0
  | .dis => 1
  | .batt => 2

def ServiceIdx.appId : ServiceIdx → UInt16
  | .app => 0x10
  | .dis => 0x11
  | .batt => 0x12

theorem ServiceIdx.appId_injective : Function.Injective ServiceIdx.appId := by
  intro i j h
  cases i <;> cases j <;> first | rfl | exact absurd h (by decide)

abbrev appIdxNb : ℕ := 4

abbrev disIdxNb : ℕ := 11

abbrev battIdxNb : ℕ := 4

def idxAppSvc : Fin appIdxNb := 0
def idxAppCharValSpp : Fin appIdxNb := 2
def idxAppCharCfgSpp : Fin appIdxNb := 3

def idxDisSvc : Fin disIdxNb := 0
def idxDisCharValModelNumber : Fin disIdxNb := 2
def idxDisCharValSerialNumber : Fin disIdxNb := 4
def idxDisCharValFwRevision : Fin disIdxNb := 6
def idxDisCharValHwRevision : Fin disIdxNb := 8
def idxDisCharValSwRevision : Fin disIdxNb := 10

def idxBattSvc : Fin battIdxNb := 0
def idxBattCharValBattLevel : Fin battIdxNb := 2
def idxBattCharCfgBattLevel : Fin battIdxNb := 3

def ServiceIdx.idxNb : ServiceIdx → ℕ
  | .app => appIdxNb
  | .dis => disIdxNb
  | .batt => battIdxNb

/-! ### State -/

inductive NotificationType
  | none
  | notify
  | indicate
  deriving DecidableEq, Repr

/-- `struct gatts_profile_inst`. The callback and the name of an entry never
change; the callback is `gattsCb` of the dispatcher. -/
structure GattsProfileInst where
  gattsIf : UInt16
  appId : UInt16
  connId : UInt16
  deriving DecidableEq, Repr

/-- The variables of the firmware. The comments name the file each one is
static in; `serviceProfileTab` and `advConfigComplete` are global. -/
structure Device where
  serviceProfileTab : ServiceIdx → GattsProfileInst
  -- bt_svc_app.cpp
  appSvcHandleTable : Vector UInt16 appIdxNb
  notifySvcAppSpp : NotificationType
  advConfigDone : UInt8
  -- bt_svc_dis.cpp
  disHandleTable : Vector UInt16 disIdxNb
  -- bt_svc_batt.cpp
  battHandleTable : Vector UInt16 battIdxNb
  battLevel : UInt8
  notifyBattery : NotificationType
  -- Bluetooth.cpp
  advConfigComplete : Bool

def Device.boot : Device where
  serviceProfileTab _ := { gattsIf := espGattIfNone.toUInt16, appId := 0, connId := 0 }
  appSvcHandleTable := Vector.replicate appIdxNb 0
  notifySvcAppSpp := .none
  advConfigDone := 0
  disHandleTable := Vector.replicate disIdxNb 0
  battHandleTable := Vector.replicate battIdxNb 0
  battLevel := 0
  notifyBattery := .none
  advConfigComplete := false

def Device.setProfile (d : Device) (idx : ServiceIdx) (inst : GattsProfileInst) : Device :=
  { d with serviceProfileTab := Function.update d.serviceProfileTab idx inst }

/-! ### Client-configuration writes -/

/-- `value[1]<<8 | value[0]` as a `uint16_t`. -/
def descrValue (value0 value1 : UInt8) : UInt16 :=
  value1.toUInt16 <<< 8 ||| value0.toUInt16

theorem descrValue_toNat (value0 value1 : UInt8) :
    (descrValue value0 value1).toNat = value0.toNat + 256 * value1.toNat := by
  have h0 := value0.toNat_lt
  have h1 := value1.toNat_lt
  have hshift : value1.toNat <<< 8 % 2 ^ 16 = value1.toNat <<< 8 := by
    rw [Nat.shiftLeft_eq]; omega
  simp only [descrValue, UInt16.toNat_or, UInt16.toNat_shiftLeft, UInt8.toNat_toUInt16,
    UInt16.reduceToNat]
  rw [show 8 % 16 = 8 from rfl, hshift, ← Nat.shiftLeft_add_eq_or_of_lt (by omega),
    Nat.shiftLeft_eq]
  omega

/-- `update_notify_value`: the mode after the write. A payload that is not two
bytes long, or an unknown value, leaves it as it was. -/
def updateNotifyValue (p : WriteParam) (value : NotificationType) : NotificationType :=
  match p.value with
  | [value0, value1] =>
      let descr := descrValue value0 value1
      if descr = 0x0000 then .none
      else if descr = 0x0001 then .notify
      else if descr = 0x0002 then .indicate
      else value
  | _ => value

/-! ### Attribute tables -/

/-- The `ESP_GATTS_CREAT_ATTR_TAB_EVT` branch of the three handlers, up to the
`memcpy`: the table to store, unless the status or the count is wrong. -/
def acceptAttrTab (nb : ℕ) (p : AddAttrTabParam) : Option (Vector UInt16 nb) :=
  if p.status ≠ .ok then none
  else if h : p.numHandle = nb then some ⟨p.handles.toArray, List.size_toArray.trans h⟩
  else none

theorem acceptAttrTab_eq_some {nb : ℕ} {p : AddAttrTabParam} {table : Vector UInt16 nb} :
    acceptAttrTab nb p = some table ↔ p.status = .ok ∧ p.handles = table.toList := by
  unfold acceptAttrTab
  split
  · rename_i hstatus
    simp [hstatus]
  · rename_i hstatus
    rw [not_not] at hstatus
    split
    · rename_i hnum
      simp only [Option.some.injEq, hstatus, true_and]
      constructor
      · rintro rfl; simp
      · intro h; apply Vector.toList_inj.mp; simp [h]
    · rename_i hnum
      simp only [reduceCtorEq, hstatus, true_and, false_iff]
      intro h
      exact hnum (by rw [AddAttrTabParam.numHandle, h, Vector.length_toList])

theorem acceptAttrTab_eq_none {nb : ℕ} {p : AddAttrTabParam} :
    acceptAttrTab nb p = none ↔ ¬ (p.status = .ok ∧ p.numHandle = nb) := by
  unfold acceptAttrTab
  split
  · rename_i hstatus
    simp [hstatus]
  · rename_i hstatus
    rw [not_not] at hstatus
    split <;> rename_i hnum <;> simp [hstatus, hnum]

end EspressifApp.Bluetooth
