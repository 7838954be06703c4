import Mathlib.Data.Fintype.Basic

/-!
What passes between the firmware and the Bluetooth stack.

The stack calls the firmware back with events and their parameter blocks; the
firmware calls the stack and looks at nothing the stack returns, except to log
it. So an event with its parameters is an input, a call with its arguments is an
output, and these are the two types here. Of a parameter block only the members
some handler reads are kept: those that are printed to the log and nowhere else
are left out.
-/

namespace EspressifApp.Bluetooth

/-- `esp_gatt_if_t`, the interface under which the stack knows a profile. -/
abbrev GattIf := UInt8

/-- `ESP_GATT_IF_NONE`: an event that belongs to no particular interface. -/
def espGattIfNone : GattIf := 0xff

/-- `esp_gatt_status_t`: `ESP_GATT_OK` or one of the error codes. -/
inductive GattStatus
  | ok
  | failed (code : UInt8)
  deriving DecidableEq, Repr

abbrev BdAddr := Vector UInt8 6

/-! ### Events -/

structure RegParam where
  status : GattStatus
  appId : UInt16
  deriving DecidableEq, Repr

/-- `param->write`. The payload is the list of its bytes; `len` is its length,
so there is no byte to read beyond it. -/
structure WriteParam where
  connId : UInt16
  transId : UInt32
  handle : UInt16
  needRsp : Bool
  isPrep : Bool
  value : List UInt8
  deriving DecidableEq, Repr

structure ConnectParam where
  connId : UInt16
  remoteBda : BdAddr
  deriving DecidableEq, Repr

/-- `param->add_attr_tab`. The handles are the list the stack hands over, and
`num_handle` is its length. -/
structure AddAttrTabParam where
  status : GattStatus
  svcInstId : UInt8
  handles : List UInt16
  deriving DecidableEq, Repr

def AddAttrTabParam.numHandle (p : AddAttrTabParam) : ℕ := p.handles.length

/-- `esp_gatts_cb_event_t`, each event with the parameters the handlers read. -/
inductive GattsEvent
  | regEvt (p : RegParam)
  | readEvt
  | writeEvt (p : WriteParam)
  | execWriteEvt
  | mtuEvt
  | confEvt
  | startEvt
  | connectEvt (p : ConnectParam)
  | disconnectEvt (connId : UInt16)
  | creatAttrTabEvt (p : AddAttrTabParam)
  | stopEvt
  | openEvt
  | cancelOpenEvt
  | closeEvt
  | listenEvt
  | congestEvt
  | unregEvt
  | deleteEvt
  | otherEvt (code : ℕ)
  deriving DecidableEq, Repr

/-- `esp_gap_ble_cb_event_t`. The parameters are only logged. -/
inductive GapEvent
  | advDataSetCompleteEvt
  | scanRspDataSetCompleteEvt
  | advStartCompleteEvt
  | advStopCompleteEvt
  | updateConnParamsEvt
  | otherEvt (code : ℕ)
  deriving DecidableEq, Repr

/-! ### Calls -/

structure AdvData where
  setScanRsp : Bool
  includeName : Bool
  includeTxpower : Bool
  minInterval : UInt16
  maxInterval : UInt16
  appearance : UInt16
  serviceUuid : List UInt8
  flag : UInt8
  deriving DecidableEq, Repr

/-- `esp_ble_adv_params_t`, the two intervals; the other members are fixed. -/
structure AdvParams where
  advIntMin : UInt16
  advIntMax : UInt16
  deriving DecidableEq, Repr

structure ConnUpdateParams where
  bda : BdAddr
  latency : UInt16
  minInt : UInt16
  maxInt : UInt16
  timeout : UInt16
  deriving DecidableEq, Repr

inductive AttrDb
  | appSvcDb
  | disDb
  | battDb
  deriving DecidableEq, Repr

inductive StackCall
  | gapSetDeviceName (name : String)
  | gapConfigAdvData (data : AdvData)
  | gapStartAdvertising (params : AdvParams)
  | gapUpdateConnParams (params : ConnUpdateParams)
  | gattsCreateAttrTab (db : AttrDb) (gattsIf : GattIf) (maxNbAttr : ℕ) (srvcInstId : UInt8)
  | gattsStartService (serviceHandle : UInt16)
  | gattsSetAttrValue (attrHandle : UInt16) (value : List UInt8)
  | gattsSendIndicate (gattsIf : GattIf) (connId attrHandle valueLen : UInt16)
      (value : List UInt8) (needConfirm : Bool)
  | gattsSendResponse (gattsIf : GattIf) (connId : UInt16) (transId : UInt32)
      (status : GattStatus)
  | consoleCmdRegister (command : String)
  deriving DecidableEq, Repr

end EspressifApp.Bluetooth
