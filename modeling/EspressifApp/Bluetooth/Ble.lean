import EspressifApp.Bluetooth.Battery
import EspressifApp.Bluetooth.DeviceInfo
import EspressifApp.Reactive.Machine

/-!
`Bluetooth.cpp`: registration, the dispatch of GATT server events to the three
profiles, the GAP events, and the two operations of the `BLE` class that reach
a service. Together they make the firmware a reactive machine, `ble`, driven by
the callbacks of the stack and by the calls of the application.
-/

namespace EspressifApp.Bluetooth

open Reactive

/-! ### GATT server events -/

/-- The `switch` of `register_gatts_intf` on the application ID. -/
def serviceOfAppId (appId : UInt16) : Option ServiceIdx :=
  if appId = ServiceIdx.app.appId then some .app
  else if appId = ServiceIdx.dis.appId then some .dis
  else if appId = ServiceIdx.batt.appId then some .batt
  else none

def registerGattsIntf (gattsIf : GattIf) (p : RegParam) (d : Device) : Device :=
  if p.status = .ok then
    match serviceOfAppId p.appId with
    | none => d
    | some idx =>
        d.setProfile idx
          { d.serviceProfileTab idx with gattsIf := gattsIf.toUInt16, appId := p.appId }
  else d

def gattsCb : ServiceIdx → GattsEvent → GattIf → Device → Device × List StackCall
  | .app => appSvcProfileEventHandler
  | .dis => disProfileEventHandler
  | .batt => battProfileEventHandler

def Device.Routes (d : Device) (gattsIf : GattIf) (idx : ServiceIdx) : Prop :=
  gattsIf = espGattIfNone ∨ gattsIf.toUInt16 = (d.serviceProfileTab idx).gattsIf

instance (d : Device) (gattsIf : GattIf) (idx : ServiceIdx) :
    Decidable (d.Routes gattsIf idx) :=
  inferInstanceAs (Decidable (_ ∨ _))

/-- The dispatch loop over the remaining indices. It lists the handlers called,
in order, each with the calls it made. -/
def dispatch (event : GattsEvent) (gattsIf : GattIf) :
    List ServiceIdx → Device → Device × List (ServiceIdx × List StackCall)
  | [], d => (d, [])
  | idx :: rest, d =>
      if d.Routes gattsIf idx then
        let r := gattsCb idx event gattsIf d
        let q := dispatch event gattsIf rest r.1
        (q.1, (idx, r.2) :: q.2)
      else dispatch event gattsIf rest d

def serviceIdxs : List ServiceIdx := [.app, .dis, .batt]

/-- What `gatts_event_handler` does before the loop. -/
def registerOnEvent (event : GattsEvent) (gattsIf : GattIf) (d : Device) : Device :=
  match event with
  | .regEvt p => registerGattsIntf gattsIf p d
  | _ => d

/-- `gatts_event_handler`. The loop runs whatever `register_gatts_intf` found. -/
def gattsEventHandler (event : GattsEvent) (gattsIf : GattIf) (d : Device) :
    Device × List (ServiceIdx × List StackCall) :=
  dispatch event gattsIf serviceIdxs (registerOnEvent event gattsIf d)

/-! ### GAP events -/

/-- `b &= ~flag` on a `bool`: promoted to an integer and narrowed back. -/
def clearFlag (b : Bool) (flag : UInt8) : Bool :=
  ((if b then 1 else 0) &&& ~~~flag) != 0

def gapEventHandler (event : GapEvent) (d : Device) : Device × List StackCall :=
  match event with
  | .advDataSetCompleteEvt =>
      let d' := { d with advConfigComplete := clearFlag d.advConfigComplete advConfigFlag }
      (d', if d'.advConfigComplete = false then [.gapStartAdvertising advParams] else [])
  | .scanRspDataSetCompleteEvt =>
      let d' := { d with advConfigComplete := clearFlag d.advConfigComplete scanRspConfigFlag }
      (d', if d'.advConfigComplete = false then [.gapStartAdvertising advParams] else [])
  | _ => (d, [])

/-! ### The firmware as a machine -/

/-- What drives the firmware: the two callbacks, `BLE::sendData` and
`BLE::setBatteryLevel`. -/
inductive Input
  | gatts (event : GattsEvent) (gattsIf : GattIf)
  | gap (event : GapEvent)
  | sendData (data : List UInt8)
  | setBatteryLevel (percentage : UInt8)
  deriving DecidableEq, Repr

inductive Origin
  | profile (idx : ServiceIdx)
  | gapEventHandler
  | appSvcSendData
  | battSetBatteryLevel
  deriving DecidableEq, Repr

structure Emission where
  origin : Origin
  call : StackCall
  deriving DecidableEq, Repr

def emissions (log : List (ServiceIdx × List StackCall)) : List Emission :=
  log.flatMap fun e => e.2.map (Emission.mk (.profile e.1))

def ble : Machine Device Input Emission where
  init := Device.boot
  next d i :=
    match i with
    | .gatts event gattsIf => (gattsEventHandler event gattsIf d).1
    | .gap event => (gapEventHandler event d).1
    | .sendData _ => d
    | .setBatteryLevel percentage => (battSetBatteryLevel percentage d).1
  out d i :=
    match i with
    | .gatts event gattsIf => emissions (gattsEventHandler event gattsIf d).2
    | .gap event => (gapEventHandler event d).2.map (Emission.mk .gapEventHandler)
    | .sendData data => (appSvcSendData data d).map (Emission.mk .appSvcSendData)
    | .setBatteryLevel percentage =>
        (battSetBatteryLevel percentage d).2.map (Emission.mk .battSetBatteryLevel)

end EspressifApp.Bluetooth
