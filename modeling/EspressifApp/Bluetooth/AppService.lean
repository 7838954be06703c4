import EspressifApp.Bluetooth.General

/-!
The application service, `bt_svc_app.cpp`. Its handler is also the one that
looks after what is global to the device: it sets up advertising when it is
registered and restarts it when a client leaves.
-/

namespace EspressifApp.Bluetooth

/-- `ADV_CONFIG_FLAG`, the same in `bt_svc_app.cpp` and `bt_general.h`. -/
def advConfigFlag : UInt8 := 1 <<< (0 : UInt8)

def scanRspConfigFlag : UInt8 := 1 <<< (1 : UInt8)

def appSvcServiceUuid : List UInt8 :=
  [0xF2, 0xB4, 0x98, 0xA8, 0xD2, 0x15, 0xE2, 0xAF, 0x03, 0x4B, 0x00, 0x01, 0x75, 0x17, 0xAF, 0x30]

/-- `adv_data`. The flag is general discoverable, BR/EDR not supported. -/
def advData : AdvData where
  setScanRsp := false
  includeName := false
  includeTxpower := true
  minInterval := 0x0006
  maxInterval := 0x0010
  appearance := 0x00
  serviceUuid := appSvcServiceUuid
  flag := 0x06

def scanRspData : AdvData where
  setScanRsp := true
  includeName := true
  includeTxpower := false
  minInterval := 0x0006
  maxInterval := 0x0010
  appearance := 0x00
  serviceUuid := []
  flag := 0x06

/-- `adv_params`, the same in `bt_svc_app.cpp` and `Bluetooth.cpp`. -/
def advParams : AdvParams where
  advIntMin := 0x20
  advIntMax := 0x40

/-- `prepare_advertising`: both payloads are requested and both flags set in
`adv_config_done`. -/
def prepareAdvertising (d : Device) : Device × List StackCall :=
  ({ d with advConfigDone := d.advConfigDone ||| advConfigFlag ||| scanRspConfigFlag },
    [.gapSetDeviceName "devicename", .gapConfigAdvData advData, .gapConfigAdvData scanRspData])

def setConnectionParams (p : ConnectParam) : List StackCall :=
  [.gapUpdateConnParams
    { bda := p.remoteBda, latency := 0, minInt := 0x10, maxInt := 0x20, timeout := 400 }]

/-- The answer to a write: one response when the client asks for one. -/
def sendWriteResponse (gattsIf : GattIf) (p : WriteParam) : List StackCall :=
  if p.needRsp then [.gattsSendResponse gattsIf p.connId p.transId .ok] else []

def appSvcProfileEventHandler (event : GattsEvent) (gattsIf : GattIf) (d : Device) :
    Device × List StackCall :=
  match event with
  | .regEvt _ =>
      let r := prepareAdvertising d
      (r.1, r.2 ++
        [.gattsCreateAttrTab .appSvcDb gattsIf appIdxNb ServiceIdx.app.svcInstId])
  | .writeEvt p =>
      -- a write to the value characteristic or to an unknown handle is only logged
      let d' :=
        if p.handle = d.appSvcHandleTable.get idxAppCharCfgSpp then
          { d with notifySvcAppSpp := updateNotifyValue p d.notifySvcAppSpp }
        else d
      (d', sendWriteResponse gattsIf p)
  | .connectEvt p => (d, setConnectionParams p)
  | .disconnectEvt _ => (d, [.gapStartAdvertising advParams])
  | .creatAttrTabEvt p =>
      match acceptAttrTab appIdxNb p with
      | none => (d, [])
      | some table =>
          ({ d with appSvcHandleTable := table }, [.gattsStartService (table.get idxAppSvc)])
  | _ => (d, [])

/-- `app_svc_send_data`. The length goes through a `uint16_t` parameter. -/
def appSvcSendData (data : List UInt8) (d : Device) : List StackCall :=
  if data.length > 0 then
    let inst := d.serviceProfileTab .app
    let handle := d.appSvcHandleTable.get idxAppCharValSpp
    if d.notifySvcAppSpp ≠ .none then
      [.gattsSendIndicate inst.gattsIf.toUInt8 inst.connId handle data.length.toUInt16 data
        (d.notifySvcAppSpp == .indicate)]
    else []
  else []

end EspressifApp.Bluetooth
