import EspressifApp.Bluetooth.AppService

/-!
The battery service, `bt_svc_batt.cpp`. The level is kept twice: in
`batt_level`, and in the attribute that clients read, which the firmware
reaches through the value handle once it knows it.
-/

namespace EspressifApp.Bluetooth

def registerBatteryCmd : List StackCall := [.consoleCmdRegister "battery"]

/-- The decoding of a client-configuration write, inlined in the handler's
`ESP_GATTS_WRITE_EVT` branch. -/
def battClientConfig (p : WriteParam) (value : NotificationType) : NotificationType :=
  match p.value with
  | [value0, value1] =>
      let descr := descrValue value0 value1
      if descr = 0x0001 then .notify
      else if descr = 0x0002 then .indicate
      else if descr = 0x0000 then .none
      else value
  | _ => value

def battProfileEventHandler (event : GattsEvent) (gattsIf : GattIf) (d : Device) :
    Device × List StackCall :=
  match event with
  | .regEvt _ =>
      (d, registerBatteryCmd ++
        [.gattsCreateAttrTab .battDb gattsIf battIdxNb ServiceIdx.batt.svcInstId])
  | .writeEvt p =>
      if !p.isPrep then
        let d' :=
          if d.battHandleTable.get idxBattCharCfgBattLevel = p.handle then
            { d with notifyBattery := battClientConfig p d.notifyBattery }
          else d
        (d', sendWriteResponse gattsIf p)
      else (d, [])
  | .connectEvt p =>
      (d.setProfile .batt { d.serviceProfileTab .batt with connId := p.connId }, [])
  | .creatAttrTabEvt p =>
      match acceptAttrTab battIdxNb p with
      | none => (d, [])
      | some table =>
          ({ d with battHandleTable := table }, [.gattsStartService (table.get idxBattSvc)])
  | _ => (d, [])

def battSetBatteryLevel (level : UInt8) (d : Device) : Device × List StackCall :=
  if level ≤ 100 then
    let inst := d.serviceProfileTab .batt
    let handle := d.battHandleTable.get idxBattCharValBattLevel
    ({ d with battLevel := level },
      .gattsSetAttrValue handle [level] ::
        if d.notifyBattery ≠ .none then
          [.gattsSendIndicate inst.gattsIf.toUInt8 inst.connId handle 1 [level]
            (d.notifyBattery == .indicate)]
        else [])
  else (d, [])

end EspressifApp.Bluetooth
