import EspressifApp.Bluetooth.General

/-!
The device information service, `bt_svc_dis.cpp`. Once its table is installed
it fills the five attributes with their fixed texts.
-/

namespace EspressifApp.Bluetooth

def textBytes (s : String) : List UInt8 := s.toList.map fun c => c.toNat.toUInt8

def disSetAttrValues (table : Vector UInt16 disIdxNb) : List StackCall :=
  [.gattsSetAttrValue (table.get idxDisCharValModelNumber) (textBytes "model number"),
    .gattsSetAttrValue (table.get idxDisCharValSerialNumber) (textBytes "serial number"),
    .gattsSetAttrValue (table.get idxDisCharValFwRevision) (textBytes "fw revision"),
    .gattsSetAttrValue (table.get idxDisCharValHwRevision) (textBytes "hw_revision"),
    .gattsSetAttrValue (table.get idxDisCharValSwRevision) (textBytes "sw_revision")]

def disProfileEventHandler (event : GattsEvent) (gattsIf : GattIf) (d : Device) :
    Device × List StackCall :=
  match event with
  | .regEvt _ =>
      (d, [.gattsCreateAttrTab .disDb gattsIf disIdxNb ServiceIdx.dis.svcInstId])
  | .creatAttrTabEvt p =>
      match acceptAttrTab disIdxNb p with
      | none => (d, [])
      | some table =>
          ({ d with disHandleTable := table },
            disSetAttrValues table ++ [.gattsStartService (table.get idxDisSvc)])
  | _ => (d, [])

end EspressifApp.Bluetooth
