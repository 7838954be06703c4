import EspressifApp.Bluetooth.Calls

/-!
Client writes, service by service. The application and the battery service
each decode a client-configuration write, and all three handlers have to answer
a write that needs a response. The code for both is written out once per
service, so the copies are compared here: on the mode a write leaves, and on
the responses it gets.
-/

namespace EspressifApp.Bluetooth

/-! ### The mode after a write -/

def WriteParam.to (p : WriteParam) (handle : UInt16) : WriteParam := { p with handle := handle }

def WriteParam.len (p : WriteParam) : ℕ := p.value.length

/-- `update_notify_value` with every read of the payload checked: `none` if one
is beyond the length of the write. (An unknown value is also logged, but with
that length.) -/
def updateNotifyValueChecked (p : WriteParam) (value : NotificationType) :
    Option NotificationType :=
  if p.len = 2 then do
    let value1 ← p.value[1]?
    let value0 ← p.value[0]?
    let descr := descrValue value0 value1
    return if descr = 0x0000 then .none
      else if descr = 0x0001 then .notify
      else if descr = 0x0002 then .indicate
      else value
  else some value

/-- The decoding inlined in `batt_profile_event_handler`, checked likewise. -/
def battClientConfigChecked (p : WriteParam) (value : NotificationType) :
    Option NotificationType :=
  if p.len = 2 then do
    let value1 ← p.value[1]?
    let value0 ← p.value[0]?
    let descr := descrValue value0 value1
    return if descr = 0x0001 then .notify
      else if descr = 0x0002 then .indicate
      else if descr = 0x0000 then .none
      else value
  else some value

theorem updateNotifyValueChecked_eq (p : WriteParam) (value : NotificationType) :
    updateNotifyValueChecked p value = some (updateNotifyValue p value) := by
  rcases p with ⟨_, _, _, _, _, payload⟩
  match payload with
  | [] | [_] | _ :: _ :: _ :: _ =>
      simp [updateNotifyValueChecked, WriteParam.len, updateNotifyValue]
  | [_, _] => rfl

theorem battClientConfigChecked_eq (p : WriteParam) (value : NotificationType) :
    battClientConfigChecked p value = some (battClientConfig p value) := by
  rcases p with ⟨_, _, _, _, _, payload⟩
  match payload with
  | [] | [_] | _ :: _ :: _ :: _ =>
      simp [battClientConfigChecked, WriteParam.len, battClientConfig]
  | [_, _] => rfl

/-- The mode a client-configuration write asks for: a prepared write asks for
nothing yet, and neither does a payload that is no configuration value. -/
def decodedMode (p : WriteParam) (mode : NotificationType) : NotificationType :=
  if p.isPrep then mode else (clientConfig p.value).getD mode

/-- The mode of the application service after a write to its configuration
handle. -/
def appModeAfter (d : Device) (gattsIf : GattIf) (p : WriteParam) : NotificationType :=
  (appSvcProfileEventHandler (.writeEvt (p.to (d.appSvcHandleTable.get idxAppCharCfgSpp)))
    gattsIf d).1.notifySvcAppSpp

/-- The mode of the battery service after a write to its own. -/
def battModeAfter (d : Device) (gattsIf : GattIf) (p : WriteParam) : NotificationType :=
  (battProfileEventHandler (.writeEvt (p.to (d.battHandleTable.get idxBattCharCfgBattLevel)))
    gattsIf d).1.notifyBattery

/-- The two decoders agree on a write, from a starting mode: each service,
whatever else the device holds, ends in the mode the write asks for, and neither
reads beyond the payload. -/
structure DecodersAgree (mode : NotificationType) (p : WriteParam) : Prop where
  app : ∀ (d : Device) (gattsIf : GattIf), d.notifySvcAppSpp = mode →
    appModeAfter d gattsIf p = decodedMode p mode
  batt : ∀ (d : Device) (gattsIf : GattIf), d.notifyBattery = mode →
    battModeAfter d gattsIf p = decodedMode p mode
  same : ∀ (d d' : Device) (gattsIf gattsIf' : GattIf), d.notifySvcAppSpp = mode →
    d'.notifyBattery = mode → appModeAfter d gattsIf p = battModeAfter d' gattsIf' p
  reads : (updateNotifyValueChecked p mode).isSome ∧ (battClientConfigChecked p mode).isSome

theorem appModeAfter_eq (d : Device) (gattsIf : GattIf) (p : WriteParam) :
    appModeAfter d gattsIf p = (clientConfig p.value).getD d.notifySvcAppSpp := by
  simp only [appModeAfter, appSvcProfileEventHandler, WriteParam.to, if_true]
  exact updateNotifyValue_eq _ _

theorem battModeAfter_eq (d : Device) (gattsIf : GattIf) (p : WriteParam) :
    battModeAfter d gattsIf p = decodedMode p d.notifyBattery := by
  cases hprep : p.isPrep with
  | true => simp [battModeAfter, battProfileEventHandler, WriteParam.to, decodedMode, hprep]
  | false =>
      simp only [battModeAfter, battProfileEventHandler, WriteParam.to, decodedMode, hprep,
        Bool.not_false, if_true]
      exact battClientConfig_eq _ _

theorem appModeAfter_eq_decodedMode_iff (d : Device) (gattsIf : GattIf) (p : WriteParam) :
    appModeAfter d gattsIf p = decodedMode p d.notifySvcAppSpp ↔
      (p.isPrep = true → ∀ mode ∈ clientConfig p.value, mode = d.notifySvcAppSpp) := by
  rw [appModeAfter_eq, decodedMode]
  cases p.isPrep with
  | false => simp
  | true => cases clientConfig p.value <;> simp

/-- The decoders agree on a write exactly when it is not prepared, or names no
mode but the one the service is in. -/
theorem decodersAgree_iff (mode : NotificationType) (p : WriteParam) :
    DecodersAgree mode p ↔
      (p.isPrep = true → ∀ named ∈ clientConfig p.value, named = mode) := by
  constructor
  · intro h
    have happ := h.app { Device.boot with notifySvcAppSpp := mode } 0 rfl
    exact (appModeAfter_eq_decodedMode_iff _ _ p).mp happ
  · intro h
    have happ : ∀ (d : Device) (gattsIf : GattIf), d.notifySvcAppSpp = mode →
        appModeAfter d gattsIf p = decodedMode p mode := by
      rintro d gattsIf rfl
      exact (appModeAfter_eq_decodedMode_iff d gattsIf p).mpr h
    have hbatt : ∀ (d : Device) (gattsIf : GattIf), d.notifyBattery = mode →
        battModeAfter d gattsIf p = decodedMode p mode := by
      rintro d gattsIf rfl
      exact battModeAfter_eq d gattsIf p
    refine ⟨happ, hbatt, fun d d' gattsIf gattsIf' hd hd' => ?_, ?_⟩
    · rw [happ d gattsIf hd, hbatt d' gattsIf' hd']
    · simp [updateNotifyValueChecked_eq, battClientConfigChecked_eq]

/-- A write that prepares to subscribe subscribes to the application service. -/
theorem preparedSubscription_decoded :
    ¬ ∀ (mode : NotificationType) (p : WriteParam), DecodersAgree mode p := by
  intro hall
  have happ := (hall .none ⟨0, 1, 0, true, true, [1, 0]⟩).app Device.boot 3 rfl
  exact absurd happ (by decide)

/-! ### The response to a write -/

/-- The interface, the connection and the transaction a call responds to. -/
def StackCall.response : StackCall → Option (GattIf × UInt16 × UInt32)
  | .gattsSendResponse gattsIf connId transId _ => some (gattsIf, connId, transId)
  | _ => none

def responses (d : Device) (gattsIf : GattIf) (p : WriteParam) :
    List (GattIf × UInt16 × UInt32) :=
  (ble.out d (.gatts (.writeEvt p) gattsIf)).filterMap fun e => e.call.response

/-- A write that needs a response gets one, with its own interface, connection
and transaction, and no other write gets any. -/
def Answered (d : Device) (gattsIf : GattIf) (p : WriteParam) : Prop :=
  responses d gattsIf p = if p.needRsp then [(gattsIf, p.connId, p.transId)] else []

instance (d : Device) (gattsIf : GattIf) (p : WriteParam) : Decidable (Answered d gattsIf p) :=
  inferInstanceAs (Decidable (_ = _))

def Device.DistinctInterfaces (d : Device) : Prop :=
  ∀ i j, (d.serviceProfileTab i).gattsIf = (d.serviceProfileTab j).gattsIf →
    (d.serviceProfileTab i).gattsIf ≠ espGattIfNone.toUInt16 → i = j

instance (d : Device) : Decidable d.DistinctInterfaces :=
  inferInstanceAs (Decidable (∀ i j, _ → _ → i = j))

def Device.RegisteredWith (d : Device) (idx : ServiceIdx) (gattsIf : GattIf) : Prop :=
  gattsIf ≠ espGattIfNone ∧ (d.serviceProfileTab idx).gattsIf = gattsIf.toUInt16

instance (d : Device) (idx : ServiceIdx) (gattsIf : GattIf) :
    Decidable (d.RegisteredWith idx gattsIf) :=
  inferInstanceAs (Decidable (_ ∧ _))

variable {d : Device} {idx : ServiceIdx} {gattsIf : GattIf}

theorem Device.RegisteredWith.routes_iff (h : d.RegisteredWith idx gattsIf)
    (hdistinct : d.DistinctInterfaces) (j : ServiceIdx) : d.Routes gattsIf j ↔ j = idx := by
  obtain ⟨hne, hentry⟩ := h
  rw [Device.Routes, or_iff_right hne]
  constructor
  · intro hroute
    apply hdistinct j idx (hroute.symm.trans hentry.symm)
    rw [← hroute, Ne, ← UInt16.toNat_inj, UInt8.toNat_toUInt16, UInt8.toNat_toUInt16,
      UInt8.toNat_inj]
    exact hne
  · rintro rfl
    exact hentry.symm

theorem out_writeEvt (h : d.RegisteredWith idx gattsIf) (hdistinct : d.DistinctInterfaces)
    (p : WriteParam) : ble.out d (.gatts (.writeEvt p) gattsIf) =
      (profileCalls gattsIf idx (.writeEvt p)).map (Emission.mk (.profile idx)) := by
  have hcalled : (serviceIdxs.filter fun j => d.Routes gattsIf j) = [idx] := by
    simp only [h.routes_iff hdistinct]
    cases idx <;> rfl
  show emissions (gattsEventHandler (.writeEvt p) gattsIf d).2 = _
  rw [gattsEventHandler_log]
  show emissions ((serviceIdxs.filter fun j => d.Routes gattsIf j).map _) = _
  rw [hcalled]
  simp [emissions]

theorem responses_eq (h : d.RegisteredWith idx gattsIf) (hdistinct : d.DistinctInterfaces)
    (p : WriteParam) : responses d gattsIf p =
      if idx.Heeds p ∧ p.needRsp then [(gattsIf, p.connId, p.transId)] else [] := by
  rw [responses, out_writeEvt h hdistinct, profileCalls, sendWriteResponse]
  by_cases hheeds : idx.Heeds p <;> cases hneed : p.needRsp <;>
    simp [hheeds, StackCall.response]

/-- A write to a registered profile is answered exactly when it needs no
response or its handler heeds it: the application service heeds every write, the
battery service those that are not prepared, the device information service
none. -/
theorem answered_iff (d : Device) (hdistinct : d.DistinctInterfaces) (idx : ServiceIdx)
    (gattsIf : GattIf) (hidx : d.RegisteredWith idx gattsIf) (p : WriteParam) :
    Answered d gattsIf p ↔
      (p.needRsp = true → idx = .app ∨ (idx = .batt ∧ p.isPrep = false)) := by
  rw [Answered, responses_eq hidx hdistinct]
  cases hneed : p.needRsp with
  | false => simp
  | true => cases idx <;> simp [ServiceIdx.Heeds]

/-- The three services registered, each with its own interface. -/
def threeServices : List Input :=
  [.gatts (.regEvt ⟨.ok, 0x10⟩) 3, .gatts (.regEvt ⟨.ok, 0x11⟩) 4, .gatts (.regEvt ⟨.ok, 0x12⟩) 5]

theorem answered_app_prepared :
    Answered (ble.after threeServices) 3 ⟨7, 21, 0, true, true, [1, 0]⟩ :=
  (answered_iff _ (by decide) .app 3 (by decide) _).mpr (fun _ => .inl rfl)

/-- A prepared write to the battery service is left without its response. -/
theorem preparedWrite_unanswered :
    ¬ ∀ (h : List Input) (idx : ServiceIdx) (gattsIf : GattIf) (p : WriteParam),
      (ble.after h).DistinctInterfaces → (ble.after h).RegisteredWith idx gattsIf →
        Answered (ble.after h) gattsIf p := by
  intro hall
  have hsent := hall threeServices .batt 5 ⟨7, 21, 0, true, true, [1, 0]⟩ (by decide) (by decide)
  exact absurd hsent (by decide)

end EspressifApp.Bluetooth
