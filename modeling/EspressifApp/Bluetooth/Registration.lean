import EspressifApp.Bluetooth.Calls

/-!
Registration events. A registration that fails, or is for an unknown
application, is logged and not recorded; but the event then goes on to the
dispatch loop like any other, and a handler that receives it sets its service
up. So the event has the effect it should have exactly when its interface leads
the loop to the registered service and to no other (`registration_handled_iff`).
-/

namespace EspressifApp.Bluetooth

open Reactive

/-- The service a registration event registers, if it registers one. -/
def RegParam.service (p : RegParam) : Option ServiceIdx :=
  if p.status = .ok then serviceOfAppId p.appId else none

theorem RegParam.service_eq_some {p : RegParam} {idx : ServiceIdx} :
    p.service = some idx ↔ p.status = .ok ∧ p.appId = idx.appId := by
  unfold RegParam.service
  split_ifs with h
  · rw [serviceOfAppId_eq_some]; simp [h]
  · simp [h]

theorem RegParam.service_iff_registration {p : RegParam} {idx : ServiceIdx} :
    (GattsEvent.regEvt p).registration = some idx.appId ↔ p.service = some idx := by
  rw [RegParam.service_eq_some, GattsEvent.registration]
  split_ifs with h <;> simp [h]

/-- What a registration event should do: reach the handler of the service it
registers and no other, record the interface and the id in the entry of that
service, and make that service request its table, with advertising for the
application service and the console command for the battery. -/
structure RegistrationHandled (d : Device) (p : RegParam) (gattsIf : GattIf) : Prop where
  called : ∀ idx, idx ∈ handlersCalled (.regEvt p) gattsIf d ↔ p.service = some idx
  entries : ∀ idx, (gattsEventHandler (.regEvt p) gattsIf d).1.serviceProfileTab idx =
    if p.service = some idx then
      { d.serviceProfileTab idx with gattsIf := gattsIf.toUInt16, appId := p.appId }
    else d.serviceProfileTab idx
  requests : ble.out d (.gatts (.regEvt p) gattsIf) =
    p.service.elim [] fun idx => (idx.setupCalls gattsIf).map (Emission.mk (.profile idx))

/-- The interface of a registration event is a particular one, and if a service
already has it, that service is the one being registered. -/
def InterfaceOwn (d : Device) (p : RegParam) (gattsIf : GattIf) : Prop :=
  gattsIf ≠ espGattIfNone ∧
    ∀ idx, gattsIf.toUInt16 = (d.serviceProfileTab idx).gattsIf → p.service = some idx

theorem registerOnEvent_inst (d : Device) (p : RegParam) (gattsIf : GattIf)
    (idx : ServiceIdx) :
    (registerOnEvent (.regEvt p) gattsIf d).serviceProfileTab idx =
      if p.service = some idx then
        { d.serviceProfileTab idx with gattsIf := gattsIf.toUInt16, appId := p.appId }
      else d.serviceProfileTab idx := by
  rw [← Device.part_inst, registerOnEvent_part]
  by_cases h : p.service = some idx
  · rw [if_pos h, if_pos (RegParam.service_iff_registration.mpr h),
      (RegParam.service_eq_some.mp h).2, ServicePart.register, Device.part_inst]
  · rw [if_neg h, if_neg (fun hr => h (RegParam.service_iff_registration.mp hr)),
      Device.part_inst]

/-- Whatever the event, the handlers leave the entries as registration left
them. -/
theorem gattsEventHandler_regEvt_inst (d : Device) (p : RegParam) (gattsIf : GattIf)
    (idx : ServiceIdx) :
    (gattsEventHandler (.regEvt p) gattsIf d).1.serviceProfileTab idx =
      (registerOnEvent (.regEvt p) gattsIf d).serviceProfileTab idx := by
  rw [← Device.part_inst, ← Device.part_inst, gattsEventHandler_part]
  simp only [ServicePart.deliver]
  split_ifs <;> rfl

/-- The loop leads a registration event to the registered service and to no
other exactly when its interface is that service's own. -/
theorem routes_registered_iff {d : Device} {p : RegParam} {gattsIf : GattIf} :
    (∀ idx, (registerOnEvent (.regEvt p) gattsIf d).Routes gattsIf idx ↔
      p.service = some idx) ↔ InterfaceOwn d p gattsIf := by
  constructor
  · intro hroutes
    have hne : gattsIf ≠ espGattIfNone := by
      intro hnone
      have happ := (hroutes .app).mp (.inl hnone)
      have hdis := (hroutes .dis).mp (.inl hnone)
      rw [happ] at hdis
      cases hdis
    refine ⟨hne, fun idx hidx => ?_⟩
    by_contra hservice
    apply hservice
    apply (hroutes idx).mp
    right
    rw [registerOnEvent_inst, if_neg hservice, hidx]
  · rintro ⟨hne, hown⟩ idx
    rw [Device.Routes, registerOnEvent_inst]
    by_cases hservice : p.service = some idx
    · simp [hservice]
    · rw [if_neg hservice]
      exact ⟨fun h => hown idx (h.resolve_left hne), fun h => absurd h hservice⟩

theorem filter_serviceIdxs_eq (o : Option ServiceIdx) :
    (serviceIdxs.filter fun idx => o = some idx) = o.toList := by
  cases o with
  | none => rfl
  | some idx => cases idx <;> rfl

/-- A registration event has its effect, and no other, exactly when its
interface is not `ESP_GATT_IF_NONE` and no service but the registered one has
it. -/
theorem registration_handled_iff (d : Device) (p : RegParam) (gattsIf : GattIf) :
    RegistrationHandled d p gattsIf ↔ InterfaceOwn d p gattsIf := by
  rw [← routes_registered_iff]
  constructor
  · intro h idx
    rw [← h.called idx, mem_handlersCalled]
  · intro hroutes
    refine ⟨fun idx => by rw [mem_handlersCalled, hroutes], fun idx => ?_, ?_⟩
    · rw [gattsEventHandler_regEvt_inst, registerOnEvent_inst]
    · simp only [ble, emissions, gattsEventHandler_log, hroutes, filter_serviceIdxs_eq,
        profileCalls]
      cases p.service <;> simp

/-- The application registration fails on `ESP_GATT_IF_NONE`, and all three
services request their tables. -/
theorem failed_registration_broadcast :
    ¬ ∀ h p gattsIf, RegistrationHandled (ble.after h) p gattsIf := by
  intro hall
  have hcalled := (hall [] ⟨.failed 0x80, 0x10⟩ espGattIfNone).called .app
  exact absurd hcalled (by decide)

end EspressifApp.Bluetooth
