import EspressifApp.Bluetooth.Registration

/-!
The services do not interfere. The stack gives each application its own
interface; `Registry` remembers which it gave to whom, and `registry` is the
firmware with this ledger beside it. Under the ledger the interfaces in the
profile table are pairwise distinct, so an event on an interface reaches one
handler at most, and what a service does depends on its own part alone.
-/

namespace EspressifApp.Bluetooth

open Reactive

/-- The application each interface was given to, and the interface each service
was given last. -/
structure Registry where
  owner : GattIf → Option UInt16
  latest : ServiceIdx → Option GattIf

def Registry.boot : Registry := { owner := fun _ => none, latest := fun _ => none }

def Registry.register (r : Registry) (event : GattsEvent) (gattsIf : GattIf) : Registry :=
  match event.registration with
  | none => r
  | some appId =>
      { owner := Function.update r.owner gattsIf (some appId)
        latest := fun idx => if appId = idx.appId then some gattsIf else r.latest idx }

def Registry.watch (r : Registry) (_ : Device) : Input → Registry
  | .gatts event gattsIf => r.register event gattsIf
  | _ => r

/-- The firmware, with the ledger of registrations beside it. -/
def registry : Machine (Device × Registry) Input Emission :=
  ble.monitor Registry.boot Registry.watch

theorem registry_after (h : List Input) : (registry.after h).1 = ble.after h :=
  ble.monitor_after_fst Registry.boot Registry.watch h

/-- A successful registration brings a particular interface, and one that no
other application was given. -/
def FreshInterfaces (s : Device × Registry) : Input → Prop
  | .gatts event gattsIf => ∀ appId ∈ event.registration,
      gattsIf ≠ espGattIfNone ∧ ∀ o ∈ s.2.owner gattsIf, o = appId
  | _ => True

-- the one value there may be is looked at, not all those of the type
instance (s : Device × Registry) : (i : Input) → Decidable (FreshInterfaces s i)
  | .gatts event gattsIf =>
      have : ∀ appId : UInt16, Decidable (∀ o ∈ s.2.owner gattsIf, o = appId) :=
        fun _ => Option.decidableForallMem _
      Option.decidableForallMem event.registration
  | .gap _ | .sendData _ | .setBatteryLevel _ => instDecidableTrue

/-! ### The ledger and the profile table -/

/-- The profile table holds the interface each service was given last, each of
which belongs to that service in the ledger. -/
structure Registered (d : Device) (r : Registry) : Prop where
  entry : ∀ idx, (d.serviceProfileTab idx).gattsIf =
    ((r.latest idx).getD espGattIfNone).toUInt16
  owned : ∀ idx g, r.latest idx = some g →
    g ≠ espGattIfNone ∧ r.owner g = some idx.appId

variable {d : Device} {r : Registry} {event : GattsEvent} {gattsIf : GattIf}

theorem Registered.latest_injective (h : Registered d r) {i j : ServiceIdx} {g : GattIf}
    (hi : r.latest i = some g) (hj : r.latest j = some g) : i = j := by
  have howner := (h.owned i g hi).2.symm.trans (h.owned j g hj).2
  exact ServiceIdx.appId_injective (Option.some.inj howner)

theorem Registered.routes_iff (h : Registered d r) (hne : gattsIf ≠ espGattIfNone)
    (idx : ServiceIdx) : d.Routes gattsIf idx ↔ r.latest idx = some gattsIf := by
  rw [Device.Routes, h.entry, or_iff_right hne]
  exact toUInt16_eq_getD_iff hne (r.latest idx)

theorem Registered.register (h : Registered d r)
    (hfresh : FreshInterfaces (d, r) (.gatts event gattsIf)) :
    Registered (registerOnEvent event gattsIf d) (r.register event gattsIf) := by
  cases hreg : event.registration with
  | none =>
      have hr : r.register event gattsIf = r := by rw [Registry.register, hreg]
      rw [hr]
      refine ⟨fun idx => ?_, h.owned⟩
      rw [← Device.part_inst, registerOnEvent_part, hreg, if_neg nofun, Device.part_inst, h.entry]
  | some appId =>
      obtain ⟨hne, howner⟩ := hfresh appId hreg
      rw [Registry.register, hreg]
      constructor
      · intro idx
        rw [← Device.part_inst, registerOnEvent_part]
        simp only [hreg, Option.some.injEq]
        split_ifs
        · rfl
        · rw [Device.part_inst, h.entry]
      · intro idx g hg
        dsimp only at hg ⊢
        split_ifs at hg with happ
        · cases hg
          exact ⟨hne, by rw [Function.update_self, happ]⟩
        · obtain ⟨hgne, hgowner⟩ := h.owned idx g hg
          refine ⟨hgne, ?_⟩
          rw [Function.update_of_ne, hgowner]
          -- the interface is new to every other application
          rintro rfl
          exact happ (howner _ hgowner).symm

theorem Registered.of_inst {d' : Device} (h : Registered d r)
    (hinst : ∀ idx, (d'.serviceProfileTab idx).gattsIf = (d.serviceProfileTab idx).gattsIf) :
    Registered d' r :=
  ⟨fun idx => (hinst idx).trans (h.entry idx), h.owned⟩

theorem gattsEventHandler_gattsIf (event : GattsEvent) (gattsIf : GattIf) (d : Device)
    (idx : ServiceIdx) :
    ((gattsEventHandler event gattsIf d).1.serviceProfileTab idx).gattsIf =
      ((registerOnEvent event gattsIf d).serviceProfileTab idx).gattsIf := by
  rw [← Device.part_inst, ← Device.part_inst, gattsEventHandler_part]
  split_ifs
  · rw [ServicePart.deliver_gattsIf]
  · rfl

theorem registered_next {s : Device × Registry} {i : Input} (h : Registered s.1 s.2)
    (hfresh : FreshInterfaces s i) :
    Registered (registry.next s i).1 (registry.next s i).2 := by
  obtain ⟨d, r⟩ := s
  cases i with
  | gatts event gattsIf =>
      exact (h.register hfresh).of_inst fun idx => gattsEventHandler_gattsIf event gattsIf d idx
  | gap event => exact h.of_inst fun idx => by cases event <;> rfl
  | sendData data => exact h
  | setBatteryLevel percentage =>
      apply h.of_inst
      intro idx
      show ((battSetBatteryLevel percentage d).1.serviceProfileTab idx).gattsIf = _
      rw [← Device.part_inst, ← Device.part_inst, battSetBatteryLevel_part]
      split_ifs <;> rfl

theorem owner_next {s : Device × Registry} {i : Input} (hfresh : FreshInterfaces s i)
    {g : GattIf} {appId : UInt16} (howner : s.2.owner g = some appId) :
    (registry.next s i).2.owner g = some appId := by
  cases i with
  | gatts event gattsIf =>
      show (s.2.register event gattsIf).owner g = some appId
      cases hreg : event.registration with
      | none => rw [Registry.register, hreg]; exact howner
      | some o =>
          rw [Registry.register, hreg]
          dsimp only
          by_cases hg : g = gattsIf
          · subst hg
            rw [Function.update_self, (hfresh o hreg).2 appId howner]
          · rw [Function.update_of_ne hg, howner]
  | _ => exact howner

theorem registered_boot : Registered Device.boot Registry.boot :=
  ⟨fun _ => rfl, nofun⟩

/-! ### One service at a time -/

/-- What an event on a particular interface does across the services: it calls
the handler of the service last given that interface, and no other, and leaves
the parts of the others alone. -/
structure Isolated (s : Device × Registry) (event : GattsEvent) (gattsIf : GattIf) : Prop where
  called : ∀ idx, idx ∈ handlersCalled event gattsIf s.1 ↔
    (registry.next s (.gatts event gattsIf)).2.latest idx = some gattsIf
  single : (handlersCalled event gattsIf s.1).length ≤ 1
  others : ∀ idx ∉ handlersCalled event gattsIf s.1,
    (registry.next s (.gatts event gattsIf)).1.part idx = s.1.part idx

theorem handlersCalled_nodup (event : GattsEvent) (gattsIf : GattIf) (d : Device) :
    (handlersCalled event gattsIf d).Nodup := by
  rw [handlersCalled_eq]
  exact List.Nodup.filter _ (by decide)

theorem isolated_of_registered {s : Device × Registry} (h : Registered s.1 s.2)
    (hne : gattsIf ≠ espGattIfNone) (hfresh : FreshInterfaces s (.gatts event gattsIf)) :
    Isolated s event gattsIf := by
  obtain ⟨d, r⟩ := s
  have hreg := h.register hfresh
  have hcalled : ∀ idx, idx ∈ handlersCalled event gattsIf d ↔
      (r.register event gattsIf).latest idx = some gattsIf := fun idx => by
    rw [mem_handlersCalled, hreg.routes_iff hne]
  refine ⟨hcalled, ?_, fun idx hidx => ?_⟩
  · -- two handlers called would have the same interface
    have hnodup := handlersCalled_nodup event gattsIf d
    match hlist : handlersCalled event gattsIf d with
    | [] | [_] => simp
    | i :: j :: rest =>
        rw [hlist] at hnodup hcalled
        have hij : i = j := hreg.latest_injective ((hcalled i).mp (by simp))
          ((hcalled j).mp (by simp))
        simp [hij] at hnodup
  · show (gattsEventHandler event gattsIf d).1.part idx = d.part idx
    rw [gattsEventHandler_part, if_neg (fun hr => hidx (mem_handlersCalled.mpr hr)),
      registerOnEvent_part, if_neg]
    -- a service registered by the event is called by it
    intro hsvc
    apply hidx
    apply (hcalled idx).mpr
    rw [Registry.register, hsvc]
    exact if_pos rfl

theorem handlersCalled_none (event : GattsEvent) (d : Device) :
    handlersCalled event espGattIfNone d = [.app, .dis, .batt] := by
  have hall : ∀ idx, (registerOnEvent event espGattIfNone d).Routes espGattIfNone idx :=
    fun _ => .inl rfl
  simp [handlersCalled_eq, hall, serviceIdxs]

/-! ### Two runs -/

/-- The service a call was made for; `gap_event_handler` serves the whole
device. -/
def Emission.service (e : Emission) : Option ServiceIdx :=
  match e.origin with
  | .profile idx => some idx
  | .gapEventHandler => none
  | .appSvcSendData => some .app
  | .battSetBatteryLevel => some .batt

/-- A service as an observer of the firmware: its own part and its own calls. -/
def ServiceIdx.observer (idx : ServiceIdx) : Machine.Observer Device Emission ServicePart where
  view d := d.part idx
  sees e := e.service = some idx

theorem observer_sees_gatts (idx : ServiceIdx) (event : GattsEvent) (gattsIf : GattIf)
    (d : Device) : (ble.out d (.gatts event gattsIf)).filter idx.observer.sees =
      if (registerOnEvent event gattsIf d).Routes gattsIf idx then
        (profileCalls gattsIf idx event).map (Emission.mk (.profile idx))
      else [] := by
  have hcalls : ∀ j, ((profileCalls gattsIf j event).map (Emission.mk (.profile j))).filter
      idx.observer.sees =
        if j = idx then (profileCalls gattsIf j event).map (Emission.mk (.profile j)) else [] := by
    intro j
    split_ifs with hj <;>
      simp [List.filter_map, Function.comp_def, ServiceIdx.observer, Emission.service, hj]
  simp only [ble, emissions, gattsEventHandler_log, List.flatMap_map, List.filter_flatMap, hcalls]
  generalize registerOnEvent event gattsIf d = d'
  by_cases happ : d'.Routes gattsIf .app <;> by_cases hdis : d'.Routes gattsIf .dis <;>
    by_cases hbatt : d'.Routes gattsIf .batt <;> cases idx <;>
    simp [serviceIdxs, happ, hdis, hbatt]

theorem ble_step_agrees {idx : ServiceIdx} {d d' : Device} (i : Input)
    (hpart : d.part idx = d'.part idx) :
    (ble.next d i).part idx = (ble.next d' i).part idx ∧
      (ble.out d i).filter idx.observer.sees = (ble.out d' i).filter idx.observer.sees := by
  cases i with
  | gatts event gattsIf =>
      -- registration comes first, and reads no part but that of its service
      have hreg : (registerOnEvent event gattsIf d).part idx =
          (registerOnEvent event gattsIf d').part idx := by
        rw [registerOnEvent_part, registerOnEvent_part, hpart]
      refine ⟨?_, ?_⟩
      · show (gattsEventHandler event gattsIf d).1.part idx =
          (gattsEventHandler event gattsIf d').1.part idx
        rw [gattsEventHandler_part, gattsEventHandler_part]
        simp only [routes_congr hreg, hreg]
      · rw [observer_sees_gatts, observer_sees_gatts]
        simp only [routes_congr hreg]
  | gap event =>
      refine ⟨?_, ?_⟩
      · show (gapEventHandler event d).1.part idx = (gapEventHandler event d').1.part idx
        rw [gapEventHandler_part, gapEventHandler_part, hpart]
      · simp [ble, List.filter_map, Function.comp_def, ServiceIdx.observer, Emission.service]
  | sendData data =>
      refine ⟨hpart, ?_⟩
      cases idx with
      | app =>
          have hcalls : appSvcSendData data d = appSvcSendData data d' :=
            appSvcSendData_congr data hpart
          simp only [ble, hcalls]
      | dis | batt =>
          simp [ble, List.filter_map, Function.comp_def, ServiceIdx.observer, Emission.service]
  | setBatteryLevel percentage =>
      refine ⟨?_, ?_⟩
      · show (battSetBatteryLevel percentage d).1.part idx =
          (battSetBatteryLevel percentage d').1.part idx
        rw [battSetBatteryLevel_part, battSetBatteryLevel_part, hpart]
      · cases idx with
        | batt =>
            have hcalls : (battSetBatteryLevel percentage d).2 =
                (battSetBatteryLevel percentage d').2 :=
              battSetBatteryLevel_congr percentage hpart
            simp only [ble, hcalls]
        | app | dis =>
            simp [ble, List.filter_map, Function.comp_def, ServiceIdx.observer, Emission.service]

/-- Under fresh interfaces an event on a particular interface concerns one
service, and one on `ESP_GATT_IF_NONE` calls each handler once; and from states
that agree on the part of a service, its part and its calls go on to agree
whatever comes in. -/
theorem services_isolated (h : List Input) (hfresh : registry.Along FreshInterfaces h) :
    (∀ event gattsIf, gattsIf ≠ espGattIfNone →
      FreshInterfaces (registry.after h) (.gatts event gattsIf) →
        Isolated (registry.after h) event gattsIf) ∧
    (∀ event, handlersCalled event espGattIfNone (registry.after h).1 = [.app, .dis, .batt]) ∧
    ∀ (idx : ServiceIdx) (d d' : Device), d.part idx = d'.part idx → ∀ inputs : List Input,
      (inputs.foldl ble.next d).part idx = (inputs.foldl ble.next d').part idx ∧
        (ble.traceFrom d inputs).filter idx.observer.sees =
          (ble.traceFrom d' inputs).filter idx.observer.sees := by
  have hregistered : Registered (registry.after h).1 (registry.after h).2 :=
    hfresh.after_of_invariant (I := fun s => Registered s.1 s.2) registered_boot
      fun _ _ hs hok => registered_next hs hok
  refine ⟨fun event gattsIf hne hevent => isolated_of_registered hregistered hne hevent,
    fun event => handlersCalled_none event _, fun idx d d' hpart inputs => ?_⟩
  exact Machine.runs_agree idx.observer (fun _ _ i hview => ble_step_agrees i hview)
    inputs d d' hpart

/-- The services are registered, one of them twice, and one registration
fails. -/
def registrations : List Input :=
  [.gatts (.regEvt ⟨.ok, 0x10⟩) 3, .gatts (.regEvt ⟨.failed 0x80, 0x11⟩) espGattIfNone,
    .gatts (.regEvt ⟨.ok, 0x12⟩) 5, .gatts (.regEvt ⟨.ok, 0x11⟩) 4,
    .gatts (.regEvt ⟨.ok, 0x20⟩) 6, .gatts (.regEvt ⟨.ok, 0x10⟩) 7]

theorem services_isolated_registrations :
    Isolated (registry.after registrations) (.connectEvt ⟨1, Vector.replicate 6 0⟩) 7 :=
  (services_isolated registrations (by decide)).1 _ _ (by decide) nofun

end EspressifApp.Bluetooth
