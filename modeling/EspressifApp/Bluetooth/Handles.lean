import EspressifApp.Bluetooth.Isolation

/-!
Whose handles a service stores. A handler takes a creation event for the answer
to its own request when it is routed to it and counts as many handles as its
service has attributes; it does not look at the instance id of the event. The
ledger here remembers the requests that are still open, and the latest answer
to each service that was successful.

Where the loop leads an event to the service it answers and to no other, the
two agree. It does not when a failed registration went to all the handlers: the
requests they made then are answered on `ESP_GATT_IF_NONE`, which goes to all of
them again, and the application and battery services count the same number of
attributes.
-/

namespace EspressifApp.Bluetooth

open Reactive

/-! ### Requests and their answers -/

/-- A creation event that is the answer a service waits for: its own instance
id, status and count. -/
def ServiceIdx.Owns (idx : ServiceIdx) (p : AddAttrTabParam) : Prop :=
  p.svcInstId = idx.svcInstId ∧ idx.Accepts p

instance (idx : ServiceIdx) (p : AddAttrTabParam) : Decidable (idx.Owns p) :=
  inferInstanceAs (Decidable (_ ∧ _))

/-- The open requests, each with its interface and instance id, and the handles
each service was last sent in answer to its own. -/
structure TableLedger where
  requests : List (GattIf × UInt8)
  latest : ServiceIdx → Option (List UInt16)

def TableLedger.boot : TableLedger := { requests := [], latest := fun _ => none }

def Emission.request (e : Emission) : Option (GattIf × UInt8) :=
  match e.call with
  | .gattsCreateAttrTab _ gattsIf _ srvcInstId => some (gattsIf, srvcInstId)
  | _ => none

def tableRequests (d : Device) (i : Input) : List (GattIf × UInt8) :=
  (ble.out d i).filterMap Emission.request

def TableLedger.answer (t : TableLedger) : Input → TableLedger
  | .gatts (.creatAttrTabEvt p) gattsIf =>
      { requests := t.requests.erase (gattsIf, p.svcInstId)
        latest := fun idx => if idx.Owns p then some p.handles else t.latest idx }
  | _ => t

def TableLedger.watch (t : TableLedger) (s : Device × Registry) (i : Input) : TableLedger :=
  { t.answer i with requests := (t.answer i).requests ++ tableRequests s.1 i }

/-- The firmware with the ledger of registrations and that of the tables. -/
def tables : Machine ((Device × Registry) × TableLedger) Input Emission :=
  registry.monitor TableLedger.boot TableLedger.watch

theorem tables_after (h : List Input) : (tables.after h).1.1 = ble.after h := by
  rw [tables, Machine.monitor_after_fst, registry_after]

/-- Registrations bring fresh interfaces, and a creation event answers an open
request. -/
def Answers (s : (Device × Registry) × TableLedger) (i : Input) : Prop :=
  FreshInterfaces s.1 i ∧
    match i with
    | .gatts (.creatAttrTabEvt p) gattsIf => (gattsIf, p.svcInstId) ∈ s.2.requests
    | _ => True

instance (s : (Device × Registry) × TableLedger) (i : Input) : Decidable (Answers s i) := by
  unfold Answers
  split <;> infer_instance

/-! ### What a step starts -/

def Emission.startHandle (e : Emission) : Option UInt16 :=
  match e.call with
  | .gattsStartService serviceHandle => some serviceHandle
  | _ => none

/-- The `esp_ble_gatts_start_service` calls a service makes in a step. -/
def started (d : Device) (idx : ServiceIdx) (i : Input) : List UInt16 :=
  ((ble.out d i).filter idx.observer.sees).filterMap Emission.startHandle

/-- A service is started when its table is installed, and then only. -/
theorem started_eq (d : Device) (i : Input) (idx : ServiceIdx) :
    started d idx i = (installs d idx i).elim [] fun handles => [handles.getD 0 0] := by
  by_cases hi : ∃ p gattsIf, i = .gatts (.creatAttrTabEvt p) gattsIf
  · obtain ⟨p, gattsIf, rfl⟩ := hi
    rw [started, observer_sees_gatts]
    simp only [registerOnEvent, installs, profileCalls]
    by_cases hroute : d.Routes gattsIf idx <;> by_cases hp : idx.Accepts p <;>
      simp only [hroute, hp, if_true, if_false, and_true, and_false, and_self]
    · cases idx <;> rfl
    · rfl
    · rfl
    · rfl
  · have hnone : installs d idx i = none :=
      installs_eq_none fun p gattsIf heq => hi ⟨p, gattsIf, heq⟩
    rw [hnone, Option.elim_none, started, List.filterMap_filter, List.filterMap_eq_nil_iff]
    intro e he
    split_ifs
    · cases makes_of_mem_out he with
      | profile _ h =>
          cases h with
          | start p _ => exact absurd ⟨p, _, rfl⟩ hi
          | _ => rfl
      | _ => rfl
    · rfl

/-! ### Open requests -/

/-- A request is made by a service when a registration event is routed to it. -/
theorem exists_of_mem_tableRequests {d : Device} {i : Input} {gattsIf : GattIf}
    {srvcInstId : UInt8} (hmem : (gattsIf, srvcInstId) ∈ tableRequests d i) :
    ∃ p idx, i = .gatts (.regEvt p) gattsIf ∧
      (registerOnEvent (.regEvt p) gattsIf d).Routes gattsIf idx ∧
        srvcInstId = idx.svcInstId := by
  obtain ⟨e, he, hrequest⟩ := List.mem_filterMap.mp hmem
  cases makes_of_mem_out he with
  | profile hroute h =>
      cases h with
      | table p db => cases hrequest; exact ⟨p, _, rfl, hroute, rfl⟩
      | _ => cases hrequest
  | _ => cases hrequest

/-- The requests open on a particular interface are those of the service it was
given to. -/
def RequestsOwned (r : Registry) (requests : List (GattIf × UInt8)) : Prop :=
  ∀ gattsIf srvcInstId, (gattsIf, srvcInstId) ∈ requests → gattsIf ≠ espGattIfNone →
    ∃ idx : ServiceIdx, srvcInstId = idx.svcInstId ∧ r.owner gattsIf = some idx.appId

theorem requestsOwned_next {s : (Device × Registry) × TableLedger} {i : Input}
    (hreg : Registered s.1.1 s.1.2) (h : RequestsOwned s.1.2 s.2.requests) (hok : Answers s i) :
    RequestsOwned (tables.next s i).1.2 (tables.next s i).2.requests := by
  obtain ⟨⟨d, r⟩, t⟩ := s
  intro gattsIf srvcInstId hmem hne
  have hreg' := registered_next hreg hok.1
  rcases List.mem_append.mp hmem with hold | hnew
  · -- the owner of an interface does not change
    have hopen : (gattsIf, srvcInstId) ∈ t.requests := by
      unfold TableLedger.answer at hold
      split at hold
      · exact List.mem_of_mem_erase hold
      · exact hold
    obtain ⟨idx, hid, howner⟩ := h gattsIf srvcInstId hopen hne
    exact ⟨idx, hid, owner_next hok.1 howner⟩
  · obtain ⟨p, idx, rfl, hroute, hid⟩ := exists_of_mem_tableRequests hnew
    have hreg' := hreg.register hok.1
    exact ⟨idx, hid, (hreg'.owned idx gattsIf ((hreg'.routes_iff hne idx).mp hroute)).2⟩

/-- On a particular interface, a creation event is routed to no service but the
one whose request it answers. -/
theorem svcInstId_of_routes {s : (Device × Registry) × TableLedger} {p : AddAttrTabParam}
    {gattsIf : GattIf} (hreg : Registered s.1.1 s.1.2)
    (hopen : RequestsOwned s.1.2 s.2.requests)
    (hok : Answers s (.gatts (.creatAttrTabEvt p) gattsIf)) (hne : gattsIf ≠ espGattIfNone)
    {idx : ServiceIdx} (hroute : s.1.1.Routes gattsIf idx) : p.svcInstId = idx.svcInstId := by
  obtain ⟨j, hid, howner⟩ := hopen gattsIf p.svcInstId hok.2 hne
  have howned := (hreg.owned idx gattsIf ((hreg.routes_iff hne idx).mp hroute)).2
  rw [hid, ServiceIdx.appId_injective (Option.some.inj (howner.symm.trans howned))]

/-! ### Own handles -/

def ServiceIdx.zeroTable (idx : ServiceIdx) : List UInt16 := List.replicate idx.idxNb 0

/-- The handles of a service are all zero, or those of the latest answer to its
own request. -/
def OwnHandles (idx : ServiceIdx) (s : ServicePart) (t : TableLedger) : Prop :=
  s.handles = idx.zeroTable ∨ t.latest idx = some s.handles

instance (idx : ServiceIdx) (s : ServicePart) (t : TableLedger) :
    Decidable (OwnHandles idx s t) :=
  inferInstanceAs (Decidable (_ ∨ _))

/-- What a step should do to the handle tables: leave each with handles of its
own, ignore a creation event with another status or count than its service
waits for, and start a service exactly when its table is installed. -/
structure TablesOwn (s : (Device × Registry) × TableLedger) (i : Input) : Prop where
  own : ∀ idx, OwnHandles idx ((tables.next s i).1.1.part idx) (tables.next s i).2
  rejected : ∀ p gattsIf, i = .gatts (.creatAttrTabEvt p) gattsIf →
    (∀ idx : ServiceIdx, ¬ idx.Owns p) → ∀ idx,
      ((tables.next s i).1.1.part idx).handles = (s.1.1.part idx).handles ∧
        started s.1.1 idx i = []
  start : ∀ idx, (((tables.next s i).1.1.part idx).handles = (s.1.1.part idx).handles ∧
      started s.1.1 idx i = []) ∨
    ∃ p gattsIf, i = .gatts (.creatAttrTabEvt p) gattsIf ∧
      ((tables.next s i).1.1.part idx).handles = p.handles ∧
        started s.1.1 idx i = [p.handles.getD 0 0]

/-- A successful creation event on `ESP_GATT_IF_NONE` has the number of handles
of the service it answers only, and one on a particular interface finds that
service still there. The alternatives are the cases where it does not show:
another service is sent the handles it has, or none but zeros, beside the
service answered; or the service that has moved has no handles yet, or these. -/
def CreationRouted (s : (Device × Registry) × TableLedger) : Input → Prop
  | .gatts (.creatAttrTabEvt p) gattsIf =>
      if gattsIf = espGattIfNone then
        ∀ idx : ServiceIdx, idx.Accepts p → ¬ idx.Owns p →
          (∃ j : ServiceIdx, j.Owns p) ∧
            (p.handles = idx.zeroTable ∨ s.2.latest idx = some p.handles)
      else
        ∀ idx : ServiceIdx, idx.Owns p →
          gattsIf.toUInt16 = (s.1.1.serviceProfileTab idx).gattsIf ∨
            (s.1.1.part idx).handles = idx.zeroTable ∨ (s.1.1.part idx).handles = p.handles
  | _ => True

instance (s : (Device × Registry) × TableLedger) (i : Input) :
    Decidable (CreationRouted s i) := by
  unfold CreationRouted
  split
  · split <;> infer_instance
  · infer_instance

variable {s : (Device × Registry) × TableLedger} {i : Input}

theorem tablesOwn_of_not_creation (hown : ∀ idx, OwnHandles idx (s.1.1.part idx) s.2)
    (hi : ∀ p gattsIf, i ≠ .gatts (.creatAttrTabEvt p) gattsIf) : TablesOwn s i := by
  have hinstalls : ∀ idx, installs s.1.1 idx i = none := fun idx => installs_eq_none hi
  have hlatest : (tables.next s i).2.latest = s.2.latest := by
    show (s.2.answer i).latest = s.2.latest
    unfold TableLedger.answer
    split
    · exact absurd rfl (hi _ _)
    · rfl
  have hhandles : ∀ idx, ((tables.next s i).1.1.part idx).handles = (s.1.1.part idx).handles :=
    fun idx => by rw [show (tables.next s i).1.1 = ble.next s.1.1 i from rfl, ble_next_handles,
      hinstalls, Option.getD_none]
  have hstarted : ∀ idx, started s.1.1 idx i = [] := fun idx => by
    rw [started_eq, hinstalls, Option.elim_none]
  refine ⟨fun idx => ?_, fun p gattsIf h => absurd h (hi p gattsIf),
    fun idx => .inl ⟨hhandles idx, hstarted idx⟩⟩
  rw [OwnHandles, hhandles, hlatest]
  exact hown idx

section Creation

variable {p : AddAttrTabParam} {gattsIf : GattIf}

theorem creation_handles (idx : ServiceIdx) :
    ((tables.next s (.gatts (.creatAttrTabEvt p) gattsIf)).1.1.part idx).handles =
      if s.1.1.Routes gattsIf idx ∧ idx.Accepts p then p.handles
      else (s.1.1.part idx).handles := by
  show ((ble.next s.1.1 (.gatts (.creatAttrTabEvt p) gattsIf)).part idx).handles = _
  rw [ble_next_handles, installs]
  split_ifs <;> rfl

theorem creation_started (idx : ServiceIdx) :
    started s.1.1 idx (.gatts (.creatAttrTabEvt p) gattsIf) =
      if s.1.1.Routes gattsIf idx ∧ idx.Accepts p then [p.handles.getD 0 0] else [] := by
  rw [started_eq, installs]
  split_ifs <;> rfl

/-- A creation event routed to a service that accepts it, but answers another,
came on `ESP_GATT_IF_NONE`. -/
theorem eq_none_of_stray (hreg : Registered s.1.1 s.1.2)
    (hopen : RequestsOwned s.1.2 s.2.requests)
    (hok : Answers s (.gatts (.creatAttrTabEvt p) gattsIf)) {idx : ServiceIdx}
    (hroute : s.1.1.Routes gattsIf idx) (haccept : idx.Accepts p) (howns : ¬ idx.Owns p) :
    gattsIf = espGattIfNone := by
  by_contra hne
  exact howns ⟨svcInstId_of_routes hreg hopen hok hne hroute, haccept⟩

theorem creationRouted_of_tablesOwn
    (h : TablesOwn s (.gatts (.creatAttrTabEvt p) gattsIf)) :
    CreationRouted s (.gatts (.creatAttrTabEvt p) gattsIf) := by
  simp only [CreationRouted]
  split_ifs with hnone
  · intro idx haccept howns
    have hinstalled : s.1.1.Routes gattsIf idx ∧ idx.Accepts p := ⟨.inl hnone, haccept⟩
    constructor
    · by_contra hnobody
      have hquiet := (h.rejected p gattsIf rfl (not_exists.mp hnobody) idx).2
      rw [creation_started, if_pos hinstalled] at hquiet
      cases hquiet
    · have hown := h.own idx
      rw [OwnHandles, creation_handles, if_pos hinstalled] at hown
      exact hown.imp_right fun hlatest => (if_neg howns).symm.trans hlatest
  · intro idx howns
    by_cases hroute : s.1.1.Routes gattsIf idx
    · exact .inl (hroute.resolve_left hnone)
    · have hown := h.own idx
      rw [OwnHandles, creation_handles, if_neg (fun hr => hroute hr.1)] at hown
      refine .inr (hown.imp_right fun hlatest => ?_)
      exact (Option.some.inj ((if_pos howns).symm.trans hlatest)).symm

theorem tablesOwn_of_creationRouted (hreg : Registered s.1.1 s.1.2)
    (hopen : RequestsOwned s.1.2 s.2.requests)
    (hown : ∀ idx, OwnHandles idx (s.1.1.part idx) s.2)
    (hok : Answers s (.gatts (.creatAttrTabEvt p) gattsIf))
    (hcond : CreationRouted s (.gatts (.creatAttrTabEvt p) gattsIf)) :
    TablesOwn s (.gatts (.creatAttrTabEvt p) gattsIf) := by
  simp only [CreationRouted] at hcond
  have hlatest : ∀ idx, (tables.next s (.gatts (.creatAttrTabEvt p) gattsIf)).2.latest idx =
      if idx.Owns p then some p.handles else s.2.latest idx := fun _ => rfl
  refine ⟨fun idx => ?_, fun p' g' heq hnobody idx => ?_, fun idx => ?_⟩
  · rw [OwnHandles, creation_handles, hlatest]
    by_cases howns : idx.Owns p
    · rw [if_pos howns]
      split_ifs with hinstalled
      · exact .inr rfl
      · -- the service has moved to another interface
        have hroute : ¬ s.1.1.Routes gattsIf idx := fun hr => hinstalled ⟨hr, howns.2⟩
        have hne : gattsIf ≠ espGattIfNone := fun hnone => hroute (.inl hnone)
        rw [if_neg hne] at hcond
        rcases hcond idx howns with hif | hzero | heq
        · exact absurd (.inr hif) hroute
        · exact .inl hzero
        · exact .inr (by rw [heq])
    · rw [if_neg howns]
      split_ifs with hinstalled
      · -- an answer to another service got here through `ESP_GATT_IF_NONE` only
        have hnone := eq_none_of_stray hreg hopen hok hinstalled.1 hinstalled.2 howns
        rw [if_pos hnone] at hcond
        exact (hcond idx hinstalled.2 howns).2
      · exact hown idx
  · cases heq
    have hinstalled : ¬ (s.1.1.Routes gattsIf idx ∧ idx.Accepts p) := by
      rintro ⟨hroute, haccept⟩
      have hnone := eq_none_of_stray hreg hopen hok hroute haccept (hnobody idx)
      rw [if_pos hnone] at hcond
      obtain ⟨j, hj⟩ := (hcond idx haccept (hnobody idx)).1
      exact hnobody j hj
    rw [creation_handles, creation_started, if_neg hinstalled, if_neg hinstalled]
    exact ⟨rfl, rfl⟩
  · rw [creation_handles, creation_started]
    by_cases hinstalled : s.1.1.Routes gattsIf idx ∧ idx.Accepts p
    · rw [if_pos hinstalled, if_pos hinstalled]
      exact .inr ⟨p, gattsIf, rfl, rfl, rfl⟩
    · rw [if_neg hinstalled, if_neg hinstalled]
      exact .inl ⟨rfl, rfl⟩

end Creation

/-- Every service keeps to its own handles exactly when creation events are led
to the service they answer and to no other. -/
theorem tables_own_iff (h : List Input) (hok : tables.Along Answers h) :
    tables.Along TablesOwn h ↔ tables.Along CreationRouted h := by
  have hiff : ∀ s i, (Registered s.1.1 s.1.2 ∧ RequestsOwned s.1.2 s.2.requests ∧
      ∀ idx, OwnHandles idx (s.1.1.part idx) s.2) → Answers s i →
        (TablesOwn s i ↔ CreationRouted s i) := by
    rintro s i ⟨hreg, hopen, hown⟩ hok
    by_cases hi : ∃ p gattsIf, i = .gatts (.creatAttrTabEvt p) gattsIf
    · obtain ⟨p, gattsIf, rfl⟩ := hi
      exact ⟨creationRouted_of_tablesOwn, tablesOwn_of_creationRouted hreg hopen hown hok⟩
    · have hquiet : CreationRouted s i := by
        unfold CreationRouted
        split
        · exact absurd ⟨_, _, rfl⟩ hi
        · trivial
      refine iff_of_true (tablesOwn_of_not_creation hown fun p g heq => hi ⟨p, g, heq⟩) hquiet
  refine Machine.along_iff_of_invariant ?_ (fun s i hI hok hcond => ?_) hiff hok
  · refine ⟨registered_boot, nofun, fun idx => .inl ?_⟩
    cases idx <;> rfl
  · exact ⟨registered_next hI.1 hok.1, requestsOwned_next hI.1 hI.2.1 hok,
      ((hiff s i hI hok).mpr hcond).own⟩

def tablesInstalled : List Input :=
  [.gatts (.regEvt ⟨.ok, 0x10⟩) 3, .gatts (.regEvt ⟨.ok, 0x12⟩) 5,
    .gatts (.creatAttrTabEvt ⟨.ok, 2, [60, 61, 62, 63]⟩) 5,
    .gatts (.creatAttrTabEvt ⟨.ok, 0, [40, 41, 42, 43]⟩) 3]

theorem tables_own_iff_installed :
    tables.Along TablesOwn tablesInstalled ↔ tables.Along CreationRouted tablesInstalled :=
  tables_own_iff tablesInstalled (by decide)

/-- A failed registration on `ESP_GATT_IF_NONE` makes all the services request
their tables; the table of the application service is answered, and the battery
service installs it too. -/
def strayTable : List Input :=
  [.gatts (.regEvt ⟨.failed 0x80, 0x10⟩) espGattIfNone,
    .gatts (.creatAttrTabEvt ⟨.ok, 0, [40, 41, 42, 43]⟩) espGattIfNone]

theorem strayTable_installed :
    ¬ ∀ h, tables.Along Answers h → tables.Along TablesOwn h := by
  intro hall
  have hown := (hall strayTable (by decide)).2.1.own .batt
  exact absurd hown (by decide)

end EspressifApp.Bluetooth
