import EspressifApp.Bluetooth.Sessions

/-!
The battery level and its attribute. The stack copies `batt_level` when it
builds the battery table, and reports the table later; from then on the
firmware knows the handle under which it can store a new level. A level accepted
in between reaches `batt_level` and not the attribute.

`battery` is the firmware with the part of the stack that matters beside it:
the tables requested and built, and the values of the attributes. Building a
table is a step of the stack alone.
-/

namespace EspressifApp.Bluetooth

open Reactive

/-! ### The attributes -/

/-- The handle of the value characteristic among the handles of a table. -/
def levelHandle (handles : List UInt16) : UInt16 := handles.getD 2 0

/-- The battery tables requested, those built and not yet reported, each with
the level it was built with, the values of the battery-level attributes, the
attribute of the table reported last, and the level accepted last. -/
structure LevelStore where
  requested : ℕ
  built : List (List UInt16 × UInt8)
  value : UInt16 → Option (List UInt8)
  inUse : Option UInt16
  accepted : UInt8

def LevelStore.boot : LevelStore where
  requested := 0
  built := []
  value _ := none
  inUse := none
  accepted := 0

/-- An input of the firmware, or the building of a table by the stack. -/
inductive LevelInput
  | input (i : Input)
  | build (handles : List UInt16)
  deriving DecidableEq, Repr

def LevelInput.firmware : LevelInput → Option Input
  | .input i => some i
  | .build _ => none

/-- A value is stored under a handle that names a battery-level attribute, and
under no other. -/
def LevelStore.store (a : LevelStore) (handle : UInt16) (value : List UInt8) : LevelStore :=
  { a with
    value :=
      if a.value handle = none then a.value else Function.update a.value handle (some value) }

def LevelStore.call (a : LevelStore) (e : Emission) : LevelStore :=
  match e.call with
  | .gattsCreateAttrTab .battDb _ _ _ => { a with requested := a.requested + 1 }
  | .gattsSetAttrValue handle value => a.store handle value
  | _ => a

def LevelStore.report (a : LevelStore) (handles : List UInt16) : LevelStore :=
  { a with
    built := a.built.filter fun t => t.1 ≠ handles
    inUse := some (levelHandle handles) }

/-- What an input is to the account: a table the battery service accepts is
reported, and a level up to 100 is accepted. -/
def LevelStore.receive (a : LevelStore) (d : Device) : Input → LevelStore
  | .gatts (.creatAttrTabEvt p) gattsIf =>
      if d.Routes gattsIf .batt ∧ ServiceIdx.batt.Accepts p then a.report p.handles else a
  | .setBatteryLevel percentage =>
      if percentage ≤ 100 then { a with accepted := percentage } else a
  | _ => a

def LevelStore.build (a : LevelStore) (level : UInt8) (handles : List UInt16) : LevelStore where
  requested := a.requested - 1
  built := (handles, level) :: a.built
  value := Function.update a.value (levelHandle handles) (some [level])
  inUse := a.inUse
  accepted := a.accepted

def LevelStore.watch (a : LevelStore) (d : Device) : LevelInput → LevelStore
  | .input i => (ble.out d i).foldl LevelStore.call (a.receive d i)
  | .build handles => a.build d.battLevel handles

/-- The firmware, with the attributes beside it. -/
def battery : Machine (Device × LevelStore) LevelInput Emission :=
  (ble.via LevelInput.firmware).monitor LevelStore.boot LevelStore.watch

theorem battery_after (h : List LevelInput) :
    (battery.after h).1 = ble.after (h.filterMap LevelInput.firmware) := by
  rw [battery, Machine.monitor_after_fst, Machine.via_after]

/-- A table is built on request, with handles of its own for its four
attributes; a table reported to the battery service was built; and the handles
of the device information service name no battery-level attribute. -/
def TableTraffic (s : Device × LevelStore) : LevelInput → Prop
  | .build handles =>
      0 < s.2.requested ∧ handles.length = battIdxNb ∧ levelHandle handles ≠ 0 ∧
        s.2.value (levelHandle handles) = none
  | .input (.gatts (.creatAttrTabEvt p) gattsIf) =>
      (s.1.Routes gattsIf .batt → ServiceIdx.batt.Accepts p →
        p.handles ∈ s.2.built.map Prod.fst) ∧
      (s.1.Routes gattsIf .dis → ServiceIdx.dis.Accepts p → ∀ h ∈ p.handles, s.2.value h = none)
  | _ => True

instance (s : Device × LevelStore) (k : LevelInput) : Decidable (TableTraffic s k) := by
  unfold TableTraffic
  split
  · infer_instance
  · next p gattsIf =>
      have : Decidable (∀ h ∈ p.handles, s.2.value h = none) := List.decidableBAll _ _
      infer_instance
  · infer_instance

/-- What a step should leave: a level of at most 100, the one accepted last, in
`batt_level` and in the attribute in use; nothing changed by a level above 100;
and in every notification the level just stored. -/
structure LevelReadable (s : Device × LevelStore) (k : LevelInput) : Prop where
  bounded : (battery.next s k).1.battLevel ≤ 100
  last : (battery.next s k).1.battLevel = (battery.next s k).2.accepted
  readable : ∀ h ∈ (battery.next s k).2.inUse,
    (battery.next s k).2.value h = some [(battery.next s k).1.battLevel]
  rejected : ∀ percentage, k = .input (.setBatteryLevel percentage) → 100 < percentage →
    battery.next s k = s ∧ battery.out s k = []
  notified : ∀ i, k = .input i → ∀ n ∈ notifications s.1 i, n.service = .batt →
    n.value = [(battery.next s k).1.battLevel]

/-- A table is reported while `batt_level` is the level it was built with. -/
def LevelUnchanged (s : Device × LevelStore) : LevelInput → Prop
  | .input (.gatts (.creatAttrTabEvt p) gattsIf) =>
      s.1.Routes gattsIf .batt → ServiceIdx.batt.Accepts p →
        ∀ t ∈ s.2.built, t.1 = p.handles → t.2 = s.1.battLevel
  | _ => True

instance (s : Device × LevelStore) (k : LevelInput) : Decidable (LevelUnchanged s k) := by
  unfold LevelUnchanged
  split <;> infer_instance

/-! ### The two copies -/

/-- The firmware and the stack agree: on the level in the attribute in use, on
its handle, and on the tables that are built and not reported, whose attributes
keep the level they were built with. -/
structure LevelStore.Synced (level : UInt8) (handle : UInt16) (a : LevelStore) : Prop where
  bounded : level ≤ 100
  last : level = a.accepted
  handle : handle = a.inUse.getD 0
  readable : ∀ h ∈ a.inUse, a.value h = some [level]
  built : ∀ t ∈ a.built, a.value (levelHandle t.1) = some [t.2] ∧
    a.inUse ≠ some (levelHandle t.1)
  distinct : (a.built.map fun t => levelHandle t.1).Nodup
  zero : a.value 0 = none

variable {level : UInt8} {handle : UInt16} {a : LevelStore}

theorem LevelStore.Synced.requested (h : Synced level handle a) (n : ℕ) :
    Synced level handle { a with requested := n } :=
  ⟨h.bounded, h.last, h.handle, h.readable, h.built, h.distinct, h.zero⟩

theorem LevelStore.Synced.build (h : Synced level handle a) {handles : List UInt16}
    (hne : levelHandle handles ≠ 0) (hfresh : a.value (levelHandle handles) = none) :
    Synced level handle (a.build level handles) := by
  -- a handle that names an attribute is not the new one
  have hold : ∀ h v, a.value h = some v → (a.build level handles).value h = some v := by
    intro h v hv
    have hh : h ≠ levelHandle handles := by
      rintro rfl
      rw [hfresh] at hv
      cases hv
    exact (Function.update_of_ne hh _ _).trans hv
  refine ⟨h.bounded, h.last, h.handle, fun g hg => hold g _ (h.readable g hg),
    fun t ht => ?_, ?_, ?_⟩
  · rcases List.mem_cons.mp ht with rfl | ht
    · refine ⟨Function.update_self .., fun hinUse => ?_⟩
      have hnamed := h.readable _ hinUse
      rw [hfresh] at hnamed
      cases hnamed
    · exact ⟨hold _ _ (h.built t ht).1, (h.built t ht).2⟩
  · refine List.nodup_cons.mpr ⟨fun hmem => ?_, h.distinct⟩
    obtain ⟨t, ht, heq⟩ := List.mem_map.mp hmem
    have hnamed := (h.built t ht).1
    rw [heq, hfresh] at hnamed
    cases hnamed
  · exact (Function.update_of_ne hne.symm _ _).trans h.zero

theorem LevelStore.Synced.accept (h : Synced level handle a) {percentage : UInt8}
    (hlevel : percentage ≤ 100) :
    Synced percentage handle ({ a with accepted := percentage }.store handle [percentage]) := by
  obtain ⟨-, -, hhandle, hreadable, hbuilt, hdistinct, hzero⟩ := h
  rcases a.inUse.eq_none_or_eq_some with hnone | ⟨g, hsome⟩
  · -- the handle is still 0, and names nothing
    rw [hnone, Option.getD_none] at hhandle
    have hvalue : (store { a with accepted := percentage } handle [percentage]).value = a.value :=
      if_pos (by rw [hhandle, hzero])
    refine ⟨hlevel, rfl, by rw [hhandle]; exact (congrArg (Option.getD · 0) hnone).symm,
      fun g hg => ?_, fun t ht => ?_, hdistinct, (congrFun hvalue 0).trans hzero⟩
    · cases hnone.symm.trans hg
    · rw [hvalue]
      exact hbuilt t ht
  · rw [hsome, Option.getD_some] at hhandle
    subst hhandle
    have hnamed := hreadable handle hsome
    have hvalue : (store { a with accepted := percentage } handle [percentage]).value =
        Function.update a.value handle (some [percentage]) :=
      if_neg (by rw [hnamed]; nofun)
    refine ⟨hlevel, rfl, (congrArg (Option.getD · 0) hsome).symm, fun g hg => ?_,
      fun t ht => ?_, hdistinct, ?_⟩
    · cases hsome.symm.trans hg
      rw [hvalue, Function.update_self]
    · obtain ⟨hval, hother⟩ := hbuilt t ht
      refine ⟨?_, hother⟩
      rw [hvalue, Function.update_of_ne, hval]
      exact fun heq => hother (hsome.trans (congrArg some heq.symm))
    · rw [hvalue, Function.update_of_ne, hzero]
      rintro rfl
      rw [hzero] at hnamed
      cases hnamed

theorem LevelStore.Synced.report (h : Synced level handle a) {handles : List UInt16}
    (hmem : handles ∈ a.built.map Prod.fst)
    (hlevel : ∀ t ∈ a.built, t.1 = handles → t.2 = level) :
    Synced level (levelHandle handles) (a.report handles) := by
  obtain ⟨t₀, ht₀, rfl⟩ := List.mem_map.mp hmem
  refine ⟨h.bounded, h.last, rfl, fun g hg => ?_, fun t ht => ?_, ?_, h.zero⟩
  · cases hg
    rw [← hlevel t₀ ht₀ rfl]
    exact (h.built t₀ ht₀).1
  · obtain ⟨ht, hne⟩ := List.mem_filter.mp ht
    refine ⟨(h.built t ht).1, fun heq => ?_⟩
    -- tables with the same value handle are the same table
    have hinj := List.inj_on_of_nodup_map h.distinct ht₀ ht (Option.some.inj heq)
    simp [hinj] at hne
  · exact h.distinct.sublist (List.filter_sublist.map _)

/-! ### The steps -/

/-- Calls that store nothing under a handle that names an attribute only count
requests. -/
theorem foldl_call_eq (es : List Emission) (a : LevelStore)
    (hes : ∀ e ∈ es, ∀ handle value, e.call = .gattsSetAttrValue handle value →
      a.value handle = none) : ∃ n, es.foldl LevelStore.call a = { a with requested := n } := by
  induction es generalizing a with
  | nil => exact ⟨a.requested, rfl⟩
  | cons e es ih =>
      have hcall : ∃ n, a.call e = { a with requested := n } := by
        unfold LevelStore.call
        split
        · exact ⟨_, rfl⟩
        · rename_i handle value heq
          refine ⟨a.requested, ?_⟩
          rw [LevelStore.store, if_pos (hes e List.mem_cons_self handle value heq)]
        · exact ⟨a.requested, rfl⟩
      obtain ⟨n, hn⟩ := hcall
      rw [List.foldl_cons, hn]
      exact ih { a with requested := n } fun e' he' => hes e' (List.mem_cons_of_mem _ he')

theorem value_getD_none {value : UInt16 → Option (List UInt8)} (hzero : value 0 = none)
    {handles : List UInt16} (hall : ∀ h ∈ handles, value h = none) (n : ℕ) :
    value (handles.getD n 0) = none := by
  rw [List.getD_eq_getElem?_getD]
  cases hn : handles[n]? with
  | none => exact hzero
  | some h => exact hall h (List.mem_of_getElem? hn)

theorem watch_input {d : Device} {i : Input} (hzero : a.value 0 = none)
    (hok : TableTraffic (d, a) (.input i)) (hi : ∀ percentage, i ≠ .setBatteryLevel percentage) :
    ∃ n, a.watch d (.input i) = { a.receive d i with requested := n } := by
  have hreceive : (a.receive d i).value = a.value := by
    unfold LevelStore.receive
    split
    · split_ifs <;> rfl
    · exact absurd rfl (hi _)
    · rfl
  apply foldl_call_eq
  intro e he handle value heq
  rw [hreceive]
  cases makes_of_mem_out he with
  | profile hroute h =>
      cases h with
      | value p n text hidx hp =>
          subst hidx
          cases heq
          exact value_getD_none hzero (hok.2 hroute hp) n
      | _ => cases heq
  | storeLevel level _ => exact absurd rfl (hi level)
  | _ => cases heq

theorem watch_setBatteryLevel (d : Device) (a : LevelStore) {percentage : UInt8}
    (hlevel : percentage ≤ 100) :
    ∃ n, a.watch d (.input (.setBatteryLevel percentage)) =
      { { a with accepted := percentage }.store (d.part .batt).valueHandle [percentage] with
        requested := n } := by
  simp only [LevelStore.watch, LevelStore.receive, if_pos hlevel, ble, battSetBatteryLevel,
    d.part_batt_valueHandle, List.map_cons, List.foldl_cons]
  apply foldl_call_eq
  intro e he handle value heq
  split_ifs at he
  · simp only [List.map_cons, List.map_nil, List.mem_singleton] at he
    rw [he] at heq
    cases heq
  · cases he

theorem ble_next_valueHandle {d : Device} {i : Input} (hi : installs d .batt i = none) :
    ((ble.next d i).part .batt).valueHandle = (d.part .batt).valueHandle := by
  rw [ServicePart.valueHandle, ServicePart.valueHandle, ble_next_handles, hi, Option.getD_none]

def LevelStore.InStep (s : Device × LevelStore) : Prop :=
  Synced s.1.battLevel (s.1.part .batt).valueHandle s.2

theorem inStep_boot : LevelStore.InStep battery.init :=
  ⟨by decide, rfl, rfl, nofun, nofun, List.nodup_nil, rfl⟩

theorem inStep_next {s : Device × LevelStore} {k : LevelInput} (hI : LevelStore.InStep s)
    (hok : TableTraffic s k) (hcond : LevelUnchanged s k) :
    LevelStore.InStep (battery.next s k) := by
  obtain ⟨d, a⟩ := s
  cases k with
  | build handles => exact hI.build hok.2.2.1 hok.2.2.2
  | input i =>
      show LevelStore.Synced (ble.next d i).battLevel ((ble.next d i).part .batt).valueHandle
        (a.watch d (.input i))
      by_cases hset : ∃ percentage, i = .setBatteryLevel percentage
      · obtain ⟨percentage, rfl⟩ := hset
        rw [ble_next_valueHandle rfl, ble_next_battLevel]
        dsimp only
        split_ifs with hlevel
        · obtain ⟨n, hn⟩ := watch_setBatteryLevel d a hlevel
          rw [hn]
          exact (hI.accept hlevel).requested n
        · rw [LevelStore.watch, LevelStore.receive, if_neg hlevel,
            show ble.out d (.setBatteryLevel percentage) = [] by
              simp [ble, battSetBatteryLevel, hlevel]]
          exact hI
      · have hi : ∀ percentage, i ≠ .setBatteryLevel percentage :=
          fun percentage heq => hset ⟨percentage, heq⟩
        obtain ⟨n, hn⟩ := watch_input hI.zero hok hi
        have hlevel : (ble.next d i).battLevel = d.battLevel := by
          rw [ble_next_battLevel]
          split
          · exact absurd rfl (hi _)
          · rfl
        rw [hn, hlevel]
        apply LevelStore.Synced.requested
        -- a report of a table is the one other input that matters to the attribute
        by_cases hreport : ∃ p g, i = .gatts (.creatAttrTabEvt p) g ∧ d.Routes g .batt ∧
            ServiceIdx.batt.Accepts p
        · obtain ⟨p, g, rfl, hroute, hp⟩ := hreport
          rw [LevelStore.receive, if_pos ⟨hroute, hp⟩, ServicePart.valueHandle, ble_next_handles,
            installs, if_pos ⟨hroute, hp⟩, Option.getD_some]
          exact hI.report (hok.1 hroute hp) (hcond hroute hp)
        · have hnone : installs d .batt i = none := by
            unfold installs
            split
            · exact if_neg fun h => hreport ⟨_, _, rfl, h⟩
            · rfl
          have hreceive : a.receive d i = a := by
            unfold LevelStore.receive
            split
            · exact if_neg fun h => hreport ⟨_, _, rfl, h⟩
            · exact absurd rfl (hi _)
            · rfl
          rw [ble_next_valueHandle hnone, hreceive]
          exact hI

theorem setBatteryLevel_rejected (s : Device × LevelStore) {percentage : UInt8}
    (hlevel : 100 < percentage) :
    battery.next s (.input (.setBatteryLevel percentage)) = s ∧
      battery.out s (.input (.setBatteryLevel percentage)) = [] := by
  have hnot : ¬ percentage ≤ 100 := by rw [UInt8.not_le]; exact hlevel
  have hout : ble.out s.1 (.setBatteryLevel percentage) = [] := by
    simp [ble, battSetBatteryLevel, hnot]
  have hnext : ble.next s.1 (.setBatteryLevel percentage) = s.1 := by
    simp [ble, battSetBatteryLevel, hnot]
  have hwatch : s.2.watch s.1 (.input (.setBatteryLevel percentage)) = s.2 := by
    rw [LevelStore.watch, LevelStore.receive, if_neg hnot, hout, List.foldl_nil]
  exact ⟨Prod.ext hnext hwatch, hout⟩

theorem battery_notified (s : Device × LevelStore) (i : Input) {n : Notification}
    (hn : n ∈ notifications s.1 i) (hbatt : n.service = .batt) :
    n.value = [(battery.next s (.input i)).1.battLevel] := by
  cases i with
  | setBatteryLevel percentage =>
      rw [notifications_setBatteryLevel] at hn
      split_ifs at hn with hsend
      · rw [List.mem_singleton.mp hn]
        exact congrArg (fun level => [level])
          ((ble_next_battLevel s.1 (.setBatteryLevel percentage)).trans (if_pos hsend.1)).symm
      · cases hn
  | sendData data =>
      rw [notifications_sendData] at hn
      split_ifs at hn
      · rw [List.mem_singleton.mp hn] at hbatt
        cases hbatt
      · cases hn
  | gatts event g => rw [notifications_gatts] at hn; cases hn
  | gap event => rw [notifications_gap] at hn; cases hn

/-- A report that finds the attribute at the present level found it built with
that level. -/
theorem levelUnchanged_of_readable {s : Device × LevelStore} {k : LevelInput}
    (hI : LevelStore.InStep s) (hok : TableTraffic s k) (hP : LevelReadable s k) :
    LevelUnchanged s k := by
  obtain ⟨d, a⟩ := s
  unfold LevelUnchanged
  split
  · rename_i p g
    intro hroute hp t ht hhandles
    obtain ⟨n, hn⟩ := watch_input hI.zero hok fun _ => nofun
    have hnext : (battery.next (d, a) (.input (.gatts (.creatAttrTabEvt p) g))).2 =
        { a.report p.handles with requested := n } := by
      refine hn.trans ?_
      rw [LevelStore.receive, if_pos ⟨hroute, hp⟩]
    have hlevel : (battery.next (d, a) (.input (.gatts (.creatAttrTabEvt p) g))).1.battLevel =
        d.battLevel := ble_next_battLevel d (.gatts (.creatAttrTabEvt p) g)
    have hread := hP.readable (levelHandle p.handles) (by rw [hnext]; rfl)
    rw [hnext, hlevel, ← hhandles] at hread
    have hbuilt := (hI.built t ht).1.symm.trans hread
    simpa using hbuilt
  · trivial

/-- The level is readable at every moment exactly when `batt_level` is, at
every report of a table, the level the table was built with. -/
theorem battery_level_readable_iff (h : List LevelInput) (hok : battery.Along TableTraffic h) :
    battery.Along LevelReadable h ↔ battery.Along LevelUnchanged h := by
  refine Machine.along_iff_of_invariant (I := LevelStore.InStep) inStep_boot
    (fun s k hI hk hcond => inStep_next hI hk hcond)
    (fun s k hI hk => ⟨fun hP => levelUnchanged_of_readable hI hk hP, fun hcond => ?_⟩) hok
  have hnext := inStep_next hI hk hcond
  refine ⟨hnext.bounded, hnext.last, hnext.readable, ?_, ?_⟩
  · rintro percentage rfl hlevel
    exact setBatteryLevel_rejected s hlevel
  · rintro i rfl n hn hbatt
    exact battery_notified s i hn hbatt

/-- A level is accepted before the table is built and another one after it is
reported. -/
def levelAround : List LevelInput :=
  [.input (.gatts (.regEvt ⟨.ok, 0x12⟩) 5), .input (.setBatteryLevel 50),
    .build [60, 61, 62, 63], .input (.gatts (.creatAttrTabEvt ⟨.ok, 2, [60, 61, 62, 63]⟩) 5),
    .input (.setBatteryLevel 80), .input (.setBatteryLevel 101)]

theorem battery_level_readable_iff_levelAround :
    battery.Along LevelReadable levelAround ↔ battery.Along LevelUnchanged levelAround :=
  battery_level_readable_iff levelAround (by decide)

/-- A level is accepted after the table is built and before it is reported: the
attribute keeps the old one. -/
def levelBetween : List LevelInput :=
  [.input (.gatts (.regEvt ⟨.ok, 0x12⟩) 5), .build [60, 61, 62, 63],
    .input (.setBatteryLevel 50), .input (.gatts (.creatAttrTabEvt ⟨.ok, 2, [60, 61, 62, 63]⟩) 5)]

theorem levelBetween_lost :
    ¬ ∀ h, battery.Along TableTraffic h → battery.Along LevelReadable h := by
  intro hall
  have hread := (hall levelBetween (by decide)).2.2.2.1.readable 62 (by decide)
  exact absurd hread (by decide)

end EspressifApp.Bluetooth
