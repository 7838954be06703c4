import EspressifApp.Arithmetic.Scaling

/-!
The `tasks` command of `cmds.cpp`. The scheduler reports the run time of each
task and of all of them in 32-bit counters; the command divides the total by a
hundred and each counter by the result. Here is for which true run times the
percentages come out right.
-/

namespace EspressifApp.Commands

open Arithmetic

/-! ### The command -/

structure TaskStatus where
  pcTaskName : String
  uxCurrentPriority : UInt32
  uxBasePriority : UInt32
  ulRunTimeCounter : UInt32
  usStackHighWaterMark : UInt32
  deriving DecidableEq, Repr

structure HeapInfo where
  freeHeapSize : ℕ
  espFreeHeapSize : ℕ
  largestFreeBlock : ℕ
  largestFreeBlockInternal : ℕ
  deriving DecidableEq, Repr

inductive Printed
  | text (line : String)
  | header (columns : List String)
  | task (status : TaskStatus) (percentage : ℤ)
  | heap (label : String) (bytes : ℕ)
  deriving DecidableEq, Repr

def showHeapInfo (heap : HeapInfo) : List Printed :=
  [.heap "free bytes in heap" heap.freeHeapSize, .heap "ESP heap size" heap.espFreeHeapSize,
    .heap "largest free block" heap.largestFreeBlock,
    .heap "internal heap size" heap.largestFreeBlockInternal]

/-- `percentage`: the unsigned quotient, narrowed to an `int`. -/
def percentage (ulRunTimeCounter ulTotalRunTime : UInt32) : ℤ :=
  if ulTotalRunTime > 0 then (ulRunTimeCounter / ulTotalRunTime).toInt32.toInt else 0

/-- `cmd_tasks`, with what the system gives it: whether there is memory for the
array, the array as `uxTaskGetSystemState` fills it, the total run time and the
state of the heap. -/
def cmdTasks (allocated : Bool) (pxTaskStatusArray : List TaskStatus) (ulTotalRunTime : UInt32)
    (heap : HeapInfo) : List Printed :=
  if allocated then
    let table :=
      if pxTaskStatusArray.length > 0 then
        let total := ulTotalRunTime / 100
        .header ["Name", "CPri", "BPri", "Ctr", "Pct", "High Water"] ::
          pxTaskStatusArray.map (fun s => .task s (percentage s.ulRunTimeCounter total)) ++
          [.text ""]
      else []
    table ++ showHeapInfo heap
  else [.text "Unable to allocate task status memory"]

/-! ### True run times -/

/-- A task with its run time since the start, in an unbounded counter. -/
structure Task where
  name : String
  currentPriority : UInt32
  basePriority : UInt32
  runTime : ℕ
  stackHighWaterMark : UInt32

def Task.status (t : Task) : TaskStatus where
  pcTaskName := t.name
  uxCurrentPriority := t.currentPriority
  uxBasePriority := t.basePriority
  ulRunTimeCounter := UInt32.ofNat t.runTime
  usStackHighWaterMark := t.stackHighWaterMark

def percentages (printed : List Printed) : List ℤ :=
  printed.filterMap fun
    | .task _ percentage => some percentage
    | _ => none

/-- A percentage of a total run time that may be shown for a run time. -/
structure ShownRight (total runTime : ℕ) (shown : ℤ) : Prop where
  nonneg : 0 ≤ shown
  le_hundred : shown ≤ 100
  close : 0 < total → |(shown : ℚ) - 100 * runTime / total| ≤ 1

/-- The command shows true percentages after a total run time: to every list of
tasks that ran no longer than that, a right percentage each. -/
def PercentagesTrue (total : ℕ) : Prop :=
  ∀ (tasks : List Task) (heap : HeapInfo), (∀ t ∈ tasks, t.runTime ≤ total) →
    List.Forall₂ (fun t shown => ShownRight total t.runTime shown) tasks
      (percentages (cmdTasks true (tasks.map Task.status) (UInt32.ofNat total) heap))

theorem percentages_cmdTasks (statuses : List TaskStatus) (total : UInt32) (heap : HeapInfo) :
    percentages (cmdTasks true statuses total heap) =
      statuses.map fun s => percentage s.ulRunTimeCounter (total / 100) := by
  cases statuses with
  | nil => rfl
  | cons s rest =>
      simp [percentages, cmdTasks, showHeapInfo, List.filterMap_append, List.filterMap_map]

theorem percentagesTrue_iff_forall (total : ℕ) : PercentagesTrue total ↔
    ∀ runTime ≤ total, ShownRight total runTime
      (percentage (UInt32.ofNat runTime) (UInt32.ofNat total / 100)) := by
  constructor
  · intro h runTime hrun
    have hone := h [⟨"", 0, 0, runTime, 0⟩] ⟨0, 0, 0, 0⟩ (by simpa using hrun)
    rw [percentages_cmdTasks] at hone
    simpa [Task.status] using hone
  · intro h tasks heap hrun
    rw [percentages_cmdTasks, List.map_map, List.forall₂_map_right_iff, List.forall₂_same]
    exact fun t ht => h t.runTime (hrun t ht)

/-! ### The quotient -/

theorem toInt_toInt32 (x : UInt32) : x.toInt32.toInt =
    if x.toNat < 0x80000000 then (x.toNat : ℤ) else x.toNat - 0x100000000 := by
  have hx := x.toNat_lt
  show x.toBitVec.toInt = _
  rw [BitVec.toInt_eq_toNat_cond]
  show (if 2 * x.toNat < 2 ^ 32 then _ else _) = _
  split_ifs <;> first | rfl | omega

theorem percentage_of_lt {counter total : UInt32}
    (h : counter.toNat / total.toNat < 0x80000000) :
    percentage counter total = (counter.toNat / total.toNat : ℕ) := by
  unfold percentage
  split_ifs with htotal
  · rw [toInt_toInt32, UInt32.toNat_div, if_pos h]
  · have hzero : total.toNat = 0 := by
      simpa [UInt32.lt_iff_toNat_lt] using htotal
    rw [hzero, Nat.div_zero, Nat.cast_zero]

theorem percentage_zero (counter : UInt32) : percentage counter 0 = 0 := by
  simp [percentage]

/-- A quotient that does not fit is printed as a negative number. -/
theorem percentage_of_le {counter total : UInt32} (htotal : 0 < total.toNat)
    (h : 0x80000000 ≤ counter.toNat / total.toNat) : percentage counter total < 0 := by
  have hlt := (counter / total).toNat_lt
  rw [UInt32.toNat_div] at hlt
  have hdivisor : total > 0 := UInt32.lt_iff_toNat_lt.mpr (by simpa using htotal)
  rw [percentage, if_pos hdivisor, toInt_toInt32, UInt32.toNat_div, if_neg (by omega)]
  omega

/-! ### The run times -/

variable {total runTime : ℕ}

theorem shownRight_iff (htotal : 0 < total) {shown : ℤ} : ShownRight total runTime shown ↔
    0 ≤ shown ∧ shown ≤ 100 ∧
      (shown - 1) * total ≤ 100 * runTime ∧ 100 * runTime ≤ (shown + 1) * total := by
  have hclose : |(shown : ℚ) - 100 * runTime / total| ≤ 1 ↔
      (shown - 1) * total ≤ 100 * runTime ∧ 100 * runTime ≤ (shown + 1) * total := by
    rw [← abs_sub_div_le_one_iff htotal]
    push_cast
    rfl
  rw [← hclose]
  exact ⟨fun h => ⟨h.nonneg, h.le_hundred, h.close htotal⟩,
    fun ⟨h0, h100, h⟩ => ⟨h0, h100, fun _ => h⟩⟩

/-- While the counters hold the run times, the percentage is the share in the
total divided first. -/
theorem percentage_eq_share (htotal : total < 0x100000000) (hrun : runTime ≤ total) :
    percentage (UInt32.ofNat runTime) (UInt32.ofNat total / 100) = share 100 total runTime := by
  have hcounter : (UInt32.ofNat runTime).toNat = runTime := by
    rw [UInt32.toNat_ofNat']
    exact Nat.mod_eq_of_lt (by omega)
  have hdivisor : (UInt32.ofNat total / 100).toNat = total / 100 := by
    rw [UInt32.toNat_div, UInt32.toNat_ofNat']
    show total % 2 ^ 32 / 100 = _
    rw [Nat.mod_eq_of_lt (by omega)]
  have hfits : runTime / (total / 100) < 0x80000000 := by
    rcases Nat.eq_zero_or_pos (total / 100) with hzero | hpos
    · rw [hzero, Nat.div_zero]; decide
    · rw [Nat.div_lt_iff_lt_mul hpos]
      omega
  rw [percentage_of_lt (by rwa [hcounter, hdivisor]), hcounter, hdivisor]
  rfl

/-- After a total run time that fits the counter, the percentages are right if
and only if it is a multiple of a hundred up to a remainder below the quotient. -/
theorem percentagesTrue_iff_of_lt (htotal : total < 0x100000000) (hpos : 0 < total) :
    PercentagesTrue total ↔ total % 100 < total / 100 := by
  rw [percentagesTrue_iff_forall, ← share_right_iff (by decide) hpos]
  refine forall₂_congr fun runTime hrun => ?_
  rw [percentage_eq_share htotal hrun, shownRight_iff hpos, abs_sub_div_le_one_iff hpos]
  push_cast
  omega

theorem percentagesTrue_of_le (hlong : 10000 ≤ total) (htotal : total < 0x100000000) :
    PercentagesTrue total :=
  (percentagesTrue_iff_of_lt htotal (by omega)).mpr (by omega)

theorem not_percentagesTrue_of_le (htotal : 0x100000000 ≤ total) : ¬ PercentagesTrue total := by
  rw [percentagesTrue_iff_forall]
  intro h
  have hpos : 0 < total := by omega
  have hdivisor : (UInt32.ofNat total / 100).toNat = total % 0x100000000 / 100 := by
    rw [UInt32.toNat_div, UInt32.toNat_ofNat']
    rfl
  generalize UInt32.ofNat total / 100 = s at *
  rcases Nat.eq_zero_or_pos s.toNat with hzero | hs
  · -- nothing is divided, and a task that ran all the time is shown none of it
    obtain ⟨-, -, -, hup⟩ := (shownRight_iff hpos).mp (h total le_rfl)
    rw [show s = 0 from UInt32.toNat_inj.mp hzero, percentage_zero] at hup
    omega
  · -- the largest run time the counter holds is too large for the wrapped total
    have hcounter : (UInt32.ofNat 0xffffffff).toNat = 0xffffffff := by decide
    obtain ⟨hnonneg, hwhole, hlow, -⟩ := (shownRight_iff hpos).mp (h 0xffffffff (by omega))
    rcases Nat.lt_or_ge (0xffffffff / s.toNat) 0x80000000 with hfits | hfits
    · rw [percentage_of_lt (by rwa [hcounter]), hcounter] at hwhole hlow
      have hq : 100 ≤ 0xffffffff / s.toNat := by
        rw [Nat.le_div_iff_mul_le hs]
        omega
      have hq' : 0xffffffff < 101 * s.toNat := by
        rw [← Nat.div_lt_iff_lt_mul hs]
        omega
      have heq : 0xffffffff / s.toNat = 100 := by omega
      rw [heq] at hlow
      omega
    · have hneg : percentage (UInt32.ofNat 0xffffffff) s < 0 :=
        percentage_of_le hs (by rwa [hcounter])
      omega

/-- The percentages are true as long as the total run time fits its counter and
is a multiple of a hundred up to a remainder below the quotient, and at no other
time. -/
theorem percentagesTrue_iff (total : ℕ) : PercentagesTrue total ↔
    total < 0x100000000 ∧ (total = 0 ∨ total % 100 < total / 100) := by
  rcases Nat.lt_or_ge total 0x100000000 with hlt | hle
  · rcases Nat.eq_zero_or_pos total with rfl | hpos
    · simp only [true_or, and_true, hlt, iff_true, percentagesTrue_iff_forall]
      intro runTime _
      rw [show UInt32.ofNat 0 / 100 = 0 from rfl, percentage_zero]
      exact ⟨le_rfl, by decide, fun h => absurd h (lt_irrefl 0)⟩
    · rw [percentagesTrue_iff_of_lt hlt hpos]
      exact ⟨fun h => ⟨hlt, .inr h⟩, fun h => h.2.resolve_left (by omega)⟩
  · exact ⟨fun h => absurd h (not_percentagesTrue_of_le hle), fun h => absurd h.1 (by omega)⟩

/-- After a run time of 199 units, a task that ran all the time is shown 199 %. -/
theorem shortRun_misreported : ¬ ∀ total, PercentagesTrue total := by
  intro hall
  have hshown := ((percentagesTrue_iff_forall 199).mp (hall 199) 199 le_rfl).le_hundred
  exact absurd hshown (by decide)

end EspressifApp.Commands
