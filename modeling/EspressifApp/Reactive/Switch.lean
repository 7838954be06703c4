import EspressifApp.Reactive.Parties
import Mathlib.Tactic.DeriveFintype

/-!
Switches: a semaphore that a group holds.

A group of parties shares one semaphore: the first of them to come in takes it,
the last to leave gives it back, and a counter under a mutex says which one that
is. The code is two fragments, run by each party:

    take(mutex); count++; if (count == 1) take(sem); give(mutex);
    take(mutex); count--; if (count == 0) give(sem); give(mutex);

`enter` and `leave` are their single steps, with the load and the store of the
counter apart. Around them stand parties outside the group, who take and give
the semaphore directly. `Crew.Step` is a step of the whole, and `Crew.Inv` what
all of them keep: the mutex has one holder, the counter is the number of parties
in, and the semaphore is free, or taken by one outsider, or held by the group.
-/

namespace EspressifApp.Reactive

/-- The variables: is the mutex free, the counter, is the semaphore free. -/
structure Switch where
  mutex : Semaphore
  count : ℤ
  sem : Semaphore
  deriving DecidableEq, Repr

/-- The next statement of a fragment. `store` carries the value loaded. -/
inductive Stage
  | take
  | load
  | store (v : ℤ)
  | test
  | switch
  | give
  deriving DecidableEq, Repr

/-- A party that blocks does not step; `none` for the next stage is the end of
the fragment. -/
def Switch.enter (s : Switch) : Stage → Option (Switch × Option Stage)
  | .take => if s.mutex then some ({ s with mutex := false }, some .load) else none
  | .load => some (s, some (.store s.count))
  | .store v => some ({ s with count := v + 1 }, some .test)
  | .test => some (s, some (if s.count = 1 then .switch else .give))
  | .switch => if s.sem then some ({ s with sem := false }, some .give) else none
  | .give => some ({ s with mutex := true }, none)

def Switch.leave (s : Switch) : Stage → Option (Switch × Option Stage)
  | .take => if s.mutex then some ({ s with mutex := false }, some .load) else none
  | .load => some (s, some (.store s.count))
  | .store v => some ({ s with count := v - 1 }, some .test)
  | .test => some (s, some (if s.count = 0 then .switch else .give))
  | .switch => some ({ s with sem := true }, some .give)
  | .give => some ({ s with mutex := true }, none)

inductive Place
  | outside
  | entering (g : Stage)
  | inside
  | leaving (g : Stage)
  deriving DecidableEq, Repr

/-- What a place means to the others. A party that is opening has been counted
and may have to take the semaphore, one that is lighting waits for it; one that
is closing is about to be discounted; one that is testing may have to give the
semaphore back, and one that is turning will. -/
inductive Role
  | none
  | holding
  | opening
  | lighting
  | opened
  | inside
  | closing
  | testing
  | turning
  deriving DecidableEq, Repr

def Role.holds : Role → Bool
  | .none | .inside => false
  | _ => true

def Place.role : Place → Role
  | .outside | .entering .take => .none
  | .entering .load | .entering (.store _) | .leaving .give => .holding
  | .entering .test => .opening
  | .entering .switch => .lighting
  | .entering .give => .opened
  | .inside | .leaving .take => .inside
  | .leaving .load | .leaving (.store _) => .closing
  | .leaving .test => .testing
  | .leaving .switch => .turning

def Place.Stores (p : Place) (v : ℤ) : Prop := p = .entering (.store v) ∨ p = .leaving (.store v)

theorem Place.Stores.holds {p : Place} {v : ℤ} (hp : p.Stores v) : p.role.holds = true := by
  obtain rfl | rfl := hp <;> rfl

theorem Switch.enter_take {s v : Switch} {next : Option Stage}
    (hstep : s.enter .take = some (v, next)) : v.count = s.count := by
  simp only [Switch.enter, Option.ite_none_right_eq_some, Option.some.injEq, Prod.mk.injEq] at hstep
  rw [← hstep.2.1]

theorem Switch.leave_take {s v : Switch} {next : Option Stage}
    (hstep : s.leave .take = some (v, next)) : v.count = s.count :=
  Switch.enter_take hstep

/-- What is about to be stored was loaded just before. -/
theorem Switch.enter_stores {s v : Switch} {g : Stage} {next : Option Stage} {w : ℤ}
    (hstep : s.enter g = some (v, next)) (hw : (next.elim .inside Place.entering).Stores w) :
    w = v.count := by
  cases g <;> grind [Switch.enter, Place.Stores]

theorem Switch.leave_stores {s v : Switch} {g : Stage} {next : Option Stage} {w : ℤ}
    (hstep : s.leave g = some (v, next)) (hw : (next.elim .outside Place.leaving).Stores w) :
    w = v.count := by
  cases g <;> grind [Switch.leave, Place.Stores]

def Stage.rank : Stage → ℕ
  | .take => 6
  | .load => 5
  | .store _ => 4
  | .test => 3
  | .switch => 2
  | .give => 1

theorem Switch.enter_rank {s v : Switch} {g : Stage} {next : Option Stage}
    (hstep : s.enter g = some (v, next)) : next.elim 0 Stage.rank < g.rank := by
  cases g <;> grind [Switch.enter, Stage.rank]

theorem Switch.leave_rank {s v : Switch} {g : Stage} {next : Option Stage}
    (hstep : s.leave g = some (v, next)) : next.elim 0 Stage.rank < g.rank := by
  cases g <;> grind [Switch.leave, Stage.rank]

/-- The variables, the parties, and how often the semaphore is out to others. -/
structure Crew (τ : Type*) where
  var : Switch
  place : τ → Place
  taken : ℕ

namespace Crew

variable {τ : Type*}

section

variable [DecidableEq τ]

/-- Party `t` finds the variables changed and goes to another place. -/
def move (s : Crew τ) (v : Switch) (t : τ) (p : Place) : Crew τ :=
  { s with var := v, place := Function.update s.place t p }

@[simp] theorem move_var (s : Crew τ) (v : Switch) (t : τ) (p : Place) :
    (s.move v t p).var = v := rfl

@[simp] theorem move_taken (s : Crew τ) (v : Switch) (t : τ) (p : Place) :
    (s.move v t p).taken = s.taken := rfl

inductive Step (s : Crew τ) : Crew τ → Prop
  | call (t : τ) (hat : s.place t = .outside) : Step s (s.move s.var t (.entering .take))
  | enter (t : τ) (g : Stage) (v : Switch) (next : Option Stage) (hat : s.place t = .entering g)
      (hstep : s.var.enter g = some (v, next)) :
      Step s (s.move v t (next.elim .inside .entering))
  | back (t : τ) (hat : s.place t = .inside) : Step s (s.move s.var t (.leaving .take))
  | leave (t : τ) (g : Stage) (v : Switch) (next : Option Stage) (hat : s.place t = .leaving g)
      (hstep : s.var.leave g = some (v, next)) :
      Step s (s.move v t (next.elim .outside .leaving))
  | takeSem (hfree : s.var.sem = true) :
      Step s { s with var := { s.var with sem := false }, taken := s.taken + 1 }
  | giveSem (n : ℕ) (hout : s.taken = n + 1) :
      Step s { s with var := { s.var with sem := true }, taken := n }
  | stay : Step s s

end

variable [Fintype τ]

def tally (s : Crew τ) (r : Role) : ℕ := headcount (fun p : Place => p.role = r) s.place

def holders (s : Crew τ) : ℕ :=
  s.tally .holding + s.tally .opening + s.tally .lighting + s.tally .opened +
    s.tally .closing + s.tally .testing + s.tally .turning

/-- The parties for which the group has the semaphore. -/
def lit (s : Crew τ) : ℕ :=
  s.tally .opened + s.tally .inside + s.tally .closing + s.tally .testing + s.tally .turning

/-- The mutex has at most one holder, the counter counts, and the semaphore is
free, or out to one outsider, or with the group, exactly while someone is lit. -/
structure Balanced (s : Crew τ) : Prop where
  mutex : s.var.mutex.toNat + s.holders = 1
  count : s.var.count =
    s.tally .opening + s.tally .lighting + s.tally .opened + s.tally .inside + s.tally .closing
  first : s.tally .lighting = 0 ∨ s.var.count = 1
  last : s.tally .turning = 0 ∨ s.var.count = 0
  sem : s.var.sem.toNat + s.taken ≤ 1
  group : s.lit = 0 ↔ s.var.sem.toNat + s.taken = 1

structure Inv (s : Crew τ) : Prop extends Balanced s where
  stored : ∀ t v, (s.place t).Stores v → v = s.var.count

variable [DecidableEq τ]

/-! ### What a move does to the tallies -/

theorem tally_move (s : Crew τ) (v : Switch) (t : τ) (p : Place) (r : Role) :
    (s.move v t p).tally r + (if (s.place t).role = r then 1 else 0) =
      s.tally r + if p.role = r then 1 else 0 :=
  headcount_move (fun p : Place => p.role = r) s.place t p

omit [DecidableEq τ] in
theorem tally_pos {s : Crew τ} {t : τ} {r : Role} (hrole : (s.place t).role = r) :
    0 < s.tally r :=
  headcount_pos.mpr ⟨t, hrole⟩

omit [DecidableEq τ] in
theorem holders_eq (s : Crew τ) :
    s.holders = headcount (fun p : Place => p.role.holds = true) s.place := by
  have hsplit : ∀ r : Role, (if r = .holding then 1 else 0) + (if r = .opening then 1 else 0) +
      (if r = .lighting then 1 else 0) + (if r = .opened then 1 else 0) +
      (if r = .closing then 1 else 0) + (if r = .testing then 1 else 0) +
      (if r = .turning then 1 else 0) =
      if r.holds = true then 1 else 0 := by
    intro r
    cases r <;> rfl
  unfold holders tally headcount total
  simp only [← Finset.sum_add_distrib]
  exact Finset.sum_congr rfl fun v _ => hsplit (s.place v).role

/-- No one else holds the mutex. -/
theorem Inv.alone {s : Crew τ} (hs : s.Inv) {t u : τ} (ht : (s.place t).role.holds = true)
    (hu : (s.place u).role.holds = true) : t = u := by
  apply eq_of_headcount_le_one (P := fun p : Place => p.role.holds = true) _ ht hu
  rw [← holders_eq]
  have := hs.mutex
  omega

/-! ### Every step keeps the invariant -/

/-- While no one else holds the mutex, only the party that moves can be about
to store. -/
theorem Inv.of_balanced {s : Crew τ} (hs : s.Inv) {v : Switch} {t : τ} {p : Place}
    (hbalanced : (s.move v t p).Balanced)
    (halone : v.count = s.var.count ∨ ∀ u, (s.place u).role.holds = true → u = t)
    (hstores : ∀ w, p.Stores w → w = v.count) : (s.move v t p).Inv := by
  refine ⟨hbalanced, ?_⟩
  intro u w hu
  by_cases hut : u = t
  · subst hut
    simp only [move, Function.update_self] at hu
    exact hstores w hu
  · simp only [move, Function.update_of_ne hut] at hu
    obtain hsame | halone := halone
    · rw [show (s.move v t p).var = v from rfl, hsame]
      exact hs.stored u w hu
    · exact absurd (halone u hu.holds) hut

theorem tally_moves (s : Crew τ) (v : Switch) (t : τ) (p : Place) :
    ((s.move v t p).tally .holding + (if (s.place t).role = .holding then 1 else 0) =
        s.tally .holding + if p.role = .holding then 1 else 0) ∧
      ((s.move v t p).tally .opening + (if (s.place t).role = .opening then 1 else 0) =
        s.tally .opening + if p.role = .opening then 1 else 0) ∧
      ((s.move v t p).tally .lighting + (if (s.place t).role = .lighting then 1 else 0) =
        s.tally .lighting + if p.role = .lighting then 1 else 0) ∧
      ((s.move v t p).tally .opened + (if (s.place t).role = .opened then 1 else 0) =
        s.tally .opened + if p.role = .opened then 1 else 0) ∧
      ((s.move v t p).tally .inside + (if (s.place t).role = .inside then 1 else 0) =
        s.tally .inside + if p.role = .inside then 1 else 0) ∧
      ((s.move v t p).tally .closing + (if (s.place t).role = .closing then 1 else 0) =
        s.tally .closing + if p.role = .closing then 1 else 0) ∧
      ((s.move v t p).tally .testing + (if (s.place t).role = .testing then 1 else 0) =
        s.tally .testing + if p.role = .testing then 1 else 0) ∧
      ((s.move v t p).tally .turning + (if (s.place t).role = .turning then 1 else 0) =
        s.tally .turning + if p.role = .turning then 1 else 0) :=
  ⟨s.tally_move .., s.tally_move .., s.tally_move .., s.tally_move .., s.tally_move ..,
    s.tally_move .., s.tally_move .., s.tally_move ..⟩

theorem Balanced.enter {s : Crew τ} (hs : s.Inv) {t : τ} {g : Stage} {v : Switch}
    {next : Option Stage} (hat : s.place t = .entering g) (hstep : s.var.enter g = some (v, next)) :
    (s.move v t (next.elim .inside .entering)).Balanced := by
  have hmoves := s.tally_moves v t (next.elim .inside .entering)
  obtain ⟨hmutex, hcount, hfirst, hlast, hsem, hgroup⟩ := hs.toBalanced
  cases g with
  | take =>
      obtain ⟨hfree, rfl, rfl⟩ : s.var.mutex = true ∧ { s.var with mutex := false } = v ∧
          some .load = next := by
        simpa [Switch.enter] using hstep
      simp only [hat, Place.role, Option.elim, reduceCtorEq, if_true, if_false] at hmoves
      constructor <;> simp only [holders, lit, move_var, move_taken, hfree, Option.elim,
        Bool.toNat_true, Bool.toNat_false] at * <;> omega
  | load =>
      obtain ⟨rfl, rfl⟩ : s.var = v ∧ some (.store s.var.count) = next := by
        simpa [Switch.enter] using hstep
      simp only [hat, Place.role, Option.elim, reduceCtorEq, if_true, if_false] at hmoves
      constructor <;> simp only [holders, lit, move_var, move_taken, Option.elim] at * <;> omega
  | store w =>
      -- the value loaded is still that of the counter: nobody else has the mutex
      obtain rfl := hs.stored t w (.inl hat)
      obtain ⟨rfl, rfl⟩ : { s.var with count := s.var.count + 1 } = v ∧ some .test = next := by
        simpa [Switch.enter] using hstep
      simp only [hat, Place.role, Option.elim, reduceCtorEq, if_true, if_false] at hmoves
      constructor <;> simp only [holders, lit, move_var, move_taken, Option.elim] at * <;> omega
  | test =>
      by_cases hone : s.var.count = 1
      · obtain ⟨rfl, rfl⟩ : s.var = v ∧ some .switch = next := by
          simpa [Switch.enter, hone] using hstep
        simp only [hat, Place.role, Option.elim, reduceCtorEq, if_true, if_false] at hmoves
        constructor <;> simp only [holders, lit, move_var, move_taken, Option.elim] at * <;> omega
      · obtain ⟨rfl, rfl⟩ : s.var = v ∧ some .give = next := by
          simpa [Switch.enter, hone] using hstep
        -- the counter says that others are in, and they have the semaphore
        simp only [hat, Place.role, Option.elim, reduceCtorEq, if_true, if_false] at hmoves
        constructor <;> simp only [holders, lit, move_var, move_taken, Option.elim] at * <;> omega
  | switch =>
      obtain ⟨hfree, rfl, rfl⟩ : s.var.sem = true ∧ { s.var with sem := false } = v ∧
          some .give = next := by
        simpa [Switch.enter] using hstep
      simp only [hat, Place.role, Option.elim, reduceCtorEq, if_true, if_false] at hmoves
      constructor <;> simp only [holders, lit, move_var, move_taken, hfree, Option.elim,
        Bool.toNat_true, Bool.toNat_false] at * <;> omega
  | give =>
      obtain ⟨rfl, rfl⟩ : { s.var with mutex := true } = v ∧ none = next := by
        simpa [Switch.enter] using hstep
      simp only [hat, Place.role, Option.elim, reduceCtorEq, if_true, if_false] at hmoves
      constructor <;> simp only [holders, lit, move_var, move_taken, Option.elim,
        Bool.toNat_true] at * <;> omega

theorem Balanced.leave {s : Crew τ} (hs : s.Inv) {t : τ} {g : Stage} {v : Switch}
    {next : Option Stage} (hat : s.place t = .leaving g) (hstep : s.var.leave g = some (v, next)) :
    (s.move v t (next.elim .outside .leaving)).Balanced := by
  have hmoves := s.tally_moves v t (next.elim .outside .leaving)
  obtain ⟨hmutex, hcount, hfirst, hlast, hsem, hgroup⟩ := hs.toBalanced
  cases g with
  | take =>
      obtain ⟨hfree, rfl, rfl⟩ : s.var.mutex = true ∧ { s.var with mutex := false } = v ∧
          some .load = next := by
        simpa [Switch.leave] using hstep
      simp only [hat, Place.role, Option.elim, reduceCtorEq, if_true, if_false] at hmoves
      constructor <;> simp only [holders, lit, move_var, move_taken, hfree, Option.elim,
        Bool.toNat_true, Bool.toNat_false] at * <;> omega
  | load =>
      obtain ⟨rfl, rfl⟩ : s.var = v ∧ some (.store s.var.count) = next := by
        simpa [Switch.leave] using hstep
      simp only [hat, Place.role, Option.elim, reduceCtorEq, if_true, if_false] at hmoves
      constructor <;> simp only [holders, lit, move_var, move_taken, Option.elim] at * <;> omega
  | store w =>
      -- the value loaded is still that of the counter: nobody else has the mutex
      obtain rfl := hs.stored t w (.inr hat)
      obtain ⟨rfl, rfl⟩ : { s.var with count := s.var.count - 1 } = v ∧ some .test = next := by
        simpa [Switch.leave] using hstep
      simp only [hat, Place.role, Option.elim, reduceCtorEq, if_true, if_false] at hmoves
      constructor <;> simp only [holders, lit, move_var, move_taken, Option.elim] at * <;> omega
  | test =>
      by_cases hzero : s.var.count = 0
      · obtain ⟨rfl, rfl⟩ : s.var = v ∧ some .switch = next := by
          simpa [Switch.leave, hzero] using hstep
        simp only [hat, Place.role, Option.elim, reduceCtorEq, if_true, if_false] at hmoves
        constructor <;> simp only [holders, lit, move_var, move_taken, Option.elim] at * <;> omega
      · obtain ⟨rfl, rfl⟩ : s.var = v ∧ some .give = next := by
          simpa [Switch.leave, hzero] using hstep
        simp only [hat, Place.role, Option.elim, reduceCtorEq, if_true, if_false] at hmoves
        constructor <;> simp only [holders, lit, move_var, move_taken, Option.elim] at * <;> omega
  | switch =>
      obtain ⟨rfl, rfl⟩ : { s.var with sem := true } = v ∧ some .give = next := by
        simpa [Switch.leave] using hstep
      simp only [hat, Place.role, Option.elim, reduceCtorEq, if_true, if_false] at hmoves
      constructor <;> simp only [holders, lit, move_var, move_taken, Option.elim,
        Bool.toNat_true] at * <;> omega
  | give =>
      obtain ⟨rfl, rfl⟩ : { s.var with mutex := true } = v ∧ none = next := by
        simpa [Switch.leave] using hstep
      simp only [hat, Place.role, Option.elim, reduceCtorEq, if_true, if_false] at hmoves
      constructor <;> simp only [holders, lit, move_var, move_taken, Option.elim,
        Bool.toNat_true] at * <;> omega

theorem Inv.begin {s : Crew τ} (hs : s.Inv) {t : τ} {p : Place}
    (hrole : p.role = (s.place t).role) (hfree : p.role.holds = false) :
    (s.move s.var t p).Inv := by
  apply hs.of_balanced _ (.inl rfl)
  · intro w hw
    rw [hw.holds] at hfree
    contradiction
  · have htally : (s.move s.var t p).tally = s.tally := by
      ext r
      have := s.tally_move s.var t p r
      rw [hrole] at this
      omega
    obtain ⟨hmutex, hcount, hfirst, hlast, hsem, hgroup⟩ := hs.toBalanced
    constructor <;> simpa only [holders, lit, htally, move_var, move_taken]

theorem Inv.alone_or_take {s : Crew τ} (hs : s.Inv) {t : τ} {g : Stage}
    (hat : s.place t = .entering g ∨ s.place t = .leaving g) :
    g = .take ∨ ∀ u, (s.place u).role.holds = true → u = t := by
  by_cases htake : g = .take
  · exact .inl htake
  · refine .inr fun u hu => hs.alone hu ?_
    obtain hat | hat := hat <;> rw [hat] <;> cases g <;> first | rfl | contradiction

theorem Inv.step {s s' : Crew τ} (hs : s.Inv) (hstep : Step s s') : s'.Inv := by
  cases hstep with
  | call t hat => exact hs.begin (by rw [hat]; rfl) rfl
  | back t hat => exact hs.begin (by rw [hat]; rfl) rfl
  | enter t g v next hat hstep =>
      apply hs.of_balanced (.enter hs hat hstep) _ fun w => Switch.enter_stores hstep
      obtain rfl | halone := hs.alone_or_take (.inl hat)
      · exact .inl (Switch.enter_take hstep)
      · exact .inr halone
  | leave t g v next hat hstep =>
      apply hs.of_balanced (.leave hs hat hstep) _ fun w => Switch.leave_stores hstep
      obtain rfl | halone := hs.alone_or_take (.inr hat)
      · exact .inl (Switch.leave_take hstep)
      · exact .inr halone
  | takeSem hfree =>
      obtain ⟨hmutex, hcount, hfirst, hlast, hsem, hgroup⟩ := hs.toBalanced
      rw [hfree] at hsem hgroup
      refine ⟨⟨hmutex, hcount, hfirst, hlast, ?_, ?_⟩, hs.stored⟩
      · simp only [Bool.toNat_true, Bool.toNat_false] at *
        omega
      · show s.lit = 0 ↔ _
        simp only [Bool.toNat_true, Bool.toNat_false] at *
        omega
  | giveSem n hout =>
      obtain ⟨hmutex, hcount, hfirst, hlast, hsem, hgroup⟩ := hs.toBalanced
      have hbusy : s.var.sem.toNat = 0 := by omega
      refine ⟨⟨hmutex, hcount, hfirst, hlast, ?_, ?_⟩, hs.stored⟩
      · simp only [Bool.toNat_true] at *
        omega
      · show s.lit = 0 ↔ _
        simp only [Bool.toNat_true] at *
        omega
  | stay => exact hs

/-! ### What follows -/

omit [DecidableEq τ] in
theorem Inv.init {s : Crew τ} (hvar : s.var = ⟨true, 0, true⟩)
    (hplace : ∀ t, s.place t = .outside) (htaken : s.taken = 0) : s.Inv := by
  have htally : ∀ r, r ≠ .none → s.tally r = 0 := by
    intro r hr
    refine headcount_eq_zero.mpr fun t => ?_
    rw [hplace t]
    exact hr.symm
  have hzero : s.holders = 0 ∧ s.lit = 0 := by simp [holders, lit, htally]
  refine ⟨⟨?_, ?_, ?_, ?_, ?_, ?_⟩, ?_⟩
  · simp [hvar, hzero]
  · simp [hvar, htally]
  · exact .inl (htally _ (by decide))
  · exact .inl (htally _ (by decide))
  · simp [hvar, htaken]
  · simp [hvar, htaken, hzero]
  · intro t v ht
    rw [hplace t] at ht
    simp [Place.Stores] at ht

omit [DecidableEq τ] in
/-- While the group has the semaphore no outsider does. -/
theorem Inv.taken_eq_zero {s : Crew τ} (hs : s.Inv) {t : τ}
    (ht : s.place t = .inside) : s.taken = 0 := by
  have hinside : 0 < s.tally .inside := tally_pos (by rw [ht]; rfl)
  have hgroup := hs.group
  have hsem := hs.sem
  simp only [lit] at hgroup
  omega

omit [DecidableEq τ] in
theorem Inv.taken_le_one {s : Crew τ} (hs : s.Inv) : s.taken ≤ 1 := by
  have := hs.sem
  omega

omit [DecidableEq τ] in
theorem tally_eq_zero {s : Crew τ} {r : Role} (hno : ∀ t, (s.place t).role ≠ r) :
    s.tally r = 0 :=
  headcount_eq_zero.mpr hno

omit [DecidableEq τ] in
/-- A crew that is all outside, with the semaphore not out, is as it started. -/
theorem Inv.var_eq {s : Crew τ} (hs : s.Inv) (hplace : ∀ t, s.place t = .outside)
    (htaken : s.taken = 0) : s.var = ⟨true, 0, true⟩ := by
  have htally : ∀ r, r ≠ .none → s.tally r = 0 := fun r hr =>
    tally_eq_zero fun t => by
      rw [hplace t]
      exact hr.symm
  obtain ⟨hmutex, hcount, -, -, -, hgroup⟩ := hs.toBalanced
  simp only [holders, lit, htally, htaken, ne_eq, reduceCtorEq, not_false_eq_true, add_zero,
    true_iff] at hmutex hcount hgroup
  have hfree : s.var.mutex = true := Bool.toNat_eq_one.mp hmutex
  have hsem : s.var.sem = true := Bool.toNat_eq_one.mp hgroup
  rw [show s.var = ⟨s.var.mutex, s.var.count, s.var.sem⟩ from rfl, hfree, hsem, hcount]
  rfl

omit [DecidableEq τ] in
/-- The counter stays between zero and the number of parties. -/
theorem Inv.count_bounds {s : Crew τ} (hs : s.Inv) :
    0 ≤ s.var.count ∧ s.var.count ≤ Fintype.card τ := by
  have hsplit : ∀ r : Role, (if r = .opening then 1 else 0) + (if r = .lighting then 1 else 0) +
      (if r = .opened then 1 else 0) + (if r = .inside then 1 else 0) +
      (if r = .closing then 1 else 0) ≤ 1 := by
    intro r
    cases r <;> decide
  have hle : s.tally .opening + s.tally .lighting + s.tally .opened + s.tally .inside +
      s.tally .closing ≤ Fintype.card τ := by
    unfold tally headcount total
    simp only [← Finset.sum_add_distrib]
    calc _ ≤ ∑ _t : τ, 1 := Finset.sum_le_sum fun t _ => hsplit (s.place t).role
      _ = Fintype.card τ := by simp
  have hcount := hs.count
  constructor <;> omega

omit [DecidableEq τ] in
/-- While the mutex is free the variables say exactly who is in. -/
theorem Inv.settled {s : Crew τ} (hs : s.Inv) (hfree : s.var.mutex = true) :
    s.var.count = s.tally .inside ∧
      (s.var.sem = true ↔ s.taken = 0 ∧ ∀ t, (s.place t).role ≠ .inside) := by
  obtain ⟨hmutex, hcount, -, -, hsem, hgroup⟩ := hs.toBalanced
  rw [hfree, Bool.toNat_true] at hmutex
  have hnone : s.tally .inside = 0 ↔ ∀ t, (s.place t).role ≠ .inside := headcount_eq_zero
  simp only [holders, lit] at hmutex hgroup
  refine ⟨by omega, ?_⟩
  rw [← hnone]
  constructor
  · intro htrue
    rw [htrue, Bool.toNat_true] at hsem hgroup
    omega
  · rintro ⟨htaken, hzero⟩
    exact Bool.toNat_eq_one.mp (by omega)

omit [DecidableEq τ] in
/-- When no one of a crew can step, no one is inside and no outsider has the
semaphore, then they have all gone. -/
theorem Inv.all_outside {s : Crew τ} (hs : s.Inv)
    (henter : ∀ t g, s.place t = .entering g → s.var.enter g = none)
    (hleave : ∀ t g, s.place t = .leaving g → s.var.leave g = none)
    (hinside : ∀ t, s.place t ≠ .inside) (htaken : s.taken = 0) :
    ∀ t, s.place t = .outside := by
  have hplaces : ∀ t, s.place t = .outside ∨
      s.var.mutex = false ∧ (s.place t = .entering .take ∨ s.place t = .leaving .take) ∨
      s.var.sem = false ∧ s.place t = .entering .switch := by
    intro t
    have hin := hinside t
    have hen := henter t
    have hle := hleave t
    cases hp : s.place t with
    | outside => exact .inl rfl
    | inside => exact absurd hp hin
    | entering g => cases g <;> simp_all [Switch.enter]
    | leaving g => cases g <;> simp_all [Switch.leave]
  -- whoever holds the mutex waits for the semaphore, as the first one counted
  have hzero : ∀ r, r ≠ .none → r ≠ .inside → r ≠ .lighting → s.tally r = 0 := by
    intro r h₁ h₂ h₃
    refine tally_eq_zero fun t => ?_
    obtain h | ⟨-, h | h⟩ | ⟨-, h⟩ := hplaces t <;> rw [h] <;> simp [Place.role, *, eq_comm]
  obtain ⟨hmutex, hcount, hfirst, -, -, hgroup⟩ := hs.toBalanced
  simp only [holders, lit, hzero, htaken, ne_eq, reduceCtorEq, not_false_eq_true, add_zero,
    zero_add] at hmutex hcount hgroup
  have hfree : s.var.mutex = true := by
    by_contra hheld
    simp only [Bool.not_eq_true] at hheld
    rw [hheld, Bool.toNat_false] at hmutex
    have hlighting : 0 < s.tally .lighting := by omega
    obtain ⟨t, ht⟩ := headcount_pos.mp hlighting
    have hsem : s.var.sem = false := by
      obtain h | ⟨-, h | h⟩ | ⟨h, -⟩ := hplaces t
      · simp [h, Place.role] at ht
      · simp [h, Place.role] at ht
      · simp [h, Place.role] at ht
      · exact h
    rw [hsem, Bool.toNat_false] at hgroup
    omega
  intro t
  obtain h | ⟨h, -⟩ | ⟨-, h⟩ := hplaces t
  · exact h
  · rw [hfree] at h
    contradiction
  · have hlighting : 0 < s.tally .lighting := tally_pos (by rw [h]; rfl)
    rw [hfree, Bool.toNat_true] at hmutex
    omega

/-! ### The crew of a larger system

Where the parties run more code than the two fragments, the crew is a view of
it: the place that each program counter stands for, and the program counters at
which a party has taken the semaphore for itself. -/

section

variable {π : Type*} (f : π → Place) (has : π → Bool)

def view (v : Switch) (pc : τ → π) : Crew τ where
  var := v
  place t := f (pc t)
  taken := headcount (fun p => has p = true) pc

variable {f has} {v w : Switch} {pc : τ → π} {t u : τ} {q : π}

omit [DecidableEq τ] in
theorem view_taken_eq_zero : (view f has v pc).taken = 0 ↔ ∀ t, has (pc t) = false := by
  simp only [view, headcount_eq_zero, Bool.not_eq_true]

theorem view_taken_unique (hs : (view f has v pc).Inv) (ht : has (pc t) = true)
    (hu : has (pc u) = true) : t = u :=
  eq_of_headcount_le_one (P := fun p => has p = true) hs.taken_le_one ht hu

theorem view_update (hhas : has q = has (pc t)) :
    view f has w (Function.update pc t q) = (view f has v pc).move w t (f q) := by
  have htaken := headcount_move (fun p => has p = true) pc t q
  rw [hhas] at htaken
  have hplace : (fun u => f (Function.update pc t q u)) =
      Function.update (fun u => f (pc u)) t (f q) :=
    Function.comp_update f pc t q
  simp only [view, move, hplace, mk.injEq, true_and]
  omega

omit [Fintype τ] in
theorem view_place_update (hplace : f q = f (pc t)) :
    (fun u => f (Function.update pc t q u)) = fun u => f (pc u) := by
  ext u
  by_cases hu : u = t
  · rw [hu, Function.update_self, hplace]
  · rw [Function.update_of_ne hu]

theorem view_stay (hplace : f q = f (pc t)) (hhas : has q = has (pc t)) :
    Step (view f has v pc) (view f has v (Function.update pc t q)) := by
  have htaken := headcount_move (fun p => has p = true) pc t q
  rw [hhas] at htaken
  have hsame : view f has v (Function.update pc t q) = view f has v pc := by
    simp only [view, view_place_update hplace, mk.injEq, true_and]
    omega
  rw [hsame]
  exact .stay

theorem view_call (hat : f (pc t) = .outside) (hto : f q = .entering .take)
    (hhas : has q = has (pc t)) :
    Step (view f has v pc) (view f has v (Function.update pc t q)) := by
  rw [view_update hhas, hto]
  exact .call t hat

theorem view_back (hat : f (pc t) = .inside) (hto : f q = .leaving .take)
    (hhas : has q = has (pc t)) :
    Step (view f has v pc) (view f has v (Function.update pc t q)) := by
  rw [view_update hhas, hto]
  exact .back t hat

theorem view_enter {g : Stage} {next : Option Stage} (hat : f (pc t) = .entering g)
    (hstep : v.enter g = some (w, next)) (hto : f q = next.elim .inside .entering)
    (hhas : has q = has (pc t)) :
    Step (view f has v pc) (view f has w (Function.update pc t q)) := by
  rw [view_update hhas, hto]
  exact .enter t g w next hat hstep

theorem view_leave {g : Stage} {next : Option Stage} (hat : f (pc t) = .leaving g)
    (hstep : v.leave g = some (w, next)) (hto : f q = next.elim .outside .leaving)
    (hhas : has q = has (pc t)) :
    Step (view f has v pc) (view f has w (Function.update pc t q)) := by
  rw [view_update hhas, hto]
  exact .leave t g w next hat hstep

theorem view_take (hfree : v.sem = true) (hplace : f q = f (pc t)) (hbefore : has (pc t) = false)
    (hafter : has q = true) :
    Step (view f has v pc)
      (view f has { v with sem := false } (Function.update pc t q)) := by
  have htaken := headcount_move (fun p => has p = true) pc t q
  have hview : view f has { v with sem := false } (Function.update pc t q) =
      { view f has v pc with
        var := { v with sem := false }
        taken := (view f has v pc).taken + 1 } := by
    simp only [view, view_place_update hplace, mk.injEq, true_and]
    simpa [hbefore, hafter] using htaken
  rw [hview]
  exact .takeSem hfree

theorem view_give (hplace : f q = f (pc t)) (hbefore : has (pc t) = true)
    (hafter : has q = false) :
    Step (view f has v pc)
      (view f has { v with sem := true } (Function.update pc t q)) := by
  have htaken := headcount_move (fun p => has p = true) pc t q
  have hsome : 0 < headcount (fun p => has p = true) pc := headcount_pos.mpr ⟨t, hbefore⟩
  obtain ⟨n, hn⟩ : ∃ n, (view f has v pc).taken = n + 1 := Nat.exists_eq_add_one.mpr hsome
  have hview : view f has { v with sem := true } (Function.update pc t q) =
      { view f has v pc with var := { v with sem := true }, taken := n } := by
    simp only [view, view_place_update hplace, mk.injEq, true_and]
    simp only [view] at hn
    simpa [hbefore, hafter, hn] using htaken
  rw [hview]
  exact .giveSem n hn

end

end Crew

end EspressifApp.Reactive
