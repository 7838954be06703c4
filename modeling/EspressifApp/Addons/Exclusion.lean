import EspressifApp.Addons.ReadWriteLock

/-!
What the read/write locks guarantee.

Each lock is two switches: the readers hold `ResourceLock` as a group, the
writers of a writer-preferring lock hold `BlockReadersLock` as a group. Every
step of a thread is a step of both groups (`step_readers`, `step_writers`), so
the invariant of a group holds in each of them over every run.
-/

namespace EspressifApp.Addons

open Reactive

/-! ### What a statement can do -/

/-- A thread at `p` runs one statement, which leaves the lock `l'` and the thread
at `q`. -/
inductive Stmt (l : RWLock) : Pc → RWLock → Pc → Prop
  | readerBlock (hfree : l.blockReadersLock = true) :
      Stmt l .readerBlock { l with blockReadersLock := false } (.readerLock .take)
  | readerLock (g : Stage) (v : Switch) (next : Option Stage)
      (henter : l.readSwitch.enter g = some (v, next)) :
      Stmt l (.readerLock g) (l.setRead v) (next.elim (readerLockEnd l.type) .readerLock)
  | readerUnblock : Stmt l .readerUnblock { l with blockReadersLock := true } .reading
  | readerUnlock (g : Stage) (v : Switch) (next : Option Stage)
      (hleave : l.readSwitch.leave g = some (v, next)) :
      Stmt l (.readerUnlock g) (l.setRead v) (next.elim .idle .readerUnlock)
  | writerLock (g : Stage) (v : Switch) (next : Option Stage)
      (henter : l.writeSwitch.enter g = some (v, next)) :
      Stmt l (.writerLock g) (l.setWrite v) (next.elim .writerResource .writerLock)
  | writerResource (hfree : l.resourceLock = true) :
      Stmt l .writerResource { l with resourceLock := false } .writing
  | writerRelease :
      Stmt l .writerRelease { l with resourceLock := true } (writerUnlockRest l.type)
  | writerUnlock (g : Stage) (v : Switch) (next : Option Stage)
      (hleave : l.writeSwitch.leave g = some (v, next)) :
      Stmt l (.writerUnlock g) (l.setWrite v) (next.elim .idle .writerUnlock)

theorem stmt_cases {l l' : RWLock} {p q : Pc} (hstmt : l.stmt p = some (l', q)) :
    Stmt l p l' q := by
  cases p with
  | idle | reading | writing => simp [RWLock.stmt] at hstmt
  | readerBlock =>
      simp only [RWLock.stmt, Option.ite_none_right_eq_some, Option.some.injEq,
        Prod.mk.injEq] at hstmt
      obtain ⟨hfree, rfl, rfl⟩ := hstmt
      exact .readerBlock hfree
  | readerUnblock =>
      simp only [RWLock.stmt, Option.some.injEq, Prod.mk.injEq] at hstmt
      obtain ⟨rfl, rfl⟩ := hstmt
      exact .readerUnblock
  | writerResource =>
      simp only [RWLock.stmt, Option.ite_none_right_eq_some, Option.some.injEq,
        Prod.mk.injEq] at hstmt
      obtain ⟨hfree, rfl, rfl⟩ := hstmt
      exact .writerResource hfree
  | writerRelease =>
      simp only [RWLock.stmt, Option.some.injEq, Prod.mk.injEq] at hstmt
      obtain ⟨rfl, rfl⟩ := hstmt
      exact .writerRelease
  | readerLock g =>
      -- the counting statements are those of the switch
      simp only [RWLock.stmt, Option.map_eq_some_iff, Prod.mk.injEq] at hstmt
      obtain ⟨⟨v, next⟩, henter, rfl, rfl⟩ := hstmt
      exact .readerLock g v next henter
  | readerUnlock g =>
      simp only [RWLock.stmt, Option.map_eq_some_iff, Prod.mk.injEq] at hstmt
      obtain ⟨⟨v, next⟩, hleave, rfl, rfl⟩ := hstmt
      exact .readerUnlock g v next hleave
  | writerLock g =>
      simp only [RWLock.stmt, Option.map_eq_some_iff, Prod.mk.injEq] at hstmt
      obtain ⟨⟨v, next⟩, henter, rfl, rfl⟩ := hstmt
      exact .writerLock g v next henter
  | writerUnlock g =>
      simp only [RWLock.stmt, Option.map_eq_some_iff, Prod.mk.injEq] at hstmt
      obtain ⟨⟨v, next⟩, hleave, rfl, rfl⟩ := hstmt
      exact .writerUnlock g v next hleave

/-! ### The two groups -/

def Pc.readerPlace : Pc → Place
  | .readerLock g => .entering g
  | .readerUnblock | .reading => .inside
  | .readerUnlock g => .leaving g
  | _ => .outside

def Pc.writerPlace : Pc → Place
  | .writerLock g => .entering g
  | .writerResource | .writing | .writerRelease => .inside
  | .writerUnlock g => .leaving g
  | _ => .outside

def Pc.hasResource : Pc → Bool
  | .writing | .writerRelease => true
  | _ => false

/-- The thread has taken `BlockReadersLock` for itself, on a writer-preferring
lock. -/
def Pc.hasBlock : Pc → Bool
  | .readerLock _ | .readerUnblock => true
  | _ => false

namespace Threads

variable {τ : Type*} [Fintype τ]

def readers (s : Threads τ) : Crew τ :=
  Crew.view Pc.readerPlace Pc.hasResource s.lock.readSwitch s.pc

def writers (s : Threads τ) : Crew τ :=
  Crew.view Pc.writerPlace Pc.hasBlock s.lock.writeSwitch s.pc

variable [DecidableEq τ]

/-! ### Every step is a step of both groups -/

theorem readerLock_place (type : LockType) (next : Option Stage) :
    (next.elim (readerLockEnd type) Pc.readerLock).readerPlace = next.elim .inside .entering := by
  cases next with
  | none => cases type <;> rfl
  | some g => rfl

theorem readerLock_hasResource (type : LockType) (next : Option Stage) :
    (next.elim (readerLockEnd type) Pc.readerLock).hasResource = false := by
  cases next with
  | none => cases type <;> rfl
  | some g => rfl

theorem stmt_readers {s : Threads τ} {t : τ} {l : RWLock} {p : Pc}
    (hstmt : s.lock.stmt (s.pc t) = some (l, p)) :
    Crew.Step s.readers (s.move l t p).readers := by
  generalize hpc : s.pc t = p₀ at hstmt
  cases stmt_cases hstmt with
  | readerBlock hfree => exact Crew.view_call (by rw [hpc]; rfl) rfl (by rw [hpc]; rfl)
  | readerLock g v next henter =>
      exact Crew.view_enter (by rw [hpc]; rfl) henter (readerLock_place _ _)
        (by rw [hpc, readerLock_hasResource]; rfl)
  | readerUnblock => exact Crew.view_stay (by rw [hpc]; rfl) (by rw [hpc]; rfl)
  | readerUnlock g v next hleave =>
      exact Crew.view_leave (by rw [hpc]; rfl) hleave (by cases next <;> rfl)
        (by rw [hpc]; cases next <;> rfl)
  | writerLock g v next henter =>
      exact Crew.view_stay (by rw [hpc]; cases next <;> rfl) (by rw [hpc]; cases next <;> rfl)
  | writerResource hfree =>
      exact Crew.view_take hfree (by rw [hpc]; rfl) (by rw [hpc]; rfl) rfl
  | writerRelease =>
      exact Crew.view_give (by rw [hpc]; cases s.lock.type <;> rfl) (by rw [hpc]; rfl)
        (by cases s.lock.type <;> rfl)
  | writerUnlock g v next hleave =>
      exact Crew.view_stay (by rw [hpc]; cases next <;> rfl) (by rw [hpc]; cases next <;> rfl)

theorem stmt_writers {s : Threads τ} {t : τ} {l : RWLock} {p : Pc}
    (htype : s.lock.type = .preferWriter) (hstmt : s.lock.stmt (s.pc t) = some (l, p)) :
    Crew.Step s.writers (s.move l t p).writers := by
  generalize hpc : s.pc t = p₀ at hstmt
  cases stmt_cases hstmt with
  | readerBlock hfree => exact Crew.view_take hfree (by rw [hpc]; rfl) (by rw [hpc]; rfl) rfl
  | readerLock g v next henter =>
      rw [htype]
      exact Crew.view_stay (by rw [hpc]; cases next <;> rfl) (by rw [hpc]; cases next <;> rfl)
  | readerUnblock => exact Crew.view_give (by rw [hpc]; rfl) (by rw [hpc]; rfl) rfl
  | readerUnlock g v next hleave =>
      exact Crew.view_stay (by rw [hpc]; cases next <;> rfl) (by rw [hpc]; cases next <;> rfl)
  | writerLock g v next henter =>
      exact Crew.view_enter (by rw [hpc]; rfl) henter (by cases next <;> rfl)
        (by rw [hpc]; cases next <;> rfl)
  | writerResource hfree => exact Crew.view_stay (by rw [hpc]; rfl) (by rw [hpc]; rfl)
  | writerRelease =>
      rw [htype]
      exact Crew.view_back (by rw [hpc]; rfl) rfl (by rw [hpc]; rfl)
  | writerUnlock g v next hleave =>
      exact Crew.view_leave (by rw [hpc]; rfl) hleave (by cases next <;> rfl)
        (by rw [hpc]; cases next <;> rfl)

theorem stmt_type {l l' : RWLock} {p q : Pc} (hstmt : l.stmt p = some (l', q)) :
    l'.type = l.type := by
  cases stmt_cases hstmt <;> rfl

omit [Fintype τ] in
theorem step_type {s s' : Threads τ} {a : Action τ} (hstep : s.step a = some s') :
    s'.lock.type = s.lock.type := by
  cases a with
  | run t =>
      simp only [step, Option.map_eq_some_iff] at hstep
      obtain ⟨⟨l, p⟩, hstmt, rfl⟩ := hstep
      exact stmt_type hstmt
  | _ =>
      simp only [step, Option.ite_none_right_eq_some, Option.some.injEq] at hstep
      obtain ⟨-, rfl⟩ := hstep
      rfl

theorem step_readers {s s' : Threads τ} {a : Action τ} (hstep : s.step a = some s') :
    Crew.Step s.readers s'.readers := by
  cases a with
  | run t =>
      simp only [step, Option.map_eq_some_iff] at hstep
      obtain ⟨⟨l, p⟩, hstmt, rfl⟩ := hstep
      exact stmt_readers hstmt
  | readerLock t =>
      simp only [step, Option.ite_none_right_eq_some, Option.some.injEq] at hstep
      obtain ⟨hpc, rfl⟩ := hstep
      cases htype : s.lock.type with
      | preferReader => exact Crew.view_call (by rw [hpc]; rfl) rfl (by rw [hpc]; rfl)
      | preferWriter => exact Crew.view_stay (by rw [hpc]; rfl) (by rw [hpc]; rfl)
  | readerUnlock t =>
      simp only [step, Option.ite_none_right_eq_some, Option.some.injEq] at hstep
      obtain ⟨hpc, rfl⟩ := hstep
      exact Crew.view_back (by rw [hpc]; rfl) rfl (by rw [hpc]; rfl)
  | writerLock t =>
      simp only [step, Option.ite_none_right_eq_some, Option.some.injEq] at hstep
      obtain ⟨hpc, rfl⟩ := hstep
      cases htype : s.lock.type with
      | preferReader => exact Crew.view_stay (by rw [hpc]; rfl) (by rw [hpc]; rfl)
      | preferWriter => exact Crew.view_stay (by rw [hpc]; rfl) (by rw [hpc]; rfl)
  | writerUnlock t =>
      simp only [step, Option.ite_none_right_eq_some, Option.some.injEq] at hstep
      obtain ⟨hpc, rfl⟩ := hstep
      exact Crew.view_stay (by rw [hpc]; rfl) (by rw [hpc]; rfl)

theorem step_writers {s s' : Threads τ} {a : Action τ} (htype : s.lock.type = .preferWriter)
    (hstep : s.step a = some s') : Crew.Step s.writers s'.writers := by
  cases a with
  | run t =>
      simp only [step, Option.map_eq_some_iff] at hstep
      obtain ⟨⟨l, p⟩, hstmt, rfl⟩ := hstep
      exact stmt_writers htype hstmt
  | writerLock t =>
      simp only [step, htype, Option.ite_none_right_eq_some, Option.some.injEq] at hstep
      obtain ⟨hpc, rfl⟩ := hstep
      exact Crew.view_call (by rw [hpc]; rfl) rfl (by rw [hpc]; rfl)
  | _ =>
      simp only [step, htype, Option.ite_none_right_eq_some, Option.some.injEq] at hstep
      obtain ⟨hpc, rfl⟩ := hstep
      exact Crew.view_stay (by rw [hpc]; rfl) (by rw [hpc]; rfl)

end Threads

/-! ### Every reachable state -/

variable {τ : Type*} [Fintype τ] [DecidableEq τ]

/-- The functions of a reader-preferring lock do not have the statements on
`WriteLock` and `BlockReadersLock`. -/
def Pc.preferReader : Pc → Bool
  | .readerBlock | .readerUnblock | .writerLock _ | .writerUnlock _ => false
  | _ => true

structure Threads.Sound (type : LockType) (s : Threads τ) : Prop where
  type_eq : s.lock.type = type
  readers : s.readers.Inv
  writers : type = .preferWriter → s.writers.Inv
  preferReader : type = .preferReader →
    (∀ t, (s.pc t).preferReader = true) ∧ s.lock.writeSwitch = ⟨true, 0, true⟩

theorem stmt_preferReader {l l' : RWLock} {p q : Pc} (htype : l.type = .preferReader)
    (hp : p.preferReader = true) (hstmt : l.stmt p = some (l', q)) :
    q.preferReader = true ∧ l'.writeSwitch = l.writeSwitch := by
  cases stmt_cases hstmt with
  | readerLock g v next => exact ⟨by rw [htype]; cases next <;> rfl, rfl⟩
  | readerUnlock g v next => exact ⟨by cases next <;> rfl, rfl⟩
  | writerResource => exact ⟨rfl, rfl⟩
  | writerRelease => exact ⟨by rw [htype]; rfl, rfl⟩
  | readerBlock | readerUnblock | writerLock | writerUnlock => simp [Pc.preferReader] at hp

omit [Fintype τ] in
theorem step_preferReader {s s' : Threads τ} {a : Action τ} (htype : s.lock.type = .preferReader)
    (hs : ∀ t, (s.pc t).preferReader = true) (hstep : s.step a = some s') :
    (∀ t, (s'.pc t).preferReader = true) ∧ s'.lock.writeSwitch = s.lock.writeSwitch := by
  have hmove : ∀ l u p, p.preferReader = true → ∀ t, ((s.move l u p).pc t).preferReader = true := by
    intro l u p hp t
    by_cases htu : t = u
    · simpa [Threads.move, htu] using hp
    · simpa [Threads.move, htu] using hs t
  cases a with
  | run u =>
      simp only [Threads.step, Option.map_eq_some_iff] at hstep
      obtain ⟨⟨l, p⟩, hstmt, rfl⟩ := hstep
      have hnext := stmt_preferReader htype (hs u) hstmt
      exact ⟨hmove l u p hnext.1, hnext.2⟩
  | _ =>
      simp only [Threads.step, htype, Option.ite_none_right_eq_some, Option.some.injEq] at hstep
      obtain ⟨hpc, rfl⟩ := hstep
      exact ⟨hmove _ _ _ rfl, rfl⟩

theorem create_sound (type : LockType) : (readWriteLock τ type).init.Sound type := by
  have htaken : ∀ has : Pc → Bool, has .idle = false →
      headcount (fun p => has p = true) (fun _ : τ => Pc.idle) = 0 := fun has hidle =>
    headcount_eq_zero.mpr fun _ => by simp [hidle]
  refine ⟨rfl, Crew.Inv.init rfl (fun _ => rfl) (htaken _ rfl), fun _ => ?_,
    fun _ => ⟨fun _ => rfl, rfl⟩⟩
  exact Crew.Inv.init rfl (fun _ => rfl) (htaken _ rfl)

theorem step_sound {type : LockType} {s s' : Threads τ} {a : Action τ} (hs : s.Sound type)
    (hstep : s.step a = some s') : s'.Sound type := by
  obtain ⟨htype, hreaders, hwriters, hplain⟩ := hs
  refine ⟨(Threads.step_type hstep).trans htype, hreaders.step (Threads.step_readers hstep),
    fun hw => ?_, fun hr => ?_⟩
  · exact (hwriters hw).step (Threads.step_writers (htype.trans hw) hstep)
  · have hnext := step_preferReader (htype.trans hr) (hplain hr).1 hstep
    exact ⟨hnext.1, hnext.2.trans (hplain hr).2⟩

theorem after_sound (type : LockType) (h : List (Action τ)) :
    ((readWriteLock τ type).after h).Sound type := by
  apply Machine.after_of_invariant (create_sound type)
  intro s a hs
  show ((s.step a).getD s).Sound type
  cases hstep : s.step a with
  | none => exact hs
  | some s' => exact step_sound hs hstep

/-! ### Exclusion -/

/-- A writer is alone: no one else reads or writes. -/
def Threads.Exclusive (s : Threads τ) : Prop :=
  ∀ t u, s.pc t = .writing → s.pc u = .reading ∨ s.pc u = .writing → u = t

theorem Threads.Sound.exclusive {type : LockType} {s : Threads τ} (hs : s.Sound type) :
    s.Exclusive := by
  intro t u ht hu
  obtain hu | hu := hu
  · have hnone : s.readers.taken = 0 := by
      apply hs.readers.taken_eq_zero (t := u)
      show (s.pc u).readerPlace = .inside
      rw [hu]
      rfl
    have htaken := Crew.view_taken_eq_zero.mp hnone t
    rw [ht] at htaken
    contradiction
  · exact Crew.view_taken_unique hs.readers (by rw [hu]; rfl) (by rw [ht]; rfl)

/-- Over both kinds of lock, any threads and any interleaving. -/
theorem readWriteLock_exclusive (type : LockType) (h : List (Action τ)) :
    ((readWriteLock τ type).after h).Exclusive :=
  (after_sound type h).exclusive

/-! ### Deadlock -/

theorem Pc.eq_of_readerPlace {p : Pc} :
    (∀ g, p.readerPlace = .entering g → p = .readerLock g) ∧
      ∀ g, p.readerPlace = .leaving g → p = .readerUnlock g := by
  cases p <;> simp [Pc.readerPlace]

theorem Pc.eq_of_writerPlace {p : Pc} :
    (∀ g, p.writerPlace = .entering g → p = .writerLock g) ∧
      ∀ g, p.writerPlace = .leaving g → p = .writerUnlock g := by
  cases p <;> simp [Pc.writerPlace]

theorem Pc.of_blocked {l : RWLock} {p : Pc} (hread : p ≠ .reading) (hwrite : p ≠ .writing)
    (hblocked : l.stmt p = none) :
    p.hasResource = false ∧ p.readerPlace ≠ .inside ∧ p ≠ .writerRelease := by
  cases p <;> simp_all [Pc.hasResource, Pc.readerPlace, RWLock.stmt]

section

variable {type : LockType} {s : Threads τ}

omit [DecidableEq τ] in
/-- Readers that wait for the semaphore wait for a writer that can run. -/
theorem Threads.Sound.readers_gone (hs : s.Sound type)
    (hheld : ∀ t, s.pc t ≠ .reading ∧ s.pc t ≠ .writing)
    (hblocked : ∀ t, s.lock.stmt (s.pc t) = none) :
    (∀ t, (s.pc t).readerPlace = .outside) ∧ s.lock.resourceLock = true := by
  have hwhere := fun t => Pc.of_blocked (hheld t).1 (hheld t).2 (hblocked t)
  have htaken : s.readers.taken = 0 := Crew.view_taken_eq_zero.mpr fun t => (hwhere t).1
  have hreaders : ∀ t, s.readers.place t = .outside := by
    apply hs.readers.all_outside _ _ (fun t => (hwhere t).2.1) htaken
    · intro t g ht
      have hnone := hblocked t
      rw [Pc.eq_of_readerPlace.1 g ht] at hnone
      exact Option.map_eq_none_iff.mp hnone
    · intro t g ht
      have hnone := hblocked t
      rw [Pc.eq_of_readerPlace.2 g ht] at hnone
      exact Option.map_eq_none_iff.mp hnone
  exact ⟨hreaders, congrArg Switch.sem (hs.readers.var_eq hreaders htaken)⟩

omit [DecidableEq τ] in
/-- Writers that wait for the semaphore wait for a reader that can run. -/
theorem Threads.Sound.writers_gone (hs : s.Sound .preferWriter)
    (hpc : ∀ t, (s.pc t).hasBlock = false ∧ (s.pc t).writerPlace ≠ .inside)
    (hblocked : ∀ t, s.lock.stmt (s.pc t) = none) :
    (∀ t, (s.pc t).writerPlace = .outside) ∧ s.lock.blockReadersLock = true := by
  have htaken : s.writers.taken = 0 := Crew.view_taken_eq_zero.mpr fun t => (hpc t).1
  have hwriters : ∀ t, s.writers.place t = .outside := by
    apply (hs.writers rfl).all_outside _ _ (fun t => (hpc t).2) htaken
    · intro t g ht
      have hnone := hblocked t
      rw [Pc.eq_of_writerPlace.1 g ht] at hnone
      exact Option.map_eq_none_iff.mp hnone
    · intro t g ht
      have hnone := hblocked t
      rw [Pc.eq_of_writerPlace.2 g ht] at hnone
      exact Option.map_eq_none_iff.mp hnone
  exact ⟨hwriters, congrArg Switch.sem ((hs.writers rfl).var_eq hwriters htaken)⟩

omit [DecidableEq τ] in
theorem Threads.Sound.all_idle (hs : s.Sound type)
    (hheld : ∀ t, s.pc t ≠ .reading ∧ s.pc t ≠ .writing)
    (hblocked : ∀ t, s.lock.stmt (s.pc t) = none) : ∀ t, s.pc t = .idle := by
  obtain ⟨hreaders, hresource⟩ := hs.readers_gone hheld hblocked
  have hpc : ∀ t, s.pc t = .idle ∨ s.pc t = .readerBlock ∨
      (∃ g, s.pc t = .writerLock g) ∨ ∃ g, s.pc t = .writerUnlock g := by
    intro t
    have hout := hreaders t
    have hnone := hblocked t
    have hrelease := (Pc.of_blocked (hheld t).1 (hheld t).2 hnone).2.2
    have hwrite := (hheld t).2
    cases hp : s.pc t <;> simp_all [Pc.readerPlace, RWLock.stmt]
  cases type with
  | preferReader =>
      intro t
      have hplain := (hs.preferReader rfl).1 t
      obtain h | h | ⟨g, h⟩ | ⟨g, h⟩ := hpc t
      · exact h
      all_goals simp [h, Pc.preferReader] at hplain
  | preferWriter =>
      have hfree : ∀ t, (s.pc t).hasBlock = false ∧ (s.pc t).writerPlace ≠ .inside := by
        intro t
        obtain h | h | ⟨g, h⟩ | ⟨g, h⟩ := hpc t <;> simp [h, Pc.hasBlock, Pc.writerPlace]
      obtain ⟨hwriters, hblock⟩ := hs.writers_gone hfree hblocked
      intro t
      have hout := hwriters t
      have hnone := hblocked t
      obtain h | h | ⟨g, h⟩ | ⟨g, h⟩ := hpc t
      · exact h
      · simp [h, RWLock.stmt, hblock] at hnone
      · simp [h, Pc.writerPlace] at hout
      · simp [h, Pc.writerPlace] at hout

omit [DecidableEq τ] in
theorem Threads.Sound.restored (hs : s.Sound type) (hidle : ∀ t, s.pc t = .idle) :
    s.lock = .create type := by
  have hread : s.lock.readSwitch = ⟨true, 0, true⟩ := by
    apply hs.readers.var_eq
    · intro t
      show (s.pc t).readerPlace = .outside
      rw [hidle t]
      rfl
    · exact Crew.view_taken_eq_zero.mpr fun t => by rw [hidle t]; rfl
  have hwrite : s.lock.writeSwitch = ⟨true, 0, true⟩ := by
    cases type with
    | preferReader => exact (hs.preferReader rfl).2
    | preferWriter =>
        apply (hs.writers rfl).var_eq
        · intro t
          show (s.pc t).writerPlace = .outside
          rw [hidle t]
          rfl
        · exact Crew.view_taken_eq_zero.mpr fun t => by rw [hidle t]; rfl
  have htype := hs.type_eq
  cases hl : s.lock with
  | mk type' readCount readLock resourceLock writeCount writeLock blockReadersLock =>
      simp only [hl, RWLock.readSwitch, RWLock.writeSwitch, Switch.mk.injEq] at hread hwrite htype
      simp [RWLock.create, hread, hwrite, htype]

end

/-! ### Everyone can get out -/

def Pc.rank : Pc → ℕ
  | .idle => 0
  | .readerUnlock g | .writerUnlock g => g.rank
  | .reading | .writerRelease => 7
  | .readerUnblock | .writing => 8
  | .readerLock g => 8 + g.rank
  | .writerResource => 9
  | .writerLock g => 9 + g.rank
  | .readerBlock => 15

theorem stmt_rank {l l' : RWLock} {p q : Pc} (hstmt : l.stmt p = some (l', q)) :
    q.rank < p.rank := by
  cases stmt_cases hstmt with
  | readerBlock => decide
  | readerLock g v next henter =>
      have hrank := Switch.enter_rank henter
      cases next with
      | none => cases l.type <;> simp [Pc.rank, readerLockEnd] at hrank ⊢ <;> omega
      | some g' => simpa [Pc.rank] using hrank
  | readerUnblock => decide
  | readerUnlock g v next hleave =>
      have hrank := Switch.leave_rank hleave
      cases next <;> simpa [Pc.rank] using hrank
  | writerLock g v next henter =>
      have hrank := Switch.enter_rank henter
      cases next with
      | none =>
          simp [Pc.rank] at hrank ⊢
          omega
      | some g' => simpa [Pc.rank] using hrank
  | writerResource => decide
  | writerRelease => cases l.type <;> decide
  | writerUnlock g v next hleave =>
      have hrank := Switch.leave_rank hleave
      cases next <;> simpa [Pc.rank] using hrank

def Action.asks : Action τ → Bool
  | .readerLock _ | .writerLock _ => true
  | _ => false

theorem Threads.total_rank_move {s : Threads τ} {l : RWLock} {t : τ} {p : Pc}
    (hlt : p.rank < (s.pc t).rank) : total Pc.rank (s.move l t p).pc < total Pc.rank s.pc := by
  have hmove := total_move Pc.rank s.pc t p
  simp only [Threads.move]
  omega

/-- Whoever has the lock can call the unlock, and otherwise someone can run. -/
theorem Threads.Sound.exists_step {type : LockType} {s : Threads τ} (hs : s.Sound type)
    (hbusy : ¬ ∀ t, s.pc t = .idle) :
    ∃ a s', a.asks = false ∧ s.step a = some s' ∧ total Pc.rank s'.pc < total Pc.rank s.pc := by
  by_cases hread : ∃ t, s.pc t = .reading
  · obtain ⟨t, ht⟩ := hread
    refine ⟨.readerUnlock t, _, rfl, if_pos ht, total_rank_move ?_⟩
    rw [ht]
    decide
  by_cases hwrite : ∃ t, s.pc t = .writing
  · obtain ⟨t, ht⟩ := hwrite
    refine ⟨.writerUnlock t, _, rfl, if_pos ht, total_rank_move ?_⟩
    rw [ht]
    decide
  · have hruns : ¬ ∀ t, s.lock.stmt (s.pc t) = none := fun hblocked =>
      hbusy (hs.all_idle (fun t => ⟨fun h => hread ⟨t, h⟩, fun h => hwrite ⟨t, h⟩⟩) hblocked)
    push Not at hruns
    obtain ⟨t, ht⟩ := hruns
    obtain ⟨⟨l, p⟩, hstmt⟩ := Option.ne_none_iff_exists'.mp ht
    refine ⟨.run t, s.move l t p, rfl, ?_, total_rank_move (stmt_rank hstmt)⟩
    simp only [Threads.step, hstmt, Option.map_some]

/-- No interleaving leads into a deadlock: from every state the threads can all
leave, with no further one asking, and the lock is then as it was created. -/
theorem readWriteLock_drains (type : LockType) (h : List (Action τ)) :
    ∃ h' : List (Action τ), (∀ a ∈ h', a.asks = false) ∧
      (∀ t, ((readWriteLock τ type).after (h ++ h')).pc t = .idle) ∧
      ((readWriteLock τ type).after (h ++ h')).lock = .create type := by
  have hlower : ∀ h, ¬ (∀ t, ((readWriteLock τ type).after h).pc t = .idle) →
      ∃ a : Action τ, a.asks = false ∧ total Pc.rank ((readWriteLock τ type).after (h ++ [a])).pc <
        total Pc.rank ((readWriteLock τ type).after h).pc := by
    intro h hbusy
    obtain ⟨a, s', hasks, hstep, hlt⟩ := (after_sound type h).exists_step hbusy
    refine ⟨a, hasks, ?_⟩
    rw [Machine.after_concat]
    show total Pc.rank ((Threads.step _ a).getD _).pc < _
    rwa [hstep]
  obtain ⟨h', hmay, hidle⟩ := Machine.exists_rest (fun s => ∀ t, s.pc t = .idle)
    (fun a => a.asks = false) (fun s : Threads τ => total Pc.rank s.pc) hlower h
  exact ⟨h', hmay, hidle, (after_sound type (h ++ h')).restored hidle⟩

/-! ### The counters -/

/-- What the members say while the mutex of a counter is free. -/
structure Threads.Exact (s : Threads τ) : Prop where
  /-- `ReadCount`: how many readers have been let in and not yet let out. -/
  readers : s.lock.readLock = true →
    s.lock.readCount =
      headcount (fun p => p = .readerUnblock ∨ p = .reading ∨ p = .readerUnlock .take) s.pc ∧
    (s.lock.resourceLock = true ↔ ∀ t, s.pc t ≠ .readerUnblock ∧ s.pc t ≠ .reading ∧
      s.pc t ≠ .readerUnlock .take ∧ s.pc t ≠ .writing ∧ s.pc t ≠ .writerRelease)
  /-- `WriteCount`: how many writers wait for the resource, have it, or have just
  given it back. -/
  writers : s.lock.type = .preferWriter → s.lock.writeLock = true →
    s.lock.writeCount =
      headcount (fun p => p = .writerResource ∨ p = .writing ∨ p = .writerRelease ∨
        p = .writerUnlock .take) s.pc
  readBounds : 0 ≤ s.lock.readCount ∧ s.lock.readCount ≤ Fintype.card τ
  writeBounds : 0 ≤ s.lock.writeCount ∧ s.lock.writeCount ≤ Fintype.card τ

theorem Pc.readerPlace_inside (p : Pc) :
    p.readerPlace.role = .inside ↔
      p = .readerUnblock ∨ p = .reading ∨ p = .readerUnlock .take := by
  cases p with
  | readerLock g | readerUnlock g => cases g <;> simp [Pc.readerPlace, Place.role]
  | _ => simp [Pc.readerPlace, Place.role]

theorem Pc.writerPlace_inside (p : Pc) :
    p.writerPlace.role = .inside ↔
      p = .writerResource ∨ p = .writing ∨ p = .writerRelease ∨ p = .writerUnlock .take := by
  cases p with
  | writerLock g | writerUnlock g => cases g <;> simp [Pc.writerPlace, Place.role]
  | _ => simp [Pc.writerPlace, Place.role]

theorem Pc.hasResource_iff (p : Pc) :
    p.hasResource = false ↔ p ≠ .writing ∧ p ≠ .writerRelease := by
  cases p <;> simp [Pc.hasResource]

theorem readWriteLock_exact (type : LockType) (h : List (Action τ)) :
    ((readWriteLock τ type).after h).Exact := by
  have hs := after_sound type h
  generalize (readWriteLock τ type).after h = s at hs
  refine ⟨fun hfree => ?_, fun htype hfree => ?_, hs.readers.count_bounds, ?_⟩
  · obtain ⟨hcount, hsem⟩ := hs.readers.settled hfree
    constructor
    · refine hcount.trans (congrArg Nat.cast (headcount_congr fun t => ?_))
      exact (s.pc t).readerPlace_inside
    · refine hsem.trans ?_
      rw [Threads.readers, Crew.view_taken_eq_zero, ← forall_and]
      refine forall_congr' fun t => ?_
      show (s.pc t).hasResource = false ∧ ¬ (s.pc t).readerPlace.role = .inside ↔ _
      rw [Pc.hasResource_iff, Pc.readerPlace_inside]
      tauto
  · have hcount := ((hs.writers (hs.type_eq.symm.trans htype)).settled hfree).1
    refine hcount.trans (congrArg Nat.cast (headcount_congr fun t => ?_))
    exact (s.pc t).writerPlace_inside
  · cases type with
    | preferReader =>
        have hzero : s.lock.writeCount = 0 := congrArg Switch.count (hs.preferReader rfl).2
        omega
    | preferWriter => exact (hs.writers rfl).count_bounds

/-! ### Who comes first -/

omit [DecidableEq τ] in
theorem stmt_no_reader {s : Threads τ} (hs : s.Sound .preferWriter) {w t : τ}
    (hwaits : s.pc w = .writerResource) {l : RWLock} {p : Pc}
    (hstmt : s.lock.stmt (s.pc t) = some (l, p)) : p ≠ .reading := by
  have htype := hs.type_eq
  -- the writers have `BlockReadersLock`, so no reader does
  have hnone : s.writers.taken = 0 := by
    apply (hs.writers rfl).taken_eq_zero (t := w)
    show (s.pc w).writerPlace = .inside
    rw [hwaits]
    rfl
  have hblock := Crew.view_taken_eq_zero.mp hnone t
  generalize s.pc t = p₀ at hstmt hblock
  cases stmt_cases hstmt with
  | readerUnblock => simp [Pc.hasBlock] at hblock
  | readerLock g => simp [Pc.hasBlock] at hblock
  | readerUnlock g v next | writerLock g v next | writerUnlock g v next => cases next <;> simp
  | writerRelease => simp [htype, writerUnlockRest]
  | readerBlock | writerResource => simp

theorem step_no_reader {s s' : Threads τ} (hs : s.Sound .preferWriter) {w t : τ}
    (hwaits : s.pc w = .writerResource) {a : Action τ} (hstep : s.step a = some s')
    (hreads : s'.pc t = .reading) : s.pc t = .reading := by
  have htype := hs.type_eq
  have hmove : ∀ l u p, p ≠ .reading → (s.move l u p).pc t = .reading → s.pc t = .reading := by
    intro l u p hp hafter
    by_cases htu : t = u
    · subst htu
      simp [Threads.move, hp] at hafter
    · simpa [Threads.move, htu] using hafter
  cases a with
  | run u =>
      simp only [Threads.step, Option.map_eq_some_iff] at hstep
      obtain ⟨⟨l, p⟩, hstmt, rfl⟩ := hstep
      exact hmove l u p (stmt_no_reader hs hwaits hstmt) hreads
  | _ =>
      simp only [Threads.step, htype, Option.ite_none_right_eq_some, Option.some.injEq] at hstep
      obtain ⟨-, rfl⟩ := hstep
      exact hmove _ _ _ (by simp [readerLockStart, writerLockStart]) hreads

/-- While a writer waits for the resource of a writer-preferring lock, no
reader gets in: those that read at the end have read all along. -/
theorem preferWriter_writer_first (h h' : List (Action τ)) (w : τ)
    (hwaits : (readWriteLock τ .preferWriter).AlongFrom (fun s _ => s.pc w = .writerResource)
      ((readWriteLock τ .preferWriter).after h) h') (t : τ)
    (hreads : ((readWriteLock τ .preferWriter).after (h ++ h')).pc t = .reading) :
    ((readWriteLock τ .preferWriter).after h).pc t = .reading := by
  induction h' using List.reverseRecOn with
  | nil => rwa [List.append_nil] at hreads
  | append_singleton h' a ih =>
      rw [Machine.alongFrom_concat] at hwaits
      apply ih hwaits.1
      have hlast : ((readWriteLock τ .preferWriter).after (h ++ h')).pc w = .writerResource := by
        rw [Machine.after, List.foldl_append]
        exact hwaits.2
      rw [← List.append_assoc, Machine.after_concat] at hreads
      replace hreads : ((Threads.step _ a).getD _).pc t = .reading := hreads
      cases hstep : ((readWriteLock τ .preferWriter).after (h ++ h')).step a with
      | none => rwa [hstep] at hreads
      | some s' =>
          rw [hstep] at hreads
          exact step_no_reader (after_sound .preferWriter _) hlast hstep hreads

/-- One thread reads and one waits to write; a third calls `ReaderLock` and does
not get in. -/
theorem preferWriter_writer_first_three :
    ((readWriteLock (Fin 3) .preferWriter).after
      ([.readerLock 0] ++ List.replicate 8 (.run 0) ++ [.writerLock 1] ++
        List.replicate 6 (.run 1))).pc 0 = .reading :=
  preferWriter_writer_first _ [.run 1, .readerLock 2, .run 2, .run 1, .run 2] 1 (by decide) 0
    (by decide)

end EspressifApp.Addons
