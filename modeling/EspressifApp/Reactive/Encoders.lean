import Mathlib.Algebra.GroupWithZero.Nat
import Mathlib.Data.List.TakeDrop

/-!
Encoders that write into limited memory.

An encoder turns data into symbols for a memory that is emptied while it is
filled. Each call of `encode` is one session: it is told how much memory is
free, writes what fits, and reports whether the data is out and whether the
memory is full; the next session goes on where it stopped. `Resumes E full` is
the contract of such an encoder: from whatever point it has reached, a session
writes the next symbols of `full d`, as many as fit. `transfer` is the driver,
which calls the encoder with the amounts of memory that happen to be free, and
`Resumes.transfer` says that these do not matter.
-/

namespace EspressifApp.Reactive

variable {σ δ α : Type*}

structure Session (σ α : Type*) where
  symbols : List α
  state : σ
  complete : Bool
  memFull : Bool
  deriving DecidableEq, Repr

structure Encoder (σ δ α : Type*) where
  encode : σ → δ → ℕ → Session σ α
  reset : σ → σ

namespace Encoder

/-- `ready` states are between two pieces of data; in a state that is `midway`
through `d` the symbols `l` are still to come. -/
structure Resumes (E : Encoder σ δ α) (full : δ → List α) (ready : σ → Prop)
    (midway : σ → δ → List α → Prop) : Prop where
  start : ∀ {s}, ready s → ∀ d, midway s d (full d)
  symbols : ∀ {s d l}, midway s d l → ∀ n, (E.encode s d n).symbols = l.take n
  complete : ∀ {s d l}, midway s d l → ∀ n, (E.encode s d n).complete = true ↔ l.length ≤ n
  memFull : ∀ {s d l}, midway s d l → ∀ n, (E.encode s d n).memFull = true ↔ n ≤ l.length
  done : ∀ {s d l}, midway s d l → ∀ {n}, l.length ≤ n → ready (E.encode s d n).state
  suspend : ∀ {s d l}, midway s d l → ∀ {n}, n < l.length →
    midway (E.encode s d n).state d (l.drop n)
  reset : ∀ {s d l}, midway s d l → ready (E.reset s)

/-- The driver: sessions until one is complete, with the memory free in each.
`none` if it never is; the last component is the memory not used. -/
def transfer (E : Encoder σ δ α) : σ → δ → List ℕ → Option (List α × σ × List ℕ)
  | _, _, [] => none
  | s, d, n :: ns =>
      let r := E.encode s d n
      if r.complete then some (r.symbols, r.state, ns)
      else (transfer E r.state d ns).map fun m => (r.symbols ++ m.1, m.2)

/-- However the memory comes, what is written is the same. -/
theorem Resumes.transfer {E : Encoder σ δ α} {full : δ → List α} {ready : σ → Prop}
    {midway : σ → δ → List α → Prop} (hE : E.Resumes full ready midway) {s : σ} {d : δ}
    {l : List α} (hs : midway s d l) {ns : List ℕ} (hns : ns ≠ []) (hroom : l.length ≤ ns.sum) :
    ∃ s' ms, E.transfer s d ns = some (l, s', ms) ∧ ready s' := by
  induction ns generalizing s l with
  | nil => contradiction
  | cons n ns ih =>
      by_cases hfits : l.length ≤ n
      · refine ⟨_, ns, ?_, hE.done hs hfits⟩
        rw [Encoder.transfer, if_pos ((hE.complete hs n).mpr hfits), hE.symbols hs,
          List.take_of_length_le hfits]
      · have hrest : (l.drop n).length ≤ ns.sum := by
          rw [List.length_drop]
          rw [List.sum_cons] at hroom
          omega
        have hmore : ns ≠ [] := by
          rintro rfl
          simp only [List.length_drop, List.sum_nil] at hrest
          omega
        obtain ⟨s', ms, htransfer, hready⟩ := ih (hE.suspend hs (by omega)) hmore hrest
        refine ⟨s', ms, ?_, hready⟩
        rw [Encoder.transfer, if_neg (by rw [hE.complete hs]; exact hfits), htransfer,
          hE.symbols hs, Option.map_some]
        exact congrArg (fun l => some (l, s', ms)) (List.take_append_drop n l)

def positional (full : δ → List α) : Encoder ℕ δ α where
  encode p d n :=
    let l := (full d).drop p
    { symbols := l.take n
      state := if l.length ≤ n then 0 else p + n
      complete := l.length ≤ n
      memFull := n ≤ l.length }
  reset _ := 0

theorem positional_resumes (full : δ → List α) :
    (positional full).Resumes full (· = 0) fun p d l => l = (full d).drop p where
  start := by
    rintro _ rfl d
    rfl
  symbols := by
    rintro p d _ rfl n
    rfl
  complete := by
    rintro p d _ rfl n
    exact decide_eq_true_iff
  memFull := by
    rintro p d _ rfl n
    exact decide_eq_true_iff
  done := by
    rintro p d _ rfl n hfits
    exact if_pos hfits
  suspend := by
    rintro p d _ rfl n hmore
    show List.drop n (List.drop p (full d)) = _
    rw [List.drop_drop]
    exact congrArg (List.drop · (full d)) (if_neg (by omega)).symm
  reset := by
    rintro p d _ rfl
    rfl

end Encoder

end EspressifApp.Reactive
