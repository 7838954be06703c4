import Mathlib.Data.List.Nodup

/-!
Chains of nodes.

A singly linked list is a chain: `Chain next h l` says that the links `next` lead
from the head `h` through the nodes `l` and end. A `Path` is a part of a chain,
up to a node. To insert or remove a node is to change one link, that of the node
before (`Chain.insert`, `Chain.remove`).
-/

namespace EspressifApp.Reactive

variable {ν : Type*}

def Chain (next : ν → Option ν) : ν → List ν → Prop
  | h, [] => next h = none
  | h, a :: l => next h = some a ∧ Chain next a l

def Path (next : ν → Option ν) : ν → List ν → ν → Prop
  | h, [], x => x = h
  | h, a :: l, x => next h = some a ∧ Path next a l x

variable {next next' : ν → Option ν} {h x n : ν} {l s t : List ν}

theorem chain_append : Chain next h (s ++ t) ↔ ∃ x, Path next h s x ∧ Chain next x t := by
  induction s generalizing h with
  | nil => simp [Path]
  | cons a s ih => simp [Chain, Path, ih, and_assoc]

theorem Path.chain (hp : Path next h s x) (hc : Chain next h (s ++ t)) : Chain next x t := by
  induction s generalizing h with
  | nil => exact hp ▸ hc
  | cons a s ih => exact ih hp.2 hc.2

theorem exists_path (hc : Chain next h l) (hx : x ∈ h :: l) :
    ∃ s t, l = s ++ t ∧ Path next h s x := by
  induction l generalizing h with
  | nil => exact ⟨[], [], rfl, List.mem_singleton.mp hx⟩
  | cons a l ih =>
      rcases List.mem_cons.mp hx with rfl | hx
      · exact ⟨[], a :: l, rfl, rfl⟩
      · obtain ⟨s, t, rfl, hp⟩ := ih hc.2 hx
        exact ⟨a :: s, t, rfl, hc.1, hp⟩

/-- A path ends where it begins or with the last node of its list. -/
theorem Path.eq_concat (hp : Path next h s x) : s = [] ∧ x = h ∨ ∃ s', s = s' ++ [x] := by
  induction s generalizing h with
  | nil => exact .inl ⟨rfl, hp⟩
  | cons a s ih =>
      rcases ih hp.2 with ⟨rfl, rfl⟩ | ⟨s', rfl⟩
      · exact .inr ⟨[], rfl⟩
      · exact .inr ⟨a :: s', rfl⟩

theorem Path.mem (hp : Path next h s x) : x ∈ h :: s := by
  induction s generalizing h with
  | nil => exact hp ▸ List.mem_cons_self
  | cons a s ih => exact List.mem_cons_of_mem h (ih hp.2)

theorem Chain.congr (hc : Chain next h l) (hsame : ∀ a ∈ h :: l, next' a = next a) :
    Chain next' h l := by
  induction l generalizing h with
  | nil => exact (hsame h List.mem_cons_self).trans hc
  | cons a l ih =>
      exact ⟨(hsame h List.mem_cons_self).trans hc.1,
        ih hc.2 fun b hb => hsame b (List.mem_cons_of_mem h hb)⟩

theorem Path.congr (hp : Path next h s x) (hnodup : (h :: s).Nodup)
    (hsame : ∀ a ∈ h :: s, a ≠ x → next' a = next a) : Path next' h s x := by
  induction s generalizing h with
  | nil => exact hp
  | cons a s ih =>
      obtain ⟨hh, hnodup⟩ := List.nodup_cons.mp hnodup
      refine ⟨(hsame h List.mem_cons_self ?_).trans hp.1,
        ih hp.2 hnodup fun b hb => hsame b (List.mem_cons_of_mem h hb)⟩
      rintro rfl
      exact hh hp.2.mem

theorem Chain.next_eq (hc : Chain next h l) : next h = l.head? := by
  cases l with
  | nil => exact hc
  | cons a l => exact hc.1

theorem Chain.rehead (hc : Chain next x t) (hn : next' n = t.head?)
    (hsame : ∀ a ∈ t, next' a = next a) : Chain next' n t := by
  cases t with
  | nil => exact hn
  | cons a t => exact ⟨hn, hc.2.congr hsame⟩

theorem Path.ne_of_mem (hp : Path next h s x) (hnodup : (h :: (s ++ t)).Nodup) {a : ν}
    (ha : a ∈ t) : a ≠ x := by
  rintro rfl
  rw [← List.cons_append, List.nodup_append] at hnodup
  exact hnodup.2.2 a hp.mem a ha rfl

theorem Path.left (hp : Path next h s x) (hnodup : (h :: (s ++ t)).Nodup)
    (hsame : ∀ a ∈ h :: (s ++ t), a ≠ x → next' a = next a) : Path next' h s x := by
  rw [← List.cons_append] at hnodup hsame
  exact hp.congr (List.nodup_append.mp hnodup).1 fun a ha => hsame a (List.mem_append_left t ha)

theorem Chain.insert (hp : Path next h s x) (hc : Chain next h (s ++ t))
    (hnodup : (h :: (s ++ t)).Nodup) (hx : next' x = some n) (hn : next' n = next x)
    (hsame : ∀ a ∈ h :: (s ++ t), a ≠ x → next' a = next a) : Chain next' h (s ++ n :: t) := by
  have hc := hp.chain hc
  refine chain_append.mpr ⟨x, hp.left hnodup hsame, hx, hc.rehead (hn.trans hc.next_eq) ?_⟩
  intro a ha
  exact hsame a (List.mem_cons_of_mem h (List.mem_append_right s ha)) (hp.ne_of_mem hnodup ha)

theorem Chain.remove (hp : Path next h s x) (hc : Chain next h (s ++ n :: t))
    (hnodup : (h :: (s ++ n :: t)).Nodup) (hx : next' x = next n)
    (hsame : ∀ a ∈ h :: (s ++ n :: t), a ≠ x → next' a = next a) : Chain next' h (s ++ t) := by
  have hc := hp.chain hc
  refine chain_append.mpr ⟨x, hp.left hnodup hsame, hc.2.rehead (hx.trans hc.2.next_eq) ?_⟩
  intro a ha
  have hmem : a ∈ n :: t := List.mem_cons_of_mem n ha
  exact hsame a (List.mem_cons_of_mem h (List.mem_append_right s hmem)) (hp.ne_of_mem hnodup hmem)

end EspressifApp.Reactive
