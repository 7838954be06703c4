import Mathlib.Data.List.Nodup

/-!
Lists of nodes, known by their heads.

Nodes live in one memory and belong to lists, each list to its head. `Headed P L`
says that the memory has the lists `L`: each is as `P` asks, and no node belongs
to two. Whatever `P` is, an operation changes one list (`Headed.update`), or all of
them with at most one node that is new (`Headed.map`). `putAfter`, `putBefore` and
`takeOut` are the changes of single nodes, wherever their place is.
-/

namespace EspressifApp.Reactive

variable {ν : Type*}

/-- The nodes after a head, for every node that is the head of a list. -/
abbrev HeadedLists (ν : Type*) := ν → Option (List ν)

/-- A node that belongs to some list, as its head or in it. -/
def HeadedLists.Member (L : HeadedLists ν) (a : ν) : Prop := ∃ h l, L h = some l ∧ a ∈ h :: l

theorem member_head {L : HeadedLists ν} {h : ν} (hh : (L h).isSome) : L.Member h :=
  let ⟨l, hl⟩ := Option.isSome_iff_exists.mp hh
  ⟨h, l, hl, List.mem_cons_self⟩

structure Headed (P : ν → List ν → Prop) (L : HeadedLists ν) : Prop where
  each : ∀ {h l}, L h = some l → P h l
  apart : ∀ {g h k l}, L g = some k → L h = some l → g ≠ h → List.Disjoint (g :: k) (h :: l)

section

variable {P P' : ν → List ν → Prop} {L : HeadedLists ν} {h a n : ν} {l : List ν}

/-- The lists that a node belongs to are one list. -/
theorem Headed.unique (hR : Headed P L) {g : ν} {k : List ν} (hk : L g = some k) (hl : L h = some l)
    (hg : a ∈ g :: k) (hh : a ∈ h :: l) : g = h := by
  by_contra hne
  exact hR.apart hk hl hne hg hh

/-- Every list is changed as `f` says; what is new in one is the node `n`, and
only where `x` is. -/
theorem Headed.map {x : ν} {f : ν → List ν → List ν} (hR : Headed P L)
    (hn : ¬ L.Member n) (heach : ∀ {h l}, L h = some l → P' h (f h l))
    (hmem : ∀ {h l a}, L h = some l → a ∈ f h l → a ∈ l ∨ a = n ∧ x ∈ h :: l) :
    Headed P' fun h => (L h).map (f h) := by
  have hold : ∀ {h l a}, L h = some l → a ∈ h :: f h l → a ∈ h :: l ∨ a = n ∧ x ∈ h :: l := by
    intro h l a hl ha
    rcases List.mem_cons.mp ha with rfl | ha
    · exact .inl List.mem_cons_self
    · exact (hmem hl ha).imp_left (List.mem_cons_of_mem h)
  constructor
  · intro h l hl
    obtain ⟨k, hk, rfl⟩ := Option.map_eq_some_iff.mp hl
    exact heach hk
  · intro g h k' l' hk' hl' hne a hag hah
    obtain ⟨k, hk, rfl⟩ := Option.map_eq_some_iff.mp hk'
    obtain ⟨l, hl, rfl⟩ := Option.map_eq_some_iff.mp hl'
    rcases hold hk hag with hg | ⟨rfl, hg⟩ <;> rcases hold hl hah with hh | ⟨han, hh⟩
    · exact hR.apart hk hl hne hg hh
    · exact hn ⟨g, k, hk, han ▸ hg⟩
    · exact hn ⟨h, l, hl, hh⟩
    · exact hR.apart hk hl hne hg hh

theorem Headed.update [DecidableEq ν] (hR : Headed P L) (heach : P' h l)
    (hframe : ∀ {g k}, g ≠ h → L g = some k → P' g k)
    (hapart : ∀ {g k}, g ≠ h → L g = some k → List.Disjoint (g :: k) (h :: l)) :
    Headed P' (Function.update L h (some l)) := by
  constructor
  · intro g k hk
    by_cases hg : g = h
    · subst hg
      rw [Function.update_self, Option.some_inj] at hk
      exact hk ▸ heach
    · rw [Function.update_of_ne hg] at hk
      exact hframe hg hk
  · intro g g' k k' hk hk' hne
    by_cases hg : g = h
    · subst hg
      rw [Function.update_self, Option.some_inj] at hk
      rw [Function.update_of_ne hne.symm] at hk'
      exact hk ▸ fun a ha hb => hapart hne.symm hk' hb ha
    · rw [Function.update_of_ne hg] at hk
      by_cases hg' : g' = h
      · subst hg'
        rw [Function.update_self, Option.some_inj] at hk'
        exact hk' ▸ hapart hg hk
      · rw [Function.update_of_ne hg'] at hk'
        exact hR.apart hk hk' hne

end

/-! ### Changes of lists -/

section

variable [DecidableEq ν]

def insertAfter (x n : ν) (l : List ν) : List ν := l.flatMap fun a => if a = x then [a, n] else [a]

def insertBefore (x n : ν) (l : List ν) : List ν := l.flatMap fun a => if a = x then [n, a] else [a]

section

variable {l s t : List ν} {x n : ν}

theorem insertAfter_of_notMem (hx : x ∉ l) : insertAfter x n l = l := by
  induction l with
  | nil => rfl
  | cons a l ih =>
      rw [List.mem_cons, not_or] at hx
      rw [insertAfter, List.flatMap_cons, if_neg (Ne.symm hx.1)]
      exact congrArg (a :: ·) (ih hx.2)

theorem insertAfter_append (hs : x ∉ s) (ht : x ∉ t) :
    insertAfter x n (s ++ x :: t) = s ++ x :: n :: t := by
  rw [insertAfter, List.flatMap_append, List.flatMap_cons, if_pos rfl]
  exact congrArg₂ (· ++ x :: n :: ·) (insertAfter_of_notMem hs) (insertAfter_of_notMem ht)

theorem insertBefore_of_notMem (hx : x ∉ l) : insertBefore x n l = l := by
  induction l with
  | nil => rfl
  | cons a l ih =>
      rw [List.mem_cons, not_or] at hx
      rw [insertBefore, List.flatMap_cons, if_neg (Ne.symm hx.1)]
      exact congrArg (a :: ·) (ih hx.2)

theorem insertBefore_append (hs : x ∉ s) (ht : x ∉ t) :
    insertBefore x n (s ++ x :: t) = s ++ n :: x :: t := by
  rw [insertBefore, List.flatMap_append, List.flatMap_cons, if_pos rfl]
  exact congrArg₂ (· ++ n :: x :: ·) (insertBefore_of_notMem hs) (insertBefore_of_notMem ht)

theorem mem_insertAfter {a : ν} (ha : a ∈ insertAfter x n l) : a ∈ l ∨ a = n ∧ x ∈ l := by
  obtain ⟨b, hb, hab⟩ := List.mem_flatMap.mp ha
  split at hab
  · next hbx =>
      rcases List.mem_pair.mp hab with rfl | rfl
      · exact .inl hb
      · exact .inr ⟨rfl, hbx ▸ hb⟩
  · exact .inl (List.mem_singleton.mp hab ▸ hb)

theorem mem_insertBefore {a : ν} (ha : a ∈ insertBefore x n l) : a ∈ l ∨ a = n ∧ x ∈ l := by
  obtain ⟨b, hb, hab⟩ := List.mem_flatMap.mp ha
  split at hab
  · next hbx =>
      rcases List.mem_pair.mp hab with rfl | rfl
      · exact .inr ⟨rfl, hbx ▸ hb⟩
      · exact .inl hb
  · exact .inl (List.mem_singleton.mp hab ▸ hb)

end

def putAfter (L : HeadedLists ν) (x n : ν) : HeadedLists ν := fun h =>
  (L h).map fun l => if x = h then n :: l else insertAfter x n l

/-- Before the head is behind all nodes. -/
def putBefore (L : HeadedLists ν) (x n : ν) : HeadedLists ν := fun h =>
  (L h).map fun l => if x = h then l ++ [n] else insertBefore x n l

def takeOut (L : HeadedLists ν) (n : ν) : HeadedLists ν := fun h => (L h).map (·.erase n)

variable {P : ν → List ν → Prop} {L : HeadedLists ν} {h n : ν} {l : List ν}

theorem takeOut_eq (hR : Headed P L) (hl : L h = some l) (hn : n ∈ l) :
    takeOut L n = Function.update L h (some (l.erase n)) := by
  ext1 g
  by_cases hg : g = h
  · subst hg
    rw [Function.update_self, takeOut, hl, Option.map_some]
  · rw [Function.update_of_ne hg, takeOut]
    cases hk : L g with
    | none => rfl
    | some k =>
        rw [Option.map_some, List.erase_of_not_mem fun hnk => ?_]
        exact hg (hR.unique hk hl (List.mem_cons_of_mem g hnk) (List.mem_cons_of_mem h hn))

theorem putAfter_eq {x : ν} (hR : Headed P L) (hl : L h = some l) (hx : x ∈ h :: l) :
    putAfter L x n =
      Function.update L h (some (if x = h then n :: l else insertAfter x n l)) := by
  ext1 g
  by_cases hg : g = h
  · subst hg
    rw [Function.update_self, putAfter, hl, Option.map_some]
  · rw [Function.update_of_ne hg, putAfter]
    cases hk : L g with
    | none => rfl
    | some k =>
        have hxk : x ∉ g :: k := fun hxk => hg (hR.unique hk hl hxk hx)
        rw [Option.map_some, if_neg (List.ne_of_not_mem_cons hxk),
          insertAfter_of_notMem (List.not_mem_of_not_mem_cons hxk)]

end

end EspressifApp.Reactive
