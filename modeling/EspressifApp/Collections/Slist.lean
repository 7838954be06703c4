import EspressifApp.Reactive.Chains
import EspressifApp.Reactive.Heads
import EspressifApp.Reactive.Machine
import EspressifApp.Reactive.Words
import Mathlib.Data.List.Perm.Subperm

/-!
`slist.c`: singly linked lists of nodes that live inside other structures. A node
is the word at its address, `Next`, and a list ends with `NULL`, which is zero.
Everything else in memory belongs to others, who write to it as they like.
-/

namespace EspressifApp.Collections

open Reactive

/-! ### The functions -/

def slInitHead (m : Bytes) (head : ℕ) : Bytes := setWord m head 0

/-- As many turns as a loop over a list can take: there are not more addresses. -/
def turns : ℕ := 2 ^ 32

def slInsertNodeAfter (m : Bytes) (marker node : ℕ) : Bytes :=
  if marker = 0 then m
  else if node = 0 then m
  else
    let temp := word m marker
    setWord (setWord m marker node) node temp

def slAddNodeToHead (m : Bytes) (head node : ℕ) : Bytes := slInsertNodeAfter m head node

def slRemoveNodeFromHead (m : Bytes) (head : ℕ) : Bytes × ℕ :=
  if head = 0 then (m, 0)
  else
    let node := word m head
    (if node ≠ 0 then setWord m head (word m node) else m, node)

/-- A pointer; zero is `NULL`. -/
def pointer (m : Bytes) (a : ℕ) : Option ℕ := if word m a = 0 then none else some (word m a)

section

variable {m m' : Bytes} {a b h x n : ℕ} {l s t : List ℕ}

@[simp] theorem pointer_eq_none : pointer m a = none ↔ word m a = 0 := by
  simp [pointer]

theorem pointer_eq_some : pointer m a = some b ↔ word m a = b ∧ b ≠ 0 := by
  rw [pointer]
  split
  · next h => simp [h, eq_comm]
  · next h =>
      rw [Option.some_inj]
      exact ⟨fun hab => ⟨hab, hab ▸ h⟩, And.left⟩

theorem pointer_congr (h : word m' a = word m b) : pointer m' a = pointer m b := by
  rw [pointer, pointer, h]

def ChainAt (m : Bytes) (h : ℕ) (l : List ℕ) : Prop := Chain (pointer m) h l ∧ (h :: l).Nodup

/-! ### The loops -/

end

/-! ### Many lists in one memory -/

/-- A node that can be put into a list: it is not `NULL`, ends in memory, and no
node of a list overlaps with it. -/
structure FreshNode (L : HeadedLists ℕ) (n : ℕ) : Prop where
  pos : 0 < n
  bound : n + 4 ≤ 2 ^ 32
  apart : ∀ {a}, L.Member a → Apart a n

/-- The memory has the lists `L`, whose nodes do not overlap. -/
structure Slists (m : Bytes) (L : HeadedLists ℕ) : Prop where
  headed : Headed (ChainAt m) L
  pos : ∀ {a}, L.Member a → 0 < a
  bound : ∀ {a}, L.Member a → a + 4 ≤ 2 ^ 32
  apart : ∀ {a b}, L.Member a → L.Member b → a ≠ b → Apart a b

section

variable {m m' : Bytes} {L : HeadedLists ℕ} {a h x n : ℕ} {l l' s t : List ℕ}

theorem FreshNode.notMember (hn : FreshNode L n) : ¬ L.Member n := fun hmem =>
  (hn.apart hmem).ne rfl

theorem Slists.length_lt (hS : Slists m L) (hl : L h = some l) : l.length < turns := by
  have hmem : ∀ {a}, a ∈ l → L.Member a := fun ha => ⟨h, l, hl, List.mem_cons_of_mem h ha⟩
  have hnodup : (l.map (· / 4)).Nodup := by
    refine (List.nodup_cons.mp (hS.headed.each hl).2).2.map_on fun a ha b hb hab => ?_
    by_contra hne
    have := hS.apart (hmem ha) (hmem hb) hne
    rw [Apart] at this
    omega
  have hsub : l.map (· / 4) ⊆ List.range (2 ^ 30) := by
    intro c hc
    obtain ⟨a, ha, rfl⟩ := List.mem_map.mp hc
    have := hS.bound (hmem ha)
    rw [List.mem_range]
    omega
  have hle := (List.subperm_of_subset hnodup hsub).length_le
  rw [List.length_map, List.length_range] at hle
  rw [turns]
  omega

/-- One list changes, or begins, with nodes of its own and at most one that is
new. -/
theorem Slists.update (hS : Slists m L) (hc : ChainAt m' h l')
    (hnode : ∀ {a}, a ∈ h :: l' → L.Member a ∨ a = n ∧ FreshNode L n)
    (hown : ∀ {a g k}, a ∈ h :: l' → L g = some k → a ∈ g :: k → g = h)
    (hsame : ∀ {a g k}, g ≠ h → L g = some k → a ∈ g :: k → word m' a = word m a) :
    Slists m' (Function.update L h (some l')) := by
  have hmem : ∀ {a}, HeadedLists.Member (Function.update L h (some l')) a →
      L.Member a ∨ a = n ∧ FreshNode L n := by
    rintro a ⟨g, k, hk, ha⟩
    by_cases hg : g = h
    · subst hg
      rw [Function.update_self, Option.some_inj] at hk
      exact hnode (hk ▸ ha)
    · rw [Function.update_of_ne hg] at hk
      exact .inl ⟨g, k, hk, ha⟩
  refine ⟨hS.headed.update hc (fun {g k} hg hk => ?_) fun {g k} hg hk a ha hah => ?_,
    fun {a} ha => ?_, fun {a} ha => ?_, fun {a b} ha hb hne => ?_⟩
  · obtain ⟨hchain, hnodup⟩ := hS.headed.each hk
    exact ⟨hchain.congr fun a ha => pointer_congr (hsame hg hk ha), hnodup⟩
  · exact hg (hown hah hk ha)
  · rcases hmem ha with ha | ⟨rfl, hfresh⟩
    · exact hS.pos ha
    · exact hfresh.pos
  · rcases hmem ha with ha | ⟨rfl, hfresh⟩
    · exact hS.bound ha
    · exact hfresh.bound
  · rcases hmem ha with ha | ⟨rfl, hfresh⟩ <;> rcases hmem hb with hb | ⟨hbn, hfresh'⟩
    · exact hS.apart ha hb hne
    · exact hbn ▸ hfresh'.apart ha
    · exact (hfresh.apart hb).symm
    · exact absurd hbn.symm hne

theorem Slists.change (hS : Slists m L) (hl : L h = some l) (hc : ChainAt m' h l')
    (hsame : ∀ {a}, L.Member a → a ∉ h :: l → word m' a = word m a)
    (hnew : ∀ a ∈ l', a ∈ l ∨ a = n ∧ FreshNode L n) :
    Slists m' (Function.update L h (some l')) := by
  have hold : ∀ {a}, a ∈ h :: l' → a ∈ h :: l ∨ a = n ∧ FreshNode L n := by
    intro a ha
    rcases List.mem_cons.mp ha with rfl | ha
    · exact .inl List.mem_cons_self
    · exact (hnew a ha).imp_left (List.mem_cons_of_mem h)
  refine hS.update hc (fun ha => (hold ha).imp_left fun ha => ⟨h, l, hl, ha⟩)
    (fun {a g k} ha hk hag => ?_) fun {a g k} hg hk ha => hsame ⟨g, k, hk, ha⟩ fun hah => ?_
  · rcases hold ha with ha | ⟨rfl, hfresh⟩
    · exact hS.headed.unique hk hl hag ha
    · exact absurd ⟨g, k, hk, hag⟩ hfresh.notMember
  · exact hS.headed.apart hk hl hg ha hah

theorem Slists.insert (hS : Slists m L) (hl : L h = some (s ++ t)) (hp : Path (pointer m) h s x)
    (hn : FreshNode L n) :
    Slists (setWord (setWord m x n) n (word m x)) (Function.update L h (some (s ++ n :: t))) := by
  obtain ⟨hchain, hnodup⟩ := hS.headed.each hl
  have hmem : ∀ {a}, a ∈ h :: (s ++ t) → L.Member a := fun ha => ⟨h, s ++ t, hl, ha⟩
  have hx : x ∈ h :: (s ++ t) := List.mem_append_left t hp.mem
  have hnx := hn.apart (hmem hx)
  have hsame : ∀ {a}, L.Member a → a ≠ x →
      word (setWord (setWord m x n) n (word m x)) a = word m a := by
    intro a ha hax
    rw [word_setWord_of_apart (hn.apart ha), word_setWord_of_apart (hS.apart ha (hmem hx) hax)]
  refine hS.change (n := n) hl ⟨Chain.insert hp hchain hnodup ?_ ?_ fun a ha hax => ?_, ?_⟩
    (fun {a} ha hah => hsame ha ?_) fun a ha => ?_
  · refine pointer_eq_some.mpr ⟨?_, hn.pos.ne'⟩
    rw [word_setWord_of_apart hnx, word_setWord_self (by have := hn.bound; omega)]
  · exact pointer_congr (word_setWord_self (word_lt m x))
  · exact pointer_congr (hsame (hmem ha) hax)
  · rw [← List.cons_append, List.nodup_middle, List.cons_append]
    exact List.nodup_cons.mpr ⟨fun ha => hn.notMember (hmem ha), hnodup⟩
  · rintro rfl
    exact hah hx
  · simp only [List.mem_append, List.mem_cons] at ha ⊢
    have := hn
    tauto

theorem Slists.remove (hS : Slists m L) (hl : L h = some (s ++ n :: t))
    (hp : Path (pointer m) h s x) :
    Slists (setWord m x (word m n)) (Function.update L h (some (s ++ t))) := by
  obtain ⟨hchain, hnodup⟩ := hS.headed.each hl
  have hmem : ∀ {a}, a ∈ h :: (s ++ n :: t) → L.Member a := fun ha => ⟨h, s ++ n :: t, hl, ha⟩
  have hx : x ∈ h :: (s ++ n :: t) := List.mem_append_left (n :: t) hp.mem
  have hsame : ∀ {a}, L.Member a → a ≠ x → word (setWord m x (word m n)) a = word m a :=
    fun ha hax => word_setWord_of_apart (hS.apart ha (hmem hx) hax)
  refine hS.change (n := n) hl ⟨Chain.remove hp hchain hnodup ?_ fun a ha hax => ?_, ?_⟩
    (fun {a} ha hah => hsame ha ?_) fun a ha => .inl ?_
  · exact pointer_congr (word_setWord_self (word_lt m n))
  · exact pointer_congr (hsame (hmem ha) hax)
  · exact hnodup.sublist (by simp)
  · rintro rfl
    exact hah hx
  · simp only [List.mem_append, List.mem_cons] at ha ⊢
    tauto

theorem Slists.initHead (hS : Slists m L) (hh : (L h).isSome ∨ FreshNode L h) :
    Slists (slInitHead m h) (Function.update L h (some [])) := by
  have hown : ∀ {g k}, L g = some k → h ∈ g :: k → g = h := by
    intro g k hk hhk
    rcases hh with hh | hh
    · obtain ⟨l, hl⟩ := Option.isSome_iff_exists.mp hh
      exact hS.headed.unique hk hl hhk List.mem_cons_self
    · exact absurd ⟨g, k, hk, hhk⟩ hh.notMember
  have hnode : L.Member h ∨ FreshNode L h := by
    refine hh.imp_left fun hh => ?_
    obtain ⟨l, hl⟩ := Option.isSome_iff_exists.mp hh
    exact ⟨h, l, hl, List.mem_cons_self⟩
  refine hS.update (n := h) ⟨pointer_eq_none.mpr (word_setWord_self (by omega)), by simp⟩
    (fun ha => ?_) (fun ha hk hag => ?_) fun {a g k} hg hk ha => ?_
  · rw [List.mem_singleton.mp ha]
    exact hnode.imp_right fun hfresh => ⟨rfl, hfresh⟩
  · rw [List.mem_singleton.mp ha] at hag
    exact hown hk hag
  · refine word_setWord_of_apart ?_
    rcases hnode with hmem | hfresh
    · refine hS.apart ⟨g, k, hk, ha⟩ hmem ?_
      rintro rfl
      exact hg (hown hk ha)
    · exact hfresh.apart ⟨g, k, hk, ha⟩

theorem Slists.congr (hS : Slists m L) (hsame : ∀ {a}, L.Member a → word m' a = word m a) :
    Slists m' L := by
  refine ⟨⟨fun {h l} hl => ?_, hS.headed.apart⟩, hS.pos, hS.bound, hS.apart⟩
  obtain ⟨hchain, hnodup⟩ := hS.headed.each hl
  exact ⟨hchain.congr fun a ha => pointer_congr (hsame ⟨h, l, hl, ha⟩), hnodup⟩

/-! ### One call -/

theorem path_insertAfter {next : ℕ → Option ℕ} (hp : Path next h s x)
    (hnodup : (h :: (s ++ t)).Nodup) :
    (if x = h then n :: (s ++ t) else insertAfter x n (s ++ t)) = s ++ n :: t := by
  rcases hp.eq_concat with ⟨rfl, rfl⟩ | ⟨s, rfl⟩
  · rw [if_pos rfl]
    rfl
  · rw [List.append_assoc, List.singleton_append] at hnodup ⊢
    obtain ⟨hh, hnodup⟩ := List.nodup_cons.mp hnodup
    rw [List.nodup_middle, List.nodup_cons, List.mem_append, not_or] at hnodup
    have hne : x ≠ h := fun hxh => hh (by simp [hxh])
    rw [if_neg hne, insertAfter_append hnodup.1.1 hnodup.1.2, List.append_assoc,
      List.singleton_append]

theorem insertNodeAfter_slists (hS : Slists m L) (hx : L.Member x) (hn : FreshNode L n) :
    Slists (slInsertNodeAfter m x n) (putAfter L x n) := by
  rw [slInsertNodeAfter, if_neg (hS.pos hx).ne', if_neg hn.pos.ne']
  obtain ⟨h, l, hl, hxl⟩ := hx
  obtain ⟨hchain, hnodup⟩ := hS.headed.each hl
  rw [putAfter_eq hS.headed hl hxl]
  obtain ⟨s, t, rfl, hp⟩ := exists_path hchain hxl
  rw [path_insertAfter hp hnodup]
  exact hS.insert hl hp hn

theorem addNodeToHead_slists (hS : Slists m L) (hl : L h = some l) (hn : FreshNode L n) :
    Slists (slAddNodeToHead m h n) (Function.update L h (some (n :: l))) := by
  have hput := putAfter_eq hS.headed hl List.mem_cons_self (n := n)
  rw [if_pos rfl] at hput
  exact hput ▸ insertNodeAfter_slists hS ⟨h, l, hl, List.mem_cons_self⟩ hn

theorem removeNodeFromHead_slists (hS : Slists m L) (hl : L h = some l) :
    Slists (slRemoveNodeFromHead m h).1 (Function.update L h (some l.tail)) ∧
      (slRemoveNodeFromHead m h).2 = l.head?.getD 0 := by
  obtain ⟨hchain, -⟩ := hS.headed.each hl
  rw [slRemoveNodeFromHead, if_neg (hS.pos ⟨h, l, hl, List.mem_cons_self⟩).ne']
  cases l with
  | nil =>
      have hend : word m h = 0 := pointer_eq_none.mp hchain
      rw [hend, List.tail_nil, ← hl, Function.update_eq_self]
      exact ⟨hS, rfl⟩
  | cons a l =>
      obtain ⟨hword, hne⟩ := pointer_eq_some.mp hchain.1
      rw [hword]
      simp only [if_pos hne]
      exact ⟨hS.remove (s := []) hl rfl, rfl⟩

end

end EspressifApp.Collections
