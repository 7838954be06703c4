import EspressifApp.Reactive.Heads
import Mathlib.Data.List.Chain

/-!
Rings of nodes.

A doubly linked ring starts and ends at its head: `RingAt m h l` says that the
links `m` lead from the head `h` through the nodes `l` and back, in both
directions. Written out from head to head the nodes are a *walk*; to insert or
remove a node is to change the walk at one place (`Walk.insert`, `Walk.remove`),
and a walk that has none of the nodes concerned is not changed at all
(`Walk.congr`). `Rings m L` holds of the links of many lists at once: every list
is a ring and no node belongs to two.
-/

namespace EspressifApp.Reactive

variable {ν : Type*}

structure Links (ν : Type*) where
  next : ν → ν
  prev : ν → ν

namespace Links

variable [DecidableEq ν]

def setNext (m : Links ν) (a b : ν) : Links ν := { m with next := Function.update m.next a b }

def setPrev (m : Links ν) (a b : ν) : Links ν := { m with prev := Function.update m.prev a b }

variable (m : Links ν) (a b c : ν)

@[simp] theorem setNext_prev : (m.setNext a b).prev = m.prev := rfl

@[simp] theorem setPrev_next : (m.setPrev a b).next = m.next := rfl

@[simp] theorem setNext_next_self : (m.setNext a b).next a = b := Function.update_self ..

@[simp] theorem setPrev_prev_self : (m.setPrev a b).prev a = b := Function.update_self ..

variable {m a b c}

theorem setNext_next_of_ne (hne : c ≠ a) : (m.setNext a b).next c = m.next c :=
  Function.update_of_ne hne ..

theorem setPrev_prev_of_ne (hne : c ≠ a) : (m.setPrev a b).prev c = m.prev c :=
  Function.update_of_ne hne ..

end Links

def Linked (m : Links ν) (a b : ν) : Prop := m.next a = b ∧ m.prev b = a

/-- A walk once round: no node comes twice but that the walk ends where it
began. -/
structure Walk (m : Links ν) (w : List ν) : Prop where
  linked : w.IsChain (Linked m)
  nodupInit : w.dropLast.Nodup
  nodupTail : w.tail.Nodup

def RingAt (m : Links ν) (h : ν) (l : List ν) : Prop := Walk m (h :: (l ++ [h]))

theorem isChain_congr {m m' : Links ν} {w : List ν} (hw : w.IsChain (Linked m))
    (hnext : ∀ a ∈ w.dropLast, m'.next a = m.next a) (hprev : ∀ b ∈ w.tail, m'.prev b = m.prev b) :
    w.IsChain (Linked m') := by
  induction w with
  | nil => exact .nil
  | cons a w ih =>
      cases w with
      | nil => exact .singleton a
      | cons b w =>
          obtain ⟨hab, hrest⟩ := List.isChain_cons_cons.mp hw
          refine List.isChain_cons_cons.mpr ⟨⟨?_, ?_⟩, ih hrest ?_ ?_⟩
          · rw [hnext a (by simp), hab.1]
          · rw [hprev b (by simp), hab.2]
          · exact fun c hc => hnext c (List.mem_cons_of_mem a hc)
          · exact fun c hc => hprev c (List.mem_cons_of_mem b hc)

theorem Walk.congr {m m' : Links ν} {w : List ν} (hw : Walk m w)
    (hnext : ∀ a ∈ w, m'.next a = m.next a) (hprev : ∀ b ∈ w, m'.prev b = m.prev b) : Walk m' w :=
  ⟨isChain_congr hw.linked (fun a ha => hnext a ((List.dropLast_sublist w).subset ha))
    fun b hb => hprev b (List.mem_of_mem_tail hb), hw.nodupInit, hw.nodupTail⟩

section

variable {m m' : Links ν} {u k v : List ν} {x y n : ν}

theorem nodup_init_iff (u k v : List ν) (x y : ν) :
    (u ++ x :: (k ++ y :: v)).dropLast.Nodup ↔ (u ++ x :: (k ++ (y :: v).dropLast)).Nodup := by
  rw [List.dropLast_append_cons, List.dropLast_cons_of_ne_nil (by simp),
    List.dropLast_append_of_ne_nil (by simp)]

theorem nodup_tail_iff (u k v : List ν) (x y : ν) :
    (u ++ x :: (k ++ y :: v)).tail.Nodup ↔ ((u ++ [x]).tail ++ (k ++ y :: v)).Nodup := by
  cases u <;> simp

/-- A walk from `x` to `y` is changed between them: what comes before and after
is still linked. -/
theorem Walk.outer (hw : Walk m (u ++ x :: (k ++ y :: v)))
    (hnext : ∀ a ∈ u ++ x :: (k ++ y :: v), a ≠ x → a ∉ k → m'.next a = m.next a)
    (hprev : ∀ b ∈ u ++ x :: (k ++ y :: v), b ≠ y → b ∉ k → m'.prev b = m.prev b) :
    (u ++ [x]).IsChain (Linked m') ∧ (y :: v).IsChain (Linked m') := by
  -- `x` and `y` are not among the others, so the links that change are none of these
  have hinit := (nodup_init_iff u k v x y).mp hw.nodupInit
  have htail := (nodup_tail_iff u k v x y).mp hw.nodupTail
  have hmem : ∀ a, a ∈ u ++ [x] ∨ a ∈ y :: v → a ∈ u ++ x :: (k ++ y :: v) := by
    intro a ha
    simp only [List.mem_append, List.mem_cons, List.not_mem_nil, or_false] at ha ⊢
    tauto
  have hwhole : (u ++ [x] ++ (k ++ y :: v)).IsChain (Linked m) := by
    simpa using hw.linked
  constructor
  · refine isChain_congr hwhole.left_of_append (fun a ha => ?_) fun b hb => ?_
    · rw [List.dropLast_concat] at ha
      obtain ⟨-, -, hu⟩ := List.nodup_append.mp hinit
      exact hnext a (hmem a (.inl (by simp [ha]))) (fun h => hu a ha x (by simp) h)
        fun h => hu a ha a (by simp [h]) rfl
    · obtain ⟨-, -, ht⟩ := List.nodup_append.mp htail
      exact hprev b (hmem b (.inl (List.mem_of_mem_tail hb))) (fun h => ht b hb y (by simp) h)
        fun h => ht b hb b (by simp [h]) rfl
  · refine isChain_congr hwhole.right_of_append.right_of_append (fun a ha => ?_) fun b hb => ?_
    · obtain ⟨-, hx, -⟩ := List.nodup_append.mp hinit
      obtain ⟨hx, hk⟩ := List.nodup_cons.mp hx
      obtain ⟨-, -, hk⟩ := List.nodup_append.mp hk
      refine hnext a (hmem a (.inr ((List.dropLast_subset _) ha))) ?_ fun h => hk a h a ha rfl
      rintro rfl
      exact hx (List.mem_append_right k ha)
    · obtain ⟨-, hky, -⟩ := List.nodup_append.mp htail
      obtain ⟨-, hy, hk⟩ := List.nodup_append.mp hky
      refine hprev b (hmem b (.inr (List.mem_cons_of_mem y hb))) ?_
        fun h => hk b h b (List.mem_cons_of_mem y hb) rfl
      rintro rfl
      exact (List.nodup_cons.mp hy).1 hb

theorem Walk.insert (hw : Walk m (u ++ x :: y :: v)) (hn : n ∉ u ++ x :: y :: v)
    (hxn : Linked m' x n) (hny : Linked m' n y)
    (hnext : ∀ a, a ≠ x → a ≠ n → m'.next a = m.next a)
    (hprev : ∀ b, b ≠ y → b ≠ n → m'.prev b = m.prev b) :
    Walk m' (u ++ x :: n :: y :: v) := by
  have hne : ∀ a ∈ u ++ x :: y :: v, a ≠ n := fun a ha han => hn (han ▸ ha)
  obtain ⟨hleft, hright⟩ := Walk.outer (k := []) hw (fun a ha hax _ => hnext a hax (hne a ha))
    fun b hb hby _ => hprev b hby (hne b hb)
  refine ⟨List.isChain_append_cons_cons.mpr
    ⟨hleft, hxn, List.isChain_cons_cons.mpr ⟨hny, hright⟩⟩, ?_, ?_⟩
  · have hinit := (nodup_init_iff u [] v x y).mp hw.nodupInit
    refine (nodup_init_iff u [n] v x y).mpr ?_
    rw [List.singleton_append, List.append_cons, List.nodup_middle]
    refine List.nodup_cons.mpr ⟨fun hmem => hn ?_, by simpa using hinit⟩
    simp only [List.append_assoc, List.singleton_append, List.mem_append, List.mem_cons] at hmem ⊢
    exact hmem.imp_right (.imp_right fun h => List.mem_cons.mp (List.dropLast_subset _ h))
  · have htail := (nodup_tail_iff u [] v x y).mp hw.nodupTail
    refine (nodup_tail_iff u [n] v x y).mpr ?_
    rw [List.singleton_append, List.nodup_middle]
    refine List.nodup_cons.mpr ⟨fun hmem => hn ?_, htail⟩
    rw [List.append_cons, List.mem_append]
    exact (List.mem_append.mp hmem).imp_left List.mem_of_mem_tail

theorem Walk.remove (hw : Walk m (u ++ x :: n :: y :: v)) (hxy : Linked m' x y)
    (hnext : ∀ a, a ≠ x → m'.next a = m.next a) (hprev : ∀ b, b ≠ y → m'.prev b = m.prev b) :
    Walk m' (u ++ x :: y :: v) := by
  obtain ⟨hleft, hright⟩ := Walk.outer (k := [n]) hw (fun a _ hax _ => hnext a hax)
    fun b _ hby _ => hprev b hby
  refine ⟨List.isChain_append_cons_cons.mpr ⟨hleft, hxy, hright⟩, ?_, ?_⟩
  · have hinit := (nodup_init_iff u [n] v x y).mp hw.nodupInit
    exact (nodup_init_iff u [] v x y).mpr (hinit.sublist (by simp))
  · have htail := (nodup_tail_iff u [n] v x y).mp hw.nodupTail
    exact (nodup_tail_iff u [] v x y).mpr (htail.sublist (by simp))

end

/-! ### Many rings -/

abbrev Rings (m : Links ν) : HeadedLists ν → Prop := Headed (RingAt m)

section

variable {m m' : Links ν} {L : HeadedLists ν} {h a n : ν} {l : List ν}

theorem mem_ring_iff : a ∈ h :: (l ++ [h]) ↔ a ∈ h :: l := by
  simp only [List.mem_cons, List.mem_append, List.not_mem_nil, or_false]
  tauto

theorem RingAt.nodup (hr : RingAt m h l) : (h :: l).Nodup := by
  have hinit := hr.nodupInit
  rwa [← List.cons_append, List.dropLast_concat] at hinit

theorem RingAt.next_mem (hr : RingAt m h l) (ha : a ∈ h :: l) : m.next a ∈ h :: l := by
  obtain ⟨u, v, huv⟩ := List.append_of_mem ha
  have hlinked : ((u ++ a :: v) ++ [h]).IsChain (Linked m) := huv ▸ hr.linked
  cases v with
  | nil =>
      rw [List.append_assoc] at hlinked
      rw [(List.isChain_append_cons_cons.mp hlinked).2.1.1]
      exact List.mem_cons_self
  | cons b v =>
      rw [List.append_assoc] at hlinked
      rw [(List.isChain_append_cons_cons.mp hlinked).2.1.1, huv]
      simp

theorem RingAt.prev_mem (hr : RingAt m h l) (ha : a ∈ h :: l) : m.prev a ∈ h :: l := by
  obtain ⟨u, v, huv⟩ := List.append_of_mem (a := a) (l := l ++ [h]) (by
    simpa [or_comm] using ha)
  have hlinked : (h :: (u ++ a :: v)).IsChain (Linked m) := huv ▸ hr.linked
  refine mem_ring_iff.mp ?_
  rw [huv]
  induction u using List.reverseRecOn with
  | nil =>
      rw [(List.isChain_cons_cons.mp hlinked).1.2]
      exact List.mem_cons_self
  | append_singleton u b _ =>
      rw [List.append_assoc, ← List.cons_append] at hlinked
      rw [(List.isChain_append_cons_cons.mp hlinked).2.1.2]
      simp

/-- A ring that has none of the nodes whose links change. -/
theorem Rings.frame (hR : Rings m L) (hl : L h = some l)
    (hnext : ∀ a ∈ h :: l, m'.next a = m.next a) (hprev : ∀ b ∈ h :: l, m'.prev b = m.prev b) :
    RingAt m' h l :=
  Walk.congr (hR.each hl) (fun a ha => hnext a (mem_ring_iff.mp ha))
    fun b hb => hprev b (mem_ring_iff.mp hb)

end

end EspressifApp.Reactive
