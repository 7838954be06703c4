import EspressifApp.Reactive.Machine
import EspressifApp.Reactive.Rings

/-!
`dlist.c`: doubly linked lists of nodes that live inside other structures. A
list is a ring through its head; the functions change links and nothing else, so
the state is the links of all nodes.

Some functions test their pointers and do nothing with `NULL`. The others read
through the first one untested: as definitions they take an address there, and a
call that passes `NULL` is a fault (`Call.run`).
-/

namespace EspressifApp.Collections

open Reactive

variable {ν : Type*} [DecidableEq ν]

/-! ### The functions -/

def dlInitHead (m : Links ν) (head : ν) : Links ν := (m.setNext head head).setPrev head head

def dlIsListEmpty (m : Links ν) (head : ν) : Bool := m.next head = head

/-- `DlInsertNodeAfter`; `none` is `NULL`. -/
def dlInsertNodeAfter (m : Links ν) : Option ν → Option ν → Links ν
  | some marker, some node =>
      let m := m.setNext node (m.next marker)
      let m := m.setPrev node marker
      let m := m.setPrev (m.next marker) node
      m.setNext marker node
  | _, _ => m

def dlInsertNodeBefore (m : Links ν) (marker : ν) (node : Option ν) : Links ν :=
  dlInsertNodeAfter m (some (m.prev marker)) node

def dlAddNodeToHead (m : Links ν) (head node : Option ν) : Links ν :=
  dlInsertNodeAfter m head node

def dlAddNodeToTail (m : Links ν) (head : ν) (node : Option ν) : Links ν :=
  dlInsertNodeAfter m (some (m.prev head)) node

def dlRemoveNode (m : Links ν) : Option ν → Links ν
  | some node =>
      let m := m.setPrev (m.next node) (m.prev node)
      m.setNext (m.prev node) (m.next node)
  | none => m

def dlRemoveNodeFromHead (m : Links ν) : Option ν → Links ν × Option ν
  | some head =>
      if dlIsListEmpty m head then (m, none)
      else
        let node := m.next head
        (dlRemoveNode m (some node), some node)
  | none => (m, none)

def dlRemoveNodeFromTail (m : Links ν) : Option ν → Links ν × Option ν
  | some head =>
      if dlIsListEmpty m head then (m, none)
      else
        let node := m.prev head
        (dlRemoveNode m (some node), some node)
  | none => (m, none)

/-! ### On a walk -/

section

variable {m : Links ν} {u v w : List ν} {x y n : ν}

theorem insertAfter_links (m : Links ν) (hnx : n ≠ x) (hny : n ≠ m.next x) :
    Linked (dlInsertNodeAfter m (some x) (some n)) x n ∧
      Linked (dlInsertNodeAfter m (some x) (some n)) n (m.next x) ∧
      (∀ a, a ≠ x → a ≠ n → (dlInsertNodeAfter m (some x) (some n)).next a = m.next a) ∧
      ∀ b, b ≠ m.next x → b ≠ n → (dlInsertNodeAfter m (some x) (some n)).prev b = m.prev b := by
  have hnext : ((m.setNext n (m.next x)).setPrev n x).next x = m.next x :=
    Links.setNext_next_of_ne hnx.symm
  have hresult : dlInsertNodeAfter m (some x) (some n) =
      (((m.setNext n (m.next x)).setPrev n x).setPrev (m.next x) n).setNext x n := by
    simp only [dlInsertNodeAfter, hnext]
  rw [hresult]
  refine ⟨⟨by simp, ?_⟩, ⟨?_, by simp⟩, fun a hax han => ?_, fun b hby hbn => ?_⟩
  · rw [Links.setNext_prev, Links.setPrev_prev_of_ne hny, Links.setPrev_prev_self]
  · rw [Links.setNext_next_of_ne hnx]
    simp
  · rw [Links.setNext_next_of_ne hax]
    exact Links.setNext_next_of_ne han
  · rw [Links.setNext_prev, Links.setPrev_prev_of_ne hby]
    exact Links.setPrev_prev_of_ne hbn

theorem insertAfter_walk (hw : Walk m (u ++ x :: y :: v)) (hn : n ∉ u ++ x :: y :: v) :
    Walk (dlInsertNodeAfter m (some x) (some n)) (u ++ x :: n :: y :: v) := by
  have hxy : m.next x = y := (List.isChain_append_cons_cons.mp hw.linked).2.1.1
  have hnx : n ≠ x := fun h => hn (by simp [h])
  have hny : n ≠ y := fun h => hn (by simp [h])
  obtain ⟨hxn, hny', hnext, hprev⟩ := insertAfter_links m hnx (hxy ▸ hny)
  rw [hxy] at hny' hprev
  exact hw.insert hn hxn hny' hnext hprev

theorem insertAfter_frame (hw : Walk m w) (hx : x ∉ w) (hy : m.next x ∉ w) (hn : n ∉ w)
    (hnx : n ≠ x) (hny : n ≠ m.next x) : Walk (dlInsertNodeAfter m (some x) (some n)) w := by
  obtain ⟨-, -, hnext, hprev⟩ := insertAfter_links m hnx hny
  have hne : ∀ {a b}, a ∈ w → b ∉ w → a ≠ b := fun ha hb hab => hb (hab ▸ ha)
  exact hw.congr (fun a ha => hnext a (hne ha hx) (hne ha hn))
    fun b hb => hprev b (hne hb hy) (hne hb hn)

theorem removeNode_links (m : Links ν) (hn : m.next n ≠ n) :
    Linked (dlRemoveNode m (some n)) (m.prev n) (m.next n) ∧
      (∀ a, a ≠ m.prev n → (dlRemoveNode m (some n)).next a = m.next a) ∧
      ∀ b, b ≠ m.next n → (dlRemoveNode m (some n)).prev b = m.prev b := by
  have hresult : dlRemoveNode m (some n) =
      (m.setPrev (m.next n) (m.prev n)).setNext (m.prev n) (m.next n) := by
    simp only [dlRemoveNode, Links.setPrev_prev_of_ne hn.symm, Links.setPrev_next]
  rw [hresult]
  exact ⟨⟨by simp, by simp⟩, fun a ha => Links.setNext_next_of_ne ha,
    fun b hb => Links.setPrev_prev_of_ne hb⟩

theorem removeNode_walk (hw : Walk m (u ++ x :: n :: y :: v)) :
    m.next n ≠ n ∧ Walk (dlRemoveNode m (some n)) (u ++ x :: y :: v) := by
  obtain ⟨-, ⟨-, hnx⟩, hrest⟩ := List.isChain_append_cons_cons.mp hw.linked
  obtain ⟨⟨hny, -⟩, -⟩ := List.isChain_cons_cons.mp hrest
  have hne : m.next n ≠ n := by
    rw [hny]
    have htail := (nodup_tail_iff u [n] v x y).mp hw.nodupTail
    obtain ⟨-, hnodup, -⟩ := List.nodup_append.mp htail
    rintro rfl
    simp at hnodup
  obtain ⟨hlink, hnext, hprev⟩ := removeNode_links m hne
  rw [hnx, hny] at hlink
  rw [hnx] at hnext
  rw [hny] at hprev
  exact ⟨hne, hw.remove hlink hnext hprev⟩

theorem removeNode_frame (hw : Walk m w) (hn : m.next n ≠ n) (hx : m.prev n ∉ w)
    (hy : m.next n ∉ w) : Walk (dlRemoveNode m (some n)) w := by
  obtain ⟨-, hnext, hprev⟩ := removeNode_links m hn
  exact hw.congr (fun a ha => hnext a fun h => hx (h ▸ ha)) fun b hb => hprev b fun h => hy (h ▸ hb)

end

/-! ### The lists -/

/-- The calls; `none` is `NULL`. -/
inductive Call (ν : Type*)
  | initHead (head : Option ν)
  | isListEmpty (head : Option ν)
  | insertNodeAfter (marker node : Option ν)
  | insertNodeBefore (marker node : Option ν)
  | addNodeToHead (head node : Option ν)
  | addNodeToTail (head node : Option ν)
  | removeNode (node : Option ν)
  | removeNodeFromHead (head : Option ν)
  | removeNodeFromTail (head : Option ν)

inductive Reply (ν : Type*)
  | empty (b : Bool)
  | node (n : Option ν)
  deriving DecidableEq

/-- What a call does and returns; `none` where it reads through `NULL`. -/
def Call.run (m : Links ν) : Call ν → Option (Links ν × List (Reply ν))
  | .initHead head => head.map fun head => (dlInitHead m head, [])
  | .isListEmpty head => head.map fun head => (m, [.empty (dlIsListEmpty m head)])
  | .insertNodeAfter marker node => some (dlInsertNodeAfter m marker node, [])
  | .insertNodeBefore marker node => marker.map fun marker => (dlInsertNodeBefore m marker node, [])
  | .addNodeToHead head node => some (dlAddNodeToHead m head node, [])
  | .addNodeToTail head node => head.map fun head => (dlAddNodeToTail m head node, [])
  | .removeNode node => some (dlRemoveNode m node, [])
  | .removeNodeFromHead head =>
      some ((dlRemoveNodeFromHead m head).1, [.node (dlRemoveNodeFromHead m head).2])
  | .removeNodeFromTail head =>
      some ((dlRemoveNodeFromTail m head).1, [.node (dlRemoveNodeFromTail m head).2])

/-- The functions at work on a memory; `none` after a fault. -/
def dlist (m : Links ν) : Machine (Option (Links ν)) (Call ν) (Reply ν) where
  init := some m
  next s call := (s.bind call.run).map Prod.fst
  out s call := ((s.bind call.run).map Prod.snd).getD []

/-- What the calls are for: lists of nodes, none to begin with. -/
def lists (ν : Type*) [DecidableEq ν] : Machine (HeadedLists ν) (Call ν) (Reply ν) where
  init := fun _ => none
  next L
    | .initHead (some head) => Function.update L head (some [])
    | .insertNodeAfter (some marker) (some node) => putAfter L marker node
    | .insertNodeBefore (some marker) (some node) => putBefore L marker node
    | .addNodeToHead (some head) (some node) => putAfter L head node
    | .addNodeToTail (some head) (some node) => putBefore L head node
    | .removeNode (some node) => takeOut L node
    | .removeNodeFromHead (some head) => Function.update L head ((L head).map List.tail)
    | .removeNodeFromTail (some head) => Function.update L head ((L head).map List.dropLast)
    | _ => L
  out L
    | .isListEmpty head => [.empty (head.bind L == some [])]
    | .removeNodeFromHead head => [.node ((head.bind L).bind List.head?)]
    | .removeNodeFromTail head => [.node ((head.bind L).bind List.getLast?)]
    | _ => []

/-- What the caller owes: a node goes into one list at a time, and one that is
removed is in a list; marks are in a list; a head is initialised before its list
is used; and `NULL` is passed only where it is tested for. -/
def MayCall (L : HeadedLists ν) : Call ν → Prop
  | .initHead (some head) => ∀ h l, L h = some l → head ∉ l
  | .isListEmpty (some head) => (L head).isSome
  | .insertNodeBefore (some marker) (some node) => L.Member marker ∧ ¬ L.Member node
  | .addNodeToTail (some head) (some node) => (L head).isSome ∧ ¬ L.Member node
  | .initHead none | .isListEmpty none | .insertNodeBefore none _ | .addNodeToTail none _ => False
  | .insertNodeAfter (some marker) (some node) => L.Member marker ∧ ¬ L.Member node
  | .addNodeToHead (some head) (some node) => (L head).isSome ∧ ¬ L.Member node
  | .removeNode (some node) => ∃ h l, L h = some l ∧ node ∈ l
  | .removeNodeFromHead (some head) => (L head).isSome
  | .removeNodeFromTail (some head) => (L head).isSome
  | _ => True

/-! ### One call -/

section

variable {m : Links ν} {L : HeadedLists ν} {h x n : ν} {l s t : List ν}

omit [DecidableEq ν] in
theorem exists_before (h : ν) (s : List ν) : ∃ u p, h :: s = u ++ [p] :=
  ⟨_, _, (List.dropLast_append_getLast (List.cons_ne_nil h s)).symm⟩

theorem ring_insertAfter (hr : RingAt m h l) (hx : x ∈ h :: l) (hn : n ∉ h :: l) :
    RingAt (dlInsertNodeAfter m (some x) (some n)) h
      (if x = h then n :: l else insertAfter x n l) := by
  have hn : n ∉ h :: (l ++ [h]) := fun hmem => hn (mem_ring_iff.mp hmem)
  obtain ⟨hh, hl⟩ := List.nodup_cons.mp hr.nodup
  split
  · next hxh =>
      subst hxh
      obtain ⟨y, v, hyv⟩ := List.exists_cons_of_ne_nil (l := l ++ [x]) (by simp)
      have hw : Walk m ([] ++ x :: y :: v) := hyv ▸ hr
      show Walk _ (x :: n :: (l ++ [x]))
      rw [hyv] at hn ⊢
      exact insertAfter_walk hw hn
  · next hxh =>
      obtain ⟨s, t, rfl⟩ := List.append_of_mem (List.mem_of_ne_of_mem hxh hx)
      rw [List.nodup_middle, List.nodup_cons, List.mem_append, not_or] at hl
      obtain ⟨y, v, hyv⟩ := List.exists_cons_of_ne_nil (l := t ++ [h]) (by simp)
      rw [RingAt, insertAfter_append hl.1.1 hl.1.2]
      rw [RingAt] at hr
      simp only [List.append_assoc, List.cons_append, hyv] at hr hn ⊢
      exact insertAfter_walk (u := h :: s) hr hn

theorem ring_insertBefore (hr : RingAt m h l) (hx : x ∈ h :: l) (hn : n ∉ h :: l) :
    RingAt (dlInsertNodeAfter m (some (m.prev x)) (some n)) h
      (if x = h then l ++ [n] else insertBefore x n l) := by
  have hn : n ∉ h :: (l ++ [h]) := fun hmem => hn (mem_ring_iff.mp hmem)
  obtain ⟨hh, hl⟩ := List.nodup_cons.mp hr.nodup
  have hwalk : ∀ {s v}, Walk m (h :: s ++ x :: v) → n ∉ h :: s ++ x :: v →
      Walk (dlInsertNodeAfter m (some (m.prev x)) (some n)) (h :: s ++ n :: x :: v) := by
    intro s v hw hn
    obtain ⟨u, p, hup⟩ := exists_before h s
    rw [hup, List.append_assoc, List.singleton_append] at hw hn ⊢
    rw [(List.isChain_append_cons_cons.mp hw.linked).2.1.2]
    exact insertAfter_walk hw hn
  split
  · next hxh =>
      subst hxh
      show Walk _ (x :: (l ++ [n] ++ [x]))
      rw [List.append_assoc]
      exact hwalk hr hn
  · next hxh =>
      obtain ⟨s, t, rfl⟩ := List.append_of_mem (List.mem_of_ne_of_mem hxh hx)
      rw [List.nodup_middle, List.nodup_cons, List.mem_append, not_or] at hl
      rw [RingAt, insertBefore_append hl.1.1 hl.1.2]
      rw [RingAt] at hr
      rw [List.append_assoc] at hr hn ⊢
      exact hwalk hr hn

theorem ring_remove (hr : RingAt m h l) (hn : n ∈ l) :
    m.next n ≠ n ∧ RingAt (dlRemoveNode m (some n)) h (l.erase n) := by
  obtain ⟨s, t, rfl⟩ := List.append_of_mem hn
  obtain ⟨-, hl⟩ := List.nodup_cons.mp hr.nodup
  rw [List.nodup_middle, List.nodup_cons, List.mem_append, not_or] at hl
  obtain ⟨u, p, hup⟩ := exists_before h s
  obtain ⟨y, v, hyv⟩ := List.exists_cons_of_ne_nil (l := t ++ [h]) (by simp)
  have hw : Walk m (u ++ p :: n :: y :: v) := by
    have hr : Walk m (h :: s ++ n :: (t ++ [h])) := by simpa [RingAt] using hr
    rwa [hup, hyv, List.append_assoc] at hr
  obtain ⟨hne, hw⟩ := removeNode_walk hw
  refine ⟨hne, ?_⟩
  rw [List.erase_append_right _ hl.1.1, List.erase_cons_head]
  have hw' : Walk (dlRemoveNode m (some n)) (h :: s ++ (t ++ [h])) := by
    rw [hup, hyv, List.append_assoc]
    exact hw
  simpa [RingAt] using hw'

theorem insertAfter_other (hR : Rings m L) {p : ν} (hp : L.Member p) (hn : ¬ L.Member n)
    (hl : L h = some l) (hpl : p ∉ h :: l) :
    RingAt (dlInsertNodeAfter m (some p) (some n)) h l := by
  obtain ⟨g, k, hk, hpk⟩ := hp
  have hnext := (hR.each hk).next_mem hpk
  have hne : g ≠ h := by
    rintro rfl
    exact hpl (Option.some_inj.mp (hk.symm.trans hl) ▸ hpk)
  refine insertAfter_frame (hR.each hl) (fun hmem => hpl (mem_ring_iff.mp hmem))
    (fun hmem => hR.apart hk hl hne hnext (mem_ring_iff.mp hmem))
    (fun hmem => hn ⟨h, l, hl, mem_ring_iff.mp hmem⟩) ?_ ?_
  · rintro rfl
    exact hn ⟨g, k, hk, hpk⟩
  · rintro rfl
    exact hn ⟨g, k, hk, hnext⟩

theorem insertNodeAfter_rings (hR : Rings m L) (hx : L.Member x) (hn : ¬ L.Member n) :
    Rings (dlInsertNodeAfter m (some x) (some n)) (putAfter L x n) := by
  refine hR.map (x := x) (n := n) hn (fun {h l} hl => ?_) fun {h l a} hl ha => ?_
  · by_cases hxl : x ∈ h :: l
    · exact ring_insertAfter (hR.each hl) hxl fun hnl => hn ⟨h, l, hl, hnl⟩
    · rw [if_neg (List.ne_of_not_mem_cons hxl),
        insertAfter_of_notMem (List.not_mem_of_not_mem_cons hxl)]
      exact insertAfter_other hR hx hn hl hxl
  · split at ha
    · next hxh => exact (List.mem_cons.mp ha).symm.imp_right fun han => ⟨han, by simp [hxh]⟩
    · exact (mem_insertAfter ha).imp_right fun ⟨han, hxl⟩ => ⟨han, List.mem_cons_of_mem h hxl⟩

theorem insertNodeBefore_rings (hR : Rings m L) (hx : L.Member x) (hn : ¬ L.Member n) :
    Rings (dlInsertNodeAfter m (some (m.prev x)) (some n)) (putBefore L x n) := by
  refine hR.map (x := x) (n := n) hn (fun {h l} hl => ?_) fun {h l a} hl ha => ?_
  · by_cases hxl : x ∈ h :: l
    · exact ring_insertBefore (hR.each hl) hxl fun hnl => hn ⟨h, l, hl, hnl⟩
    · rw [if_neg (List.ne_of_not_mem_cons hxl),
        insertBefore_of_notMem (List.not_mem_of_not_mem_cons hxl)]
      obtain ⟨g, k, hk, hxk⟩ := hx
      have hprev := (hR.each hk).prev_mem hxk
      refine insertAfter_other hR ⟨g, k, hk, hprev⟩ hn hl fun hpl => hxl ?_
      obtain rfl := hR.unique hk hl hprev hpl
      exact Option.some_inj.mp (hk.symm.trans hl) ▸ hxk
  · split at ha
    · next hxh =>
        rw [List.mem_append, List.mem_singleton] at ha
        exact ha.imp_right fun han => ⟨han, by simp [hxh]⟩
    · exact (mem_insertBefore ha).imp_right fun ⟨han, hxl⟩ => ⟨han, List.mem_cons_of_mem h hxl⟩

omit [DecidableEq ν] in
theorem ring_nil (hnext : m.next h = h) (hprev : m.prev h = h) : RingAt m h [] :=
  ⟨List.isChain_pair.mpr ⟨hnext, hprev⟩, List.nodup_singleton h, List.nodup_singleton h⟩

theorem initHead_rings (hR : Rings m L) (hh : ∀ g k, L g = some k → h ∉ k) :
    Rings (dlInitHead m h) (Function.update L h (some [])) := by
  have hother : ∀ {g k}, g ≠ h → L g = some k → h ∉ g :: k := fun hg hk hmem =>
    (List.mem_cons.mp hmem).elim (fun hhg => hg hhg.symm) (hh _ _ hk)
  refine hR.update (ring_nil ?_ ?_) (fun {g k} hg hk => ?_) fun {g k} hg hk => ?_
  · exact Links.setNext_next_self ..
  · exact Links.setPrev_prev_self ..
  · refine hR.frame hk (fun a ha => ?_) fun a ha => ?_
    · exact Links.setNext_next_of_ne fun hah => hother hg hk (hah ▸ ha)
    · exact Links.setPrev_prev_of_ne fun hah => hother hg hk (hah ▸ ha)
  · exact fun a ha hah => hother hg hk (List.mem_singleton.mp hah ▸ ha)

theorem removeNode_rings (hR : Rings m L) (hl : L h = some l) (hn : n ∈ l) :
    Rings (dlRemoveNode m (some n)) (Function.update L h (some (l.erase n))) := by
  obtain ⟨hne, hring⟩ := ring_remove (hR.each hl) hn
  have hmem : n ∈ h :: l := List.mem_cons_of_mem h hn
  refine hR.update hring (fun {g k} hg hk => ?_) fun {g k} hg hk => ?_
  · refine removeNode_frame (hR.each hk) hne (fun hprev => ?_) fun hnext => ?_
    · exact hR.apart hl hk hg.symm ((hR.each hl).prev_mem hmem) (mem_ring_iff.mp hprev)
    · exact hR.apart hl hk hg.symm ((hR.each hl).next_mem hmem) (mem_ring_iff.mp hnext)
  · exact (List.disjoint_of_subset_right
      (List.cons_subset_cons h List.erase_subset) (hR.apart hk hl hg))

theorem ring_isListEmpty (hr : RingAt m h l) : dlIsListEmpty m h = l.isEmpty := by
  cases l with
  | nil => exact decide_eq_true (List.isChain_pair.mp hr.linked).1
  | cons a l =>
      have hnext : m.next h = a := (List.isChain_cons_cons.mp hr.linked).1.1
      refine decide_eq_false fun hself => ?_
      exact (List.nodup_cons.mp hr.nodup).1 (List.mem_cons.mpr (.inl (hself ▸ hnext)))

omit [DecidableEq ν] in
theorem ring_first {a : ν} (hr : RingAt m h (a :: l)) : m.next h = a :=
  (List.isChain_cons_cons.mp hr.linked).1.1

omit [DecidableEq ν] in
theorem ring_last {a : ν} (hr : RingAt m h (l ++ [a])) : m.prev h = a := by
  have hlinked : (h :: l ++ a :: [h]).IsChain (Linked m) := by simpa [RingAt] using hr.linked
  exact (List.isChain_append_cons_cons.mp hlinked).2.1.2

theorem removeNodeFromHead_rings (hR : Rings m L) (hl : L h = some l) :
    Rings (dlRemoveNodeFromHead m (some h)).1 (Function.update L h (some l.tail)) ∧
      (dlRemoveNodeFromHead m (some h)).2 = l.head? := by
  have hempty := ring_isListEmpty (hR.each hl)
  cases l with
  | nil =>
      rw [dlRemoveNodeFromHead, if_pos (by simp [hempty]), List.tail_nil, ← hl,
        Function.update_eq_self]
      exact ⟨hR, rfl⟩
  | cons a l =>
      rw [dlRemoveNodeFromHead, if_neg (ne_true_of_eq_false hempty), ring_first (hR.each hl)]
      refine ⟨?_, rfl⟩
      simpa using removeNode_rings hR hl (List.mem_cons_self)

theorem removeNodeFromTail_rings (hR : Rings m L) (hl : L h = some l) :
    Rings (dlRemoveNodeFromTail m (some h)).1 (Function.update L h (some l.dropLast)) ∧
      (dlRemoveNodeFromTail m (some h)).2 = l.getLast? := by
  have hempty := ring_isListEmpty (hR.each hl)
  induction l using List.reverseRecOn with
  | nil =>
      rw [dlRemoveNodeFromTail, if_pos (by simp [hempty]), List.dropLast_nil, ← hl,
        Function.update_eq_self]
      exact ⟨hR, rfl⟩
  | append_singleton l a _ =>
      rw [dlRemoveNodeFromTail, if_neg (by simp [hempty]), ring_last (hR.each hl)]
      refine ⟨?_, by simp⟩
      have ha : a ∉ l := by
        have hnodup := (List.nodup_cons.mp (hR.each hl).nodup).2
        rw [List.nodup_append] at hnodup
        exact fun ha => hnodup.2.2 a ha a (by simp) rfl
      have hrest := removeNode_rings hR hl (n := a) (by simp)
      rw [List.erase_append_right _ ha, List.erase_cons_head, List.append_nil] at hrest
      rwa [List.dropLast_concat]

end

/-- One call: it does not fault, the links stay those of the lists, and it
returns what the lists have. -/
theorem run_rings {m : Links ν} {L : HeadedLists ν} {call : Call ν} (hR : Rings m L)
    (hmay : MayCall L call) :
    ∃ m', call.run m = some (m', (lists ν).out L call) ∧ Rings m' ((lists ν).next L call) := by
  cases call with
  | initHead head =>
      rcases head with _ | h
      · exact hmay.elim
      exact ⟨_, rfl, initHead_rings hR hmay⟩
  | isListEmpty head =>
      rcases head with _ | h
      · exact hmay.elim
      obtain ⟨l, hl⟩ := Option.isSome_iff_exists.mp hmay
      refine ⟨m, ?_, hR⟩
      show some (m, [Reply.empty (dlIsListEmpty m h)]) = some (m, [Reply.empty (L h == some [])])
      rw [ring_isListEmpty (hR.each hl), hl]
      cases l <;> rfl
  | insertNodeAfter marker node =>
      rcases marker with _ | x
      · exact ⟨m, rfl, hR⟩
      rcases node with _ | n
      · exact ⟨m, rfl, hR⟩
      exact ⟨_, rfl, insertNodeAfter_rings hR hmay.1 hmay.2⟩
  | insertNodeBefore marker node =>
      rcases marker with _ | x
      · exact hmay.elim
      rcases node with _ | n
      · exact ⟨m, rfl, hR⟩
      exact ⟨_, rfl, insertNodeBefore_rings hR hmay.1 hmay.2⟩
  | addNodeToHead head node =>
      -- the head is a member of its own ring, so both ends are insertions beside it
      rcases head with _ | h
      · exact ⟨m, rfl, hR⟩
      rcases node with _ | n
      · exact ⟨m, rfl, hR⟩
      exact ⟨_, rfl, insertNodeAfter_rings hR (member_head hmay.1) hmay.2⟩
  | addNodeToTail head node =>
      rcases head with _ | h
      · exact hmay.elim
      rcases node with _ | n
      · exact ⟨m, rfl, hR⟩
      exact ⟨_, rfl, insertNodeBefore_rings hR (member_head hmay.1) hmay.2⟩
  | removeNode node =>
      rcases node with _ | n
      · exact ⟨m, rfl, hR⟩
      obtain ⟨h, l, hl, hn⟩ := hmay
      refine ⟨_, rfl, ?_⟩
      show Rings (dlRemoveNode m (some n)) (takeOut L n)
      rw [takeOut_eq hR hl hn]
      exact removeNode_rings hR hl hn
  | removeNodeFromHead head =>
      rcases head with _ | h
      · exact ⟨m, rfl, hR⟩
      obtain ⟨l, hl⟩ := Option.isSome_iff_exists.mp hmay
      obtain ⟨hrings, hnode⟩ := removeNodeFromHead_rings hR hl
      refine ⟨(dlRemoveNodeFromHead m (some h)).1, ?_, ?_⟩
      · show some (_, [Reply.node _]) = some (_, [Reply.node ((L h).bind List.head?)])
        rw [hnode, hl, Option.bind_some]
      · show Rings _ (Function.update L h ((L h).map List.tail))
        rwa [hl]
  | removeNodeFromTail head =>
      rcases head with _ | h
      · exact ⟨m, rfl, hR⟩
      obtain ⟨l, hl⟩ := Option.isSome_iff_exists.mp hmay
      obtain ⟨hrings, hnode⟩ := removeNodeFromTail_rings hR hl
      refine ⟨(dlRemoveNodeFromTail m (some h)).1, ?_, ?_⟩
      · show some (_, [Reply.node _]) = some (_, [Reply.node ((L h).bind List.getLast?)])
        rw [hnode, hl, Option.bind_some]
      · show Rings _ (Function.update L h ((L h).map List.dropLast))
        rwa [hl]

/-- Whatever the order of the calls, on however many lists: there is no fault,
the links are those of the lists, and the functions return what the lists have. -/
theorem dlist_lists (m : Links ν) (calls : List (Call ν)) (hmay : (lists ν).Along MayCall calls) :
    (∃ m', (dlist m).after calls = some m' ∧ Rings m' ((lists ν).after calls)) ∧
      (dlist m).traceFrom (some m) calls = (lists ν).traceFrom (fun _ => none) calls := by
  refine Machine.simulation (R := fun s L => ∃ m, s = some m ∧ Rings m L)
    ⟨m, rfl, by simp [lists], by simp [lists]⟩ ?_ calls hmay
  rintro s L call ⟨m, rfl, hR⟩ hcall
  obtain ⟨m', hrun, hR'⟩ := run_rings hR hcall
  refine ⟨?_, m', ?_, hR'⟩ <;> simp [dlist, hrun]

/-- A node goes in at either end and one between them; `NULL` is nowhere
inserted; and the last one comes out. -/
theorem dlist_lists_one :
    (dlist (ν := ℕ) ⟨id, id⟩).traceFrom (some ⟨id, id⟩)
        [.initHead (some 0), .addNodeToHead (some 0) (some 1), .addNodeToTail (some 0) (some 2),
          .insertNodeBefore (some 2) none, .insertNodeAfter none (some 3),
          .insertNodeBefore (some 2) (some 3), .removeNode (some 2),
          .removeNodeFromTail (some 0), .isListEmpty (some 0)] =
      [.node (some 3), .empty false] :=
  (dlist_lists ⟨id, id⟩
    [.initHead (some 0), .addNodeToHead (some 0) (some 1), .addNodeToTail (some 0) (some 2),
      .insertNodeBefore (some 2) none, .insertNodeAfter none (some 3),
      .insertNodeBefore (some 2) (some 3), .removeNode (some 2),
      .removeNodeFromTail (some 0), .isListEmpty (some 0)]
    ⟨by simp [lists, MayCall], by simp [lists, MayCall, HeadedLists.Member, Function.update_apply],
      by simp +contextual [lists, MayCall, HeadedLists.Member, putAfter, Function.update_apply],
      trivial, trivial,
      by simp +contextual [lists, MayCall, HeadedLists.Member, putAfter, putBefore,
        Function.update_apply],
      by simp [lists, MayCall, putAfter, putBefore, insertBefore, Function.update_apply],
      by simp [lists, MayCall, putAfter, putBefore, takeOut],
      by simp [lists, MayCall, putAfter, putBefore, takeOut], trivial⟩).2

end EspressifApp.Collections
