import EspressifApp.Collections.Dlist

/-!
`queue_simple.c`: queues of nodes, each a doubly linked list and a count. A
queue is known by its head. Nodes enter at the head of the list and leave at its
tail, so the list has the queue backwards.
-/

namespace EspressifApp.Collections

open Reactive

variable {ν : Type*} [DecidableEq ν]

/-- The links of all nodes and the field `Count` of all queues. Nodes have
addresses of their own, so there are never as many as an `int` can count. -/
structure Queues (ν : Type*) where
  links : Links ν
  count : ν → ℤ

def initQueue (s : Queues ν) : Option ν → Queues ν
  | some queue =>
      { links := dlInitHead s.links queue, count := Function.update s.count queue 0 }
  | none => s

def isQueueEmpty (s : Queues ν) (queue : ν) : Bool := s.count queue = 0

def enqueue (s : Queues ν) : Option ν → Option ν → Queues ν
  | some queue, some node =>
      { links := dlAddNodeToHead s.links (some queue) (some node)
        count := Function.update s.count queue (s.count queue + 1) }
  | _, _ => s

def dequeue (s : Queues ν) : Option ν → Queues ν × Option ν
  | some queue =>
      if s.count queue ≤ 0 then (s, none)
      else
        let (links, node) := dlRemoveNodeFromTail s.links (some queue)
        ({ links := links, count := Function.update s.count queue (s.count queue - 1) }, node)
  | none => (s, none)

/-! ### What a queue is for -/

/-- The memory has the queues `Q`, each with its oldest node first. -/
structure Holds (s : Queues ν) (Q : HeadedLists ν) : Prop where
  rings : Rings s.links fun q => (Q q).map List.reverse
  count : ∀ {q l}, Q q = some l → s.count q = l.length

section

variable {s : Queues ν} {Q : HeadedLists ν} {q n : ν} {l : List ν}

omit [DecidableEq ν] in
theorem reverse_eq_some {Q : HeadedLists ν} {q : ν} {l : List ν} (hl : Q q = some l) :
    (Q q).map List.reverse = some l.reverse := by
  rw [hl, Option.map_some]

omit [DecidableEq ν] in
theorem member_reverse {Q : HeadedLists ν} {a : ν} :
    HeadedLists.Member (fun q => (Q q).map List.reverse) a ↔ Q.Member a := by
  constructor
  · rintro ⟨q, l, hl, ha⟩
    obtain ⟨k, hk, rfl⟩ := Option.map_eq_some_iff.mp hl
    exact ⟨q, k, hk, by simpa using ha⟩
  · rintro ⟨q, l, hl, ha⟩
    exact ⟨q, l.reverse, reverse_eq_some hl, by simpa using ha⟩

theorem reverse_update (Q : HeadedLists ν) (q : ν) (l : List ν) :
    (fun q' => (Function.update Q q (some l) q').map List.reverse) =
      Function.update (fun q' => (Q q').map List.reverse) q (some l.reverse) := by
  ext1 q'
  by_cases hq : q' = q
  · subst hq
    simp only [Function.update_self, Option.map_some]
  · simp only [Function.update_of_ne hq]

theorem Holds.count_update (hs : Holds s Q) {c : ℤ} (hc : c = l.length) {q' : ν} {l' : List ν}
    (hl' : Function.update Q q (some l) q' = some l') :
    Function.update s.count q c q' = l'.length := by
  by_cases hq : q' = q
  · subst hq
    rw [Function.update_self, Option.some_inj] at hl'
    rw [Function.update_self, hc, hl']
  · rw [Function.update_of_ne hq] at hl' ⊢
    exact hs.count hl'

theorem Holds.initQueue (hs : Holds s Q) (hq : ∀ q' l', Q q' = some l' → q ∉ l') :
    Holds (initQueue s (some q)) (Function.update Q q (some [])) := by
  refine ⟨?_, hs.count_update rfl⟩
  rw [reverse_update]
  refine initHead_rings hs.rings fun q' l' hl' => ?_
  obtain ⟨k, hk, rfl⟩ := Option.map_eq_some_iff.mp hl'
  rw [List.mem_reverse]
  exact hq q' k hk

omit [DecidableEq ν] in
theorem Holds.isQueueEmpty (hs : Holds s Q) (hl : Q q = some l) :
    isQueueEmpty s q = l.isEmpty := by
  rw [Collections.isQueueEmpty, hs.count hl]
  cases l with
  | nil => rfl
  | cons a l => exact decide_eq_false (by simp; omega)

theorem Holds.enqueue (hs : Holds s Q) (hl : Q q = some l) (hn : ¬ Q.Member n) :
    Holds (enqueue s (some q) (some n)) (Function.update Q q (some (l ++ [n]))) := by
  refine ⟨?_, hs.count_update ?_⟩
  · have hq := member_reverse.mpr ⟨q, l, hl, List.mem_cons_self⟩
    have hrings := insertNodeAfter_rings hs.rings hq (member_reverse.not.mpr hn)
    have hput := putAfter_eq (n := n) hs.rings (reverse_eq_some hl) List.mem_cons_self
    rw [if_pos rfl, ← List.reverse_concat] at hput
    rw [hput] at hrings
    rwa [reverse_update]
  · simp [hs.count hl]

theorem Holds.dequeue (hs : Holds s Q) (hl : Q q = some l) :
    Holds (dequeue s (some q)).1 (Function.update Q q (some l.tail)) ∧
      (dequeue s (some q)).2 = l.head? := by
  have hcount := hs.count hl
  cases l with
  | nil =>
      rw [Collections.dequeue, if_pos (by simp [hcount]), List.tail_nil, ← hl,
        Function.update_eq_self]
      exact ⟨hs, rfl⟩
  | cons a l =>
      obtain ⟨hrings, hnode⟩ := removeNodeFromTail_rings hs.rings (reverse_eq_some hl)
      rw [Collections.dequeue, if_neg (by simp [hcount])]
      refine ⟨⟨?_, hs.count_update ?_⟩, ?_⟩
      · rw [reverse_update]
        simpa using hrings
      · simp [hcount]
      · simpa using hnode

end

inductive QueueCall (ν : Type*)
  | initQueue (queue : Option ν)
  | isQueueEmpty (queue : ν)
  | enqueue (queue node : Option ν)
  | dequeue (queue : Option ν)

def queueSimple (s : Queues ν) : Machine (Queues ν) (QueueCall ν) (Reply ν) where
  init := s
  next s
    | .initQueue queue => initQueue s queue
    | .isQueueEmpty _ => s
    | .enqueue queue node => enqueue s queue node
    | .dequeue queue => (dequeue s queue).1
  out s
    | .isQueueEmpty queue => [.empty (isQueueEmpty s queue)]
    | .dequeue queue => [.node (dequeue s queue).2]
    | _ => []

/-- First in, first out. -/
def fifo (ν : Type*) [DecidableEq ν] : Machine (HeadedLists ν) (QueueCall ν) (Reply ν) where
  init := fun _ => none
  next Q
    | .initQueue (some queue) => Function.update Q queue (some [])
    | .enqueue (some queue) (some node) =>
        Function.update Q queue ((Q queue).map (· ++ [node]))
    | .dequeue (some queue) => Function.update Q queue ((Q queue).map List.tail)
    | _ => Q
  out Q
    | .isQueueEmpty queue => [.empty (Q queue == some [])]
    | .dequeue queue => [.node ((queue.bind Q).bind List.head?)]
    | _ => []

/-- A node is in one queue at a time, and a queue is initialised before its use. -/
def MayCallQueue (Q : HeadedLists ν) : QueueCall ν → Prop
  | .initQueue (some queue) => ∀ q l, Q q = some l → queue ∉ l
  | .isQueueEmpty queue => (Q queue).isSome
  | .enqueue (some queue) (some node) => (Q queue).isSome ∧ ¬ Q.Member node
  | .dequeue (some queue) => (Q queue).isSome
  | _ => True

/-- Whatever the order of the calls, on however many queues: nodes come out of a
queue in the order in which they went in, and the counts are exact. -/
theorem queueSimple_fifo (s : Queues ν) (calls : List (QueueCall ν))
    (hmay : (fifo ν).Along MayCallQueue calls) :
    Holds ((queueSimple s).after calls) ((fifo ν).after calls) ∧
      (queueSimple s).traceFrom s calls = (fifo ν).traceFrom (fun _ => none) calls := by
  refine Machine.simulation (R := Holds) ⟨⟨by simp [fifo], by simp [fifo]⟩, by simp [fifo]⟩
    ?_ calls hmay
  intro s Q call hs hmay
  cases call with
  | initQueue queue =>
      rcases queue with _ | q
      · exact ⟨rfl, hs⟩
      exact ⟨rfl, hs.initQueue hmay⟩
  | isQueueEmpty q =>
      obtain ⟨l, hl⟩ := Option.isSome_iff_exists.mp hmay
      refine ⟨?_, hs⟩
      show [Reply.empty (isQueueEmpty s q)] = [Reply.empty (Q q == some [])]
      rw [hs.isQueueEmpty hl, hl]
      cases l <;> rfl
  | enqueue queue node =>
      rcases queue with _ | q
      · exact ⟨rfl, hs⟩
      rcases node with _ | n
      · exact ⟨rfl, hs⟩
      obtain ⟨l, hl⟩ := Option.isSome_iff_exists.mp hmay.1
      refine ⟨rfl, ?_⟩
      show Holds _ (Function.update Q q ((Q q).map (· ++ [n])))
      rw [hl]
      exact hs.enqueue hl hmay.2
  | dequeue queue =>
      rcases queue with _ | q
      · exact ⟨rfl, hs⟩
      obtain ⟨l, hl⟩ := Option.isSome_iff_exists.mp hmay
      obtain ⟨hholds, hnode⟩ := hs.dequeue hl
      refine ⟨?_, ?_⟩
      · show [Reply.node _] = [Reply.node ((Q q).bind List.head?)]
        rw [hnode, hl, Option.bind_some]
      · show Holds _ (Function.update Q q ((Q q).map List.tail))
        rwa [hl]

/-- Two nodes in, one out. -/
theorem queueSimple_fifo_two :
    (queueSimple (ν := ℕ) ⟨⟨id, id⟩, fun _ => 0⟩).traceFrom ⟨⟨id, id⟩, fun _ => 0⟩
        [.initQueue (some 0), .enqueue (some 0) (some 1), .enqueue (some 0) (some 2),
          .dequeue (some 0)] =
      [.node (some 1)] :=
  (queueSimple_fifo ⟨⟨id, id⟩, fun _ => 0⟩
    [.initQueue (some 0), .enqueue (some 0) (some 1), .enqueue (some 0) (some 2),
      .dequeue (some 0)]
    ⟨by simp [fifo, MayCallQueue],
      by simp [fifo, MayCallQueue, HeadedLists.Member, Function.update_apply],
      by simp +contextual [fifo, MayCallQueue, HeadedLists.Member, Function.update_apply],
      by simp [fifo, MayCallQueue], trivial⟩).2

end EspressifApp.Collections
