import EspressifApp.Collections.Slist

/-!
`stack_simple.c`: a list of `slist.c` with a count. At the address of a stack is
its `Count`, and its `Head` behind it.
-/

namespace EspressifApp.Collections

open Reactive

def initStack (m : Bytes) (stack : ℕ) : Bytes := slInitHead (setWord m stack 0) (stack + 4)

def pushOnStack (m : Bytes) (stack node : ℕ) : Bytes :=
  if stack = 0 then m
  else if node = 0 then m
  else
    let m := slAddNodeToHead m (stack + 4) node
    setWord m stack (word m stack + 1)

def popOffStack (m : Bytes) (stack : ℕ) : Bytes × ℕ :=
  if stack = 0 then (m, 0)
  else if word m stack = 0 then (m, 0)
  else slRemoveNodeFromHead (setWord m stack (word m stack - 1)) (stack + 4)

variable {m : Bytes} {L : HeadedLists ℕ} {stack n a : ℕ} {l : List ℕ}

/-! ### What stays as it is -/

theorem initStack_of_outside (ha : a < stack ∨ stack + 8 ≤ a) : initStack m stack a = m a := by
  rw [initStack, slInitHead, setWord_of_outside (by omega), setWord_of_outside (by omega)]

theorem addNodeToHead_of_outside {h : ℕ} (hh : a < h ∨ h + 4 ≤ a) (hn : a < n ∨ n + 4 ≤ a) :
    slAddNodeToHead m h n a = m a := by
  rw [slAddNodeToHead, slInsertNodeAfter]
  split
  · rfl
  · split
    · rfl
    · rw [setWord_of_outside hn, setWord_of_outside hh]

theorem pushOnStack_of_outside (hs : a < stack ∨ stack + 8 ≤ a) (hn : a < n ∨ n + 4 ≤ a) :
    pushOnStack m stack n a = m a := by
  rw [pushOnStack]
  split
  · rfl
  · split
    · rfl
    · rw [setWord_of_outside (by omega), addNodeToHead_of_outside (by omega) hn]

theorem popOffStack_of_outside (hs : a < stack ∨ stack + 8 ≤ a) :
    (popOffStack m stack).1 a = m a := by
  rw [popOffStack]
  split
  · rfl
  · split
    · rfl
    · rw [slRemoveNodeFromHead, if_neg (by omega)]
      dsimp only
      split
      · rw [setWord_of_outside (by omega), setWord_of_outside (by omega)]
      · rw [setWord_of_outside (by omega)]

/-! ### What becomes of the list and the count -/

theorem initStack_slists (hS : Slists m L) (hfresh : FreshNode L (stack + 4))
    (hcount : ∀ {a}, L.Member a → Apart a stack) :
    Slists (initStack m stack) (Function.update L (stack + 4) (some [])) :=
  (hS.congr fun ha => word_setWord_of_apart (hcount ha)).initHead (.inr hfresh)

theorem initStack_count : word (initStack m stack) stack = 0 := by
  rw [initStack, slInitHead, word_setWord_of_apart (by unfold Apart; omega),
    word_setWord_self (by omega)]

theorem pushOnStack_slists (hS : Slists m L) (hstack : 0 < stack) (hl : L (stack + 4) = some l)
    (hn : FreshNode L n) (hcount : ∀ {a}, L.Member a → Apart a stack) (hns : Apart n stack) :
    Slists (pushOnStack m stack n) (Function.update L (stack + 4) (some (n :: l))) := by
  rw [pushOnStack, if_neg hstack.ne', if_neg hn.pos.ne']
  refine (addNodeToHead_slists hS hl hn).congr fun {a} ha => word_setWord_of_apart ?_
  obtain ⟨h, k, hk, ha⟩ := ha
  by_cases hh : h = stack + 4
  · subst hh
    rw [Function.update_self, Option.some_inj] at hk
    subst hk
    rcases List.mem_cons.mp ha with rfl | ha
    · exact hcount ⟨_, l, hl, List.mem_cons_self⟩
    · rcases List.mem_cons.mp ha with rfl | ha
      · exact hns
      · exact hcount ⟨_, l, hl, List.mem_cons_of_mem _ ha⟩
  · rw [Function.update_of_ne hh] at hk
    exact hcount ⟨h, k, hk, ha⟩

theorem pushOnStack_count (hstack : 0 < stack) (hn : 0 < n) (hns : Apart n stack)
    (hlt : word m stack + 1 < 2 ^ 32) : word (pushOnStack m stack n) stack = word m stack + 1 := by
  have hsame : word (slAddNodeToHead m (stack + 4) n) stack = word m stack := by
    refine word_congr fun i hi => addNodeToHead_of_outside (by omega) ?_
    rw [Apart] at hns
    omega
  rw [pushOnStack, if_neg hstack.ne', if_neg hn.ne']
  dsimp only
  rw [hsame, word_setWord_self hlt]

theorem popOffStack_slists (hS : Slists m L) (hstack : 0 < stack)
    (hl : L (stack + 4) = some (n :: l)) (hcount : ∀ {a}, L.Member a → Apart a stack)
    (hsome : word m stack ≠ 0) :
    Slists (popOffStack m stack).1 (Function.update L (stack + 4) (some l)) ∧
      (popOffStack m stack).2 = n ∧ word (popOffStack m stack).1 stack = word m stack - 1 := by
  have hS' : Slists (setWord m stack (word m stack - 1)) L :=
    hS.congr fun ha => word_setWord_of_apart (hcount ha)
  obtain ⟨hpop, hreply⟩ := removeNodeFromHead_slists hS' hl
  rw [popOffStack, if_neg hstack.ne', if_neg hsome]
  refine ⟨hpop, hreply, ?_⟩
  rw [slRemoveNodeFromHead, if_neg (by omega)]
  have hlt := word_lt m stack
  dsimp only
  split
  · rw [word_setWord_of_apart (by unfold Apart; omega), word_setWord_self (by omega)]
  · rw [word_setWord_self (by omega)]

end EspressifApp.Collections
