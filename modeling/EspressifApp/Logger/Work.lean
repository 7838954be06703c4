import EspressifApp.Logger.Steps

/-!
What is left to do. A call takes nine steps: five of its task, from `enter` to
`give`, and four of the loop task, if its message is posted. Every step of the
logger uses up one of those that are left, so it cannot go on for ever.
-/

namespace EspressifApp.Logger

open Reactive

/-- The steps a call has before it, those of the loop task included. -/
def Stage.weight : Stage → ℕ
  | .idle => 0
  | .waiting _ => 8
  | .holding _ => 7
  | .formatted _ _ => 6
  | .leaving _ _ _ => 1

def Task.weight (task : Task) : ℕ := task.stage.weight + 9 * task.calls.length

def Handler.weight : Handler → ℕ
  | .idle => 0
  | .received _ => 3
  | .trimmed _ => 2
  | .printed _ => 1

variable {τ : Type*} [Fintype τ]

/-- The steps left to take. -/
def State.work (s : State τ) : ℕ :=
  total Task.weight s.tasks + 4 * s.queue.length + s.handler.weight

variable {s s' : State τ} {a : Action τ} {es : List Effect}

theorem work_lt_of_loop (htasks : s'.tasks = s.tasks)
    (hless : 4 * s'.queue.length + s'.handler.weight < 4 * s.queue.length + s.handler.weight) :
    s'.work < s.work := by
  rw [State.work, State.work, htasks]
  omega

variable [DecidableEq τ]

theorem work_lt_of_task {r : State τ} {t : τ} {stage : Stage} {calls : List Formatted}
    (htasks : r.tasks = s.tasks) (hhandler : r.handler = s.handler)
    (hless : Task.weight ⟨stage, calls⟩ + 4 * r.queue.length <
      (s.tasks t).weight + 4 * s.queue.length) :
    (r.setTask t stage calls).work < s.work := by
  have hmove := total_move Task.weight r.tasks t ⟨stage, calls⟩
  rw [htasks] at hmove
  simp only [State.work, State.setTask, htasks, hhandler]
  omega

/-- Every step leaves fewer to take. -/
theorem work_lt (hstep : Step s a s' es) : s'.work < s.work := by
  cases hstep with
  | enterUnready t msg calls ht | enter t msg calls ht =>
      refine work_lt_of_task rfl rfl ?_
      simp only [ht, Task.weight, Stage.weight, List.length_cons]
      omega
  | take t msg calls ht | format t p text calls ht | formatFailed t p calls ht
  | postFailed t p len calls ht | skip t accepted p len calls ht | give t p len outcome calls ht =>
      refine work_lt_of_task rfl rfl ?_
      simp [ht, Task.weight, Stage.weight]
  | post t p len calls ht =>
      refine work_lt_of_task rfl rfl ?_
      simp only [ht, Task.weight, Stage.weight, List.length_append, List.length_singleton]
      omega
  | receive event queue hidle hqueue =>
      refine work_lt_of_loop rfl ?_
      simp only [hidle, hqueue, Handler.weight, List.length_cons]
      omega
  | handle p hloop | handleOther event hloop | puts p hloop | free p hloop =>
      refine work_lt_of_loop rfl ?_
      simp [hloop, Handler.weight]

end EspressifApp.Logger
