import EspressifApp.Logger.Steps
import Mathlib.Logic.Equiv.Basic

/-!
Who owns a message. The block of a message is held by the call that formatted
it, then by an event in the queue, then by the loop task, which frees it. The
ledger keeps the operations on blocks beside the logger.

No step uses a block that is not there or frees one twice, and no block has two
holders, whatever happens. What can go wrong is that a call ends and nobody
holds its block: the call frees nothing itself, so a message that is empty, or
whose post fails, is lost for good.
-/

namespace EspressifApp.Logger

open Reactive

/-! ### Holders -/

inductive Holder (τ : Type*)
  | task (t : τ)
  | event (n : ℕ)
  | handler
  deriving DecidableEq, Repr

def Stage.held : Stage → Option Ptr
  | .formatted logMessage _ => logMessage
  | .leaving logMessage _ outcome => if outcome = .posted then none else logMessage
  | _ => none

def Handler.held : Handler → Option Ptr
  | .idle => none
  | .received event => event.data
  | .trimmed msg => some msg
  | .printed msg => some msg

variable {τ : Type*}

/-- The pointers held: by the calls in progress, the events queued and the loop
task. -/
def State.holds (s : State τ) : Holder τ → Option Ptr
  | .task t => (s.tasks t).stage.held
  | .event n => s.queue[n]?.bind Event.data
  | .handler => s.handler.held

def State.Live (s : State τ) (p : Ptr) : Prop := s.heap p ≠ none

/-- The loop task takes its message from the front of the queue. -/
def takeOver : Holder τ → Holder τ
  | .task t => .task t
  | .event n => .event (n + 1)
  | .handler => .event 0

theorem takeOver_injective : Function.Injective (takeOver (τ := τ)) := by
  intro i j h
  cases i <;> cases j <;> simp_all [takeOver]

theorem holds_receive {s : State τ} {event : Event} {queue : List Event}
    (hqueue : s.queue = event :: queue) (i : Holder τ) :
    { s with queue := queue, handler := .received event }.holds i = s.holds (takeOver i) := by
  cases i with
  | task t => rfl
  | event n => simp [State.holds, takeOver, hqueue]
  | handler => simp [State.holds, takeOver, hqueue, Handler.held]

/-- The operation an effect is on a block. Printing a message settles it. -/
def Effect.memOp : Effect → Option (MemOp Ptr)
  | .alloc p => some (.alloc p)
  | .access p => some (.access p)
  | .puts p _ => some (.settle p)
  | .free p => some (.free p)
  | _ => none

/-- A live block is settled once the loop task has printed it. -/
def State.phase (s : State τ) (p : Ptr) : Option Phase :=
  (s.heap p).map fun _ => if s.handler = .printed p then .settled else .inUse

theorem phase_eq_none {s : State τ} {p : Ptr} : s.phase p = none ↔ s.heap p = none :=
  Option.map_eq_none_iff

theorem phase_of_live {s : State τ} {p : Ptr} (hp : s.heap p ≠ none) :
    s.phase p = some (if s.handler = .printed p then .settled else .inUse) := by
  obtain ⟨buf, hbuf⟩ := Option.ne_none_iff_exists'.mp hp
  rw [State.phase, hbuf, Option.map_some]

/-- A step that leaves the heap alone, and is not at a printed message, leaves
the phases alone. -/
theorem phase_congr {s s' : State τ} (hheap : s'.heap = s.heap)
    (hprinted : ∀ p, s'.handler = .printed p ↔ s.handler = .printed p) : s.phase = s'.phase := by
  ext p : 1
  simp only [State.phase, hheap, hprinted]

/-! ### Sound states -/

/-- What should hold in every state: the live blocks are those with a holder,
which is then the only one; the operations so far are legal; every block has
been freed once for each time it was allocated, but for the last if it is live;
and when nobody is at work no block is live. -/
structure Sound (s : State τ × List (MemOp Ptr)) : Prop where
  owned : ∀ p, s.1.Live p ↔ ∃! i, s.1.holds i = some p
  legal : Legal s.2
  freed : ∀ p, s.2.count (.alloc p) = s.2.count (.free p) + if s.1.heap p = none then 0 else 1
  drained : (∀ t, (s.1.tasks t).stage = .idle) → s.1.queue = [] → s.1.handler = .idle →
    ∀ p, ¬ s.1.Live p

/-- A call that ends with a message had text to post, and its post did not
fail. -/
def HandedOver (s : State τ × List (MemOp Ptr)) : Action τ → Prop
  | .give t => ∀ p len outcome, (s.1.tasks t).stage = .leaving (some p) len outcome →
      0 < len ∧ outcome ≠ .failed
  | _ => True

/-- The events are messages, and the outcome of a call is that there was nothing
to post exactly when there was none. -/
structure State.Wf (s : State τ) : Prop where
  queue : ∀ event ∈ s.queue, ∃ p, event = messageEvent p
  received : ∀ event, s.handler = .received event → ∃ p, event = messageEvent p
  outcome : ∀ t p len outcome, (s.tasks t).stage = .leaving p len outcome →
    (outcome = .skipped ↔ p = none ∨ len = 0)

theorem State.Wf.not_handleOther {s : State τ} (hwf : s.Wf) {event : Event}
    (hevent : s.handler = .received event) (hother : ∀ p, event ≠ messageEvent p) : False := by
  obtain ⟨p, hp⟩ := hwf.received event hevent
  exact hother p hp

/-- What every step keeps. -/
structure Kept (s : State τ × List (MemOp Ptr)) : Prop where
  held : Held s.1.holds s.1.Live
  wf : s.1.Wf
  replayed : replay (fun _ => none) s.2 = some s.1.phase

theorem held_boot (r : BeginResults) (calls : τ → List Formatted) :
    Held (State.boot r calls).holds (State.boot r calls).Live := by
  constructor <;> intro i <;> cases i <;> nofun

theorem wf_boot (r : BeginResults) (calls : τ → List Formatted) : (State.boot r calls).Wf :=
  ⟨nofun, nofun, nofun⟩

/-- A state without a lost block is sound. -/
theorem sound_of_covered {s : State τ × List (MemOp Ptr)} (hI : Kept s)
    (hcov : Covered s.1.holds s.1.Live) : Sound s := by
  refine ⟨live_iff_existsUnique hI.held hcov, by rw [Legal, hI.replayed]; nofun, fun p => ?_, ?_⟩
  · simpa [phase_eq_none] using count_alloc hI.replayed p
  · intro htasks hqueue hhandler p hp
    obtain ⟨i, hi⟩ := hcov p hp
    cases i with
    | task t => simp [State.holds, htasks t, Stage.held] at hi
    | event n => simp [State.holds, hqueue] at hi
    | handler => simp [State.holds, hhandler, Handler.held] at hi

/-- A call that ends has handed its message over exactly when it holds nothing
any more. -/
theorem handedOver_iff_held {s : State τ × List (MemOp Ptr)} (hI : Kept s) {t : τ}
    {p : Option Ptr} {len : UInt32} {outcome : Outcome}
    (ht : (s.1.tasks t).stage = .leaving p len outcome) :
    HandedOver s (.give t) ↔ (s.1.tasks t).stage.held = none := by
  have houtcome := hI.wf.outcome t p len outcome ht
  simp only [HandedOver, ht, Stage.held, Stage.leaving.injEq]
  cases p with
  | none => simp
  | some p =>
      cases outcome <;> simp_all [len_pos_iff]

/-! ### The run -/

variable [DecidableEq τ]

/-- The logger, with the operations on blocks so far beside it. -/
def ledger (r : BeginResults) (calls : τ → List Formatted) :
    Machine (State τ × List (MemOp Ptr)) (Action τ) Effect :=
  (logger r calls).monitor [] fun ops s a =>
    ops ++ ((logger r calls).out s a).filterMap Effect.memOp

theorem ledger_after (r : BeginResults) (calls : τ → List Formatted) (h : List (Action τ)) :
    ((ledger r calls).after h).1 = (logger r calls).after h :=
  (logger r calls).monitor_after_fst _ _ h

def Taken (s : State τ × List (MemOp Ptr)) (a : Action τ) : Prop := Enabled s.1 a

instance (s : State τ × List (MemOp Ptr)) (a : Action τ) : Decidable (Taken s a) :=
  inferInstanceAs (Decidable (Enabled s.1 a))

/-! ### What moves -/

variable {s s' : State τ} {a : Action τ} {es : List Effect}

theorem holds_setTask (s : State τ) (t : τ) (stage : Stage) (calls : List Formatted) :
    (s.setTask t stage calls).holds = Function.update s.holds (.task t) stage.held := by
  ext i : 1
  cases i with
  | task t' =>
      by_cases ht : t' = t
      · subst ht
        simp [State.holds, State.setTask]
      · simp [State.holds, State.setTask, ht]
  | event n => exact (Function.update_of_ne (by simp) _ _).symm
  | handler => exact (Function.update_of_ne (by simp) _ _).symm

theorem holds_setTask_of_eq {t : τ} {stage : Stage} {calls : List Formatted}
    (hheld : stage.held = (s.tasks t).stage.held) (i : Holder τ) :
    (s.setTask t stage calls).holds i = s.holds i := by
  rw [holds_setTask, hheld]
  exact congrFun (Function.update_eq_self (Holder.task t) s.holds) i

theorem holds_handler (s : State τ) (h : Handler) :
    { s with handler := h }.holds = Function.update s.holds .handler h.held := by
  ext i : 1
  cases i with
  | handler => rw [Function.update_self]; rfl
  | task t => exact (Function.update_of_ne (by simp) _ _).symm
  | event n => exact (Function.update_of_ne (by simp) _ _).symm

theorem holds_post {t : τ} {p : Ptr} {len : UInt32} {calls : List Formatted}
    (ht : s.tasks t = ⟨.formatted (some p) len, calls⟩) (i : Holder τ) :
    ({ s with queue := s.queue ++ [messageEvent p] }.setTask t
      (.leaving (some p) len .posted) calls).holds i =
        s.holds (Equiv.swap (.task t) (.event s.queue.length) i) := by
  have htask : s.holds (.task t) = some p := by
    show (s.tasks t).stage.held = some p
    rw [ht]
    rfl
  have hend : s.holds (.event s.queue.length) = none := by
    show s.queue[s.queue.length]?.bind Event.data = none
    rw [List.getElem?_eq_none le_rfl]
    rfl
  rw [holds_setTask]
  by_cases hit : i = .task t
  · subst hit
    rw [Function.update_self, Equiv.swap_apply_left, hend]
    rfl
  · rw [Function.update_of_ne hit]
    by_cases hiq : i = .event s.queue.length
    · subst hiq
      rw [Equiv.swap_apply_right, htask]
      simp [State.holds, messageEvent]
    · rw [Equiv.swap_apply_of_ne_of_ne hit hiq]
      cases i with
      | task t' => rfl
      | handler => rfl
      | event n =>
          have hn : n ≠ s.queue.length := fun h => hiq (congrArg Holder.event h)
          simp only [State.holds]
          congr 1
          rcases Nat.lt_or_gt_of_ne hn with hlt | hgt
          · rw [List.getElem?_append_left hlt]
          · rw [List.getElem?_eq_none (by simp; omega), List.getElem?_eq_none (by omega)]

theorem setTask_tasks (s : State τ) (t t' : τ) (stage : Stage) (calls : List Formatted) :
    (s.setTask t stage calls).tasks t' = if t' = t then ⟨stage, calls⟩ else s.tasks t' :=
  Function.update_apply ..

theorem State.Wf.setTask (h : s.Wf) (t : τ) {stage : Stage} (calls : List Formatted)
    (hstage : ∀ p len outcome, stage = .leaving p len outcome →
      (outcome = .skipped ↔ p = none ∨ len = 0)) : (s.setTask t stage calls).Wf := by
  refine ⟨h.queue, h.received, fun t' p len outcome ht' => ?_⟩
  rw [setTask_tasks] at ht'
  split_ifs at ht' with ht
  · exact hstage p len outcome ht'
  · exact h.outcome t' p len outcome ht'

theorem wf_step (h : s.Wf) (hstep : Step s a s' es) : s'.Wf := by
  cases hstep with
  | enterUnready t msg calls | enter t msg calls | formatFailed t p calls =>
      exact h.setTask t calls nofun
  | take t msg calls =>
      have h' : State.Wf { s with logLock := some false } := ⟨h.queue, h.received, h.outcome⟩
      exact h'.setTask t calls nofun
  | format t p text calls =>
      have h' : State.Wf { s with heap := Function.update s.heap p (some (text.bytes ++ [0])) } :=
        ⟨h.queue, h.received, h.outcome⟩
      apply h'.setTask t calls
      rintro _ _ _ ⟨⟩
  | post t p len calls ht hlen hroom =>
      have h' : State.Wf { s with queue := s.queue ++ [messageEvent p] } := by
        refine ⟨fun event hevent => ?_, h.received, h.outcome⟩
        rcases List.mem_append.mp hevent with hold | hnew
        · exact h.queue event hold
        · exact ⟨p, List.mem_singleton.mp hnew⟩
      apply h'.setTask t calls
      rintro _ _ _ ⟨⟩
      simp [len_pos_iff.mp hlen]
  | postFailed t p len calls ht hlen =>
      apply h.setTask t calls
      rintro _ _ _ ⟨⟩
      simp [len_pos_iff.mp hlen]
  | skip t accepted p len calls ht hnone =>
      apply h.setTask t calls
      rintro _ _ _ ⟨⟩
      simpa using hnone
  | give t p len outcome calls =>
      have h' : State.Wf { s with logLock := some true } := ⟨h.queue, h.received, h.outcome⟩
      exact h'.setTask t calls nofun
  | receive event queue hidle hqueue =>
      refine ⟨fun e he => h.queue e ?_, ?_, h.outcome⟩
      · rw [hqueue]
        exact List.mem_cons_of_mem _ he
      · rintro _ ⟨⟩
        exact h.queue event (by rw [hqueue]; exact List.mem_cons_self)
  | handle p | handleOther event | puts p | free p => exact ⟨h.queue, nofun, h.outcome⟩

/-- A step moves the pointer of a message, allocates a block or frees one; the
end of a call lets go of a message that was not posted. -/
theorem transfer_step (hheld : Held s.holds s.Live) (hwf : s.Wf) (hstep : Step s a s' es) :
    Transfer s.holds s.Live s'.holds s'.Live ∨
      ∃ t, a = .give t ∧ s'.holds = Function.update s.holds (.task t) none ∧
        ∀ p, s'.Live p ↔ s.Live p := by
  cases hstep with
  | enterUnready t msg calls ht | enter t msg calls ht | formatFailed t p calls ht
  | postFailed t p len calls ht | skip t accepted p len calls ht =>
      refine .inl (.keep (holds_setTask_of_eq ?_) fun _ => Iff.rfl)
      simp [ht, Stage.held]
  | take t msg calls ht =>
      refine .inl (.keep (holds_setTask_of_eq ?_) fun _ => Iff.rfl)
      simp [ht, Stage.held]
  | format t p text calls ht hp =>
      refine .inl (.alloc (.task t) p ?_ (by simpa [State.Live] using hp) (fun i => ?_) fun q => ?_)
      · simp [State.holds, ht, Stage.held]
      · exact congrFun (holds_setTask _ t _ calls) i
      · by_cases hq : q = p
        · subst hq
          simp [State.Live, State.setTask]
        · simp [State.Live, State.setTask, hq]
  | post t p len calls ht hlen hroom =>
      refine .inl (.move (Equiv.swap (.task t) (.event s.queue.length)) (Equiv.injective _)
        (holds_post ht) (fun j _ => Equiv.surjective _ j) fun _ => Iff.rfl)
  | give t p len outcome calls ht =>
      -- the pointer is a local variable, so the end of the call lets go of it
      exact .inr ⟨t, rfl, holds_setTask { s with logLock := some true } t .idle calls,
        fun _ => Iff.rfl⟩
  | receive event queue hidle hqueue =>
      refine .inl (.move takeOver takeOver_injective (holds_receive hqueue) (fun j hj => ?_)
        fun _ => Iff.rfl)
      cases j with
      | task t => exact ⟨.task t, rfl⟩
      | event n =>
          cases n with
          | zero => exact ⟨.handler, rfl⟩
          | succ n => exact ⟨.event n, rfl⟩
      | handler =>
          -- the loop task was idle
          refine absurd ?_ hj
          simp [State.holds, hidle, Handler.held]
  | handle p hevent =>
      have hown : s.holds .handler = some p := by
        simp [State.holds, hevent, Handler.held, messageEvent]
      refine .inl (.keep (fun i => ?_) fun q => ?_)
      · show { s with handler := .trimmed p }.holds i = s.holds i
        rw [holds_handler, show (Handler.trimmed p).held = s.holds .handler from hown.symm,
          Function.update_eq_self]
      · by_cases hq : q = p
        · subst hq
          simpa [State.Live] using hheld.live .handler q hown
        · simp [State.Live, hq]
  | handleOther event hevent hother => exact (hwf.not_handleOther hevent hother).elim
  | puts p htrimmed =>
      have hown : s.holds .handler = some p := by simp [State.holds, htrimmed, Handler.held]
      refine .inl (.keep (fun i => ?_) fun _ => Iff.rfl)
      rw [holds_handler, show (Handler.printed p).held = s.holds .handler from hown.symm,
        Function.update_eq_self]
  | free p hprinted =>
      refine .inl (.free .handler p (by simp [State.holds, hprinted, Handler.held]) (fun i => ?_)
        fun q => ?_)
      · exact congrFun (holds_handler s .idle) i
      · by_cases hq : q = p
        · subst hq
          simp [State.Live]
        · simp [State.Live, hq]

theorem held_step (hheld : Held s.holds s.Live) (hwf : s.Wf) (hstep : Step s a s' es) :
    Held s'.holds s'.Live := by
  rcases transfer_step hheld hwf hstep with htransfer | ⟨t, -, hown, hlive⟩
  · exact htransfer.held hheld
  · exact (hheld.drop (.task t)).congr (congrFun hown) hlive

/-! ### Operations on blocks -/

/-- The operations of a step fit, and take the blocks to their new phases. -/
theorem replay_step (hheld : Held s.holds s.Live) (hwf : s.Wf) (hstep : Step s a s' es) :
    replay s.phase (es.filterMap Effect.memOp) = some s'.phase := by
  have hlive : ∀ p, s.handler.held = some p → s.heap p ≠ none := fun p hp =>
    hheld.live .handler p hp
  cases hstep with
  | enterUnready | enter | take | formatFailed | post | postFailed | skip | give =>
      exact congrArg some (phase_congr rfl fun _ => Iff.rfl)
  | receive event queue hidle hqueue =>
      exact congrArg some (phase_congr rfl fun p => by simp [hidle])
  | format t p text calls ht hp =>
      -- the loop task would hold a block that is allocated
      have hnot : s.handler ≠ .printed p := fun h => hlive p (by rw [h]; rfl) hp
      have hrun : (MemOp.alloc p).run s.phase =
          some (Function.update s.phase p (some .inUse)) := if_pos (phase_eq_none.mpr hp)
      show ((MemOp.alloc p).run s.phase).bind some = _
      rw [hrun, Option.bind_some, Option.some.injEq]
      ext q : 1
      by_cases hq : q = p
      · subst hq
        simp [State.phase, State.setTask, hnot]
      · simp only [State.phase, State.setTask, Function.update_of_ne hq]
        rfl
  | handle p hevent =>
      have hp : s.heap p ≠ none := hlive p (by rw [hevent]; rfl)
      have hrun : (MemOp.access p).run s.phase = some s.phase :=
        if_pos (by simp [phase_of_live hp, hevent])
      show ((MemOp.access p).run s.phase).bind some = _
      rw [hrun, Option.bind_some, Option.some.injEq]
      ext q : 1
      by_cases hq : q = p
      · subst hq
        rw [phase_of_live hp]
        simp [State.phase, hevent]
      · simp [State.phase, hq, hevent]
  | handleOther event hevent hother => exact (hwf.not_handleOther hevent hother).elim
  | puts p htrimmed =>
      have hp : s.heap p ≠ none := hlive p (by rw [htrimmed]; rfl)
      have hrun : (MemOp.settle p).run s.phase =
          some (Function.update s.phase p (some .settled)) :=
        if_pos (by simp [phase_of_live hp, htrimmed])
      show ((MemOp.settle p).run s.phase).bind some = _
      rw [hrun, Option.bind_some, Option.some.injEq]
      ext q : 1
      by_cases hq : q = p
      · subst hq
        rw [Function.update_self]
        exact ((phase_of_live (s := { s with handler := .printed q }) hp).trans
          (congrArg some (if_pos rfl))).symm
      · simp [State.phase, hq, Ne.symm hq, htrimmed]
  | free p hprinted =>
      have hp : s.heap p ≠ none := hlive p (by rw [hprinted]; rfl)
      have hrun : (MemOp.free p).run s.phase = some (Function.update s.phase p none) :=
        if_pos (by simp [phase_of_live hp, hprinted])
      show ((MemOp.free p).run s.phase).bind some = _
      rw [hrun, Option.bind_some, Option.some.injEq]
      ext q : 1
      by_cases hq : q = p
      · subst hq
        simp [State.phase]
      · simp [State.phase, hq, Ne.symm hq, hprinted]

/-! ### Every run -/

variable {r : BeginResults} {calls : τ → List Formatted}

theorem kept_boot (r : BeginResults) (calls : τ → List Formatted) :
    Kept (ledger r calls).init :=
  ⟨held_boot r calls, wf_boot r calls, rfl⟩

theorem ledger_step (r : BeginResults) (calls : τ → List Formatted)
    {s : State τ × List (MemOp Ptr)} (hok : Taken s a) :
    ∃ s' es, Step s.1 a s' es ∧
      (ledger r calls).next s a = (s', s.2 ++ es.filterMap Effect.memOp) :=
  ⟨_, _, logger_step hok, rfl⟩

theorem kept_next {s : State τ × List (MemOp Ptr)} (hI : Kept s) (hok : Taken s a) :
    Kept ((ledger r calls).next s a) := by
  obtain ⟨s', es, hstep, hnext⟩ := ledger_step r calls hok
  rw [hnext]
  refine ⟨held_step hI.held hI.wf hstep, wf_step hI.wf hstep, ?_⟩
  rw [replay_append, hI.replayed, Option.bind_some]
  exact replay_step hI.held hI.wf hstep

/-- The end of a call that has handed its message over loses no block, nor does
any other step. -/
theorem covered_next_iff {s : State τ × List (MemOp Ptr)} (hI : Kept s)
    (hcov : Covered s.1.holds s.1.Live) (hok : Taken s a) :
    Covered ((ledger r calls).next s a).1.holds ((ledger r calls).next s a).1.Live ↔
      HandedOver s a := by
  obtain ⟨s', es, hstep, hnext⟩ := ledger_step r calls hok
  rw [hnext]
  by_cases hgive : ∃ t, a = .give t
  · obtain ⟨t, rfl⟩ := hgive
    cases hstep with
    | give _ p len outcome calls ht =>
        have hstage : (s.1.tasks t).stage = .leaving p len outcome := by rw [ht]
        have hown : (State.setTask { s.1 with logLock := some true } t .idle calls).holds =
            Function.update s.1.holds (.task t) none :=
          holds_setTask { s.1 with logLock := some true } t .idle calls
        dsimp only
        rw [handedOver_iff_held hI hstage, hown]
        constructor
        · intro hcov'
          by_contra hheld
          obtain ⟨q, hq⟩ := Option.ne_none_iff_exists'.mp hheld
          exact not_covered_of_dropped (i := .task t) hI.held hq hcov'
        · intro hheld
          rw [← hheld]
          exact hcov.congr (congrFun (Function.update_eq_self (Holder.task t) s.1.holds))
            fun _ => Iff.rfl
  · have hcond : HandedOver s a := by
      cases a with
      | give t => exact absurd ⟨t, rfl⟩ hgive
      | _ => trivial
    refine iff_of_true ?_ hcond
    rcases transfer_step hI.held hI.wf hstep with htransfer | ⟨t, ht, -⟩
    · exact htransfer.covered hcov
    · exact absurd ⟨t, ht⟩ hgive

/-- Every message is freed once and none is lost, in every state of a run,
exactly when no call ends with an empty message or one whose post failed. -/
theorem messages_owned_iff (r : BeginResults) (calls : τ → List Formatted)
    (h : List (Action τ)) (hok : (ledger r calls).Along Taken h) :
    (ledger r calls).Throughout Sound h ↔ (ledger r calls).Along HandedOver h := by
  have hcovered : Covered (ledger r calls).init.1.holds (ledger r calls).init.1.Live :=
    fun p hp => absurd rfl hp
  rw [Machine.Throughout, and_iff_right (sound_of_covered (kept_boot r calls) hcovered)]
  refine Machine.along_iff_of_invariant
    (I := fun s => Kept s ∧ Covered s.1.holds s.1.Live) ⟨kept_boot r calls, hcovered⟩
    (fun s a hI ha hcond => ⟨kept_next hI.1 ha, (covered_next_iff hI.1 hI.2 ha).mpr hcond⟩)
    (fun s a hI ha => ?_) hok
  rw [← covered_next_iff hI.1 hI.2 ha]
  constructor
  · exact fun hsound p hp => ((hsound.owned p).mp hp).exists
  · exact sound_of_covered (kept_next hI.1 ha)

/-- The logger is set up, and one task logs one message. -/
def allSucceed : BeginResults :=
  { semaphoreCreate := true, loopCreate := true, handlerRegister := true }

/-- A call from its beginning to its end, with its message in block 1. -/
def oneCall : List (Action Unit) :=
  [.enter (), .take (), .vasprintf () 1, .post () true, .give ()]

def oneMessage : List (Action Unit) := oneCall ++ [.receive, .handle, .puts, .free]

/-- "hi" with a newline. -/
def hiText : Text := ⟨[0x68, 0x69, 0x0a], by decide⟩

def emptyText : Text := ⟨[], by decide⟩

theorem messages_owned_iff_oneMessage :
    (ledger allSucceed fun _ => [.text hiText]).Throughout Sound oneMessage ↔
      (ledger allSucceed fun _ => [.text hiText]).Along HandedOver oneMessage :=
  messages_owned_iff allSucceed (fun _ => [.text hiText]) oneMessage (by decide)

/-- An empty message is formatted, not posted, and never freed. -/
theorem emptyMessage_leaked :
    ¬ ∀ (τ : Type) (_ : DecidableEq τ) (r : BeginResults) (calls : τ → List Formatted)
      (h : List (Action τ)), (ledger r calls).Along Taken h →
        (ledger r calls).Throughout Sound h := by
  intro hall
  have hsound := (hall Unit inferInstance allSucceed (fun _ => [.text emptyText]) oneCall
    (by decide)).after
  exact hsound.drained (fun _ => rfl) rfl rfl 1 (by unfold State.Live; decide)

end EspressifApp.Logger
