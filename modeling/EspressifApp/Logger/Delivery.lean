import EspressifApp.Logger.Lines
import EspressifApp.Logger.Ownership
import EspressifApp.Logger.Work

/-!
What is printed. A message is printed as one line; one that is empty or could
not be formatted is not printed. The journal beside the logger keeps the
messages in the order in which their callers acquired `logLock`, and the lines
printed.

The caller holds the lock while it waits for room in the queue, so the messages
lie one behind the other: the lines printed, the one in the hands of the loop
task, those in the queue, and the one of the caller that has the lock. The loop
task never takes the lock, so it always makes room; and as every step leaves
fewer to take, all messages are printed in the end.
-/

namespace EspressifApp.Logger

open Reactive

/-! ### The journal -/

variable {τ : Type*}

/-- The messages in the order in which their callers acquired `logLock`, and the
lines printed. -/
structure Journal (τ : Type*) where
  acquired : List (τ × Formatted)
  printed : List (List UInt8)

def Journal.boot : Journal τ := { acquired := [], printed := [] }

def Journal.expected (j : Journal τ) : List (List UInt8) := j.acquired.filterMap fun x => x.2.line

def Effect.line : Effect → Option (List UInt8)
  | .puts _ line => some line
  | _ => none

def acquires (s : State τ) : Action τ → List (τ × Formatted)
  | .take t =>
      match (s.tasks t).stage with
      | .waiting msg => [(t, msg)]
      | _ => []
  | _ => []

def Journal.record (j : Journal τ) (s : State τ) (a : Action τ) (es : List Effect) : Journal τ where
  acquired := j.acquired ++ acquires s a
  printed := j.printed ++ es.filterMap Effect.line

/-- A post that fails. -/
def Action.Refused : Action τ → Prop
  | .post _ accepted => accepted = false
  | _ => False

instance (a : Action τ) : Decidable a.Refused := by
  cases a <;> unfold Action.Refused <;> infer_instance

/-- Some call is not finished, or some message is not printed. -/
def State.Unfinished (s : State τ) : Prop :=
  (∃ t, (s.tasks t).stage ≠ .idle ∨ (s.tasks t).calls ≠ []) ∨ s.queue ≠ [] ∨ s.handler ≠ .idle

theorem Journal.expected_record (j : Journal τ) (s : State τ) (a : Action τ) (es : List Effect) :
    (j.record s a es).expected =
      j.expected ++ (acquires s a).filterMap fun x => x.2.line :=
  List.filterMap_append

/-! ### Where the lines are -/

def lineAt (heap : Ptr → Option (List UInt8)) (p : Ptr) : List UInt8 := bufLine ((heap p).getD [])

/-- The line of the caller that has the lock, until it is posted. -/
def Stage.lines (heap : Ptr → Option (List UInt8)) : Stage → List (List UInt8)
  | .holding msg => msg.line.toList
  | .formatted (some p) len => if 0 < len then [lineAt heap p] else []
  | _ => []

/-- The line in the hands of the loop task, until it is printed. -/
def Handler.lines (heap : Ptr → Option (List UInt8)) : Handler → List (List UInt8)
  | .received event => event.data.toList.map (lineAt heap)
  | .trimmed p => [cstr ((heap p).getD [])]
  | _ => []

def queueLines (heap : Ptr → Option (List UInt8)) (queue : List Event) : List (List UInt8) :=
  queue.flatMap fun event => event.data.toList.map (lineAt heap)

/-- The task is between taking the lock and giving it back. -/
def Stage.Critical : Stage → Prop
  | .holding _ => True
  | .formatted _ _ => True
  | .leaving _ _ _ => True
  | _ => False

/-- Who has the lock. -/
def State.Guarded (s : State τ) : Option τ → Prop
  | none => s.logLock = some true ∧ ∀ t, ¬ (s.tasks t).stage.Critical
  | some t => s.logLock = some false ∧ ∀ t', (s.tasks t').stage.Critical ↔ t' = t

def State.heldLines (s : State τ) (owner : Option τ) : List (List UInt8) :=
  owner.elim [] fun t => (s.tasks t).stage.lines s.heap

/-- The calls a task has still to get the lock for. -/
def Task.pending (task : Task) : List Formatted :=
  match task.stage with
  | .waiting msg => msg :: task.calls
  | _ => task.calls

variable {s s' : State τ} {a : Action τ} {es : List Effect} {owner : Option τ}

/-! ### A block written, the other lines as they were -/

theorem lineAt_update_of_ne {heap : Ptr → Option (List UInt8)} {p q : Ptr} (hq : q ≠ p)
    (buf : Option (List UInt8)) : lineAt (Function.update heap p buf) q = lineAt heap q := by
  rw [lineAt, Function.update_of_ne hq, lineAt]

theorem queueLines_update {p : Ptr} (hp : ∀ n, s.holds (.event n) ≠ some p)
    (buf : Option (List UInt8)) :
    queueLines (Function.update s.heap p buf) s.queue = queueLines s.heap s.queue := by
  apply List.flatMap_congr
  intro event hevent
  obtain ⟨n, hn⟩ := List.mem_iff_getElem?.mp hevent
  cases hdata : event.data with
  | none => rfl
  | some q =>
      have hq : q ≠ p := by
        rintro rfl
        exact hp n (by simp [State.holds, hn, hdata])
      simp [lineAt_update_of_ne hq]

theorem handlerLines_update {p : Ptr} (hp : s.holds .handler ≠ some p)
    (buf : Option (List UInt8)) :
    s.handler.lines (Function.update s.heap p buf) = s.handler.lines s.heap := by
  simp only [State.holds] at hp
  cases hhandler : s.handler with
  | idle => rfl
  | printed q => rfl
  | received event =>
      simp only [hhandler, Handler.held] at hp
      cases hdata : event.data with
      | none => simp [Handler.lines, hdata]
      | some q =>
          have hq : q ≠ p := fun h => hp (by rw [hdata, h])
          simp [Handler.lines, hdata, lineAt_update_of_ne hq]
  | trimmed q =>
      simp only [hhandler, Handler.held] at hp
      have hq : q ≠ p := fun h => hp (by rw [h])
      simp [Handler.lines, Function.update_of_ne hq]

theorem stageLines_update {t : τ} {p : Ptr} (hp : s.holds (.task t) ≠ some p)
    (buf : Option (List UInt8)) :
    (s.tasks t).stage.lines (Function.update s.heap p buf) = (s.tasks t).stage.lines s.heap := by
  simp only [State.holds] at hp
  cases hstage : (s.tasks t).stage with
  | formatted logMessage len =>
      cases logMessage with
      | none => rfl
      | some q =>
          simp only [hstage, Stage.held] at hp
          have hq : q ≠ p := fun h => hp (by rw [h])
          simp only [Stage.lines, lineAt_update_of_ne hq]
  | _ => rfl

theorem heldLines_update {p : Ptr} (hp : ∀ t, s.holds (.task t) ≠ some p)
    (buf : Option (List UInt8)) :
    { s with heap := Function.update s.heap p buf }.heldLines owner = s.heldLines owner := by
  cases owner with
  | none => rfl
  | some t => exact stageLines_update (hp t) buf

theorem lines_update_handler (owner : Option τ) (hheld : Held s.holds s.Live) {p : Ptr}
    (hown : s.holds .handler = some p) (buf : Option (List UInt8)) (handler : Handler) :
    { s with heap := Function.update s.heap p buf, handler := handler }.heldLines owner =
        s.heldLines owner ∧
      queueLines (Function.update s.heap p buf) s.queue = queueLines s.heap s.queue :=
  ⟨heldLines_update (fun _ => hheld.ne_of_ne hown (by simp)) buf,
    queueLines_update (fun _ => hheld.ne_of_ne hown (by simp)) buf⟩

/-! ### The run -/

variable [DecidableEq τ]

/-- The messages of a task, in the order in which it acquired the lock for
them. -/
def Journal.messagesOf (j : Journal τ) (t : τ) : List Formatted :=
  (j.acquired.filter fun x => x.1 = t).map Prod.snd

def delivery (r : BeginResults) (calls : τ → List Formatted) :
    Machine (State τ × Journal τ) (Action τ) Effect :=
  (logger r calls).monitor Journal.boot fun j s a => j.record s a ((logger r calls).out s a)

theorem delivery_after (r : BeginResults) (calls : τ → List Formatted) (h : List (Action τ)) :
    ((delivery r calls).after h).1 = (logger r calls).after h :=
  (logger r calls).monitor_after_fst _ _ h

/-- The scheduler takes enabled actions, and a post that finds the queue full
waits until there is room: it does not fail. -/
def Blocking (s : State τ × Journal τ) (a : Action τ) : Prop := Enabled s.1 a ∧ ¬ a.Refused

instance (s : State τ × Journal τ) (a : Action τ) : Decidable (Blocking s a) :=
  inferInstanceAs (Decidable (_ ∧ ¬ _))

/-- Everything is done: no call is unfinished, every message has had its turn,
and every line is printed. -/
structure Complete (calls : τ → List Formatted) (s : State τ × Journal τ) : Prop where
  finished : ¬ s.1.Unfinished
  turns : ∀ t, s.2.messagesOf t = calls t
  lines : s.2.printed = s.2.expected

/-- What should hold in every state: the lines printed are the first ones of
those to be printed; a task acquires the lock for its messages in the order of
its calls; as long as something is unfinished some step can be taken; when none
can, everything is done; no schedule goes on for ever; and some schedule goes on
until everything is done. -/
structure Delivered (r : BeginResults) (calls : τ → List Formatted) (s : State τ × Journal τ) :
    Prop where
  lines : s.2.printed <+: s.2.expected
  order : ∀ t, s.2.messagesOf t <+: calls t
  progress : s.1.Unfinished → ∃ a, Blocking s a
  terminal : (¬ ∃ a, Blocking s a) → Complete calls s
  ends : ∃ N, ∀ h, (delivery r calls).AlongFrom Blocking s h → h.length ≤ N
  completes : ∃ h, (delivery r calls).AlongFrom Blocking s h ∧
    Complete calls (h.foldl (delivery r calls).next s)

/-! ### The lock -/

theorem State.Guarded.outside (h : s.Guarded owner) (t : τ) (stage : Stage)
    (calls : List Formatted) (hbefore : ¬ (s.tasks t).stage.Critical) (hafter : ¬ stage.Critical) :
    (s.setTask t stage calls).Guarded owner ∧
      (s.setTask t stage calls).heldLines owner = s.heldLines owner := by
  cases owner with
  | none =>
      refine ⟨⟨h.1, fun t' => ?_⟩, rfl⟩
      rw [setTask_tasks]
      split_ifs
      · exact hafter
      · exact h.2 t'
  | some o =>
      have ho : o ≠ t := fun heq => hbefore ((h.2 t).mpr heq.symm)
      refine ⟨⟨h.1, fun t' => ?_⟩, ?_⟩
      · rw [setTask_tasks]
        split_ifs with ht
        · subst ht
          exact iff_of_false hafter (Ne.symm ho)
        · exact h.2 t'
      · simp only [State.heldLines, Option.elim_some, setTask_tasks, if_neg ho]
        rfl

theorem State.Guarded.inside (h : s.Guarded owner) (t : τ) (stage : Stage)
    (calls : List Formatted) (hbefore : (s.tasks t).stage.Critical) (hafter : stage.Critical) :
    owner = some t ∧ (s.setTask t stage calls).Guarded (some t) ∧
      (s.setTask t stage calls).heldLines (some t) = stage.lines s.heap := by
  cases owner with
  | none => exact absurd hbefore (h.2 t)
  | some o =>
      have ho : t = o := (h.2 t).mp hbefore
      subst ho
      refine ⟨rfl, ⟨h.1, fun t' => ?_⟩, ?_⟩
      · rw [setTask_tasks]
        split_ifs with ht
        · exact iff_of_true hafter ht
        · exact h.2 t'
      · simp only [State.heldLines, Option.elim_some, setTask_tasks, if_true]
        rfl

theorem State.Guarded.take (h : s.Guarded owner) (hlock : s.logLock = some true) (t : τ)
    (stage : Stage) (calls : List Formatted) (hafter : stage.Critical) :
    owner = none ∧ ({ s with logLock := some false }.setTask t stage calls).Guarded (some t) := by
  cases owner with
  | some o =>
      rw [State.Guarded, hlock] at h
      cases h.1
  | none =>
      refine ⟨rfl, rfl, fun t' => ?_⟩
      rw [setTask_tasks]
      split_ifs with ht
      · exact iff_of_true hafter ht
      · exact iff_of_false (h.2 t') ht

theorem State.Guarded.give (h : s.Guarded owner) (t : τ) (calls : List Formatted)
    (hbefore : (s.tasks t).stage.Critical) :
    owner = some t ∧ ({ s with logLock := some true }.setTask t .idle calls).Guarded none := by
  cases owner with
  | none => exact absurd hbefore (h.2 t)
  | some o =>
      have ho : t = o := (h.2 t).mp hbefore
      subst ho
      refine ⟨rfl, rfl, fun t' => ?_⟩
      rw [setTask_tasks]
      split_ifs with ht
      · exact id
      · exact fun hcrit => ht ((h.2 t').mp hcrit)

/-! ### The flow of messages -/

/-- The messages lie one behind the other: printed, in the hands of the loop
task, in the queue, and with the caller that has the lock. -/
structure Flowing (s : State τ) (j : Journal τ) (owner : Option τ) : Prop where
  guarded : s.Guarded owner
  flow : j.expected = j.printed ++ s.handler.lines s.heap ++ queueLines s.heap s.queue ++
    s.heldLines owner

variable {j : Journal τ}

theorem queueLines_append (heap : Ptr → Option (List UInt8)) (queue : List Event) (p : Ptr) :
    queueLines heap (queue ++ [messageEvent p]) = queueLines heap queue ++ [lineAt heap p] := by
  simp [queueLines, messageEvent]

theorem Formatted.line_text (t : Text) :
    (Formatted.text t).line.toList =
      if 0 < (Formatted.text t).len then [t.bytes.rdropWhile isEol] else [] := by
  by_cases hbytes : t.bytes = [] <;> simp [Formatted.line, len_text_pos_iff, hbytes]

theorem flowing_step (hheld : Held s.holds s.Live) (hwf : s.Wf)
    (hnul : ∀ t msg, (s.tasks t).stage = .holding msg → msg.NulFree) (h : Flowing s j owner)
    (hstep : Step s a s' es) (hpost : ¬ a.Refused) :
    ∃ owner', Flowing s' (j.record s a es) owner' := by
  obtain ⟨hguard, hflow⟩ := h
  cases hstep with
  | enterUnready t msg calls ht hlock =>
      -- `begin` has created `logLock`
      cases owner <;> rw [State.Guarded, hlock] at hguard <;> cases hguard.1
  | enter t msg calls ht hlock =>
      obtain ⟨hguard', hlines⟩ := hguard.outside t (.waiting msg) calls
        (by simp [ht, Stage.Critical]) (by simp [Stage.Critical])
      refine ⟨owner, hguard', ?_⟩
      rw [Journal.expected_record, hflow, hlines]
      simp [Journal.record, acquires, State.setTask]
  | take t msg calls ht hlock =>
      obtain ⟨rfl, hguard'⟩ := hguard.take hlock t (.holding msg) calls trivial
      refine ⟨some t, hguard', ?_⟩
      have hlines : (State.setTask { s with logLock := some false } t (.holding msg)
          calls).heldLines (some t) = msg.line.toList := by
        simp [State.heldLines, setTask_tasks, Stage.lines]
      rw [Journal.expected_record, hflow, hlines]
      cases hline : msg.line <;>
        simp [Journal.record, acquires, ht, hline, State.heldLines, State.setTask]
  | format t p text calls ht hp =>
      -- nobody holds the block that is allocated
      have hnew : ∀ i, s.holds i ≠ some p := fun i hi => hheld.live i p hi hp
      obtain ⟨rfl, hguard', hlines⟩ := State.Guarded.inside
        (s := { s with heap := Function.update s.heap p (some (text.bytes ++ [0])) }) hguard
        t (.formatted (some p) (Formatted.text text).len) calls
        (by simp [ht, Stage.Critical]) trivial
      have hline : lineAt (Function.update s.heap p (some (text.bytes ++ [0]))) p =
          text.bytes.rdropWhile isEol := by
        rw [lineAt, Function.update_self, Option.getD_some]
        exact bufLine_text (hnul t (.text text) (by rw [ht]))
      refine ⟨some t, hguard', ?_⟩
      rw [Journal.expected_record, hflow, hlines]
      simp only [State.setTask, Journal.record, acquires, Stage.lines, State.heldLines, ht,
        Option.elim_some, handlerLines_update (hnew .handler),
        queueLines_update fun n => hnew (.event n), hline, Formatted.line_text]
      simp [Effect.line]
  | formatFailed t p calls ht =>
      obtain ⟨rfl, hguard', hlines⟩ := hguard.inside t
        (.formatted none Formatted.failed.len) calls (by simp [ht, Stage.Critical]) trivial
      refine ⟨some t, hguard', ?_⟩
      rw [Journal.expected_record, hflow, hlines]
      simp [Journal.record, acquires, ht, Stage.lines, Formatted.line, State.heldLines,
        State.setTask]
  | post t p len calls ht hlen hroom =>
      obtain ⟨rfl, hguard', hlines⟩ := State.Guarded.inside
        (s := { s with queue := s.queue ++ [messageEvent p] }) hguard t
        (.leaving (some p) len .posted) calls (by simp [ht, Stage.Critical]) trivial
      refine ⟨some t, hguard', ?_⟩
      rw [Journal.expected_record, hflow, hlines]
      simp [Journal.record, acquires, ht, Stage.lines, State.heldLines, State.setTask, hlen,
        queueLines_append]
  | postFailed t p len calls => exact absurd rfl hpost
  | skip t accepted p len calls ht hnone =>
      -- an empty message has no line
      obtain ⟨rfl, hguard', hlines⟩ := hguard.inside t (.leaving p len .skipped)
        calls (by simp [ht, Stage.Critical]) trivial
      refine ⟨some t, hguard', ?_⟩
      have hnothing : s.heldLines (some t) = [] := by
        simp only [State.heldLines, Option.elim_some, ht]
        rcases hnone with rfl | rfl
        · rfl
        · cases p <;> rfl
      rw [Journal.expected_record, hflow, hlines, hnothing]
      simp [Journal.record, acquires, Stage.lines, State.setTask]
  | give t p len outcome calls ht =>
      obtain ⟨rfl, hguard'⟩ := hguard.give t calls (by simp [ht, Stage.Critical])
      refine ⟨none, hguard', ?_⟩
      rw [Journal.expected_record, hflow]
      simp [Journal.record, acquires, ht, Stage.lines, State.heldLines, State.setTask, Effect.line]
  | receive event queue hidle hqueue =>
      refine ⟨owner, hguard, ?_⟩
      rw [Journal.expected_record, hflow, hidle, hqueue]
      simp [Journal.record, acquires, Handler.lines, queueLines, State.heldLines]
  | handle p hevent =>
      have hown : s.holds .handler = some p := by
        simp [State.holds, hevent, Handler.held, messageEvent]
      obtain ⟨hlines, hqueue⟩ := lines_update_handler owner hheld hown
        (some (trim ((s.heap p).getD []))) (.trimmed p)
      refine ⟨owner, hguard, ?_⟩
      rw [Journal.expected_record, hflow, hlines]
      simp only [hqueue, hevent]
      simp [Journal.record, acquires, Handler.lines, messageEvent, cstr_trim, lineAt, Effect.line]
  | handleOther event hevent hother => exact (hwf.not_handleOther hevent hother).elim
  | puts p htrimmed =>
      refine ⟨owner, hguard, ?_⟩
      rw [Journal.expected_record, hflow, htrimmed]
      simp [Journal.record, acquires, Handler.lines, State.heldLines, Effect.line]
  | free p hprinted =>
      have hown : s.holds .handler = some p := by simp [State.holds, hprinted, Handler.held]
      obtain ⟨hlines, hqueue⟩ := lines_update_handler owner hheld hown none .idle
      refine ⟨owner, hguard, ?_⟩
      rw [Journal.expected_record, hflow, hlines]
      simp only [hqueue, hprinted]
      simp [Journal.record, acquires, Handler.lines, Effect.line]

/-! ### The calls of a task -/

/-- What has had its turn and what has not are the calls the task was to
make. -/
def Accounted (calls : τ → List Formatted) (s : State τ) (j : Journal τ) : Prop :=
  ∀ t, j.messagesOf t ++ (s.tasks t).pending = calls t

variable {calls : τ → List Formatted}

theorem messagesOf_record (j : Journal τ) (s : State τ) (a : Action τ) (es : List Effect) (t : τ) :
    (j.record s a es).messagesOf t =
      j.messagesOf t ++ ((acquires s a).filter fun x => x.1 = t).map Prod.snd := by
  simp [Journal.messagesOf, Journal.record]

theorem pending_setTask {t : τ} {stage : Stage} {calls : List Formatted}
    (hpending : Task.pending ⟨stage, calls⟩ = (s.tasks t).pending) (t' : τ) :
    ((s.setTask t stage calls).tasks t').pending = (s.tasks t').pending := by
  rw [setTask_tasks]
  split_ifs with ht
  · rw [ht, hpending]
  · rfl

/-- A call that gets the lock is the next one of its task; the others stay to be
made. -/
theorem pending_step (hlock : s.logLock ≠ none) (hstep : Step s a s' es) (t : τ) :
    ((acquires s a).filter fun x => x.1 = t).map Prod.snd ++ (s'.tasks t).pending =
      (s.tasks t).pending := by
  cases hstep with
  | enterUnready t' msg calls ht hunready => exact absurd hunready hlock
  | enter t' msg calls ht | formatFailed t' p calls ht | postFailed t' p len calls ht
  | skip t' accepted p len calls ht =>
      exact pending_setTask (by simp [Task.pending, ht]) t
  | take t' msg calls ht =>
      have hacquires : acquires s (.take t') = [(t', msg)] := by simp [acquires, ht]
      rw [hacquires, setTask_tasks]
      by_cases htt : t = t'
      · subst htt
        simp [ht, Task.pending]
      · simp [htt, Ne.symm htt]
  | format t' p text calls ht =>
      exact pending_setTask (s := { s with heap := Function.update s.heap p _ })
        (by simp [Task.pending, ht]) t
  | post t' p len calls ht =>
      exact pending_setTask (s := { s with queue := s.queue ++ [messageEvent p] })
        (by simp [Task.pending, ht]) t
  | give t' p len outcome calls ht =>
      exact pending_setTask (s := { s with logLock := some true }) (by simp [Task.pending, ht]) t
  | receive | handle | handleOther | puts | free => rfl

theorem accounted_step (h : Accounted calls s j) (hlock : s.logLock ≠ none)
    (hstep : Step s a s' es) : Accounted calls s' (j.record s a es) := by
  intro t
  rw [messagesOf_record, List.append_assoc, pending_step hlock hstep, h t]

theorem holding_step {P : Formatted → Prop} (h : ∀ t msg, (s.tasks t).stage = .holding msg → P msg)
    (hpending : ∀ t, ∀ msg ∈ (s.tasks t).pending, P msg) (hstep : Step s a s' es) :
    ∀ t msg, (s'.tasks t).stage = .holding msg → P msg := by
  have hset : ∀ (s : State τ) (t : τ) (stage : Stage) (calls : List Formatted),
      (∀ t msg, (s.tasks t).stage = .holding msg → P msg) →
      (∀ msg, stage = .holding msg → P msg) →
      ∀ t' msg, ((s.setTask t stage calls).tasks t').stage = .holding msg → P msg := by
    intro s t stage calls hs hstage t' msg hmsg
    rw [setTask_tasks] at hmsg
    split_ifs at hmsg
    · exact hstage msg hmsg
    · exact hs t' msg hmsg
  cases hstep with
  | take t msg calls ht =>
      apply hset _ t _ calls h
      rintro _ ⟨⟩
      exact hpending t msg (by simp [Task.pending, ht])
  | enterUnready | enter | formatFailed | post | postFailed | skip | give | format =>
      exact hset _ _ _ _ h fun _ => by simp
  | receive | handle | handleOther | puts | free => exact h

def State.Bounded (s : State τ) : Prop := ∃ n, ∀ p, n ≤ p → s.heap p = none

theorem bounded_update {heap : Ptr → Option (List UInt8)} (h : ∃ n, ∀ p, n ≤ p → heap p = none)
    (q : Ptr) (buf : Option (List UInt8)) :
    ∃ n, ∀ p, n ≤ p → Function.update heap q buf p = none := by
  obtain ⟨n, hn⟩ := h
  refine ⟨max n (q + 1), fun p hp => ?_⟩
  have hq : p ≠ q := ((Nat.lt_succ_self q).trans_le ((le_max_right n _).trans hp)).ne'
  rw [Function.update_of_ne hq]
  exact hn p ((le_max_left ..).trans hp)

theorem bounded_step (h : s.Bounded) (hstep : Step s a s' es) : s'.Bounded := by
  cases hstep with
  | format t p | handle p | free p => exact bounded_update h p _
  | _ => exact h

/-! ### No deadlock -/

theorem enabled_vasprintf (hbounded : s.Bounded) {t : τ} {msg : Formatted}
    {calls : List Formatted} (ht : s.tasks t = ⟨.holding msg, calls⟩) :
    ∃ p, Enabled s (.vasprintf t p) := by
  obtain ⟨p, hp⟩ := hbounded
  refine ⟨p, ?_⟩
  cases msg <;> simp [Enabled, step, ht, hp p le_rfl]

theorem enabled_post {t : τ} {p : Option Ptr} {len : UInt32} {calls : List Formatted}
    (ht : s.tasks t = ⟨.formatted p len, calls⟩) (hroom : s.queue.length < queueSize) :
    Enabled s (.post t true) := by
  simp only [Enabled, step, ht]
  cases posting p len <;> simp [hroom]

/-- The loop task can go on whenever it has something to do. -/
theorem enabled_handler (h : s.queue ≠ [] ∨ s.handler ≠ .idle) :
    ∃ a, Enabled s a ∧ ¬ a.Refused := by
  cases hhandler : s.handler with
  | idle =>
      have hnonempty : s.queue ≠ [] := h.resolve_right (by simp [hhandler])
      obtain ⟨event, queue, hqueue⟩ := List.exists_cons_of_ne_nil hnonempty
      exact ⟨.receive, by simp [Enabled, step, hhandler, hqueue], id⟩
  | received event => exact ⟨.handle, by simp [Enabled, step, hhandler], id⟩
  | trimmed p => exact ⟨.puts, by simp [Enabled, step, hhandler], id⟩
  | printed p => exact ⟨.free, by simp [Enabled, step, hhandler], id⟩

/-- A task that is not finished can go on once the queue has room: at the lock,
one that has it or, when nobody does, any. -/
theorem enabled_task (hguard : s.Guarded owner) (hbounded : s.Bounded) (hqueue : s.queue = [])
    {t : τ} (ht : (s.tasks t).stage ≠ .idle ∨ (s.tasks t).calls ≠ []) :
    ∃ a, Enabled s a ∧ ¬ a.Refused := by
  -- the owner of the lock is never held up
  have hcritical : ∀ t, (s.tasks t).stage.Critical → ∃ a, Enabled s a ∧ ¬ a.Refused := by
    intro t hcrit
    cases htask : s.tasks t with
    | mk stage calls =>
        rw [htask] at hcrit
        cases stage with
        | holding msg =>
            obtain ⟨p, hp⟩ := enabled_vasprintf hbounded htask
            exact ⟨.vasprintf t p, hp, id⟩
        | formatted p len =>
            exact ⟨.post t true, enabled_post htask (by simp [hqueue, queueSize]), nofun⟩
        | leaving p len outcome => exact ⟨.give t, by simp [Enabled, step, htask], id⟩
        | idle | waiting => exact hcrit.elim
  cases owner with
  | some o => exact hcritical o ((hguard.2 o).mpr rfl)
  | none =>
      obtain ⟨hlock, hnot⟩ := hguard
      cases htask : s.tasks t with
      | mk stage calls =>
          rw [htask] at ht
          cases stage with
          | idle =>
              obtain ⟨msg, calls, rfl⟩ := List.exists_cons_of_ne_nil (ht.resolve_left (by simp))
              exact ⟨.enter t, by simp [Enabled, step, htask, hlock], id⟩
          | waiting msg => exact ⟨.take t, by simp [Enabled, step, htask, hlock], id⟩
          | holding | formatted | leaving =>
              exact absurd (by rw [htask]; trivial) (hnot t)

/-! ### Every run -/

/-- What every step keeps. -/
structure Delivering (calls : τ → List Formatted) (s : State τ × Journal τ) : Prop where
  held : Held s.1.holds s.1.Live
  wf : s.1.Wf
  flowing : ∃ owner, Flowing s.1 s.2 owner
  accounted : Accounted calls s.1 s.2
  nulFree : ∀ t msg, (s.1.tasks t).stage = .holding msg → msg.NulFree
  bounded : s.1.Bounded

theorem Delivering.progress {s : State τ × Journal τ} (h : Delivering calls s)
    (hun : s.1.Unfinished) : ∃ a, Blocking s a := by
  obtain ⟨owner, hguard, -⟩ := h.flowing
  by_cases hloop : s.1.queue ≠ [] ∨ s.1.handler ≠ .idle
  · exact enabled_handler hloop
  · obtain ⟨t, ht⟩ := hun.resolve_right hloop
    exact enabled_task hguard h.bounded (not_not.mp fun hq => hloop (.inl hq)) ht

/-- A state in which nothing can happen is finished. -/
theorem Delivering.complete {s : State τ × Journal τ} (h : Delivering calls s)
    (hstuck : ¬ ∃ a, Blocking s a) : Complete calls s := by
  have hfinished : ¬ s.1.Unfinished := fun hun => hstuck (h.progress hun)
  obtain ⟨owner, hguard, hflow⟩ := h.flowing
  have hidle : (∀ t, (s.1.tasks t).stage = .idle ∧ (s.1.tasks t).calls = []) ∧
      s.1.queue = [] ∧ s.1.handler = .idle := by
    simpa only [State.Unfinished, not_or, not_exists, not_not] using hfinished
  obtain ⟨htasks, hqueue, hhandler⟩ := hidle
  refine ⟨hfinished, ?_, ?_⟩
  · intro t
    simpa [Task.pending, htasks t] using h.accounted t
  · have hheld : s.1.heldLines owner = [] := by
      cases owner with
      | none => rfl
      | some t => simp [State.heldLines, (htasks t).1, Stage.lines]
    rw [hflow, hqueue, hhandler, hheld]
    simp [Handler.lines, queueLines]

theorem delivery_step {r : BeginResults} {s : State τ × Journal τ} (h : Blocking s a) :
    Step s.1 a ((delivery r calls).next s a).1 ((logger r calls).out s.1 a) :=
  logger_step h.1

theorem delivering_next {r : BeginResults} (hnul : ∀ t, ∀ msg ∈ calls t, msg.NulFree)
    {s : State τ × Journal τ} (hI : Delivering calls s) (hok : Blocking s a) :
    Delivering calls ((delivery r calls).next s a) := by
  have hstep : Step s.1 a ((delivery r calls).next s a).1 ((logger r calls).out s.1 a) :=
    delivery_step hok
  obtain ⟨owner, hflow⟩ := hI.flowing
  have hlock : s.1.logLock ≠ none := by
    cases owner with
    | none => rw [hflow.guarded.1]; nofun
    | some t => rw [hflow.guarded.1]; nofun
  refine ⟨held_step hI.held hI.wf hstep, wf_step hI.wf hstep,
    flowing_step hI.held hI.wf hI.nulFree hflow hstep hok.2,
    accounted_step hI.accounted hlock hstep,
    holding_step hI.nulFree (fun t msg hmsg => hnul t msg ?_) hstep, bounded_step hI.bounded hstep⟩
  rw [← hI.accounted t]
  exact List.mem_append_right _ hmsg

/-- From here on every schedule is bounded by the steps left to take, and one
that uses up what it can ends where everything is done. -/
theorem Delivering.delivered [Fintype τ] {r : BeginResults}
    (hnul : ∀ t, ∀ msg ∈ calls t, msg.NulFree) {s : State τ × Journal τ}
    (h : Delivering calls s) : Delivered r calls s := by
  have hlower : ∀ (s : State τ × Journal τ) a, Delivering calls s → Blocking s a →
      Delivering calls ((delivery r calls).next s a) ∧
        ((delivery r calls).next s a).1.work < s.1.work :=
    fun s a hs ha => ⟨delivering_next hnul hs ha, work_lt (delivery_step ha)⟩
  obtain ⟨owner, -, hflow⟩ := h.flowing
  refine ⟨?_, fun t => ⟨_, h.accounted t⟩, h.progress, h.complete, ?_, ?_⟩
  · exact ⟨_, by rw [hflow, List.append_assoc, List.append_assoc]⟩
  · exact ⟨s.1.work, fun _ hok => hok.length_le (μ := fun s => s.1.work) hlower h⟩
  · obtain ⟨h', hok, hend, hstuck⟩ := Machine.exists_stop (μ := fun s => s.1.work) hlower h
    exact ⟨h', hok, hend.complete hstuck⟩

theorem begin_logLock {r : BeginResults} (h : (begin r).vprintfSet = true) :
    (begin r).logLock = some true := by
  unfold begin at h ⊢
  split_ifs at h ⊢
  rfl

theorem delivering_boot {r : BeginResults} (hbegin : (begin r).vprintfSet = true)
    (calls : τ → List Formatted) : Delivering calls (delivery r calls).init :=
  ⟨held_boot r calls, wf_boot r calls, ⟨none, ⟨begin_logLock hbegin, fun _ => id⟩, rfl⟩,
    fun _ => rfl, nofun, ⟨0, fun _ _ => rfl⟩⟩

/-- After `Logger::begin` has succeeded, the lines printed are at every moment
the first ones of those to be printed, in the order in which their callers
acquired the lock; the tasks and the loop task never block one another; and
whatever the schedule, they come to rest after finitely many steps, with every
line printed. -/
theorem messages_delivered [Fintype τ] (r : BeginResults) (hbegin : (begin r).vprintfSet = true)
    (calls : τ → List Formatted) (hnul : ∀ t, ∀ msg ∈ calls t, msg.NulFree)
    (h : List (Action τ)) (hok : (delivery r calls).Along Blocking h) :
    Delivered r calls ((delivery r calls).after h) := by
  apply Delivering.delivered hnul
  exact hok.after_of_invariant (delivering_boot hbegin calls)
    fun _ _ hI ha => delivering_next hnul hI ha

/-- Two tasks log: one a text with a newline inside and two at the end, the
other the empty string and a text. The first has its message in the queue when
the other takes the lock. -/
def twoTexts : Bool → List Formatted
  | false => [.text ⟨[0x61, 0x0a, 0x62, 0x0d, 0x0a], by decide⟩]
  | true => [.text emptyText, .text hiText]

def twoTasks : List (Action Bool) :=
  [.enter false, .enter true, .take false, .vasprintf false 1, .post false true, .give false,
    .take true, .vasprintf true 2, .receive, .post true true, .handle, .give true, .puts,
    .enter true, .take true, .vasprintf true 3, .free, .post true true, .give true, .receive,
    .handle, .puts, .free]

theorem messages_delivered_twoTasks :
    Delivered allSucceed twoTexts ((delivery allSucceed twoTexts).after twoTasks) :=
  messages_delivered allSucceed (by decide) twoTexts (by decide) twoTasks (by decide)

end EspressifApp.Logger
