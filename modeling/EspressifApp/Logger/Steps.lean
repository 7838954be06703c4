import EspressifApp.Logger.Model

/-!
The steps of the logger, one by one. `Step` lists what can happen, each case
with what it requires and what it leaves; `step` takes no other steps
(`step_cases`). The invariants of the logger are proved from this list.
-/

namespace EspressifApp.Logger

open Reactive

variable {τ : Type*} [DecidableEq τ] {s s' : State τ} {a : Action τ} {es : List Effect}

def messageEvent (p : Ptr) : Event := ⟨.loggerEvent, postLogMessage, some p⟩

theorem posting_none (len : UInt32) : posting none len = none := rfl

theorem posting_some (p : Ptr) (len : UInt32) :
    posting (some p) len = if 0 < len then some (messageEvent p) else none := by
  by_cases hlen : 0 < len <;> simp [posting, log, messageEvent, hlen]

theorem len_pos_iff {len : UInt32} : 0 < len ↔ len ≠ 0 := by
  rw [UInt32.lt_iff_toNat_lt, Ne, ← UInt32.toNat_inj]
  exact Nat.pos_iff_ne_zero

/-- The steps that the logger takes. -/
inductive Step (s : State τ) : Action τ → State τ → List Effect → Prop
  | enterUnready (t msg calls) (ht : s.tasks t = ⟨.idle, msg :: calls⟩) (hlock : s.logLock = none) :
      Step s (.enter t) (s.setTask t .idle calls) [.returned 0]
  | enter (t msg calls) (ht : s.tasks t = ⟨.idle, msg :: calls⟩) (hlock : s.logLock ≠ none) :
      Step s (.enter t) (s.setTask t (.waiting msg) calls) []
  | take (t msg calls) (ht : s.tasks t = ⟨.waiting msg, calls⟩) (hlock : s.logLock = some true) :
      Step s (.take t) ({ s with logLock := some false }.setTask t (.holding msg) calls) []
  | format (t p text calls) (ht : s.tasks t = ⟨.holding (.text text), calls⟩)
      (hp : s.heap p = none) :
      Step s (.vasprintf t p)
        ({ s with heap := Function.update s.heap p (some (text.bytes ++ [0])) }.setTask t
          (.formatted (some p) (Formatted.text text).len) calls) [.alloc p]
  | formatFailed (t p calls) (ht : s.tasks t = ⟨.holding .failed, calls⟩) :
      Step s (.vasprintf t p) (s.setTask t (.formatted none Formatted.failed.len) calls) []
  | post (t p len calls) (ht : s.tasks t = ⟨.formatted (some p) len, calls⟩) (hlen : 0 < len)
      (hroom : s.queue.length < queueSize) :
      Step s (.post t true)
        ({ s with queue := s.queue ++ [messageEvent p] }.setTask t
          (.leaving (some p) len .posted) calls) []
  | postFailed (t p len calls) (ht : s.tasks t = ⟨.formatted (some p) len, calls⟩)
      (hlen : 0 < len) :
      Step s (.post t false) (s.setTask t (.leaving (some p) len .failed) calls) []
  | skip (t accepted p len calls) (ht : s.tasks t = ⟨.formatted p len, calls⟩)
      (hnone : p = none ∨ len = 0) :
      Step s (.post t accepted) (s.setTask t (.leaving p len .skipped) calls) []
  | give (t p len outcome calls) (ht : s.tasks t = ⟨.leaving p len outcome, calls⟩) :
      Step s (.give t) ({ s with logLock := some true }.setTask t .idle calls) [.returned len]
  | receive (event queue) (hidle : s.handler = .idle) (hqueue : s.queue = event :: queue) :
      Step s .receive { s with queue := queue, handler := .received event } []
  | handle (p) (hevent : s.handler = .received (messageEvent p)) :
      Step s .handle
        { s with
          heap := Function.update s.heap p (some (trim ((s.heap p).getD [])))
          handler := .trimmed p }
        [.access p]
  | handleOther (event) (hevent : s.handler = .received event)
      (hother : ∀ p, event ≠ messageEvent p) (es) : Step s .handle { s with handler := .idle } es
  | puts (p) (htrimmed : s.handler = .trimmed p) :
      Step s .puts { s with handler := .printed p } [.puts p (cstr ((s.heap p).getD []))]
  | free (p) (hprinted : s.handler = .printed p) :
      Step s .free { s with heap := Function.update s.heap p none, handler := .idle } [.free p]

theorem step_handle {event : Event} (hevent : s.handler = .received event) :
    Step s .handle (eventHandler s event).1 (eventHandler s event).2 := by
  obtain ⟨base, id, data⟩ := event
  cases data with
  | none =>
      have hother : ∀ p, (⟨base, id, none⟩ : Event) ≠ messageEvent p := fun p => nofun
      simp only [eventHandler]
      split_ifs <;> exact .handleOther _ hevent hother _
  | some p =>
      simp only [eventHandler]
      by_cases hbase : base = .loggerEvent
      · by_cases hid : id = postLogMessage
        · subst hbase hid
          rw [if_pos rfl, if_pos rfl]
          exact .handle p hevent
        · rw [if_pos hbase, if_neg hid]
          refine .handleOther _ hevent (fun q heq => hid ?_) _
          exact congrArg Event.id heq
      · rw [if_neg hbase]
        refine .handleOther _ hevent (fun q heq => hbase ?_) _
        exact congrArg Event.base heq

theorem step_cases (h : step s a = some (s', es)) : Step s a s' es := by
  cases a with
  | enter t =>
      simp only [step] at h
      split at h
      · rename_i msg calls ht
        split_ifs at h with hlock <;> cases h
        · exact .enterUnready t msg calls ht hlock
        · exact .enter t msg calls ht hlock
      · cases h
  | take t =>
      simp only [step] at h
      split at h
      · rename_i msg calls ht
        split_ifs at h with hlock
        cases h
        exact .take t msg calls ht hlock
      · cases h
  | vasprintf t p =>
      simp only [step] at h
      split at h
      · rename_i text calls ht
        split_ifs at h with hp
        cases h
        exact .format t p text calls ht hp
      · rename_i calls ht
        cases h
        exact .formatFailed t p calls ht
      · cases h
  | post t accepted =>
      simp only [step] at h
      split at h
      · rename_i logMessage len calls ht
        cases logMessage with
        | none =>
            rw [posting_none] at h
            cases h
            exact .skip t accepted none len calls ht (.inl rfl)
        | some p =>
            rw [posting_some] at h
            by_cases hlen : 0 < len
            · rw [if_pos hlen] at h
              dsimp only at h
              split_ifs at h with haccepted hroom <;> cases h
              · subst haccepted
                exact .post t p len calls ht hlen hroom
              · rw [Bool.not_eq_true] at haccepted
                subst haccepted
                exact .postFailed t p len calls ht hlen
            · -- `Logger::log` posts nothing for an empty message
              rw [if_neg hlen] at h
              cases h
              rw [len_pos_iff, not_not] at hlen
              exact .skip t accepted (some p) len calls ht (.inr hlen)
      · cases h
  | give t =>
      simp only [step] at h
      split at h
      · rename_i p len outcome calls ht
        cases h
        exact .give t p len outcome calls ht
      · cases h
  | receive =>
      simp only [step] at h
      split at h
      · rename_i event queue hidle hqueue
        cases h
        exact .receive event queue hidle hqueue
      · cases h
  | handle =>
      simp only [step] at h
      split at h
      · rename_i event hevent
        have hhandled := step_handle hevent
        rwa [Option.some.inj h] at hhandled
      · cases h
  | puts =>
      simp only [step] at h
      split at h
      · rename_i p htrimmed
        cases h
        exact .puts p htrimmed
      · cases h
  | free =>
      simp only [step] at h
      split at h
      · rename_i p hprinted
        cases h
        exact .free p hprinted
      · cases h

/-- The rule for an invariant of the logger: an enabled action takes one of the
steps. -/
theorem logger_step {r : BeginResults} {calls : τ → List Formatted} (h : Enabled s a) :
    Step s a ((logger r calls).next s a) ((logger r calls).out s a) := by
  obtain ⟨⟨s', es⟩, hstep⟩ := Option.ne_none_iff_exists'.mp h
  simp only [logger, hstep, Option.elim_some]
  exact step_cases hstep

end EspressifApp.Logger
