import Mathlib.Data.List.Induction

/-!
Reactive machines.

A component driven from outside, by callbacks, commands or a scheduler, is
determined by the inputs it has received: they fix the state it is in and the
outputs it has produced. `Machine` is that and nothing more. A *history* is the
list of inputs, oldest first; `after` is the state it leads to and `traceFrom`
the outputs produced on the way.

What the environment may do, what a specification asks of a step, and the
condition under which it holds are all the same kind of object: a predicate on a
state and the input that arrives in it. `Along P h` says that `P` holds at every
step of the history `h`. A theorem about every run then has the shape
`Along ok h → Along P h`, and is proved from an invariant by
`Along.of_invariant`; an exact condition has the shape
`Along ok h → (Along P h ↔ Along C h)` and is proved by
`along_iff_of_invariant`, which asks for the equivalence one step at a time.

A *monitor* is ghost state beside a machine: what the environment remembers of
the exchange, and what a specification remembers of the past. It never feeds
back into the machine (`monitor_after_fst`).
-/

namespace EspressifApp.Reactive

/-- A deterministic component: every input moves it and makes it produce
outputs. -/
structure Machine (σ ι ο : Type*) where
  init : σ
  next : σ → ι → σ
  out : σ → ι → List ο

namespace Machine

variable {σ ι ο ε κ : Type*} (M : Machine σ ι ο)

/-! ### Histories -/

/-- The state after a history of inputs. -/
def after (h : List ι) : σ := h.foldl M.next M.init

@[simp] theorem after_nil : M.after [] = M.init := rfl

@[simp] theorem after_concat (h : List ι) (i : ι) :
    M.after (h ++ [i]) = M.next (M.after h) i := by
  simp [after]

def traceFrom : σ → List ι → List ο
  | _, [] => []
  | s, i :: h => M.out s i ++ traceFrom (M.next s i) h

/-! ### Properties of every step -/

/-- `P` holds at every step taken from a state on. -/
def AlongFrom (P : σ → ι → Prop) : σ → List ι → Prop
  | _, [] => True
  | s, i :: h => P s i ∧ AlongFrom P (M.next s i) h

/-- `P` holds at every step of a history: of each input, in the state it
arrives in. -/
def Along (P : σ → ι → Prop) (h : List ι) : Prop := M.AlongFrom P M.init h

/-- `P` holds in every state a history passes through, its last one included. -/
def Throughout (P : σ → Prop) (h : List ι) : Prop :=
  P M.init ∧ M.Along (fun s i => P (M.next s i)) h

instance decidableAlongFrom (P : σ → ι → Prop) [∀ s i, Decidable (P s i)] :
    ∀ s h, Decidable (M.AlongFrom P s h)
  | _, [] => instDecidableTrue
  | s, i :: h =>
      haveI := decidableAlongFrom P (M.next s i) h
      inferInstanceAs (Decidable (P s i ∧ M.AlongFrom P (M.next s i) h))

instance (P : σ → ι → Prop) [∀ s i, Decidable (P s i)] (h : List ι) :
    Decidable (M.Along P h) :=
  M.decidableAlongFrom P M.init h

variable {M} {P Q ok C : σ → ι → Prop} {I : σ → Prop} {h : List ι} {i : ι}

@[simp] theorem along_nil : M.Along P [] := trivial

theorem alongFrom_concat (s : σ) :
    M.AlongFrom P s (h ++ [i]) ↔ M.AlongFrom P s h ∧ P (h.foldl M.next s) i := by
  induction h generalizing s with
  | nil => simp [AlongFrom]
  | cons j h ih => simp [AlongFrom, ih, and_assoc]

@[simp] theorem along_concat : M.Along P (h ++ [i]) ↔ M.Along P h ∧ P (M.after h) i :=
  alongFrom_concat M.init

theorem along_and : M.Along (fun s i => P s i ∧ Q s i) h ↔ M.Along P h ∧ M.Along Q h := by
  induction h using List.reverseRecOn with
  | nil => simp
  | append_singleton h i ih =>
      simp only [along_concat, ih]
      tauto

theorem along_of_forall {may : ι → Prop} (hmay : ∀ i ∈ h, may i) :
    M.Along (fun _ i => may i) h := by
  induction h using List.reverseRecOn with
  | nil => trivial
  | append_singleton h i ih =>
      rw [along_concat]
      exact ⟨ih fun j hj => hmay j (List.mem_append_left _ hj), hmay i (by simp)⟩

/-! ### Rules -/

/-- The invariant rule: what holds initially and is kept by every permitted
step holds after every permitted history. -/
theorem Along.after_of_invariant (h₀ : I M.init)
    (hkeep : ∀ s i, I s → ok s i → I (M.next s i)) (hok : M.Along ok h) : I (M.after h) := by
  induction h using List.reverseRecOn with
  | nil => exact h₀
  | append_singleton h i ih =>
      rw [along_concat] at hok
      rw [after_concat]
      exact hkeep _ _ (ih hok.1) hok.2

/-- The invariant rule where every step is permitted. -/
theorem after_of_invariant (h₀ : I M.init) (hkeep : ∀ s i, I s → I (M.next s i))
    (h : List ι) : I (M.after h) := by
  induction h using List.reverseRecOn with
  | nil => exact h₀
  | append_singleton h i ih =>
      rw [after_concat]
      exact hkeep _ _ ih

theorem traceFrom_concat (M : Machine σ ι ο) (s : σ) (h : List ι) (i : ι) :
    M.traceFrom s (h ++ [i]) = M.traceFrom s h ++ M.out (h.foldl M.next s) i := by
  induction h generalizing s with
  | nil => simp [traceFrom]
  | cons j h ih => simp [traceFrom, ih]

/-- The invariant rule for the state and the outputs so far. -/
theorem Along.trace_of_invariant {J : σ → List ο → Prop} (h₀ : J M.init [])
    (hkeep : ∀ s t i, J s t → ok s i → J (M.next s i) (t ++ M.out s i)) (hok : M.Along ok h) :
    J (M.after h) (M.traceFrom M.init h) := by
  induction h using List.reverseRecOn with
  | nil => exact h₀
  | append_singleton h i ih =>
      rw [along_concat] at hok
      rw [after_concat, traceFrom_concat]
      exact hkeep _ _ _ (ih hok.1) hok.2

/-- The step rule: under an invariant, a property that every permitted step has
holds along every permitted history. -/
theorem Along.of_invariant (h₀ : I M.init)
    (hkeep : ∀ s i, I s → ok s i → I (M.next s i))
    (hP : ∀ s i, I s → ok s i → P s i) (hok : M.Along ok h) : M.Along P h := by
  induction h using List.reverseRecOn with
  | nil => trivial
  | append_singleton h i ih =>
      rw [along_concat] at hok ⊢
      exact ⟨ih hok.1, hP _ _ (hok.1.after_of_invariant h₀ hkeep) hok.2⟩

/-- The rule for an exact condition. The invariant need only survive the steps
that meet the condition: on a history that breaks it, the first step to do so
is reached through steps that meet it, and is where the property fails too. -/
theorem along_iff_of_invariant (h₀ : I M.init)
    (hkeep : ∀ s i, I s → ok s i → C s i → I (M.next s i))
    (hiff : ∀ s i, I s → ok s i → (P s i ↔ C s i)) (hok : M.Along ok h) :
    M.Along P h ↔ M.Along C h := by
  induction h using List.reverseRecOn with
  | nil => simp
  | append_singleton h i ih =>
      rw [along_concat] at hok
      rw [along_concat, along_concat, ih hok.1]
      refine and_congr_right fun hC => hiff _ _ ?_ hok.2
      exact (along_and.mpr ⟨hok.1, hC⟩).after_of_invariant h₀
        fun s i hI hs => hkeep s i hI hs.1 hs.2

theorem Throughout.after (hP : M.Throughout I h) : I (M.after h) := by
  induction h using List.reverseRecOn with
  | nil => exact hP.1
  | append_singleton h i _ =>
      have hlast := (along_concat.mp hP.2).2
      rwa [after_concat]

/-- The rule for reaching rest: where some permitted input always lowers a
measure, every history can be continued by permitted inputs until there is
nothing left to do. -/
theorem exists_rest (rest : σ → Prop) (may : ι → Prop) (μ : σ → ℕ)
    (hlower : ∀ h, ¬ rest (M.after h) → ∃ i, may i ∧ μ (M.after (h ++ [i])) < μ (M.after h))
    (h : List ι) : ∃ h', (∀ i ∈ h', may i) ∧ rest (M.after (h ++ h')) := by
  induction hn : μ (M.after h) using Nat.strongRecOn generalizing h with
  | ind n ih =>
      by_cases hrest : rest (M.after h)
      · exact ⟨[], by simp, by rwa [List.append_nil]⟩
      · obtain ⟨i, hi, hlt⟩ := hlower h hrest
        obtain ⟨h', hmay, hend⟩ := ih _ (hn ▸ hlt) (h ++ [i]) rfl
        refine ⟨i :: h', ?_, ?_⟩
        · simpa using ⟨hi, hmay⟩
        · rwa [List.append_cons]

/-- Permitted steps that lower a measure are no more than it says. -/
theorem AlongFrom.length_le {μ : σ → ℕ}
    (hlower : ∀ s i, I s → ok s i → I (M.next s i) ∧ μ (M.next s i) < μ s) {s : σ} (hI : I s)
    (hok : M.AlongFrom ok s h) : h.length ≤ μ s := by
  induction h generalizing s with
  | nil => exact Nat.zero_le _
  | cons i h ih =>
      obtain ⟨hI', hlt⟩ := hlower s i hI hok.1
      have hle := ih hI' hok.2
      rw [List.length_cons]
      omega

/-- The rule for coming to a stop: where permitted steps lower a measure, they
lead from any state to one in which none is left. -/
theorem exists_stop {μ : σ → ℕ}
    (hlower : ∀ s i, I s → ok s i → I (M.next s i) ∧ μ (M.next s i) < μ s) {s : σ} (hI : I s) :
    ∃ h, M.AlongFrom ok s h ∧ I (h.foldl M.next s) ∧ ¬ ∃ i, ok (h.foldl M.next s) i := by
  induction hn : μ s using Nat.strongRecOn generalizing s with
  | ind n ih =>
      by_cases hmore : ∃ i, ok s i
      · obtain ⟨i, hi⟩ := hmore
        obtain ⟨hI', hlt⟩ := hlower s i hI hi
        obtain ⟨h, hok, hend⟩ := ih _ (hn ▸ hlt) hI' rfl
        exact ⟨i :: h, ⟨hi, hok⟩, hend⟩
      · exact ⟨[], trivial, hI, hmore⟩

/-! ### Two runs -/

/-- What an observer sees of a machine: something of its state, and some of its
outputs. -/
structure Observer (σ ο α : Type*) where
  view : σ → α
  sees : ο → Bool

/-- The unwinding rule: if steps from states that look alike look alike, then
so do whole runs. -/
theorem runs_agree {α : Type*} (obs : Observer σ ο α)
    (hstep : ∀ s s' i, obs.view s = obs.view s' →
      obs.view (M.next s i) = obs.view (M.next s' i) ∧
        (M.out s i).filter obs.sees = (M.out s' i).filter obs.sees)
    (h : List ι) (s s' : σ) (hview : obs.view s = obs.view s') :
    obs.view (h.foldl M.next s) = obs.view (h.foldl M.next s') ∧
      (M.traceFrom s h).filter obs.sees = (M.traceFrom s' h).filter obs.sees := by
  induction h generalizing s s' with
  | nil => exact ⟨hview, rfl⟩
  | cons i h ih =>
      obtain ⟨hnext, hout⟩ := hstep s s' i hview
      obtain ⟨hend, htrace⟩ := ih (M.next s i) (M.next s' i) hnext
      refine ⟨hend, ?_⟩
      rw [traceFrom, traceFrom, List.filter_append, List.filter_append, hout, htrace]

/-- The simulation rule: from related states, inputs that are permitted in the
state of the second machine produce the same outputs and lead to related states. -/
theorem simulation {σ' : Type*} {N : Machine σ' ι ο} {R : σ → σ' → Prop} {may : σ' → ι → Prop}
    (h₀ : R M.init N.init)
    (hstep : ∀ s s' i, R s s' → may s' i → M.out s i = N.out s' i ∧ R (M.next s i) (N.next s' i))
    (h : List ι) (hmay : N.Along may h) :
    R (M.after h) (N.after h) ∧ M.traceFrom M.init h = N.traceFrom N.init h := by
  have hfrom : ∀ s s', R s s' → N.AlongFrom may s' h →
      R (h.foldl M.next s) (h.foldl N.next s') ∧ M.traceFrom s h = N.traceFrom s' h := by
    clear hmay
    induction h with
    | nil => exact fun s s' hR _ => ⟨hR, rfl⟩
    | cons i h ih =>
        intro s s' hR hmay
        obtain ⟨hout, hnext⟩ := hstep s s' i hR hmay.1
        obtain ⟨hend, htrace⟩ := ih _ _ hnext hmay.2
        exact ⟨hend, by rw [traceFrom, traceFrom, hout, htrace]⟩
  exact hfrom M.init N.init h₀ hmay

/-! ### Monitors and silent steps -/

variable (M)

/-- A machine with ghost state beside it, which sees every state and input. -/
def monitor (e₀ : ε) (watch : ε → σ → ι → ε) : Machine (σ × ε) ι ο where
  init := (M.init, e₀)
  next s i := (M.next s.1 i, watch s.2 s.1 i)
  out s i := M.out s.1 i

/-- A machine driven by a richer alphabet. A letter carries what the environment
knows of an input and the machine is not told; one that carries no input is a
step of the environment alone. -/
def via (f : κ → Option ι) : Machine σ κ ο where
  init := M.init
  next s k := (f k).elim s (M.next s)
  out s k := (f k).elim [] (M.out s)

theorem monitor_after_fst (e₀ : ε) (watch : ε → σ → ι → ε) (h : List ι) :
    ((M.monitor e₀ watch).after h).1 = M.after h := by
  induction h using List.reverseRecOn with
  | nil => rfl
  | append_singleton h i ih => rw [after_concat, after_concat, ← ih]; rfl

theorem via_after (f : κ → Option ι) (h : List κ) :
    (M.via f).after h = M.after (h.filterMap f) := by
  induction h using List.reverseRecOn with
  | nil => rfl
  | append_singleton h k ih =>
      rw [after_concat, List.filterMap_append, ih]
      cases hk : f k with
      | none => simp [via, hk]
      | some i => simp [via, hk]

end Machine

end EspressifApp.Reactive
