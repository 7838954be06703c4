import EspressifApp.LedStrip.Display
import EspressifApp.Pilot.Model

/-!
The pilot light on a NeoPixel: the thread of `PilotLight.cpp` over the LED strip
it drives. What the LED shows depends on nothing but how many turns the thread
has taken (`pilotStrip_leds`): not on the commands that come in between, and not
on how the RMT driver cuts up its memory.
-/

namespace EspressifApp.Pilot

open Reactive LedStrip

section

variable {σ κ : Type*} (B : Encoder σ (List UInt8) Symbol) (C : Encoder κ Symbol Symbol)
  (e : LedEncoder σ κ) (leds : List Colour)

/-- A call of the thread, done by the strip. The strip is `none` before it is
created. -/
def perform (rmt : Rmt) (s : Option (StripState σ κ)) : PilotCall → Option (StripState σ κ)
  | .ledStripNewRmtDevice _ maxLeds => some ⟨.new (UInt32.ofNat maxLeds), e, leds⟩
  | .ledStripClear => s.bind fun s => (s.call B C (.clear rmt)).map Prod.fst
  | .ledStripSetPixel index red green blue =>
      s.bind fun s => (s.call B C (.setPixel (UInt32.ofNat index) (UInt32.ofNat red)
        (UInt32.ofNat green) (UInt32.ofNat blue))).map Prod.fst
  | .ledStripRefresh => s.bind fun s => (s.call B C (.refresh rmt)).map Prod.fst
  | _ => s

/-- The light and its strip; with each input comes how the RMT driver does the
transmission in it, if there is one. -/
def pilotStrip (cfg : Config) :
    Machine ((PilotLight × Phase) × Option (StripState σ κ)) (PilotInput × Rmt) PilotCall where
  init := ((pilot cfg).init, none)
  next s i :=
    ((pilot cfg).next s.1 i.1, ((pilot cfg).out s.1 i.1).foldl (perform B C e leds i.2) s.2)
  out s i := (pilot cfg).out s.1 i.1

end

def pilotColour : Colour := ⟨5, 6, 5⟩

def turns (h : List (PilotInput × Rmt)) : ℕ := h.countP fun i => i.1 = .turn

/-- What the LED shows after so many turns: the first turn creates the strip,
then they alternate. -/
def shownAfter (leds : List Colour) (n : ℕ) : List Colour :=
  if n ≤ 1 then leds else if n % 2 = 0 then [dark] else [pilotColour]

section

variable {σ κ : Type*} {B : Encoder σ (List UInt8) Symbol} {C : Encoder κ Symbol Symbol}
  {readyB : σ → Prop} {readyC : κ → Prop} {midwayB : σ → List UInt8 → List Symbol → Prop}
  {midwayC : κ → Symbol → List Symbol → Prop} {e : LedEncoder σ κ} {leds : List Colour}
  {cfg : Config}

structure Blinking (readyB : σ → Prop) (readyC : κ → Prop) (leds : List Colour) (n : ℕ)
    (s : (PilotLight × Phase) × Option (StripState σ κ)) : Prop where
  phase : s.1.2 = if n = 0 then .start else if n % 2 = 1 then .dark else .lit
  strip : 0 < n → ∃ st p, s.2 = some st ∧ Agrees 1 readyB readyC st p ∧ p.leds = shownAfter leds n

/-- A transmission that the driver takes and has memory for. -/
def Rmt.Sends (rmt : Rmt) : Prop := rmt.transmit = espOk ∧ 25 ≤ rmt.memory.sum

theorem agrees_clear (hB : B.Resumes (·.flatMap byteSymbols) readyB midwayB)
    (hC : C.Resumes (fun r => [r]) readyC midwayC) {st : StripState σ κ} {p : Panel}
    (h : Agrees 1 readyB readyC st p) {rmt : Rmt} (hrmt : Rmt.Sends rmt) (ticks : UInt32) :
    ∃ st' p', [.ledStripClear, .delay ticks].foldl (perform B C e leds rmt) (some st) = some st' ∧
      Agrees 1 readyB readyC st' p' ∧ p'.leds = [dark] := by
  obtain ⟨st', hcall, hagrees⟩ := h.clear hB hC
    (show StripCall.Enough 1 (.clear rmt) from fun _ => hrmt.2)
  refine ⟨st', _, ?_, hagrees, ?_⟩
  · simp only [List.foldl, perform, Option.bind_some, hcall, Option.map_some]
  · simp only [Panel.call, if_pos hrmt.1, h.frame_length]
    rfl

theorem agrees_light (hB : B.Resumes (·.flatMap byteSymbols) readyB midwayB)
    (hC : C.Resumes (fun r => [r]) readyC midwayC) {st : StripState σ κ} {p : Panel}
    (h : Agrees 1 readyB readyC st p) {rmt : Rmt} (hrmt : Rmt.Sends rmt) (ticks : UInt32) :
    ∃ st' p', [.ledStripSetPixel 0 5 6 5, .ledStripRefresh, .delay ticks].foldl
        (perform B C e leds rmt) (some st) = some st' ∧
      Agrees 1 readyB readyC st' p' ∧ p'.leds = [pilotColour] := by
  obtain ⟨st₁, hset, hagrees₁⟩ := h.setPixel (B := B) (C := C) 0 5 6 5
  obtain ⟨st', hcall, hagrees⟩ := hagrees₁.refresh hB hC
    (show StripCall.Enough 1 (.refresh rmt) from fun _ => hrmt.2)
  refine ⟨st', _, ?_, hagrees, ?_⟩
  · simp only [List.foldl, perform, Option.bind_some]
    rw [show UInt32.ofNat 0 = 0 from rfl, show UInt32.ofNat 5 = 5 from rfl,
      show UInt32.ofNat 6 = 6 from rfl, hset, Option.map_some, Option.bind_some, hcall,
      Option.map_some]
  · have hlen : p.frame.length = 1 := h.frame_length
    obtain ⟨c, hc⟩ := List.length_eq_one_iff.mp hlen
    simp only [Panel.call, if_pos hrmt.1, hc]
    rfl

theorem perform_cmdPilot (rmt : Rmt) (argv : List Stdlib.CString) (l : PilotLight)
    (s : Option (StripState σ κ)) :
    (cmdPilot cfg argv l).2.foldl (perform B C e leds rmt) s = s := by
  unfold cmdPilot
  split
  · dsimp only
    split <;> rfl
  · rfl

/-- One turn of the thread. -/
theorem Blinking.turn (hB : B.Resumes (·.flatMap byteSymbols) readyB midwayB)
    (hC : C.Resumes (fun r => [r]) readyC midwayC) (he : e.Ready readyB readyC resetCode)
    (hleds : leds.length = 1) (hcfg : cfg.isNeopixel = true)
    {n : ℕ} {s : (PilotLight × Phase) × Option (StripState σ κ)}
    (hs : Blinking readyB readyC leds n s) {rmt : Rmt} (hrmt : Rmt.Sends rmt) :
    Blinking readyB readyC leds (n + 1) ((pilotStrip B C e leds cfg).next s (.turn, rmt)) := by
  obtain ⟨⟨l, phase⟩, strip⟩ := s
  obtain ⟨hphase, hstrip⟩ := hs
  dsimp only at hphase hstrip
  subst hphase
  -- the first turn creates the strip; then one half of the loop follows the other
  by_cases hzero : n = 0
  · subst hzero
    refine ⟨rfl, fun _ => ?_⟩
    refine ⟨_, _, ?_, Agrees.new (by unfold Fits; decide) he hleds, rfl⟩
    simp [pilotStrip, pilot, Pilot.turn, setUp, hcfg, perform]
  · obtain ⟨st, p, rfl, hagrees, hshown⟩ := hstrip (by omega)
    by_cases hodd : n % 2 = 1
    · have hnext : (n + 1) % 2 = 0 := by omega
      obtain ⟨st', p', hfold, hagrees', hleds'⟩ :=
        agrees_clear (e := e) hB hC hagrees hrmt l.offTime
      refine ⟨?_, fun _ => ⟨st', p', ?_, hagrees', ?_⟩⟩
      · simp [pilotStrip, pilot, Pilot.turn, hzero, hodd, hnext]
      · simp only [pilotStrip, pilot, Pilot.turn, hzero, hodd, hcfg, if_true, if_false]
        exact hfold
      · rw [hleds', shownAfter, if_neg (by omega), if_pos hnext]
    · have hnext : (n + 1) % 2 = 1 := by omega
      obtain ⟨st', p', hfold, hagrees', hleds'⟩ :=
        agrees_light (e := e) hB hC hagrees hrmt l.onTime
      refine ⟨?_, fun _ => ⟨st', p', ?_, hagrees', ?_⟩⟩
      · simp [pilotStrip, pilot, Pilot.turn, hzero, hodd, hnext]
      · simp only [pilotStrip, pilot, Pilot.turn, hzero, hodd, hcfg, if_true, if_false]
        exact hfold
      · rw [hleds', shownAfter, if_neg (by omega), if_neg (by omega)]

theorem Blinking.command {n : ℕ} {s : (PilotLight × Phase) × Option (StripState σ κ)}
    (hs : Blinking readyB readyC leds n s) (argv : List Stdlib.CString) (rmt : Rmt) :
    Blinking readyB readyC leds n ((pilotStrip B C e leds cfg).next s (.command argv, rmt)) := by
  refine ⟨hs.phase, ?_⟩
  show 0 < n → ∃ st p, (cmdPilot cfg argv s.1.1).2.foldl (perform B C e leds rmt) s.2 = some st ∧ _
  rw [perform_cmdPilot]
  exact hs.strip

/-- After any commands and `n` turns, in any order, the LED shows what `n` says. -/
theorem pilotStrip_leds (hB : B.Resumes (·.flatMap byteSymbols) readyB midwayB)
    (hC : C.Resumes (fun r => [r]) readyC midwayC) (he : e.Ready readyB readyC resetCode)
    (hleds : leds.length = 1) (hcfg : cfg.isNeopixel = true) (h : List (PilotInput × Rmt))
    (hrmt : ∀ i ∈ h, Rmt.Sends i.2) (hturns : 0 < turns h) :
    ∃ st, ((pilotStrip B C e leds cfg).after h).2 = some st ∧
      st.leds = shownAfter leds (turns h) := by
  have hblinking : Blinking readyB readyC leds (turns h) ((pilotStrip B C e leds cfg).after h) := by
    clear hturns
    induction h using List.reverseRecOn with
    | nil => exact ⟨rfl, fun hpos => absurd hpos (lt_irrefl 0)⟩
    | append_singleton h i ih =>
        have hs := ih fun j hj => hrmt j (List.mem_append_left _ hj)
        have hi := hrmt i (by simp)
        rw [Machine.after_concat]
        obtain ⟨input, rmt⟩ := i
        cases input with
        | command argv =>
            have hsame : turns (h ++ [(.command argv, rmt)]) = turns h := by simp [turns]
            rw [hsame]
            exact hs.command argv rmt
        | turn =>
            have hmore : turns (h ++ [(.turn, rmt)]) = turns h + 1 := by simp [turns]
            rw [hmore]
            exact hs.turn hB hC he hleds hcfg hi
  obtain ⟨st, p, hst, hagrees, hshown⟩ := hblinking.strip hturns
  exact ⟨st, hst, hagrees.leds.trans hshown⟩

end

/-- Three turns, with memory for ten symbols at a time, and `pilot 20 30` before
the last one. -/
def threeTurns : List (PilotInput × Rmt) :=
  [.turn, .turn, .command [[0x70, 0x69, 0x6c, 0x6f, 0x74], [0x32, 0x30], [0x33, 0x30]], .turn].map
    fun i => (i, ⟨espOk, [10, 10, 10], espOk⟩)

theorem pilotStrip_leds_three :
    ∃ st, ((pilotStrip (.positional (·.flatMap byteSymbols)) (.positional fun r => [r])
        ⟨0, 0, 0, resetCode⟩ [dark] ⟨1000, 8, true, 100, 900⟩).after threeTurns).2 = some st ∧
      st.leds = [pilotColour] :=
  pilotStrip_leds (Encoder.positional_resumes _) (Encoder.positional_resumes _)
    ⟨rfl, rfl, rfl, rfl⟩ rfl rfl threeTurns (by simp [threeTurns, Rmt.Sends]) (by decide)

end EspressifApp.Pilot
