import EspressifApp.Bluetooth.Battery
import EspressifApp.Pilot.Times

/-!
Numbers given at the console. `battery` and `pilot` read their arguments with
`strtol` and look at nothing but the value it returns. Here is which argument
vectors are nevertheless treated as they should be: acted on when every argument
is a number in range, from its beginning to its end, and ignored otherwise.
-/

namespace EspressifApp.Commands

open Bluetooth Pilot Stdlib

/-! ### Commands that take numbers -/

section Validation

variable {σ ο α : Type*}

/-- A command validates an argument vector: in every state it does what the
vector means, and nothing if it means nothing. -/
structure Validates (run : List CString → σ → σ × List ο) (means : List CString → α → Prop)
    (act : α → σ → σ × List ο) (argv : List CString) : Prop where
  accepted : ∀ a, means argv a → ∀ s, run argv s = act a s
  rejected : (∀ a, ¬ means argv a) → ∀ s, run argv s = (s, [])

/-- A command that accepts what is meant, and acts on all it accepts, validates
exactly the vectors it does not accept without their meaning it. -/
theorem validates_iff_of_accepts {run : List CString → σ → σ × List ο}
    {means accepts : List CString → α → Prop} {act : α → σ → σ × List ο} {argv : List CString}
    (haccept : ∀ a, accepts argv a → ∀ s, run argv s = act a s)
    (hreject : (∀ a, ¬ accepts argv a) → ∀ s, run argv s = (s, []))
    (hmeans : ∀ a, means argv a → accepts argv a)
    (hunique : ∀ a b, accepts argv a → accepts argv b → a = b)
    (hacts : ∀ a, accepts argv a → ∃ s, act a s ≠ (s, [])) :
    Validates run means act argv ↔ ∀ a, accepts argv a → means argv a := by
  constructor
  · intro h a ha
    by_contra hnot
    obtain ⟨s, hs⟩ := hacts a ha
    apply hs
    rw [← haccept a ha s]
    apply h.rejected
    intro b hb
    rw [hunique a b ha (hmeans b hb)] at hnot
    exact hnot hb
  · intro h
    exact ⟨fun a ha => haccept a (hmeans a ha),
      fun hnone => hreject fun a ha => hnone a (h a ha)⟩

end Validation

/-! ### The battery command -/

/-- `cmd_batt`: what it does to the battery service, and what it prints or
logs. -/
def cmdBatt (argv : List CString) (d : Device) : (Device × List StackCall) × List String :=
  match argv with
  | [_] => ((d, []), ["current battery level is " ++ toString d.battLevel.toNat ++ "\n"])
  | [_, arg1] =>
      let level := (strtol arg1).1
      if level ≥ 0 ∧ level ≤ 100 then (battSetBatteryLevel (UInt8.ofInt level) d, [])
      else ((d, []), ["level must be in range 0-100"])
  | _ => ((d, []), [])

def BattAccepts (argv : List CString) (level : UInt8) : Prop :=
  ∃ name arg1, argv = [name, arg1] ∧ (strtol arg1).1 = level.toNat ∧ level.toNat ≤ 100

def BattMeans (argv : List CString) (level : UInt8) : Prop :=
  ∃ name arg1, argv = [name, arg1] ∧ Spells arg1 level.toNat ∧ level.toNat ≤ 100

def BattValidates (argv : List CString) : Prop :=
  Validates (fun argv d => (cmdBatt argv d).1) BattMeans battSetBatteryLevel argv

/-- An argument, if it is the only one, is a number in full or begins with one
that is out of range. -/
def BattHarmless (argv : List CString) : Prop :=
  ∀ name arg1, argv = [name, arg1] →
    (∃ value, Spells arg1 value) ∨ leadingNumber arg1 < 0 ∨ 100 < leadingNumber arg1

theorem toNat_ofInt_level {level : ℤ} (h : level ≥ 0 ∧ level ≤ 100) :
    ((UInt8.ofInt level).toNat : ℤ) = level := by
  rw [UInt8.ofInt, UInt8.toNat_ofNat']
  omega

theorem cmdBatt_of_accepts {argv : List CString} {level : UInt8} (h : BattAccepts argv level)
    (d : Device) : (cmdBatt argv d).1 = battSetBatteryLevel level d := by
  obtain ⟨name, arg1, rfl, hlevel, hle⟩ := h
  have hrange : (strtol arg1).1 ≥ 0 ∧ (strtol arg1).1 ≤ 100 := by omega
  have hof : UInt8.ofInt (strtol arg1).1 = level := by
    rw [← UInt8.toNat_inj, ← Int.natCast_inj, toNat_ofInt_level hrange, hlevel]
  simp only [cmdBatt, if_pos hrange, hof]

theorem cmdBatt_of_not_accepts {argv : List CString} (h : ∀ level, ¬ BattAccepts argv level)
    (d : Device) : (cmdBatt argv d).1 = (d, []) := by
  unfold cmdBatt
  split
  · rfl
  · rename_i name arg1
    dsimp only
    split_ifs with hrange
    · have hof := toNat_ofInt_level hrange
      exact absurd ⟨name, arg1, rfl, hof.symm, by omega⟩ (h (UInt8.ofInt (strtol arg1).1))
    · rfl
  · rfl

theorem battSetBatteryLevel_acts {level : UInt8} (hle : level.toNat ≤ 100) (d : Device) :
    battSetBatteryLevel level d ≠ (d, []) := by
  have hlevel : level ≤ 100 := UInt8.le_iff_toNat_le.mpr hle
  simp [battSetBatteryLevel, hlevel]

theorem battAccepts_of_means {argv : List CString} {level : UInt8} (h : BattMeans argv level) :
    BattAccepts argv level := by
  obtain ⟨name, arg1, rfl, hspells, hle⟩ := h
  exact ⟨name, arg1, rfl,
    strtol_of_spells hspells (by rw [longMin]; omega) (by rw [longMax]; omega), hle⟩

theorem BattAccepts.unique {argv : List CString} {level level' : UInt8}
    (h : BattAccepts argv level) (h' : BattAccepts argv level') : level = level' := by
  obtain ⟨name, arg1, rfl, hlevel, -⟩ := h
  obtain ⟨name', arg1', hargv, hlevel', -⟩ := h'
  cases hargv
  exact UInt8.toNat_inj.mp (by omega)

/-- The level accepted is meant, unless the argument only begins with it. -/
theorem battHarmless_iff (argv : List CString) :
    (∀ level, BattAccepts argv level → BattMeans argv level) ↔ BattHarmless argv := by
  constructor
  · rintro h name arg1 rfl
    by_contra hnot
    simp only [not_or, not_lt, not_exists] at hnot
    obtain ⟨hspells, hlow, hhigh⟩ := hnot
    have hof := toNat_ofInt_level ⟨hlow, hhigh⟩
    have hvalue : (strtol arg1).1 = (UInt8.ofInt (leadingNumber arg1)).toNat := by
      rw [hof, strtol_fst, longMin, longMax]
      omega
    obtain ⟨name', arg1', hargv, hmeans, -⟩ := h _ ⟨name, arg1, rfl, hvalue, by omega⟩
    cases hargv
    exact hspells _ hmeans
  · rintro h level ⟨name, arg1, rfl, hlevel, hle⟩
    rw [strtol_fst, longMin, longMax] at hlevel
    have hnumber : leadingNumber arg1 = level.toNat := by omega
    rcases h name arg1 rfl with ⟨value, hvalue⟩ | hout | hout
    · rw [← hvalue.leadingNumber_eq, hnumber] at hvalue
      exact ⟨name, arg1, rfl, hvalue, hle⟩
    · omega
    · omega

theorem battValidates_iff (argv : List CString) : BattValidates argv ↔ BattHarmless argv := by
  rw [BattValidates, ← battHarmless_iff]
  apply validates_iff_of_accepts
  · exact fun _ h => cmdBatt_of_accepts h
  · exact cmdBatt_of_not_accepts
  · exact fun _ h => battAccepts_of_means h
  · exact fun _ _ h h' => h.unique h'
  · rintro level ⟨-, -, -, -, hle⟩
    exact ⟨Device.boot, battSetBatteryLevel_acts hle _⟩

/-! ### The pilot command -/

def timesSet (calls : List PilotCall) : List (UInt32 × UInt32) :=
  calls.filterMap fun
    | .setOnOffTime onTime offTime => some (onTime, offTime)
    | _ => none

def runPilot (cfg : Config) (argv : List CString) (l : PilotLight) :
    PilotLight × List (UInt32 × UInt32) :=
  ((cmdPilot cfg argv l).1, timesSet (cmdPilot cfg argv l).2)

def setTimes (cfg : Config) (times : UInt32 × UInt32) (l : PilotLight) :
    PilotLight × List (UInt32 × UInt32) :=
  (l.setOnOffTime cfg times.1 times.2, [times])

/-- The arguments are these times, in full, and a `long` holds them. -/
def PilotMeans (argv : List CString) (times : UInt32 × UInt32) : Prop :=
  ∃ name arg1 arg2, argv = [name, arg1, arg2] ∧
    Spells arg1 times.1.toNat ∧ Spells arg2 times.2.toNat ∧
    1 ≤ times.1.toNat ∧ times.1.toNat ≤ longMax ∧ 1 ≤ times.2.toNat ∧ times.2.toNat ≤ longMax

def PilotValidates (cfg : Config) (argv : List CString) : Prop :=
  Validates (runPilot cfg) PilotMeans (setTimes cfg) argv

/-- Of two arguments, both are numbers in full and a `long` holds them, or one
begins with no number or with one below 1. -/
def PilotHarmless (argv : List CString) : Prop :=
  ∀ name arg1 arg2, argv = [name, arg1, arg2] →
    ((∃ on ≤ longMax, Spells arg1 on) ∧ ∃ off ≤ longMax, Spells arg2 off) ∨
      leadingNumber arg1 < 1 ∨ leadingNumber arg2 < 1

def PilotAccepts (argv : List CString) (times : UInt32 × UInt32) : Prop :=
  Accepted argv times.1.toNat times.2.toNat

theorem runPilot_of_accepts {cfg : Config} {argv : List CString} {times : UInt32 × UInt32}
    (h : PilotAccepts argv times) (l : PilotLight) :
    runPilot cfg argv l = setTimes cfg times l := by
  obtain ⟨honTime, hoffTime⟩ := Accepted.toNat h
  rw [Int.natCast_inj, UInt32.toNat_inj] at honTime hoffTime
  rw [runPilot, cmdPilot_of_accepted h, honTime, hoffTime]
  rfl

theorem runPilot_of_not_accepts {cfg : Config} {argv : List CString}
    (h : ∀ times, ¬ PilotAccepts argv times) (l : PilotLight) : runPilot cfg argv l = (l, []) := by
  have hnone : ∀ on off, ¬ Accepted argv on off := by
    intro on off hacc
    obtain ⟨hon, hoff⟩ := hacc.toNat
    apply h (UInt32.ofInt on, UInt32.ofInt off)
    rwa [PilotAccepts, hon, hoff]
  obtain ⟨text, hcall | hcall⟩ := cmdPilot_of_not_accepted cfg l hnone
  · rw [runPilot, hcall]
    rfl
  · rw [runPilot, hcall]
    rfl

theorem pilotAccepts_of_means {argv : List CString} {times : UInt32 × UInt32}
    (h : PilotMeans argv times) : PilotAccepts argv times := by
  obtain ⟨name, arg1, arg2, rfl, hon, hoff, hon1, honMax, hoff1, hoffMax⟩ := h
  exact ⟨name, arg1, arg2, rfl, strtol_of_spells hon (by rw [longMin]; omega) honMax,
    strtol_of_spells hoff (by rw [longMin]; omega) hoffMax, by omega, by omega⟩

theorem PilotAccepts.unique {argv : List CString} {times times' : UInt32 × UInt32}
    (h : PilotAccepts argv times) (h' : PilotAccepts argv times') : times = times' := by
  obtain ⟨name, arg1, arg2, rfl, hon, hoff, -⟩ := h
  obtain ⟨name', arg1', arg2', hargv, hon', hoff', -⟩ := h'
  cases hargv
  exact Prod.ext (UInt32.toNat_inj.mp (by omega)) (UInt32.toNat_inj.mp (by omega))

theorem pilotHarmless_iff (argv : List CString) :
    (∀ times, PilotAccepts argv times → PilotMeans argv times) ↔ PilotHarmless argv := by
  constructor
  · rintro h name arg1 arg2 rfl
    by_contra hnot
    simp only [not_or, not_lt] at hnot
    obtain ⟨hheld, hon, hoff⟩ := hnot
    rw [← strtol_pos_iff] at hon hoff
    have hacc : Accepted [name, arg1, arg2] (strtol arg1).1 (strtol arg2).1 :=
      ⟨name, arg1, arg2, rfl, rfl, rfl, hon, hoff⟩
    obtain ⟨honTime, hoffTime⟩ := hacc.toNat
    obtain ⟨name', arg1', arg2', hargv, hspells1, hspells2, -, honMax, -, hoffMax⟩ :=
      h (UInt32.ofInt (strtol arg1).1, UInt32.ofInt (strtol arg2).1)
        (by rwa [PilotAccepts, honTime, hoffTime])
    cases hargv
    exact hheld ⟨⟨_, honMax, hspells1⟩, _, hoffMax, hspells2⟩
  · rintro h times ⟨name, arg1, arg2, rfl, hon, hoff, hon0, hoff0⟩
    have hpos1 := (strtol_pos_iff arg1).mp (by omega)
    have hpos2 := (strtol_pos_iff arg2).mp (by omega)
    rcases h name arg1 arg2 rfl with ⟨⟨on, honMax, hspells1⟩, off, hoffMax, hspells2⟩ | h1 | h2
    · have heq1 := hspells1.leadingNumber_eq
      have heq2 := hspells2.leadingNumber_eq
      rw [strtol_of_spells hspells1 (by rw [longMin]; omega) honMax] at hon
      rw [strtol_of_spells hspells2 (by rw [longMin]; omega) hoffMax] at hoff
      subst hon hoff
      exact ⟨name, arg1, arg2, rfl, hspells1, hspells2, by omega, honMax, by omega, hoffMax⟩
    · omega
    · omega

theorem pilotValidates_iff (cfg : Config) (argv : List CString) :
    PilotValidates cfg argv ↔ PilotHarmless argv := by
  rw [PilotValidates, ← pilotHarmless_iff]
  apply validates_iff_of_accepts
  · exact fun _ h => runPilot_of_accepts h
  · exact runPilot_of_not_accepts
  · exact fun _ h => pilotAccepts_of_means h
  · exact fun _ _ h h' => h.unique h'
  · exact fun times _ => ⟨⟨0, 0, 0⟩, by simp [setTimes]⟩

/-! ### Both commands -/

/-- The battery command validates the vectors whose argument is a number in full
or begins with one out of range; the pilot command those whose arguments are
numbers a `long` holds, in full, or of which one begins with none from 1 on. -/
theorem numbersValidated_iff (argv : List CString) :
    (BattValidates argv ↔ BattHarmless argv) ∧
      ∀ cfg, PilotValidates cfg argv ↔ PilotHarmless argv :=
  ⟨battValidates_iff argv, fun cfg => pilotValidates_iff cfg argv⟩

/-- `battery abc`. -/
def batteryWord : List CString := [[0x62, 0x61, 0x74, 0x74, 0x65, 0x72, 0x79], [0x61, 0x62, 0x63]]

theorem batteryWord_means_nothing (level : UInt8) : ¬ BattMeans batteryWord level := by
  rintro ⟨name, arg1, hargv, hspells, -⟩
  cases hargv
  rw [spells_iff, show leading [0x61, 0x62, 0x63] = none by decide] at hspells
  cases hspells

/-- A word is taken for the level 0. -/
theorem batteryWord_stored : ¬ ∀ argv, BattValidates argv ∧ ∀ cfg, PilotValidates cfg argv := by
  intro hall
  have hkept := (hall batteryWord).1.rejected batteryWord_means_nothing
    { Device.boot with battLevel := 80 }
  exact absurd (congrArg (fun r => r.1.battLevel) hkept) (by decide)

end EspressifApp.Commands
