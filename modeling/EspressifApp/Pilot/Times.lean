import EspressifApp.Arithmetic.Scaling
import EspressifApp.Pilot.Model

/-!
The times of the pilot light. The command accepts any two positive numbers of
milliseconds, and the thread works in ticks: here is which times survive the
conversion, and when the two conversions in use agree.
-/

namespace EspressifApp.Pilot

open Arithmetic Reactive Stdlib

variable {cfg : Config} {l : PilotLight} {argv : List CString} {on off : ℤ}

/-! ### Conversions, in natural numbers -/

theorem pdMsToTicks_toNat (hz ms : UInt32) :
    (pdMsToTicks hz ms).toNat = ms.toNat * hz.toNat % 0x100000000 / 1000 := by
  rw [pdMsToTicks, UInt32.toNat_div, UInt32.toNat_mul]
  rfl

theorem pdMsToTicks_of_lt {hz ms : UInt32} (h : ms.toNat * hz.toNat < 0x100000000) :
    (pdMsToTicks hz ms).toNat = rescale hz.toNat 1000 ms.toNat := by
  rw [pdMsToTicks_toNat, Nat.mod_eq_of_lt h, rescale]

theorem pdTicksToMs_toNat (hz ticks : UInt32) :
    (pdTicksToMs hz ticks).toNat = rescale 1000 hz.toNat ticks.toNat % 0x100000000 := by
  have hwide : ticks.toNat * 1000 % 2 ^ 64 = ticks.toNat * 1000 := by
    have hticks := ticks.toNat_lt
    omega
  rw [pdTicksToMs, UInt64.toNat_toUInt32, UInt64.toNat_div, UInt64.toNat_mul,
    UInt32.toNat_toUInt64, UInt32.toNat_toUInt64]
  show ticks.toNat * 1000 % 2 ^ 64 / hz.toNat % 2 ^ 32 = _
  rw [hwide, rescale]

theorem msToTicks_toNat (hz ms : UInt32) :
    (msToTicks hz ms).toNat = ms.toNat / (1000 / hz.toNat) := by
  rw [msToTicks, portTickPeriodMs, UInt32.toNat_div, UInt32.toNat_div]
  rfl

/-! ### A time in ticks and back -/

/-- A number of milliseconds that is the requested one, rounded down to a whole
number of ticks. -/
def RoundedDown (hz ms : UInt32) (requested : ℤ) : Prop :=
  (ms.toNat : ℚ) ≤ requested ∧ (requested : ℚ) < ms.toNat + 1000 / hz.toNat

/-- A time is kept at a tick rate: it has a tick, its product with the rate does
not wrap, and it loses less than a tick when it is converted back. -/
def KeepsTime (hz ms : ℕ) : Prop :=
  1000 ≤ ms * hz ∧ ms * hz < 0x100000000 ∧ lost hz 1000 ms * hz < 1000

instance (hz ms : ℕ) : Decidable (KeepsTime hz ms) := inferInstanceAs (Decidable (_ ∧ _))

/-- Where a tick is a whole number of milliseconds, a time is kept exactly
between one tick and the wrap. -/
theorem keepsTime_iff_of_dvd {hz ms : ℕ} (hz1000 : hz ∣ 1000) :
    KeepsTime hz ms ↔ 1000 ≤ ms * hz ∧ ms * hz < 0x100000000 := by
  have hlost : lost hz 1000 ms * hz < 1000 := lost_mul_lt_of_dvd (by decide) hz1000
  simp only [KeepsTime, hlost, and_true]

theorem roundedDown_iff {hz ms : UInt32} (hhz : 0 < hz.toNat) {requested : ℕ} :
    RoundedDown hz ms requested ↔
      ms.toNat ≤ requested ∧ (requested - ms.toNat) * hz.toNat < 1000 := by
  have hpos : (0 : ℚ) < hz.toNat := Nat.cast_pos.mpr hhz
  rw [RoundedDown, Int.cast_natCast, Nat.cast_le]
  refine and_congr_right fun hle => ?_
  rw [← sub_lt_iff_lt_add', lt_div_iff₀ hpos, ← Nat.cast_sub hle]
  exact_mod_cast Iff.rfl

/-- Without a wrap, a time read again is the time set less what the conversions
lose. -/
theorem pdTicksToMs_pdMsToTicks {hz ms : UInt32} (hhz : 0 < hz.toNat)
    (h : ms.toNat * hz.toNat < 0x100000000) :
    (pdTicksToMs hz (pdMsToTicks hz ms)).toNat + lost hz.toNat 1000 ms.toNat = ms.toNat := by
  have hback : rescale 1000 hz.toNat (rescale hz.toNat 1000 ms.toNat) +
      lost hz.toNat 1000 ms.toNat = ms.toNat := rescale_add_lost hhz
  have hms := ms.toNat_lt
  rw [pdTicksToMs_toNat, pdMsToTicks_of_lt h, Nat.mod_eq_of_lt (by omega), hback]

/-- After a wrap, the time read again is at least `2 ^ 32` counts short. -/
theorem pdTicksToMs_pdMsToTicks_mul_le {hz ms : UInt32}
    (h : 0x100000000 ≤ ms.toNat * hz.toNat) :
    (pdTicksToMs hz (pdMsToTicks hz ms)).toNat * hz.toNat + 0x100000000 ≤
      ms.toNat * hz.toNat := by
  have hback : (pdTicksToMs hz (pdMsToTicks hz ms)).toNat * hz.toNat ≤
      (pdMsToTicks hz ms).toNat * 1000 :=
    calc (pdTicksToMs hz (pdMsToTicks hz ms)).toNat * hz.toNat
        ≤ rescale 1000 hz.toNat (pdMsToTicks hz ms).toNat * hz.toNat := by
          rw [pdTicksToMs_toNat]
          exact Nat.mul_le_mul_right _ (Nat.mod_le _ _)
      _ ≤ (pdMsToTicks hz ms).toNat * 1000 := Nat.div_mul_le_self _ _
  rw [pdMsToTicks_toNat] at hback
  omega

theorem keepsTime_iff (hz ms : UInt32) :
    (1 ≤ pdMsToTicks hz ms ∧ RoundedDown hz (pdTicksToMs hz (pdMsToTicks hz ms)) ms.toNat) ↔
      KeepsTime hz.toNat ms.toNat := by
  have htick : 1 ≤ pdMsToTicks hz ms ↔ 0 < (pdMsToTicks hz ms).toNat := UInt32.le_iff_toNat_le
  rw [htick, KeepsTime]
  rcases Nat.eq_zero_or_pos hz.toNat with hzero | hhz
  · simp [pdMsToTicks_toNat, hzero]
  rw [roundedDown_iff hhz]
  rcases Nat.lt_or_ge (ms.toNat * hz.toNat) 0x100000000 with hlt | hwrap
  · have hback := pdTicksToMs_pdMsToTicks hhz hlt
    have hdiff : ms.toNat - (pdTicksToMs hz (pdMsToTicks hz ms)).toNat =
        lost hz.toNat 1000 ms.toNat := by omega
    rw [pdMsToTicks_of_lt hlt, rescale_pos_iff (by decide), hdiff]
    exact and_congr_right fun _ => ⟨fun h => ⟨hlt, h.2⟩, fun h => ⟨by omega, h.2⟩⟩
  · have hshort := pdTicksToMs_pdMsToTicks_mul_le hwrap
    constructor
    · rintro ⟨-, -, hlt⟩
      rw [Nat.sub_mul] at hlt
      omega
    · rintro ⟨-, hlt, -⟩
      omega

/-! ### Times set by the command -/

/-- The command accepts the arguments, as these numbers of milliseconds. -/
def Accepted (argv : List CString) (on off : ℤ) : Prop :=
  ∃ name arg1 arg2, argv = [name, arg1, arg2] ∧ (strtol arg1).1 = on ∧ (strtol arg2).1 = off ∧
    0 < on ∧ 0 < off

theorem cmdPilot_of_accepted (h : Accepted argv on off) : cmdPilot cfg argv l =
    (l.setOnOffTime cfg (UInt32.ofInt on) (UInt32.ofInt off),
      [.logInfo ("set on=" ++ toString on ++ ", off=" ++ toString off),
        .setOnOffTime (UInt32.ofInt on) (UInt32.ofInt off)]) := by
  obtain ⟨name, arg1, arg2, rfl, rfl, rfl, hon, hoff⟩ := h
  rw [cmdPilot, if_pos ⟨hon, hoff⟩]

theorem cmdPilot_of_not_accepted (cfg : Config) (l : PilotLight)
    (h : ∀ on off, ¬ Accepted argv on off) :
    ∃ text, cmdPilot cfg argv l = (l, [.logError text]) ∨
      cmdPilot cfg argv l = (l, [.printf text]) := by
  unfold cmdPilot
  split
  · rename_i name arg1 arg2
    rw [if_neg]
    · exact ⟨_, .inl rfl⟩
    · exact fun hpos => h _ _ ⟨name, arg1, arg2, rfl, rfl, rfl, hpos⟩
  · exact ⟨_, .inr rfl⟩

theorem cmdPilot_light_of_not_accepted (h : ∀ on off, ¬ Accepted argv on off) :
    (cmdPilot cfg argv l).1 = l := by
  obtain ⟨text, hcall | hcall⟩ := cmdPilot_of_not_accepted cfg l h <;> rw [hcall]

theorem toNat_ofInt_strtol {s : CString} (h : 0 < (strtol s).1) :
    (UInt32.ofInt (strtol s).1).toNat = (strtol s).1 := by
  have hle : (strtol s).1 ≤ 0x7fffffff := strtol_le s
  rw [UInt32.ofInt, UInt32.toNat_ofNat']
  omega

theorem Accepted.toNat (h : Accepted argv on off) :
    ((UInt32.ofInt on).toNat : ℤ) = on ∧ ((UInt32.ofInt off).toNat : ℤ) = off := by
  obtain ⟨name, arg1, arg2, rfl, rfl, rfl, hon, hoff⟩ := h
  exact ⟨toNat_ofInt_strtol hon, toNat_ofInt_strtol hoff⟩

/-! ### The thread -/

def PilotInput.SetsNothing : PilotInput → Prop
  | .command argv => ∀ on off, ¬ Accepted argv on off
  | .turn => True

theorem pilot_next_light (cfg : Config) (l : PilotLight) {i : PilotInput} (hi : i.SetsNothing)
    (phase : Phase) : ∃ phase', (pilot cfg).next (l, phase) i = (l, phase') := by
  cases i with
  | command argv => exact ⟨phase, Prod.ext (cmdPilot_light_of_not_accepted hi) rfl⟩
  | turn => exact ⟨_, rfl⟩

theorem delay_mem_out {i : PilotInput} {phase : Phase} {ticks : UInt32}
    (h : .delay ticks ∈ (pilot cfg).out (l, phase) i) : ticks = l.onTime ∨ ticks = l.offTime := by
  cases i with
  | command argv =>
      simp only [pilot, cmdPilot] at h
      split at h
      · split_ifs at h <;> simp at h
      · simp at h
  | turn =>
      cases phase <;> simp only [pilot, turn, setUp] at h <;> split_ifs at h <;> simp at h
      all_goals first | exact .inl h | exact .inr h

theorem delay_mem_traceFrom {ticks : UInt32} :
    ∀ (h : List PilotInput) (phase : Phase), (∀ i ∈ h, i.SetsNothing) →
      .delay ticks ∈ (pilot cfg).traceFrom (l, phase) h → ticks = l.onTime ∨ ticks = l.offTime
  | [], _, _, hmem => by cases hmem
  | i :: h, phase, hnone, hmem => by
      rcases List.mem_append.mp hmem with hout | hlater
      · exact delay_mem_out hout
      · obtain ⟨phase', hnext⟩ := pilot_next_light cfg l (hnone i List.mem_cons_self) phase
        rw [hnext] at hlater
        exact delay_mem_traceFrom h phase' (fun j hj => hnone j (List.mem_cons_of_mem i hj)) hlater

/-- The times are honoured: each has a tick, so that in every run from here on,
until another command is accepted, every `Delay` blocks; and each is read again
as requested, rounded down to whole ticks. -/
structure Honoured (cfg : Config) (on off : ℤ) (l : PilotLight) : Prop where
  onTicks : 1 ≤ l.onTime
  offTicks : 1 ≤ l.offTime
  blocks : ∀ (h : List PilotInput) (phase : Phase), (∀ i ∈ h, i.SetsNothing) →
    ∀ ticks, .delay ticks ∈ (pilot cfg).traceFrom (l, phase) h → 1 ≤ ticks
  onTime : RoundedDown cfg.tickRateHz (l.getOnTime cfg) on
  offTime : RoundedDown cfg.tickRateHz (l.getOffTime cfg) off

theorem honoured_setOnOffTime_iff (cfg : Config) (l : PilotLight) (onTime offTime : UInt32) :
    Honoured cfg onTime.toNat offTime.toNat (l.setOnOffTime cfg onTime offTime) ↔
      KeepsTime cfg.tickRateHz.toNat onTime.toNat ∧
        KeepsTime cfg.tickRateHz.toNat offTime.toNat := by
  rw [← keepsTime_iff, ← keepsTime_iff]
  constructor
  · intro h
    exact ⟨⟨h.onTicks, h.onTime⟩, h.offTicks, h.offTime⟩
  · rintro ⟨⟨honTicks, honTime⟩, hoffTicks, hoffTime⟩
    refine ⟨honTicks, hoffTicks, fun h phase hnone ticks hdelay => ?_, honTime, hoffTime⟩
    rcases delay_mem_traceFrom h phase hnone hdelay with rfl | rfl
    · exact honTicks
    · exact hoffTicks

/-- The times of an accepted command are honoured exactly when both are kept at
the tick rate. -/
theorem honoured_iff (cfg : Config) (l : PilotLight) (argv : List CString) (on off : ℤ)
    (haccepted : Accepted argv on off) : Honoured cfg on off (cmdPilot cfg argv l).1 ↔
      KeepsTime cfg.tickRateHz.toNat on.toNat ∧ KeepsTime cfg.tickRateHz.toNat off.toNat := by
  rw [cmdPilot_of_accepted haccepted]
  obtain ⟨hon, hoff⟩ := haccepted.toNat
  generalize UInt32.ofInt on = onTime at *
  generalize UInt32.ofInt off = offTime at *
  subst hon hoff
  exact honoured_setOnOffTime_iff cfg l onTime offTime

/-- The configuration of the board, at the default tick rate. -/
def defaultConfig : Config where
  tickRateHz := 100
  gpio := 8
  isNeopixel := true
  onTime := 250
  offTime := 750

/-- `pilot 250 750`. -/
def setDefaults : List CString :=
  [[0x70, 0x69, 0x6c, 0x6f, 0x74], [0x32, 0x35, 0x30], [0x37, 0x35, 0x30]]

theorem setDefaults_honoured :
    Honoured defaultConfig 250 750 (cmdPilot defaultConfig setDefaults ⟨8, 0, 0⟩).1 :=
  (honoured_iff defaultConfig ⟨8, 0, 0⟩ setDefaults 250 750
    ⟨_, _, _, rfl, by decide, by decide, by decide, by decide⟩).mpr (by decide)

/-- `pilot 5 5`. -/
def setShort : List CString := [[0x70, 0x69, 0x6c, 0x6f, 0x74], [0x35], [0x35]]

/-- At the default tick rate five milliseconds are accepted and have no tick. -/
theorem shortTimes_unkept : ¬ ∀ (cfg : Config) (l : PilotLight) (argv : List CString) (on off : ℤ),
    Accepted argv on off → Honoured cfg on off (cmdPilot cfg argv l).1 := by
  intro hall
  have hticks := (hall defaultConfig ⟨8, 25, 75⟩ setShort 5 5
    ⟨_, _, _, rfl, by decide, by decide, by decide, by decide⟩).onTicks
  exact absurd hticks (by decide)

/-! ### The light from the start -/

/-- A light that blinks: both its times have a tick. -/
structure PilotLight.Blinks (l : PilotLight) : Prop where
  onTicks : 1 ≤ l.onTime
  offTicks : 1 ≤ l.offTime

/-- A time has a tick, and its product with the rate does not wrap. -/
def HasTick (hz ms : ℕ) : Prop := 1000 ≤ ms * hz ∧ ms * hz < 0x100000000

def CommandsTicked (cfg : Config) (_ : PilotLight × Phase) : PilotInput → Prop
  | .command argv => ∀ on off, Accepted argv on off →
      HasTick cfg.tickRateHz.toNat on.toNat ∧ HasTick cfg.tickRateHz.toNat off.toNat
  | .turn => True

def DelaysBlock (cfg : Config) (s : PilotLight × Phase) (i : PilotInput) : Prop :=
  ∀ ticks, .delay ticks ∈ (pilot cfg).out s i → 1 ≤ ticks

theorem HasTick.one_le {hz ms : UInt32} (h : HasTick hz.toNat ms.toNat) :
    1 ≤ pdMsToTicks hz ms := by
  apply UInt32.le_iff_toNat_le.mpr
  rw [pdMsToTicks_of_lt h.2]
  exact (rescale_pos_iff (by decide)).mpr h.1

theorem PilotLight.Blinks.next {phase : Phase} {i : PilotInput} (h : l.Blinks)
    (hticked : CommandsTicked cfg (l, phase) i) : ((pilot cfg).next (l, phase) i).1.Blinks := by
  by_cases hi : i.SetsNothing
  · obtain ⟨phase', hnext⟩ := pilot_next_light cfg l hi phase
    rw [hnext]
    exact h
  · cases i with
    | turn => exact absurd trivial hi
    | command argv =>
        simp only [PilotInput.SetsNothing, not_forall, not_not] at hi
        obtain ⟨on, off, haccepted⟩ := hi
        have htick := hticked on off haccepted
        obtain ⟨hon, hoff⟩ := haccepted.toNat
        show (cmdPilot cfg argv l).1.Blinks
        rw [cmdPilot_of_accepted haccepted]
        generalize UInt32.ofInt on = onTime at *
        generalize UInt32.ofInt off = offTime at *
        subst hon hoff
        exact ⟨htick.1.one_le, htick.2.one_le⟩

/-- A light configured with times that have a tick, and commanded with such
times only, never spins. -/
theorem pilot_delaysBlock (cfg : Config) (hnew : (pilot cfg).init.1.Blinks) (h : List PilotInput)
    (hticked : (pilot cfg).Along (CommandsTicked cfg) h) :
    (pilot cfg).Along (DelaysBlock cfg) h := by
  apply hticked.of_invariant (I := fun s => s.1.Blinks) hnew
  · exact fun s i hs hi => hs.next hi
  · rintro ⟨l, phase⟩ i hs - ticks hdelay
    rcases delay_mem_out hdelay with rfl | rfl
    · exact hs.onTicks
    · exact hs.offTicks

example : (pilot defaultConfig).init.1.Blinks := ⟨by decide, by decide⟩

/-! ### The two conversions -/

/-- A time is the same at build time and by command: its product with the tick
rate does not wrap, and the milliseconds by which `1000 / hz` periods fall short
of a second add up to no more than the time leaves over. -/
def SameTicks (hz ms : ℕ) : Prop :=
  ms * hz < 0x100000000 ∧ 1000 % hz * ms ≤ 1000 * (ms % (1000 / hz))

instance (hz ms : ℕ) : Decidable (SameTicks hz ms) := inferInstanceAs (Decidable (_ ∧ _))

/-- Where a tick is a whole number of milliseconds only the wrap matters. -/
theorem sameTicks_iff_of_dvd {hz ms : ℕ} (hz1000 : hz ∣ 1000) :
    SameTicks hz ms ↔ ms * hz < 0x100000000 := by
  simp [SameTicks, Nat.mod_eq_zero_of_dvd hz1000]

theorem msToTicks_eq_pdMsToTicks_iff {hz : UInt32} (hpos : 0 < hz.toNat)
    (hle : hz.toNat ≤ 1000) (ms : UInt32) :
    msToTicks hz ms = pdMsToTicks hz ms ↔ SameTicks hz.toNat ms.toNat := by
  rw [← UInt32.toNat_inj, msToTicks_toNat, SameTicks]
  rcases Nat.lt_or_ge (ms.toNat * hz.toNat) 0x100000000 with hlt | hwrap
  · rw [pdMsToTicks_of_lt hlt, div_period_eq_rescale_iff hpos hle]
    exact (and_iff_right hlt).symm
  · -- the division by the period keeps what the product has lost
    have hkept := rescale_le_div_period (n := ms.toNat) hpos hle
    rw [rescale] at hkept
    rw [pdMsToTicks_toNat]
    constructor <;> intro h <;> omega

/-- At 300 ticks a second, three milliseconds are one period of three and not
yet a tick. -/
example : msToTicks 300 3 = 1 ∧ pdMsToTicks 300 3 = 0 := by decide

/-- At a tick rate of up to 1000, the times given to the constructor and those
given to `setOnOffTime` are stored as the same numbers of ticks exactly when
both are the same by either conversion. -/
theorem new_eq_setOnOffTime_iff (cfg : Config) (hpos : 0 < cfg.tickRateHz.toNat)
    (hle : cfg.tickRateHz.toNat ≤ 1000) (l : PilotLight) (onTime offTime : UInt32) :
    ((PilotLight.new cfg onTime offTime).onTime = (l.setOnOffTime cfg onTime offTime).onTime ∧
      (PilotLight.new cfg onTime offTime).offTime = (l.setOnOffTime cfg onTime offTime).offTime) ↔
    SameTicks cfg.tickRateHz.toNat onTime.toNat ∧ SameTicks cfg.tickRateHz.toNat offTime.toNat :=
  and_congr (msToTicks_eq_pdMsToTicks_iff hpos hle onTime)
    (msToTicks_eq_pdMsToTicks_iff hpos hle offTime)

theorem new_eq_setOnOffTime_default :
    (PilotLight.new defaultConfig 250 750).onTime =
        ((⟨8, 0, 0⟩ : PilotLight).setOnOffTime defaultConfig 250 750).onTime ∧
      (PilotLight.new defaultConfig 250 750).offTime =
        ((⟨8, 0, 0⟩ : PilotLight).setOnOffTime defaultConfig 250 750).offTime :=
  (new_eq_setOnOffTime_iff defaultConfig (by decide) (by decide) ⟨8, 0, 0⟩ 250 750).mpr (by decide)

/-- At the default tick rate a time of almost twelve hours is kept by the
constructor, and wraps to nothing by command. -/
theorem longTime_differs : ¬ ∀ (cfg : Config), 0 < cfg.tickRateHz.toNat →
    cfg.tickRateHz.toNat ≤ 1000 → ∀ (l : PilotLight) (onTime offTime : UInt32),
      (PilotLight.new cfg onTime offTime).onTime = (l.setOnOffTime cfg onTime offTime).onTime ∧
      (PilotLight.new cfg onTime offTime).offTime =
        (l.setOnOffTime cfg onTime offTime).offTime := by
  intro hall
  have hon := (hall defaultConfig (by decide) (by decide) ⟨8, 25, 75⟩ 42949673 750).1
  exact absurd hon (by decide)

end EspressifApp.Pilot
