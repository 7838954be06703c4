import EspressifApp.Reactive.Encoders

/-!
`led_strip_rmt_encoder.c`: the encoder of an LED strip, which sends the bytes of
the pixels bit by bit and then a reset code. It is put together from two
encoders of the RMT driver, one for bytes and one that copies symbols, and must
go on where it stopped when the memory of the RMT channel was full.
-/

namespace EspressifApp.LedStrip

open Reactive

structure Symbol where
  level0 : Bool
  duration0 : ℕ
  level1 : Bool
  duration1 : ℕ
  deriving DecidableEq, Repr

/-- `bit0` at `LED_SRIP_RMT_RESOLUTION`, 10 MHz: 0.3 us high, 0.9 us low. -/
def bit0 : Symbol := ⟨true, 3, false, 9⟩

def bit1 : Symbol := ⟨true, 9, false, 3⟩

/-- `reset_code`: twice `10000000 / 1000000 * 50 / 2` ticks low. -/
def resetCode : Symbol := ⟨false, 250, false, 250⟩

/-- What the bytes encoder makes of a byte, `msb_first`. -/
def byteSymbols (b : UInt8) : List Symbol :=
  [7, 6, 5, 4, 3, 2, 1, 0].map fun i => if b.toNat.testBit i then bit1 else bit0

structure LedEncoder (σ κ : Type*) where
  bytesEncoder : σ
  copyEncoder : κ
  state : ℕ
  resetCode : Symbol
  deriving DecidableEq, Repr

section

variable {σ κ δ : Type*} (B : Encoder σ δ Symbol) (C : Encoder κ Symbol Symbol)

def sendResetCode (e : LedEncoder σ κ) (free : ℕ) : Session (LedEncoder σ κ) Symbol :=
  let session := C.encode e.copyEncoder e.resetCode free
  { symbols := session.symbols
    state :=
      { e with
        copyEncoder := session.state
        state := if session.complete then 0 else e.state }
    complete := session.complete
    memFull := session.memFull }

def rmtEncodeLedStrip (e : LedEncoder σ κ) (primaryData : δ) (free : ℕ) :
    Session (LedEncoder σ κ) Symbol :=
  match e.state with
  | 0 =>
      let session := B.encode e.bytesEncoder primaryData free
      let e :=
        { e with
          bytesEncoder := session.state
          state := if session.complete then 1 else e.state }
      if session.memFull then ⟨session.symbols, e, false, true⟩
      else
        let rest := sendResetCode C e (free - session.symbols.length)
        { rest with symbols := session.symbols ++ rest.symbols }
  | 1 => sendResetCode C e free
  | _ => ⟨[], e, false, false⟩

def rmtLedStripEncoderReset (e : LedEncoder σ κ) : LedEncoder σ κ :=
  { e with
    bytesEncoder := B.reset e.bytesEncoder
    copyEncoder := C.reset e.copyEncoder
    state := 0 }

def ledStripEncoder : Encoder (LedEncoder σ κ) δ Symbol where
  encode := rmtEncodeLedStrip B C
  reset := rmtLedStripEncoderReset B C

end

/-! ### It keeps the contract of an encoder -/

section

variable {σ κ δ : Type*} {B : Encoder σ δ Symbol} {C : Encoder κ Symbol Symbol}
  {fullB : δ → List Symbol} {fullC : Symbol → List Symbol}
  {readyB : σ → Prop} {readyC : κ → Prop}
  {midwayB : σ → δ → List Symbol → Prop} {midwayC : κ → Symbol → List Symbol → Prop}

def LedEncoder.Ready (readyB : σ → Prop) (readyC : κ → Prop) (resetCode : Symbol)
    (e : LedEncoder σ κ) : Prop :=
  e.resetCode = resetCode ∧ e.state = 0 ∧ readyB e.bytesEncoder ∧ readyC e.copyEncoder

/-- In the pixels, or in the reset code. -/
inductive LedEncoder.Midway (fullC : Symbol → List Symbol) (readyB : σ → Prop)
    (readyC : κ → Prop) (midwayB : σ → δ → List Symbol → Prop)
    (midwayC : κ → Symbol → List Symbol → Prop) (resetCode : Symbol) (e : LedEncoder σ κ)
    (d : δ) : List Symbol → Prop
  | pixels (l : List Symbol) (hcode : e.resetCode = resetCode) (hstate : e.state = 0)
      (hbytes : midwayB e.bytesEncoder d l) (hcopy : readyC e.copyEncoder) :
      Midway fullC readyB readyC midwayB midwayC resetCode e d (l ++ fullC resetCode)
  | reset (l : List Symbol) (hcode : e.resetCode = resetCode) (hstate : e.state = 1)
      (hbytes : readyB e.bytesEncoder) (hcopy : midwayC e.copyEncoder resetCode l) :
      Midway fullC readyB readyC midwayB midwayC resetCode e d l

variable {e : LedEncoder σ κ} {d : δ} {n : ℕ} {l : List Symbol} {resetCode : Symbol}

theorem encode_pixels_full (hB : B.Resumes fullB readyB midwayB) (hstate : e.state = 0)
    (hbytes : midwayB e.bytesEncoder d l) (hfull : n ≤ l.length) :
    rmtEncodeLedStrip B C e d n =
      ⟨l.take n,
        { e with
          bytesEncoder := (B.encode e.bytesEncoder d n).state
          state := if l.length ≤ n then 1 else 0 }, false, true⟩ := by
  have hmem := (hB.memFull hbytes n).mpr hfull
  have hcomplete := hB.complete hbytes n
  simp only [rmtEncodeLedStrip, hstate, hmem, if_true, hcomplete, hB.symbols hbytes]

theorem encode_pixels_fit (hB : B.Resumes fullB readyB midwayB) (hstate : e.state = 0)
    (hbytes : midwayB e.bytesEncoder d l) (hfit : l.length < n) :
    rmtEncodeLedStrip B C e d n =
      let rest := sendResetCode C
        { e with bytesEncoder := (B.encode e.bytesEncoder d n).state, state := 1 } (n - l.length)
      { rest with symbols := l ++ rest.symbols } := by
  have hmem : (B.encode e.bytesEncoder d n).memFull = false := by
    rw [← Bool.not_eq_true, hB.memFull hbytes]
    omega
  have hcomplete := (hB.complete hbytes n).mpr (Nat.le_of_lt hfit)
  simp only [rmtEncodeLedStrip, hstate, hmem, hcomplete, if_true, hB.symbols hbytes,
    List.take_of_length_le (Nat.le_of_lt hfit), Bool.false_eq_true, if_false]

theorem sendResetCode_eq (hC : C.Resumes fullC readyC midwayC)
    (hcopy : midwayC e.copyEncoder e.resetCode l) :
    sendResetCode C e n =
      ⟨l.take n,
        { e with
          copyEncoder := (C.encode e.copyEncoder e.resetCode n).state
          state := if l.length ≤ n then 0 else e.state }, l.length ≤ n, n ≤ l.length⟩ := by
  have hcomplete := hC.complete hcopy n
  have hmem := hC.memFull hcopy n
  simp only [sendResetCode, hcomplete, hC.symbols hcopy, Session.mk.injEq, true_and]
  constructor
  · rw [Bool.eq_iff_iff, hcomplete, decide_eq_true_iff]
  · rw [Bool.eq_iff_iff, hmem, decide_eq_true_iff]

/-- One session, from wherever the encoder has stopped. -/
theorem encode_midway (hB : B.Resumes fullB readyB midwayB) (hC : C.Resumes fullC readyC midwayC)
    (hcode : 0 < (fullC resetCode).length)
    (he : e.Midway fullC readyB readyC midwayB midwayC resetCode d l) (n : ℕ) :
    ∃ e', rmtEncodeLedStrip B C e d n = ⟨l.take n, e', l.length ≤ n, n ≤ l.length⟩ ∧
      (l.length ≤ n → e'.Ready readyB readyC resetCode) ∧
      (n < l.length → e'.Midway fullC readyB readyC midwayB midwayC resetCode d (l.drop n)) := by
  cases he with
  | pixels l hreset hstate hbytes hcopy =>
      subst hreset
      rw [List.length_append]
      -- either the memory is full with the pixels, or the reset code begins in this session
      by_cases hfull : n ≤ l.length
      · have hmore : ¬ l.length + (fullC e.resetCode).length ≤ n := by omega
        have hroom : n ≤ l.length + (fullC e.resetCode).length := by omega
        refine ⟨{ e with
          bytesEncoder := (B.encode e.bytesEncoder d n).state
          state := if l.length ≤ n then 1 else 0 }, ?_, fun hfits => absurd hfits hmore,
          fun _ => ?_⟩
        · rw [encode_pixels_full hB hstate hbytes hfull, List.take_append_of_le_length hfull,
            decide_eq_false hmore, decide_eq_true hroom]
        · by_cases hend : l.length ≤ n
          · obtain rfl : n = l.length := by omega
            rw [List.drop_left]
            exact .reset _ rfl (if_pos hend) (hB.done hbytes hend) (hC.start hcopy _)
          · rw [List.drop_append_of_le_length hfull]
            exact .pixels _ rfl (if_neg hend) (hB.suspend hbytes (by omega)) hcopy
      · have hstart := hC.start hcopy e.resetCode
        have hlen : ∀ m, m ≤ n - l.length ↔ l.length + m ≤ n := by omega
        have hlen' : ∀ m, n - l.length ≤ m ↔ n ≤ l.length + m := by omega
        refine ⟨{ e with
          bytesEncoder := (B.encode e.bytesEncoder d n).state
          copyEncoder := (C.encode e.copyEncoder e.resetCode (n - l.length)).state
          state := if l.length + (fullC e.resetCode).length ≤ n then 0 else 1 }, ?_,
          fun hfits => ?_, fun hmore => ?_⟩
        · rw [encode_pixels_fit hB hstate hbytes (by omega), List.take_append,
            List.take_of_length_le (by omega)]
          have hsend := sendResetCode_eq (n := n - l.length)
            (e := { e with bytesEncoder := (B.encode e.bytesEncoder d n).state, state := 1 }) hC
            hstart
          simp only [hsend, hlen, hlen']
        · exact ⟨rfl, if_pos hfits, hB.done hbytes (by omega), hC.done hstart (by omega)⟩
        · rw [List.drop_append, List.drop_eq_nil_of_le (by omega), List.nil_append]
          exact .reset _ rfl (if_neg (by omega)) (hB.done hbytes (by omega))
            (hC.suspend hstart (by omega))
  | reset l hreset hstate hbytes hcopy =>
      subst hreset
      have hsend : rmtEncodeLedStrip B C e d n = sendResetCode C e n := by
        simp only [rmtEncodeLedStrip, hstate]
      refine ⟨_, hsend.trans (sendResetCode_eq hC hcopy), fun hfits => ?_, fun hmore => ?_⟩
      · exact ⟨rfl, if_pos hfits, hbytes, hC.done hcopy hfits⟩
      · refine .reset _ rfl ?_ hbytes (hC.suspend hcopy hmore)
        exact (if_neg (by omega)).trans hstate

/-- The LED strip encoder is an encoder of the pixels followed by the reset
code, whichever encoders it is put together from. -/
theorem ledStripEncoder_resumes (hB : B.Resumes fullB readyB midwayB)
    (hC : C.Resumes fullC readyC midwayC) (resetCode : Symbol)
    (hcode : 0 < (fullC resetCode).length) :
    (ledStripEncoder B C).Resumes (fun d => fullB d ++ fullC resetCode)
      (LedEncoder.Ready readyB readyC resetCode)
      (LedEncoder.Midway fullC readyB readyC midwayB midwayC resetCode) where
  start := by
    rintro e ⟨hreset, hstate, hbytes, hcopy⟩ d
    exact .pixels _ hreset hstate (hB.start hbytes d) hcopy
  symbols := by
    intro e d l he n
    obtain ⟨e', hencode, -⟩ := encode_midway hB hC hcode he n
    exact congrArg Session.symbols hencode
  complete := by
    intro e d l he n
    obtain ⟨e', hencode, -⟩ := encode_midway hB hC hcode he n
    exact (congrArg (Session.complete · = true) hencode).to_iff.trans decide_eq_true_iff
  memFull := by
    intro e d l he n
    obtain ⟨e', hencode, -⟩ := encode_midway hB hC hcode he n
    exact (congrArg (Session.memFull · = true) hencode).to_iff.trans decide_eq_true_iff
  done := by
    intro e d l he n hfits
    obtain ⟨e', hencode, hready, -⟩ := encode_midway hB hC hcode he n
    rw [show ((ledStripEncoder B C).encode e d n).state = e' from congrArg Session.state hencode]
    exact hready hfits
  suspend := by
    intro e d l he n hmore
    obtain ⟨e', hencode, -, hmidway⟩ := encode_midway hB hC hcode he n
    rw [show ((ledStripEncoder B C).encode e d n).state = e' from congrArg Session.state hencode]
    exact hmidway hmore
  reset := by
    intro e d l he
    -- an encoder that is ready may be reset: it is as if it had just started
    cases he with
    | pixels l hreset hstate hbytes hcopy =>
        exact ⟨hreset, rfl, hB.reset hbytes, hC.reset (hC.start hcopy resetCode)⟩
    | reset l hreset hstate hbytes hcopy =>
        exact ⟨hreset, rfl, hB.reset (hB.start hbytes d), hC.reset hcopy⟩

end

/-- Two encoders that keep their position, one for bytes and one for symbols. -/
theorem ledStripEncoder_resumes_positional :
    (ledStripEncoder (.positional fun d : List UInt8 => d.flatMap byteSymbols)
        (.positional fun r => [r])).Resumes
      (fun d => d.flatMap byteSymbols ++ [resetCode])
      (LedEncoder.Ready (· = 0) (· = 0) resetCode)
      (LedEncoder.Midway (fun r => [r]) (· = 0) (· = 0)
        (fun p d l => l = (d.flatMap byteSymbols).drop p) (fun p r l => l = [r].drop p)
        resetCode) :=
  ledStripEncoder_resumes (Encoder.positional_resumes _) (Encoder.positional_resumes _) _ (by simp)

end EspressifApp.LedStrip
