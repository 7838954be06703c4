import EspressifApp.LedStrip.Encoder
import EspressifApp.Reactive.Machine
import Mathlib.Data.UInt

/-!
`led_strip_rmt_dev.c` and `led_strip_api.c`: the pixel buffer of an LED strip and
the transmission of it. The RMT driver is outside: how it answers, and how much
of its memory is free each time it calls the encoder, are inputs.
-/

namespace EspressifApp.LedStrip

open Reactive

abbrev EspErr := ℤ

def espOk : EspErr := 0

def espErrInvalidArg : EspErr := 0x102

/-! ### The strip -/

/-- `sizeof(led_strip_rmt_obj)`, without the pixels: seven words. -/
def objSize : UInt32 := 28

/-- `led_strip_rmt_obj`; `pixelBuf` is what was allocated for the pixels. -/
structure Strip where
  stripLen : UInt32
  pixelBuf : List UInt8
  deriving DecidableEq, Repr

/-- The object that `led_strip_new_rmt_device` allocates with `calloc`. The size
is computed in 32 bits. -/
def Strip.new (maxLeds : UInt32) : Strip where
  stripLen := maxLeds
  pixelBuf := List.replicate ((objSize + maxLeds * 3).toNat - objSize.toNat) 0

/-- A byte is written; `none` outside the allocation. -/
def write (buf : List UInt8) (i : UInt32) (v : UInt8) : Option (List UInt8) :=
  if i.toNat < buf.length then some (buf.set i.toNat v) else none

/-- `led_strip_rmt_set_pixel`; `none` is a write outside the buffer. -/
def Strip.setPixel (s : Strip) (index red green blue : UInt32) : Option (Strip × EspErr) :=
  if index < s.stripLen then do
    let start := index * 3
    let buf ← write s.pixelBuf (start + 0) (green &&& 0xff).toUInt8
    let buf ← write buf (start + 1) (red &&& 0xff).toUInt8
    let buf ← write buf (start + 2) (blue &&& 0xff).toUInt8
    return ({ s with pixelBuf := buf }, espOk)
  else some (s, espErrInvalidArg)

/-- `memset(pixel_buf, 0, strip_len * 3)`. -/
def Strip.zero (s : Strip) : Option Strip :=
  let n := (s.stripLen * 3).toNat
  if n ≤ s.pixelBuf.length then
    some { s with pixelBuf := List.replicate n 0 ++ s.pixelBuf.drop n }
  else none

/-- How the RMT driver does one transmission: the result of `rmt_transmit`, the
memory free at each call of the encoder, the result of `rmt_tx_wait_all_done`. -/
structure Rmt where
  transmit : EspErr
  memory : List ℕ
  waitAllDone : EspErr
  deriving DecidableEq, Repr

section

variable {σ κ : Type*} (B : Encoder σ (List UInt8) Symbol) (C : Encoder κ Symbol Symbol)

/-- `led_strip_rmt_refresh`: the encoder afterwards, what went out, and the
result. Nothing goes out when the driver refuses. `none` is a read outside the
buffer, or a transmission that never completes. -/
def refresh (s : Strip) (e : LedEncoder σ κ) (rmt : Rmt) :
    Option (LedEncoder σ κ × List Symbol × EspErr) :=
  let n := (s.stripLen * 3).toNat
  if rmt.transmit = espOk then
    if n ≤ s.pixelBuf.length then
      ((ledStripEncoder B C).transfer e (s.pixelBuf.take n) rmt.memory).map
        fun t => (t.2.1, t.1, rmt.waitAllDone)
    else none
  else some (e, [], rmt.transmit)

end

/-! ### The LEDs -/

structure Colour where
  red : UInt8
  green : UInt8
  blue : UInt8
  deriving DecidableEq, Repr

/-- A LED takes a symbol for a bit by its duty cycle, and a long low for the end. -/
def Symbol.isReset (s : Symbol) : Bool := !s.level0

def Symbol.bit (s : Symbol) : Bool := s.duration1 < s.duration0

def byteOf (bits : List Bool) : UInt8 :=
  UInt8.ofNat (bits.foldl (fun n b => 2 * n + b.toNat) 0)

def readBytes : List Bool → List UInt8
  | b7 :: b6 :: b5 :: b4 :: b3 :: b2 :: b1 :: b0 :: rest =>
      byteOf [b7, b6, b5, b4, b3, b2, b1, b0] :: readBytes rest
  | _ => []

/-- Pixels come in the order green, red, blue. -/
def readColours : List UInt8 → List Colour
  | green :: red :: blue :: rest => ⟨red, green, blue⟩ :: readColours rest
  | _ => []

/-- The colours the LEDs take from what is sent; those it does not reach keep
theirs, and without a reset code none changes. -/
def latch (leds : List Colour) (sent : List Symbol) : List Colour :=
  if sent.any Symbol.isReset then
    let colours := readColours (readBytes ((sent.takeWhile (!·.isReset)).map Symbol.bit))
    colours ++ leds.drop colours.length
  else leds

/-! ### A strip in use -/

inductive StripCall
  | setPixel (index red green blue : UInt32)
  | refresh (rmt : Rmt)
  | clear (rmt : Rmt)
  deriving DecidableEq, Repr

structure StripState (σ κ : Type*) where
  strip : Strip
  encoder : LedEncoder σ κ
  leds : List Colour
  deriving DecidableEq, Repr

section

variable {σ κ : Type*} (B : Encoder σ (List UInt8) Symbol) (C : Encoder κ Symbol Symbol)

def StripState.call (s : StripState σ κ) : StripCall → Option (StripState σ κ × EspErr)
  | .setPixel index red green blue =>
      (s.strip.setPixel index red green blue).map fun r => ({ s with strip := r.1 }, r.2)
  | .refresh rmt =>
      (refresh B C s.strip s.encoder rmt).map fun r =>
        ({ s with encoder := r.1, leds := latch s.leds r.2.1 }, r.2.2)
  | .clear rmt =>
      s.strip.zero.bind fun strip =>
        (refresh B C strip s.encoder rmt).map fun r =>
          ({ strip := strip, encoder := r.1, leds := latch s.leds r.2.1 }, r.2.2)

/-- A strip of `maxLeds` LEDs, whatever they show at first. The state is `none`
once the program has left its buffer. -/
def ledStrip (maxLeds : UInt32) (e : LedEncoder σ κ) (leds : List Colour) :
    Machine (Option (StripState σ κ)) StripCall EspErr where
  init := some ⟨.new maxLeds, e, leds⟩
  next s c := s.bind fun s => (s.call B C c).map Prod.fst
  out s c := (s.bind fun s => (s.call B C c).map Prod.snd).toList

end

end EspressifApp.LedStrip
