import EspressifApp.LedStrip.Device
import Mathlib.Tactic.Ring

/-!
What an LED strip shows.

`Panel` says what the strip is for: colours are set in a frame, and a refresh
shows the frame. Over every sequence of calls the strip shows what the panel
shows, however the memory of the RMT channel is cut up (`ledStrip_shows`), as
long as the size of the pixel buffer fits in 32 bits (`Fits`); otherwise a call
with a valid index writes outside it (`setPixel_inBounds_iff`).
-/

namespace EspressifApp.LedStrip

open Reactive

/-! ### What the strip is for -/

structure Panel where
  frame : List Colour
  leds : List Colour
  deriving DecidableEq, Repr

def colour (red green blue : UInt32) : Colour := ⟨red.toUInt8, green.toUInt8, blue.toUInt8⟩

def dark : Colour := ⟨0, 0, 0⟩

def Panel.call (p : Panel) : StripCall → Panel × EspErr
  | .setPixel index red green blue =>
      if index.toNat < p.frame.length then
        ({ p with frame := p.frame.set index.toNat (colour red green blue) }, espOk)
      else (p, espErrInvalidArg)
  | .refresh rmt =>
      if rmt.transmit = espOk then ({ p with leds := p.frame }, rmt.waitAllDone)
      else (p, rmt.transmit)
  | .clear rmt =>
      let black := List.replicate p.frame.length dark
      if rmt.transmit = espOk then (⟨black, black⟩, rmt.waitAllDone)
      else (⟨black, p.leds⟩, rmt.transmit)

def panel (n : ℕ) (leds : List Colour) : Machine Panel StripCall EspErr where
  init := ⟨List.replicate n dark, leds⟩
  next p c := (p.call c).1
  out p c := [(p.call c).2]

/-! ### Bytes on the wire -/

@[simp] theorem bit_bit0 : bit0.bit = false := by decide

@[simp] theorem bit_bit1 : bit1.bit = true := by decide

theorem foldl_bits (x n acc : ℕ) :
    ((List.range n).reverse.map x.testBit).foldl (fun m b => 2 * m + b.toNat) acc =
      acc * 2 ^ n + x % 2 ^ n := by
  induction n generalizing acc with
  | zero => simp [Nat.mod_one]
  | succ n ih =>
      rw [List.range_succ, List.reverse_append, List.reverse_singleton, List.singleton_append,
        List.map_cons, List.foldl_cons, ih, Nat.mod_pow_succ, Nat.toNat_testBit, Nat.pow_succ]
      ring

theorem byteOf_bits (b : UInt8) :
    byteOf ([7, 6, 5, 4, 3, 2, 1, 0].map fun i => b.toNat.testBit i) = b := by
  have hvalue := foldl_bits b.toNat 8 0
  rw [Nat.zero_mul, Nat.zero_add, Nat.mod_eq_of_lt b.toNat_lt] at hvalue
  exact (congrArg UInt8.ofNat hvalue).trans UInt8.ofNat_toNat

theorem byteSymbols_bits (b : UInt8) :
    (byteSymbols b).map Symbol.bit = [7, 6, 5, 4, 3, 2, 1, 0].map fun i => b.toNat.testBit i := by
  rw [byteSymbols, List.map_map]
  apply List.map_congr_left
  intro i _
  show (if b.toNat.testBit i then bit1 else bit0).bit = b.toNat.testBit i
  cases b.toNat.testBit i <;> rfl

/-- The LEDs read back the bytes that were encoded. -/
theorem readBytes_pixels (d : List UInt8) :
    readBytes ((d.flatMap byteSymbols).map Symbol.bit) = d := by
  induction d with
  | nil => rfl
  | cons b d ih =>
      rw [List.flatMap_cons, List.map_append, byteSymbols_bits]
      show byteOf ([7, 6, 5, 4, 3, 2, 1, 0].map fun i => b.toNat.testBit i) ::
        readBytes ((d.flatMap byteSymbols).map Symbol.bit) = b :: d
      rw [ih, byteOf_bits]

theorem isReset_of_mem_pixels {d : List UInt8} {x : Symbol} (hx : x ∈ d.flatMap byteSymbols) :
    x.isReset = false := by
  obtain ⟨b, -, hx⟩ := List.mem_flatMap.mp hx
  obtain ⟨i, -, rfl⟩ := List.mem_map.mp hx
  split <;> rfl

/-- A whole transmission shows its pixels. -/
theorem latch_transmission (leds : List Colour) (d : List UInt8) :
    latch leds (d.flatMap byteSymbols ++ [resetCode]) =
      readColours d ++ leds.drop (readColours d).length := by
  have hany : (d.flatMap byteSymbols ++ [resetCode]).any Symbol.isReset = true := by
    simp [resetCode, Symbol.isReset]
  have htake : (d.flatMap byteSymbols ++ [resetCode]).takeWhile (!·.isReset) =
      d.flatMap byteSymbols := by
    rw [List.takeWhile_append_of_pos]
    · simp [resetCode, Symbol.isReset]
    · intro x hx
      simp [isReset_of_mem_pixels hx]
  rw [latch, if_pos hany, htake, readBytes_pixels]

/-! ### The pixel buffer -/

theorem readColours_length {n : ℕ} {buf : List UInt8} (hbuf : buf.length = 3 * n) :
    (readColours buf).length = n := by
  induction n generalizing buf with
  | zero =>
      obtain rfl := List.length_eq_zero_iff.mp hbuf
      rfl
  | succ n ih =>
      obtain ⟨g, r, b, rest, rfl⟩ : ∃ g r b rest, buf = g :: r :: b :: rest := by
        match buf, hbuf with
        | g :: r :: b :: rest, _ => exact ⟨g, r, b, rest, rfl⟩
      simp only [List.length_cons] at hbuf
      have hrest : rest.length = 3 * n := by omega
      simpa [readColours] using ih hrest

theorem readColours_set {n i : ℕ} {buf : List UInt8} (hbuf : buf.length = 3 * n) (hi : i < n)
    (r g b : UInt8) :
    readColours (((buf.set (3 * i) g).set (3 * i + 1) r).set (3 * i + 2) b) =
      (readColours buf).set i ⟨r, g, b⟩ := by
  induction n generalizing buf i with
  | zero => omega
  | succ n ih =>
      obtain ⟨g', r', b', rest, rfl⟩ : ∃ g r b rest, buf = g :: r :: b :: rest := by
        match buf, hbuf with
        | g :: r :: b :: rest, _ => exact ⟨g, r, b, rest, rfl⟩
      simp only [List.length_cons] at hbuf
      cases i with
      | zero => rfl
      | succ i =>
          rw [show 3 * (i + 1) = 3 * i + 1 + 1 + 1 by omega]
          simp only [List.set_cons_succ, readColours]
          exact congrArg _ (ih (by omega) (by omega))

theorem readColours_zero (n : ℕ) :
    readColours (List.replicate (3 * n) 0) = List.replicate n dark := by
  induction n with
  | zero => rfl
  | succ n ih => simp [Nat.mul_succ, List.replicate_succ, readColours, ih, dark]

/-! ### The calls -/

/-- The object with its pixels fits in 32 bits. -/
def Fits (maxLeds : UInt32) : Prop := objSize.toNat + 3 * maxLeds.toNat < 0x100000000

/-- A strip whose buffer has three bytes for each LED. -/
structure Strip.Sized (s : Strip) (maxLeds : UInt32) : Prop where
  fits : Fits maxLeds
  stripLen : s.stripLen = maxLeds
  pixelBuf : s.pixelBuf.length = 3 * maxLeds.toNat

theorem toNat_mul_three {maxLeds : UInt32} (hfits : Fits maxLeds) :
    (maxLeds * 3).toNat = 3 * maxLeds.toNat := by
  rw [UInt32.toNat_mul, Nat.mod_eq_of_lt]
  · exact Nat.mul_comm _ _
  · simp only [Fits] at hfits
    show maxLeds.toNat * 3 < 0x100000000
    omega

theorem Strip.sized_new {maxLeds : UInt32} (hfits : Fits maxLeds) :
    (Strip.new maxLeds).Sized maxLeds := by
  refine ⟨hfits, rfl, ?_⟩
  rw [Strip.new, List.length_replicate, UInt32.toNat_add, toNat_mul_three hfits,
    Nat.mod_eq_of_lt hfits]
  omega

theorem write_eq {buf : List UInt8} {i : UInt32} {n : ℕ} (hi : i.toNat = n) (hn : n < buf.length)
    (v : UInt8) : write buf i v = some (buf.set n v) := by
  rw [write, hi, if_pos hn]

theorem write_length {buf buf' : List UInt8} {i : UInt32} {v : UInt8}
    (hwrite : write buf i v = some buf') : buf'.length = buf.length := by
  simp only [write, Option.ite_none_right_eq_some, Option.some.injEq] at hwrite
  rw [← hwrite.2, List.length_set]

theorem low_byte (v : UInt32) : (v &&& 0xff).toUInt8 = v.toUInt8 := by
  apply UInt8.toNat_inj.mp
  simp only [UInt32.toNat_toUInt8, UInt32.toNat_and]
  show (v.toNat &&& (2 ^ 8 - 1)) % 2 ^ 8 = v.toNat % 2 ^ 8
  rw [Nat.and_two_pow_sub_one_eq_mod, Nat.mod_mod]

section

variable {s : Strip} {maxLeds : UInt32}

theorem Strip.Sized.setPixel (hs : s.Sized maxLeds) {index : UInt32} (hindex : index < maxLeds)
    (red green blue : UInt32) :
    s.setPixel index red green blue =
      some ({ s with
        pixelBuf := ((s.pixelBuf.set (3 * index.toNat) green.toUInt8).set
          (3 * index.toNat + 1) red.toUInt8).set (3 * index.toNat + 2) blue.toUInt8 }, espOk) := by
  have hlt : index.toNat < maxLeds.toNat := UInt32.lt_iff_toNat_lt.mp hindex
  have hlen := hs.pixelBuf
  have hfits := hs.fits
  simp only [Fits] at hfits
  have hstart : (index * 3).toNat = 3 * index.toNat :=
    toNat_mul_three (by simp only [Fits]; omega)
  have hadd : ∀ (k : UInt32) (m : ℕ), k.toNat = m → m ≤ 2 →
      (index * 3 + k).toNat = 3 * index.toNat + m := by
    rintro k m rfl hk
    rw [UInt32.toNat_add, hstart, Nat.mod_eq_of_lt]
    show _ < 0x100000000
    omega
  have hgreen : write s.pixelBuf (index * 3 + 0) green.toUInt8 =
      some (s.pixelBuf.set (3 * index.toNat) green.toUInt8) :=
    write_eq (hadd 0 0 rfl (by omega)) (by omega) _
  have hred : ∀ buf : List UInt8, buf.length = 3 * maxLeds.toNat →
      write buf (index * 3 + 1) red.toUInt8 =
        some (buf.set (3 * index.toNat + 1) red.toUInt8) := fun buf hbuf =>
    write_eq (hadd 1 1 rfl (by omega)) (by omega) _
  have hblue : ∀ buf : List UInt8, buf.length = 3 * maxLeds.toNat →
      write buf (index * 3 + 2) blue.toUInt8 =
        some (buf.set (3 * index.toNat + 2) blue.toUInt8) := fun buf hbuf =>
    write_eq (hadd 2 2 rfl (by omega)) (by omega) _
  simp only [Strip.setPixel, hs.stripLen, if_pos hindex, low_byte, hgreen, Option.bind_eq_bind,
    Option.bind_some]
  rw [hred _ (by rw [List.length_set, hlen]), Option.bind_some,
    hblue _ (by rw [List.length_set, List.length_set, hlen])]
  rfl

theorem Strip.Sized.zero (hs : s.Sized maxLeds) :
    s.zero = some { s with pixelBuf := List.replicate (3 * maxLeds.toNat) 0 } := by
  have hlen := hs.pixelBuf
  simp only [Strip.zero, hs.stripLen, toNat_mul_three hs.fits]
  rw [if_pos (by omega), List.drop_eq_nil_of_le (by omega), List.append_nil]

variable {σ κ : Type*} {B : Encoder σ (List UInt8) Symbol} {C : Encoder κ Symbol Symbol}
  {readyB : σ → Prop} {readyC : κ → Prop} {midwayB : σ → List UInt8 → List Symbol → Prop}
  {midwayC : κ → Symbol → List Symbol → Prop} {e : LedEncoder σ κ}

/-- A transmission that the driver takes sends the whole buffer and the reset
code. -/
theorem Strip.Sized.refresh (hs : s.Sized maxLeds)
    (hB : B.Resumes (·.flatMap byteSymbols) readyB midwayB)
    (hC : C.Resumes (fun r => [r]) readyC midwayC) (he : e.Ready readyB readyC resetCode)
    {rmt : Rmt} (htransmit : rmt.transmit = espOk)
    (hmemory : 24 * maxLeds.toNat + 1 ≤ rmt.memory.sum) :
    ∃ e', refresh B C s e rmt =
        some (e', s.pixelBuf.flatMap byteSymbols ++ [resetCode], rmt.waitAllDone) ∧
      e'.Ready readyB readyC resetCode := by
  have hlen := hs.pixelBuf
  have hE := ledStripEncoder_resumes hB hC resetCode (by simp)
  have hsymbols : (s.pixelBuf.flatMap byteSymbols ++ [resetCode]).length =
      24 * maxLeds.toNat + 1 := by
    have height : ∀ b ∈ s.pixelBuf, (byteSymbols b).length = 8 := fun _ _ => rfl
    rw [List.length_append, List.length_flatMap, List.map_congr_left height]
    simp [hlen]
    omega
  have hne : rmt.memory ≠ [] := by
    intro hnil
    rw [hnil, List.sum_nil] at hmemory
    omega
  obtain ⟨e', ms, htransfer, hready⟩ :=
    hE.transfer (hE.start he s.pixelBuf) hne (by rw [hsymbols]; exact hmemory)
  refine ⟨e', ?_, hready⟩
  simp only [LedStrip.refresh, hs.stripLen, toNat_mul_three hs.fits]
  rw [if_pos htransmit, if_pos (by omega), List.take_of_length_le (by omega), htransfer]
  rfl

/-! ### Every run -/

/-- The memory that the driver finds free is enough for one transmission. -/
def StripCall.Enough (maxLeds : UInt32) : StripCall → Prop
  | .setPixel .. => True
  | .refresh rmt | .clear rmt =>
      rmt.transmit = espOk → 24 * maxLeds.toNat + 1 ≤ rmt.memory.sum

structure Agrees (maxLeds : UInt32) (readyB : σ → Prop) (readyC : κ → Prop)
    (s : StripState σ κ) (p : Panel) : Prop where
  sized : s.strip.Sized maxLeds
  ready : s.encoder.Ready readyB readyC resetCode
  frame : readColours s.strip.pixelBuf = p.frame
  leds : s.leds = p.leds
  length : s.leds.length = maxLeds.toNat

variable {st : StripState σ κ} {p : Panel}

theorem Agrees.frame_length (h : Agrees maxLeds readyB readyC st p) :
    p.frame.length = maxLeds.toNat := by
  rw [← h.frame, readColours_length h.sized.pixelBuf]

theorem latch_pixels {buf : List UInt8} {leds : List Colour} (hbuf : buf.length = 3 * maxLeds.toNat)
    (hleds : leds.length = maxLeds.toNat) :
    latch leds (buf.flatMap byteSymbols ++ [resetCode]) = readColours buf := by
  rw [latch_transmission, readColours_length hbuf, List.drop_eq_nil_of_le (by omega),
    List.append_nil]

theorem latch_nil (leds : List Colour) : latch leds [] = leds := rfl

theorem refresh_refused {rmt : Rmt} (htransmit : rmt.transmit ≠ espOk) :
    refresh B C s e rmt = some (e, [], rmt.transmit) :=
  if_neg htransmit

theorem Agrees.setPixel (h : Agrees maxLeds readyB readyC st p) (index red green blue : UInt32) :
    ∃ st', st.call B C (.setPixel index red green blue) =
        some (st', (p.call (.setPixel index red green blue)).2) ∧
      Agrees maxLeds readyB readyC st' (p.call (.setPixel index red green blue)).1 := by
  have hlen := h.frame_length
  by_cases hindex : index < maxLeds
  · have hlt : index.toNat < maxLeds.toNat := UInt32.lt_iff_toNat_lt.mp hindex
    have hset := readColours_set h.sized.pixelBuf hlt red.toUInt8 green.toUInt8 blue.toUInt8
    rw [h.frame] at hset
    simp only [StripState.call, h.sized.setPixel hindex, Panel.call, hlen, if_pos hlt]
    refine ⟨_, rfl, ⟨⟨h.sized.fits, h.sized.stripLen, ?_⟩, h.ready, hset, h.leds, h.length⟩⟩
    simp only [List.length_set]
    exact h.sized.pixelBuf
  · have hlt : ¬ index.toNat < maxLeds.toNat := fun hlt => hindex (UInt32.lt_iff_toNat_lt.mpr hlt)
    simp only [StripState.call, Strip.setPixel, h.sized.stripLen, if_neg hindex, Panel.call, hlen,
      if_neg hlt]
    exact ⟨st, rfl, h⟩

theorem Agrees.refresh (hB : B.Resumes (·.flatMap byteSymbols) readyB midwayB)
    (hC : C.Resumes (fun r => [r]) readyC midwayC) (h : Agrees maxLeds readyB readyC st p)
    {rmt : Rmt} (hmemory : StripCall.Enough maxLeds (.refresh rmt)) :
    ∃ st', st.call B C (.refresh rmt) = some (st', (p.call (.refresh rmt)).2) ∧
      Agrees maxLeds readyB readyC st' (p.call (.refresh rmt)).1 := by
  by_cases htransmit : rmt.transmit = espOk
  · obtain ⟨e', hrefresh, hready⟩ := h.sized.refresh hB hC h.ready htransmit (hmemory htransmit)
    have hlatch := latch_pixels h.sized.pixelBuf h.length
    simp only [StripState.call, hrefresh, Option.map_some, Panel.call, if_pos htransmit, hlatch]
    exact ⟨_, rfl, ⟨h.sized, hready, h.frame, h.frame,
      readColours_length h.sized.pixelBuf⟩⟩
  · simp only [StripState.call, refresh_refused htransmit, Option.map_some, Panel.call,
      if_neg htransmit, latch_nil]
    exact ⟨_, rfl, ⟨h.sized, h.ready, h.frame, h.leds, h.length⟩⟩

theorem Agrees.clear (hB : B.Resumes (·.flatMap byteSymbols) readyB midwayB)
    (hC : C.Resumes (fun r => [r]) readyC midwayC) (h : Agrees maxLeds readyB readyC st p)
    {rmt : Rmt} (hmemory : StripCall.Enough maxLeds (.clear rmt)) :
    ∃ st', st.call B C (.clear rmt) = some (st', (p.call (.clear rmt)).2) ∧
      Agrees maxLeds readyB readyC st' (p.call (.clear rmt)).1 := by
  -- it is a refresh of a buffer of zeros, and of a black frame
  have hlen := h.frame_length
  let zeroed : Strip := { st.strip with pixelBuf := List.replicate (3 * maxLeds.toNat) 0 }
  let black : Panel := { p with frame := List.replicate p.frame.length dark }
  have hblack : Agrees maxLeds readyB readyC { st with strip := zeroed } black := by
    refine ⟨⟨h.sized.fits, h.sized.stripLen, List.length_replicate⟩, h.ready, ?_, h.leds, h.length⟩
    show readColours (List.replicate (3 * maxLeds.toNat) 0) = List.replicate p.frame.length dark
    rw [readColours_zero, hlen]
  have hcall : st.call B C (.clear rmt) =
      StripState.call B C { st with strip := zeroed } (.refresh rmt) := by
    simp only [StripState.call, h.sized.zero, Option.bind_some]
    rfl
  have hpanel : p.call (.clear rmt) = black.call (.refresh rmt) := rfl
  rw [hcall, hpanel]
  exact hblack.refresh hB hC hmemory

theorem Agrees.call (hB : B.Resumes (·.flatMap byteSymbols) readyB midwayB)
    (hC : C.Resumes (fun r => [r]) readyC midwayC) (h : Agrees maxLeds readyB readyC st p)
    {c : StripCall} (hmemory : c.Enough maxLeds) :
    ∃ st', st.call B C c = some (st', (p.call c).2) ∧
      Agrees maxLeds readyB readyC st' (p.call c).1 := by
  cases c with
  | setPixel index red green blue => exact h.setPixel index red green blue
  | refresh rmt => exact h.refresh hB hC hmemory
  | clear rmt => exact h.clear hB hC hmemory

theorem Agrees.new (hfits : Fits maxLeds) (he : e.Ready readyB readyC resetCode)
    {leds : List Colour} (hleds : leds.length = maxLeds.toNat) :
    Agrees maxLeds readyB readyC ⟨Strip.new maxLeds, e, leds⟩
      ⟨List.replicate maxLeds.toNat dark, leds⟩ := by
  have hsized := Strip.sized_new hfits
  refine ⟨hsized, he, ?_, rfl, hleds⟩
  have hlen := hsized.pixelBuf
  rw [Strip.new, List.length_replicate] at hlen
  show readColours (List.replicate _ 0) = _
  rw [hlen, readColours_zero]

/-- Over every sequence of calls, the strip returns what the panel returns and
shows what the panel shows. -/
theorem ledStrip_shows (hB : B.Resumes (·.flatMap byteSymbols) readyB midwayB)
    (hC : C.Resumes (fun r => [r]) readyC midwayC) (hfits : Fits maxLeds)
    (he : e.Ready readyB readyC resetCode) {leds : List Colour}
    (hleds : leds.length = maxLeds.toNat) (h : List StripCall)
    (hmemory : ∀ c ∈ h, c.Enough maxLeds) :
    (∃ st, (ledStrip B C maxLeds e leds).after h = some st ∧
      st.leds = ((panel maxLeds.toNat leds).after h).leds) ∧
    (ledStrip B C maxLeds e leds).traceFrom (ledStrip B C maxLeds e leds).init h =
      (panel maxLeds.toNat leds).traceFrom (panel maxLeds.toNat leds).init h := by
  have hsim := Machine.simulation (M := ledStrip B C maxLeds e leds) (N := panel maxLeds.toNat leds)
    (R := fun s p => ∃ st, s = some st ∧ Agrees maxLeds readyB readyC st p)
    ⟨_, rfl, .new hfits he hleds⟩ ?_ h
    (Machine.along_of_forall hmemory)
  · obtain ⟨⟨st, hst, hagrees⟩, htrace⟩ := hsim
    exact ⟨⟨st, hst, hagrees.leds⟩, htrace⟩
  · rintro _ p c ⟨st, rfl, hagrees⟩ hc
    obtain ⟨st', hcall, hagrees'⟩ := hagrees.call hB hC hc
    constructor
    · show ((st.call B C c).map Prod.snd).toList = [(p.call c).2]
      rw [hcall]
      rfl
    · refine ⟨st', ?_, hagrees'⟩
      show (st.call B C c).map Prod.fst = some st'
      rw [hcall]
      rfl

end

/-- The driver refuses to show two colours, and then shows them, with memory for
twenty symbols at a time. -/
def twoColours : List StripCall :=
  [.setPixel 0 5 6 7, .setPixel 1 90 80 10, .setPixel 2 9 9 9, .refresh ⟨0x103, [], espOk⟩,
    .refresh ⟨espOk, [20, 20, 20], espOk⟩]

theorem ledStrip_shows_two :
    (((∃ st, (ledStrip (.positional (·.flatMap byteSymbols)) (.positional fun r => [r]) 2
          ⟨0, 0, 0, resetCode⟩ [dark, dark]).after
          (twoColours ++ [.clear ⟨espOk, [64], espOk⟩]) = some st ∧
        st.leds = ((panel 2 [dark, dark]).after
          (twoColours ++ [.clear ⟨espOk, [64], espOk⟩])).leds) ∧
      (ledStrip (.positional (·.flatMap byteSymbols)) (.positional fun r => [r]) 2
          ⟨0, 0, 0, resetCode⟩ [dark, dark]).traceFrom
          (some ⟨.new 2, ⟨0, 0, 0, resetCode⟩, [dark, dark]⟩)
          (twoColours ++ [.clear ⟨espOk, [64], espOk⟩]) =
        (panel 2 [dark, dark]).traceFrom ⟨[dark, dark], [dark, dark]⟩
          (twoColours ++ [.clear ⟨espOk, [64], espOk⟩]))) ∧
    ((panel 2 [dark, dark]).after twoColours).leds = [⟨5, 6, 7⟩, ⟨90, 80, 10⟩] :=
  ⟨ledStrip_shows (Encoder.positional_resumes _) (Encoder.positional_resumes _)
    (by unfold Fits; decide) ⟨rfl, rfl, rfl, rfl⟩ rfl _
    (by simp [twoColours, StripCall.Enough, espOk]), by decide⟩

/-! ### Where the buffer ends -/

/-- Every index the check lets through is inside the allocation exactly when
its size does not wrap. -/
theorem setPixel_inBounds_iff (maxLeds : UInt32) :
    (∀ index < maxLeds, ∀ red green blue,
      (Strip.new maxLeds).setPixel index red green blue ≠ none) ↔ Fits maxLeds := by
  constructor
  · intro hsome
    by_contra hwraps
    simp only [Fits, not_lt] at hwraps
    have hsize : objSize.toNat = 28 := rfl
    have hindex : (1431655755 : UInt32) < maxLeds := by
      rw [UInt32.lt_iff_toNat_lt]
      show 1431655755 < maxLeds.toNat
      omega
    refine hsome 1431655755 hindex 0 0 0 ?_
    -- the third byte of that pixel ends where the largest block could end
    have hlast : ∀ buf : List UInt8, buf.length = (Strip.new maxLeds).pixelBuf.length →
        write buf (1431655755 * 3 + 2) (0 &&& 0xff : UInt32).toUInt8 = none := by
      intro buf hbuf
      have hlt := (objSize + maxLeds * 3).toNat_lt
      rw [Strip.new, List.length_replicate] at hbuf
      apply if_neg
      show ¬ 4294967267 < buf.length
      omega
    rw [Strip.setPixel, show (Strip.new maxLeds).stripLen = maxLeds from rfl, if_pos hindex]
    simp only [Option.bind_eq_bind, Option.bind_eq_none_iff]
    intro buf₁ h₁ buf₂ h₂
    rw [hlast buf₂ (by rw [write_length h₂, write_length h₁])]
    intro buf₃ h₃
    contradiction
  · intro hfits index hindex red green blue
    rw [(Strip.sized_new hfits).setPixel hindex]
    simp

end EspressifApp.LedStrip
