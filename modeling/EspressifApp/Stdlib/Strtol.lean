import Mathlib.Data.List.TakeWhile
import Mathlib.Data.Nat.Digits.Defs
import Mathlib.Order.MinMax

/-!
`strtol` of the C library, in base ten and with a `long` of 32 bits. It reads
the longest number at the beginning of a string, after blanks and a sign, and
saturates; where the string begins with no number it returns zero. The grammar
of what it reads is `Numeral`, and `leading_eq_some_iff` says that the two
agree.
-/

namespace EspressifApp.Stdlib

/-! ### Characters -/

/-- The characters of a C string, without the final zero. -/
abbrev CString := List UInt8

def isspace (c : UInt8) : Bool := c == 0x20 || (0x09 ≤ c && c ≤ 0x0d)

def isdigit (c : UInt8) : Bool := 0x30 ≤ c && c ≤ 0x39

def digitValue (c : UInt8) : ℕ := c.toNat - 0x30

inductive Sign
  | none
  | plus
  | minus
  deriving DecidableEq, Repr

def Sign.text : Sign → CString
  | .none => []
  | .plus => [0x2b]
  | .minus => [0x2d]

def Sign.apply (sign : Sign) (magnitude : ℕ) : ℤ :=
  if sign = .minus then -magnitude else magnitude

/-! ### Reading -/

def Sign.read : CString → Sign × CString
  | [] => (.none, [])
  | c :: rest =>
      if c = 0x2b then (.plus, rest) else if c = 0x2d then (.minus, rest) else (.none, c :: rest)

def leading (s : CString) : Option (ℤ × CString) :=
  let signed := Sign.read (s.dropWhile isspace)
  let digits := signed.2.takeWhile isdigit
  if digits = [] then none
  else
    let magnitude := digits.foldl (fun value c => 10 * value + digitValue c) 0
    some (signed.1.apply magnitude, signed.2.dropWhile isdigit)

def longMax : ℤ := 0x7fffffff

def longMin : ℤ := -0x80000000

/-- `strtol(s, &endptr, 10)`: the value, and the string at `endptr`. -/
def strtol (s : CString) : ℤ × CString :=
  match leading s with
  | none => (0, s)
  | some (value, rest) => (max longMin (min value longMax), rest)

/-! ### The grammar -/

/-- A decimal number, with the blanks and the sign `strtol` allows before it. -/
structure Numeral where
  blanks : CString
  sign : Sign
  digits : CString
  blanks_isspace : ∀ c ∈ blanks, isspace c = true
  digits_isdigit : ∀ c ∈ digits, isdigit c = true
  digits_ne_nil : digits ≠ []

def Numeral.text (n : Numeral) : CString := n.blanks ++ n.sign.text ++ n.digits

def Numeral.value (n : Numeral) : ℤ :=
  n.sign.apply (Nat.ofDigits 10 (n.digits.map digitValue).reverse)

def EndsNumber (rest : CString) : Prop := ∀ c ∈ rest.head?, isdigit c = false

/-! ### Reading what the grammar writes -/

theorem takeWhile_dropWhile_append {α : Type*} {p : α → Bool} {rest : List α}
    (hrest : ∀ c ∈ rest.head?, p c = false) :
    ∀ run : List α, (∀ c ∈ run, p c = true) →
      (run ++ rest).takeWhile p = run ∧ (run ++ rest).dropWhile p = rest
  | [], _ => by
      cases rest with
      | nil => exact ⟨rfl, rfl⟩
      | cons c rest => simp [hrest c rfl]
  | c :: run, hrun => by
      have ih := takeWhile_dropWhile_append hrest run fun d hd => hrun d (List.mem_cons_of_mem c hd)
      simp [hrun c List.mem_cons_self, ih]

theorem foldl_digits (digits : CString) :
    digits.foldl (fun value c => 10 * value + digitValue c) 0 =
      Nat.ofDigits 10 (digits.map digitValue).reverse := by
  rw [Nat.ofDigits_eq_foldr, List.foldr_reverse, List.foldl_map]
  simp only [Nat.cast_id, add_comm]

theorem isdigit_ne {c : UInt8} (hc : isdigit c = true) :
    isspace c = false ∧ c ≠ 0x2b ∧ c ≠ 0x2d := by
  simp only [isdigit, Bool.and_eq_true, decide_eq_true_eq, UInt8.le_iff_toNat_le] at hc
  simp only [isspace, Bool.or_eq_false_iff, beq_eq_false_iff_ne, Bool.and_eq_false_iff,
    decide_eq_false_iff_not, UInt8.le_iff_toNat_le, ne_eq, ← UInt8.toNat_inj]
  simp at hc ⊢
  omega

theorem Sign.read_text_append (sign : Sign) {digits : CString}
    (hdigits : ∀ c ∈ digits.head?, isdigit c = true) :
    Sign.read (sign.text ++ digits) = (sign, digits) := by
  cases sign with
  | none =>
      cases digits with
      | nil => rfl
      | cons c rest =>
          obtain ⟨-, hplus, hminus⟩ := isdigit_ne (hdigits c rfl)
          simp [Sign.text, Sign.read, hplus, hminus]
  | plus => rfl
  | minus => rfl

theorem Sign.text_read (s : CString) : (Sign.read s).1.text ++ (Sign.read s).2 = s := by
  cases s with
  | nil => rfl
  | cons c rest =>
      simp only [Sign.read]
      split_ifs with hplus hminus <;> simp [Sign.text, *]

theorem Sign.text_append_not_isspace (sign : Sign) {digits : CString}
    (hdigits : ∀ c ∈ digits.head?, isdigit c = true) :
    ∀ c ∈ (sign.text ++ digits).head?, isspace c = false := by
  cases sign with
  | none => exact fun c hc => (isdigit_ne (hdigits c hc)).1
  | plus | minus => rintro c ⟨⟩; rfl

theorem leading_text_append (n : Numeral) {rest : CString} (hrest : EndsNumber rest) :
    leading (n.text ++ rest) = some (n.value, rest) := by
  obtain ⟨blanks, sign, digits, hblanks, hdigits, hne⟩ := n
  have hhead : ∀ c ∈ (digits ++ rest).head?, isdigit c = true := by
    cases digits with
    | nil => exact absurd rfl hne
    | cons d digits => rintro c ⟨⟩; exact hdigits d List.mem_cons_self
  have hskip : (blanks ++ (sign.text ++ (digits ++ rest))).dropWhile isspace =
      sign.text ++ (digits ++ rest) :=
    (takeWhile_dropWhile_append (sign.text_append_not_isspace hhead) blanks hblanks).2
  obtain ⟨htake, hdrop⟩ := takeWhile_dropWhile_append hrest digits hdigits
  rw [leading, Numeral.text, List.append_assoc, List.append_assoc, hskip,
    sign.read_text_append hhead]
  simp only [htake, hdrop, if_neg hne, foldl_digits, Numeral.value]

theorem exists_numeral_of_leading {s rest : CString} {value : ℤ}
    (h : leading s = some (value, rest)) :
    ∃ n : Numeral, n.value = value ∧ s = n.text ++ rest ∧ EndsNumber rest := by
  have hread := Sign.text_read (s.dropWhile isspace)
  simp only [leading] at h
  generalize Sign.read (s.dropWhile isspace) = signed at h hread
  split_ifs at h with hne
  cases h
  refine ⟨⟨s.takeWhile isspace, signed.1, signed.2.takeWhile isdigit,
    fun c hc => List.mem_takeWhile_imp hc, fun c hc => List.mem_takeWhile_imp hc, hne⟩,
    ?_, ?_, ?_⟩
  · rw [Numeral.value, foldl_digits]
  · rw [Numeral.text, List.append_assoc, List.append_assoc, List.takeWhile_append_dropWhile,
      hread, List.takeWhile_append_dropWhile]
  · intro c hc
    have hstop := List.head?_dropWhile_not isdigit signed.2
    rw [Option.mem_def.mp hc] at hstop
    simpa using hstop

/-- `strtol` reads the longest number at the beginning of the string. -/
theorem leading_eq_some_iff {s rest : CString} {value : ℤ} : leading s = some (value, rest) ↔
    ∃ n : Numeral, n.value = value ∧ s = n.text ++ rest ∧ EndsNumber rest := by
  refine ⟨exists_numeral_of_leading, ?_⟩
  rintro ⟨n, rfl, rfl, hrest⟩
  exact leading_text_append n hrest

/-- The number a string begins with, and zero if it begins with none. -/
def leadingNumber (s : CString) : ℤ := ((leading s).map Prod.fst).getD 0

theorem strtol_fst (s : CString) :
    (strtol s).1 = max longMin (min (leadingNumber s) longMax) := by
  unfold strtol leadingNumber
  cases leading s <;> rfl

theorem strtol_le (s : CString) : (strtol s).1 ≤ longMax := by
  rw [strtol_fst]
  exact max_le (by decide) (min_le_right _ _)

/-- Saturation keeps the sign. -/
theorem strtol_pos_iff (s : CString) : 0 < (strtol s).1 ↔ 1 ≤ leadingNumber s := by
  rw [strtol_fst, longMin, longMax]
  omega

/-- A string that is a number from its beginning to its end, with its value. -/
def Spells (s : CString) (value : ℤ) : Prop := ∃ n : Numeral, n.text = s ∧ n.value = value

theorem spells_iff {s : CString} {value : ℤ} : Spells s value ↔ leading s = some (value, []) := by
  rw [leading_eq_some_iff]
  constructor
  · rintro ⟨n, rfl, rfl⟩
    exact ⟨n, rfl, (List.append_nil _).symm, by simp [EndsNumber]⟩
  · rintro ⟨n, rfl, rfl, -⟩
    exact ⟨n, (List.append_nil _).symm, rfl⟩

theorem Spells.leadingNumber_eq {s : CString} {value : ℤ} (h : Spells s value) :
    leadingNumber s = value := by
  rw [leadingNumber, spells_iff.mp h]
  rfl

theorem strtol_of_spells {s : CString} {value : ℤ} (h : Spells s value)
    (hlow : longMin ≤ value) (hhigh : value ≤ longMax) : (strtol s).1 = value := by
  rw [strtol_fst, h.leadingNumber_eq, min_eq_left hhigh, max_eq_right hlow]

instance (s : CString) (value : ℤ) : Decidable (Spells s value) :=
  decidable_of_iff _ spells_iff.symm

end EspressifApp.Stdlib
