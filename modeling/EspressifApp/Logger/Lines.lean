import EspressifApp.Logger.Model

/-!
The line a message is printed as. `vasprintf` leaves the text in a buffer with a
NUL behind it; the loop of `handlePostedLogMessage` overwrites the newlines at
its end with NULs; and `puts` prints up to the first NUL. Together they print
the text without the carriage returns and line feeds at its end.
-/

namespace EspressifApp.Logger

def Formatted.line : Formatted → Option (List UInt8)
  | .text t => if t.bytes = [] then none else some (t.bytes.rdropWhile isEol)
  | .failed => none

def Formatted.NulFree : Formatted → Prop
  | .text t => 0 ∉ t.bytes
  | .failed => True

instance (msg : Formatted) : Decidable msg.NulFree := by
  cases msg <;> unfold Formatted.NulFree <;> infer_instance

def bufLine (buf : List UInt8) : List UInt8 := (cstr buf).rdropWhile isEol

/-- A buffer after its string: nothing, or a NUL. -/
def Terminated (rest : List UInt8) : Prop := ∀ c ∈ rest.head?, c = 0

theorem terminated_cons (rest : List UInt8) : Terminated (0 :: rest) := by
  intro c hc
  exact (Option.some.inj hc).symm

theorem terminated_dropWhile (buf : List UInt8) : Terminated (buf.dropWhile (· ≠ 0)) := by
  induction buf with
  | nil => exact fun _ => nofun
  | cons c buf ih =>
      rw [List.dropWhile_cons]
      split_ifs with hc
      · exact ih
      · rw [decide_eq_true_eq, not_not] at hc
        rw [hc]
        exact terminated_cons buf

theorem cstr_of_terminated {rest : List UInt8} (h : Terminated rest) : cstr rest = [] := by
  cases rest with
  | nil => rfl
  | cons c rest => simp [cstr, h c rfl]

theorem cstr_append {l rest : List UInt8} (hl : 0 ∉ l) (h : Terminated rest) :
    cstr (l ++ rest) = l := by
  rw [cstr, List.takeWhile_append_of_pos, ← cstr, cstr_of_terminated h, List.append_nil]
  intro c hc
  rw [decide_eq_true_eq]
  rintro rfl
  exact hl hc

/-- The loop replaces the newlines at the end of the string, and stops at the
first character that is none. -/
theorem cstr_trimLoop (l rest : List UInt8) (hl : 0 ∉ l) (h : Terminated rest) :
    cstr (trimLoop (l ++ rest) l.length) = l.rdropWhile isEol := by
  induction l using List.reverseRecOn generalizing rest with
  | nil => simpa [trimLoop] using cstr_of_terminated h
  | append_singleton l c ih =>
      have hl' : 0 ∉ l := fun hmem => hl (List.mem_append_left _ hmem)
      have hget : (l ++ [c] ++ rest).getD l.length 0 = c := by simp
      rw [List.length_append, List.length_singleton, trimLoop, hget, List.rdropWhile_concat]
      split_ifs with heol
      · rw [show (l ++ [c] ++ rest).set l.length 0 = l ++ (0 :: rest) by simp]
        exact ih (0 :: rest) hl' (terminated_cons rest)
      · exact cstr_append hl h

theorem cstr_trim (buf : List UInt8) : cstr (trim buf) = bufLine buf := by
  have hsplit : buf = cstr buf ++ buf.dropWhile (· ≠ 0) := List.takeWhile_append_dropWhile.symm
  have hl : 0 ∉ cstr buf := fun h => by simpa using List.mem_takeWhile_imp h
  calc cstr (trim buf)
      = cstr (trimLoop (cstr buf ++ buf.dropWhile (· ≠ 0)) (cstr buf).length) := by
        rw [← hsplit]; rfl
    _ = bufLine buf := cstr_trimLoop _ _ hl (terminated_dropWhile buf)

theorem bufLine_text {t : Text} (h : 0 ∉ t.bytes) :
    bufLine (t.bytes ++ [0]) = t.bytes.rdropWhile isEol := by
  rw [bufLine, cstr_append h (terminated_cons [])]

theorem len_text_pos_iff (t : Text) : 0 < (Formatted.text t).len ↔ t.bytes ≠ [] := by
  have hshort := t.short
  have hlen : (Formatted.text t).len.toNat = t.bytes.length := by
    simp only [Formatted.len, Nat.toUInt32, UInt32.toNat_ofNat']
    omega
  rw [UInt32.lt_iff_toNat_lt, hlen]
  exact List.length_pos_iff

end EspressifApp.Logger
