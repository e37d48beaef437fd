import Mathlib.Data.List.Basic
import LoadCoach.Foundations.Text

/-! # Digits

What `str.isdigit` and `int` make of a character: the decimal digits of every script have a value,
and a superscript or a circled figure is a digit without one.  So a string of digits need not be a
number, and a number has no more than a few thousand digits (`intOfDigits_isSome_iff`). -/

namespace Foundations

/-- The zeros of the scripts, each followed by its other nine digits. -/
def decimalZeros : List ℕ :=
  [0x30, 0x660, 0x6f0, 0x7c0, 0x966, 0x9e6, 0xa66, 0xae6, 0xb66, 0xbe6, 0xc66, 0xce6, 0xd66, 0xde6,
   0xe50, 0xed0, 0xf20, 0x1040, 0x1090, 0x17e0, 0x1810, 0x1946, 0x19d0, 0x1a80, 0x1a90, 0x1b50,
   0x1bb0, 0x1c40, 0x1c50, 0xa620, 0xa8d0, 0xa900, 0xa9d0, 0xa9f0, 0xaa50, 0xabf0, 0xff10, 0x104a0,
   0x10d30, 0x11066, 0x110f0, 0x11136, 0x111d0, 0x112f0, 0x11450, 0x114d0, 0x11650, 0x116c0,
   0x11730, 0x118e0, 0x11950, 0x11c50, 0x11d50, 0x11da0, 0x11f50, 0x16a60, 0x16ac0, 0x16b50,
   0x1d7ce, 0x1d7d8, 0x1d7e2, 0x1d7ec, 0x1d7f6, 0x1e140, 0x1e2f0, 0x1e4f0, 0x1e950, 0x1fbf0]

/-- The ranges of the digits that are not decimal: superscripts, circled figures and the like. -/
def otherDigits : List (ℕ × ℕ) :=
  [(0xb2, 0xb3), (0xb9, 0xb9), (0x1369, 0x1371), (0x19da, 0x19da), (0x2070, 0x2070),
   (0x2074, 0x2079), (0x2080, 0x2089), (0x2460, 0x2468), (0x2474, 0x247c), (0x2488, 0x2490),
   (0x24ea, 0x24ea), (0x24f5, 0x24fd), (0x24ff, 0x24ff), (0x2776, 0x277e), (0x2780, 0x2788),
   (0x278a, 0x2792), (0x10a40, 0x10a43), (0x10e60, 0x10e68), (0x11052, 0x1105a),
   (0x1f100, 0x1f10a)]

/-- The value of a decimal digit. -/
def decimalValue? (c : Char) : Option ℕ :=
  (decimalZeros.find? fun first => first ≤ c.toNat && c.toNat < first + 10).map (c.toNat - ·)

/-- `str.isdigit` of one character. -/
def isDigit (c : Char) : Bool :=
  (decimalValue? c).isSome || otherDigits.any fun r => r.1 ≤ c.toNat && c.toNat ≤ r.2

/-- `str.isdigit`. -/
def isDigits (s : String) : Bool := !s.toList.isEmpty && s.toList.all isDigit

/-- The number some decimal digits spell, read on from a number. -/
def decimalFrom : ℕ → List Char → Option ℕ
  | n, [] => some n
  | n, c :: s => (decimalValue? c).bind fun d => decimalFrom (10 * n + d) s

/-- The number a string of decimal digits spells. -/
def decimal? (s : String) : Option ℕ := decimalFrom 0 s.toList

/-- The digits a string may have where it is read as a number. -/
def maxStrDigits : ℕ := 4300

/-- `int` of a string of digits; `none` where it raises. -/
def intOfDigits (s : String) : Option ℕ :=
  if maxStrDigits < s.toList.length then none else decimal? s

theorem decimalFrom_isSome_iff {n : ℕ} {s : List Char} :
    (decimalFrom n s).isSome = true ↔ ∀ c ∈ s, (decimalValue? c).isSome = true := by
  induction s generalizing n with
  | nil => simp [decimalFrom]
  | cons c s ih =>
      rw [decimalFrom, List.forall_mem_cons]
      cases decimalValue? c with
      | none => simp
      | some d => simpa using ih

/-- **A string of digits is a number** when every digit is decimal and there are not too many. -/
theorem intOfDigits_isSome_iff {s : String} : (intOfDigits s).isSome = true ↔
    s.toList.length ≤ maxStrDigits ∧ ∀ c ∈ s.toList, (decimalValue? c).isSome = true := by
  unfold intOfDigits
  split_ifs with hlong
  · simp [Nat.not_le.2 hlong]
  · rw [decimal?, decimalFrom_isSome_iff]
    simp [Nat.not_lt.1 hlong]

theorem intOfDigits_eq {s : String} (h : (intOfDigits s).isSome = true) :
    intOfDigits s = decimal? s :=
  if_neg (Nat.not_lt.2 (intOfDigits_isSome_iff.1 h).1)

theorem isDigits_of_decimal {s : String} (hne : s.toList ≠ []) (h : (decimal? s).isSome = true) :
    isDigits s = true := by
  have hall := decimalFrom_isSome_iff.1 h
  simp only [isDigits, Bool.and_eq_true, Bool.not_eq_true', List.isEmpty_eq_false_iff,
    List.all_eq_true]
  exact ⟨hne, fun c hc => by rw [isDigit, hall c hc, Bool.true_or]⟩

example : isDigits "²" = true ∧ intOfDigits "²" = none ∧ intOfDigits "٤2" = some 42 := by
  decide

end Foundations
