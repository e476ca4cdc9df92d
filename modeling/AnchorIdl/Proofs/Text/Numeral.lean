/-
# Numerals spell their numbers

The decimal numeral of a number has digits only, begins with a zero only if the
number is zero, and spells the number (`digitsValue_ofNat`); so different
numbers have different numerals (`ofNat_injective`).  An integer is short enough
to be written exactly if it is below a power of ten (`isShort_iff`), and what
some digits spell is below the power for their number (`digitsValue_lt`): so
what could be read can be written.  A hexadecimal numeral has as many digits as
it is wide.
-/

import AnchorIdl.Proofs.Text.Basic
import Mathlib.Algebra.Group.Nat.Defs
import Mathlib.Data.List.Induction
import Mathlib.Logic.Function.Basic

namespace AnchorIdl
namespace Text

/-! ### Decimal numerals -/

theorem isDigit_of_mem_ofNat {n : Nat} {c : CodePoint} (h : c ∈ ofNat n) : c.isDigit = true := by
  obtain ⟨d, hd, rfl⟩ := List.mem_map.1 h
  have hdigit := Nat.isDigit_of_mem_toDigits (by decide) (by decide) hd
  obtain ⟨h0, h9⟩ : 48 ≤ d.toNat ∧ d.toNat ≤ 57 := by
    simpa [Char.isDigit, UInt32.le_iff_toNat_le] using hdigit
  exact Bool.and_eq_true_iff.2 ⟨decide_eq_true h0, decide_eq_true h9⟩

theorem digitsValue_ofNat (n : Nat) : digitsValue (ofNat n) = n := by
  unfold digitsValue ofNat
  rw [List.foldl_map]
  exact Nat.ofDigitChars_ten_toDigits

theorem ofNat_injective : Function.Injective ofNat :=
  Function.LeftInverse.injective digitsValue_ofNat

theorem ofNat_ne_nil (n : Nat) : ofNat n ≠ [] := by
  simp [ofNat]

theorem head?_toDigits (n : Nat) (hn : 0 < n) : (Nat.toDigits 10 n).head? ≠ some '0' := by
  rw [Nat.toDigits_eq_if (by decide)]
  split
  · simp only [List.head?_cons, ne_eq, Option.some.injEq, Nat.digitChar_eq_zero]
    omega
  · have ih := head?_toDigits (n / 10) (by omega)
    rwa [List.head?_append, Option.or_of_isSome (by simp [List.isSome_head?])]

/-- A numeral begins with a zero only if that is all of it. -/
theorem tail_eq_nil_of_ofNat {n : Nat} {digits : Text}
    (h : ofNat n = CodePoint.ofChar '0' :: digits) : digits = [] := by
  rcases Nat.eq_zero_or_pos n with rfl | hn
  · have hzero : ofNat 0 = [CodePoint.ofChar '0'] := by simp [ofNat]
    exact (List.cons.inj (hzero.symm.trans h)).2.symm
  · refine absurd ?_ (head?_toDigits n hn)
    unfold ofNat at h
    obtain ⟨c, cs, hc, hchar, _⟩ := List.map_eq_cons_iff.1 h
    rw [hc, List.head?_cons, CodePoint.ofChar_injective hchar]

/-! ### Short integers -/

theorem isShort_iff {n : Int} : isShort n = true ↔ n.natAbs < 10 ^ maxDigits := by
  rw [isShort, decide_eq_true_iff, ofNat, List.length_map]
  exact Nat.length_toDigits_le_iff (by decide) (by decide)

theorem isShort_byte (b : UInt8) : isShort b.toNat = true := by
  have hmax : 10 ^ 3 ≤ 10 ^ maxDigits := Nat.pow_le_pow_right (by decide) (by decide)
  have hb := b.toNat_lt
  rw [isShort_iff, Int.natAbs_natCast]
  omega

/-- What some digits spell is below the power of ten for their number. -/
theorem digitsValue_lt {digits : Text} (h : ∀ d ∈ digits, d.isDigit = true) :
    digitsValue digits < 10 ^ digits.length := by
  unfold digitsValue
  induction digits using List.reverseRecOn with
  | nil => simp
  | append_singleton digits d ih =>
    rw [List.forall_mem_append, List.forall_mem_singleton, CodePoint.isDigit,
      Bool.and_eq_true, decide_eq_true_iff, decide_eq_true_iff] at h
    have hdigits := ih h.1
    rw [List.foldl_append, List.length_append, List.length_singleton, Nat.pow_succ]
    dsimp only [List.foldl_cons, List.foldl_nil]
    omega

/-- An integer with no more digits than may be read can be written. -/
theorem isShort_digitsValue {digits : Text} (h : ∀ d ∈ digits, d.isDigit = true)
    (hlength : digits.length ≤ maxDigits) {n : Int} (hn : n.natAbs = digitsValue digits) :
    isShort n = true := by
  rw [isShort_iff, hn]
  exact Nat.lt_of_lt_of_le (digitsValue_lt h) (Nat.pow_le_pow_right (by decide) hlength)

/-! ### Hexadecimal numerals -/

theorem length_hex (width n : Nat) : (hex width n).length = width := by
  induction width generalizing n with
  | zero => rfl
  | succ width ih => simp [hex, ih]

theorem hexValue?_digitChar {d : Nat} (h : d < 16) :
    (CodePoint.ofChar (Nat.digitChar d)).hexValue? = some d := by
  revert h
  revert d
  decide

end Text
end AnchorIdl
