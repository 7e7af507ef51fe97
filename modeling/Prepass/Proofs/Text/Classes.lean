/- How the classes of characters lie to each other. -/
import Prepass.Decimal.Basic
import Prepass.Text.Blank
import Prepass.Text.Digit
namespace Prepass

theorem exists_mem_of_inRanges {ranges : List (Nat × Nat)} {n : Nat} (h : inRanges ranges n = true) :
    ∃ range ∈ ranges, range.1 ≤ n ∧ n ≤ range.2 := by
  induction ranges with
  | nil => cases h
  | cons range rest ih =>
      rw [inRanges] at h
      split at h
      · rename_i hn
        exact ⟨range, List.mem_cons_self, of_decide_eq_true h, hn⟩
      · obtain ⟨other, hm, hle⟩ := ih h
        exact ⟨other, List.mem_cons_of_mem range hm, hle⟩

namespace CodePoint

variable {c : CodePoint}

theorem ofNat?_toNat (c : CodePoint) : ofNat? c.toNat = some c := by
  rw [ofNat?, dif_pos c.isLt]

theorem isIdentifierChar_of_isBlank (h : c.isBlank = true) : c.isIdentifierChar = false := by
  have hall : ∀ range ∈ blankRanges, ∀ k < range.2 + 1 - range.1,
      (ofNat? (range.1 + k)).all (fun d => !d.isIdentifierChar) = true := by
    decide +kernel
  obtain ⟨range, hm, hlow, hhigh⟩ := exists_mem_of_inRanges h
  have hc := hall range hm (c.toNat - range.1) (by omega)
  rw [Nat.add_sub_cancel' hlow, ofNat?_toNat] at hc
  simpa using hc

theorem toNat_lt_of_isAsciiDigit {base : Nat} (h : c.isAsciiDigit base = true) :
    c.toNat < 0x67 := by
  unfold isAsciiDigit asciiDigit? at h
  simp only [Bool.and_eq_true, decide_eq_true_eq] at h
  split at h
  · omega
  · split at h
    · omega
    · split at h
      · omega
      · cases h

/-- Digits of every base may stand in identifiers. -/
theorem isIdentifierChar_of_isAsciiDigit {base : Nat} (h : c.isAsciiDigit base = true) :
    c.isIdentifierChar = true := by
  have hall : ∀ n < 0x67, (ofNat? n).all
      (fun d => d.asciiDigit?.isNone || d.isIdentifierChar) = true := by
    decide +kernel
  have hc := hall c.toNat (toNat_lt_of_isAsciiDigit h)
  rw [isAsciiDigit] at h
  rw [ofNat?_toNat] at hc
  simpa [Option.isSome_iff_ne_none.mp (Option.isSome_of_any h)] using hc

/-- A decimal digit begins no identifier. -/
theorem isAsciiDigit_of_isIdentifierStart (h : c.isIdentifierStart = true) :
    c.isAsciiDigit 10 = false := by
  have hall : ∀ n < 0x67, (ofNat? n).all
      (fun d => !(d.isAsciiDigit 10 && d.isIdentifierStart)) = true := by
    decide +kernel
  refine Bool.eq_false_iff.mpr fun hd => ?_
  have hc := hall c.toNat (toNat_lt_of_isAsciiDigit hd)
  rw [ofNat?_toNat] at hc
  simp [hd, h] at hc

end CodePoint

end Prepass
