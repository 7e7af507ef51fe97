/- Integers of at most 53 significant bits are numbers of the format. -/
import Prepass.Proofs.Binary64.Limit
namespace Prepass

theorem roundHalfEven_of_dvd {num den : Nat} (hd : 0 < den) (h : den ∣ num) :
    roundHalfEven num den = num / den := by
  rcases roundHalfEven_cases num den with he | ⟨-, hhalf⟩
  · exact he
  · rw [Nat.mod_eq_zero_of_dvd h] at hhalf
    omega

namespace Binary64

/-- The number is this integer; zero is the positive one. -/
def Exactly (x : Binary64) (n : Int) : Prop :=
  ∃ significand shift canonical, x = .finite (n < 0) significand shift canonical ∧
    significand * 2 ^ shift = n.natAbs * unitsPerOne

/-- The leading 53 bits, or all bits if there are fewer, are a significand. -/
theorem canonical_div {m : Nat} (h : m.log2 - 52 ≤ 2045) :
    Canonical (m / 2 ^ (m.log2 - 52)) (m.log2 - 52) := by
  by_cases hsmall : m.log2 < 52
  · have hshift : m.log2 - 52 = 0 := Nat.sub_eq_zero_of_le (Nat.le_of_lt hsmall)
    have hm : m < 2 ^ 53 := Nat.lt_of_lt_of_le Nat.lt_log2_self
      (Nat.pow_le_pow_right (by decide) (Nat.succ_le_succ (Nat.le_of_lt hsmall)))
    rw [hshift, Nat.pow_zero, Nat.div_one]
    exact ⟨hm, Nat.zero_le _, Or.inr rfl⟩
  · have hm : m ≠ 0 := by
      rintro rfl
      exact hsmall (by decide)
    obtain ⟨hlow, hhigh⟩ := significand_bounds hm (Nat.le_of_not_lt hsmall)
    exact ⟨hhigh, h, Or.inl hlow⟩

/-- What 53 bits hold is not rounded. -/
theorem ofRatio_one_exact (negative : Bool) {m step : Nat} (hm : m < 2 ^ 53) (hs : step ≤ 2045) :
    ∃ significand shift canonical,
      ofRatio negative (m * 2 ^ step) 1 = .finite negative significand shift canonical ∧
        significand * 2 ^ shift = m * 2 ^ step := by
  have hlt : m * 2 ^ step < 2 ^ (53 + step) := by
    rw [Nat.pow_add]
    exact Nat.mul_lt_mul_of_pos_right hm (Nat.two_pow_pos step)
  have hlog : (m * 2 ^ step).log2 - 52 ≤ step := by
    by_cases h0 : m * 2 ^ step = 0
    · rw [h0]
      exact Nat.zero_le step
    · have := (Nat.log2_lt h0).mpr hlt
      omega
  have hdvd : 2 ^ ((m * 2 ^ step).log2 - 52) ∣ m * 2 ^ step :=
    Nat.dvd_trans (Nat.pow_dvd_pow 2 hlog) (Nat.dvd_mul_left _ m)
  have hcanonical := canonical_div (Nat.le_trans hlog hs)
  rw [ofRatio_one, roundHalfEven_of_dvd (Nat.two_pow_pos _) hdvd,
    if_pos ((canonical_iff _ _).mp hcanonical).1]
  exact ⟨_, _, hcanonical, make_of_canonical hcanonical negative, Nat.div_mul_cancel hdvd⟩

theorem ofInt_exactly {n : Int} {m step : Nat} (hn : n.natAbs = m * 2 ^ step) (hm : m < 2 ^ 53)
    (hs : step ≤ 971) : (ofInt n).Exactly n := by
  obtain ⟨units, hunits⟩ : ∃ units, units = 1074 := ⟨_, rfl⟩
  have hnum : n.natAbs * unitsPerOne = m * 2 ^ (step + units) := by
    rw [hn, unitsPerOne_eq hunits, Nat.pow_add, Nat.mul_assoc]
  obtain ⟨significand, shift, canonical, he, hvalue⟩ :=
    ofRatio_one_exact (n < 0) hm (by omega : step + units ≤ 2045)
  refine ⟨significand, shift, canonical, ?_, hvalue.trans hnum.symm⟩
  rw [ofInt, hnum, he]

theorem ofInt_exactly_of_lt {n : Int} (h : n.natAbs < 2 ^ 53) : (ofInt n).Exactly n :=
  ofInt_exactly (Nat.mul_one _).symm h (Nat.zero_le _)

theorem withSign_natAbs (n : Int) : withSign (n < 0) n.natAbs = n := by
  unfold withSign
  split
  · rename_i hn
    have := of_decide_eq_true hn
    omega
  · rename_i hn
    have : ¬ n < 0 := by simpa using hn
    omega

theorem Exactly.truncate? {x : Binary64} {n : Int} (h : x.Exactly n) : x.truncate? = some n := by
  obtain ⟨significand, shift, canonical, rfl, hvalue⟩ := h
  have hpos : 0 < unitsPerOne := by decide +kernel
  rw [Binary64.truncate?, Nat.shiftLeft_eq, hvalue, Nat.mul_div_cancel _ hpos, withSign_natAbs]

end Binary64

end Prepass
