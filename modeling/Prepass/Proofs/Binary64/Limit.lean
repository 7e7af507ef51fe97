/- Which integers are near a finite number. -/
import Mathlib.Algebra.Group.Nat.Defs
import Prepass.Proofs.Outcome
import Prepass.Value.Conversion
namespace Prepass

/-- Rounding goes up by one at most, and only from the middle on. -/
theorem roundHalfEven_cases (num den : Nat) :
    roundHalfEven num den = num / den ∨
      roundHalfEven num den = num / den + 1 ∧ den ≤ 2 * (num % den) := by
  unfold roundHalfEven
  dsimp only
  split
  · exact Or.inl rfl
  · rename_i hlow
    have hhalf : den ≤ 2 * (num % den) := Nat.le_of_not_lt hlow
    split
    · exact Or.inr ⟨rfl, hhalf⟩
    · rcases Nat.mod_two_eq_zero_or_one (num / den) with he | ho
      · exact Or.inl (by rw [he, Nat.add_zero])
      · exact Or.inr ⟨by rw [ho], hhalf⟩

namespace Binary64

/-- No finite number is near the integer: it lies half a step beyond the largest one, or further. -/
def Far (n : Int) : Prop := 2 ^ 1024 - 2 ^ 970 ≤ n.natAbs

theorem canonical_iff (significand shift : Nat) :
    Canonical significand shift ↔
      significand < 2 ^ 53 ∧ shift ≤ 2045 ∧ (2 ^ 52 ≤ significand ∨ shift = 0) :=
  Iff.rfl

/-- The exponent is a variable, so that the power is not computed. -/
theorem unitsPerOne_eq {units : Nat} (h : units = 1074) : unitsPerOne = 2 ^ units := by
  rw [unitsPerOne, ← h, Nat.one_shiftLeft]

/-- Rounding a whole number of units. -/
theorem ofRatio_one (negative : Bool) (m : Nat) :
    ofRatio negative m 1 =
      if roundHalfEven m (2 ^ (m.log2 - 52)) < 2 ^ 53 then
        make negative (roundHalfEven m (2 ^ (m.log2 - 52))) (m.log2 - 52)
      else make negative (roundHalfEven m (2 ^ (m.log2 - 52)) / 2) (m.log2 - 52 + 1) := by
  unfold ofRatio
  dsimp only
  rw [Nat.div_one, Nat.one_shiftLeft, Nat.one_shiftLeft]

theorem make_of_canonical {significand shift : Nat} (h : Canonical significand shift)
    (negative : Bool) : make negative significand shift = .finite negative significand shift h :=
  dif_pos h

theorem significand_bounds {m : Nat} (hm : m ≠ 0) (h : 52 ≤ m.log2) :
    2 ^ 52 ≤ m / 2 ^ (m.log2 - 52) ∧ m / 2 ^ (m.log2 - 52) < 2 ^ 53 := by
  have hpos : 0 < 2 ^ (m.log2 - 52) := Nat.two_pow_pos _
  constructor
  · rw [Nat.le_div_iff_mul_le hpos, ← Nat.pow_add, Nat.add_sub_cancel' h]
    exact Nat.log2_self_le hm
  · rw [Nat.div_lt_iff_lt_mul hpos, ← Nat.pow_add]
    have hexp : 53 + (m.log2 - 52) = m.log2 + 1 := by omega
    rw [hexp]
    exact Nat.lt_log2_self

/-- A significand of ones only is not rounded up where that would reach the limit. -/
theorem shift_ne_of_carry {m step : Nat} (h : m < 2 ^ (54 + step) - 2 ^ step) {shift : Nat}
    (hones : m / 2 ^ shift = 2 ^ 53 - 1) (hhalf : 2 ^ shift ≤ 2 * (m % 2 ^ shift)) :
    shift ≠ step + 1 := by
  rintro rfl
  have hm := Nat.div_add_mod m (2 ^ (step + 1))
  rw [hones] at hm
  rw [Nat.pow_add] at h
  rw [Nat.pow_succ] at hm hhalf
  generalize 2 ^ step = d at h hm hhalf
  omega

/-- Natural numbers of units up to the limit are rounded to finite numbers. -/
theorem ofRatio_one_finite (negative : Bool) {m step : Nat} (hstep : step = 2044)
    (h : m < 2 ^ (54 + step) - 2 ^ step) :
    ∃ significand shift canonical,
      ofRatio negative m 1 = .finite negative significand shift canonical := by
  rw [ofRatio_one]
  by_cases hsmall : m.log2 < 52
  · -- The number itself.
    have hshift : m.log2 - 52 = 0 := Nat.sub_eq_zero_of_le (Nat.le_of_lt hsmall)
    have hr : roundHalfEven m (2 ^ 0) = m := by
      rcases roundHalfEven_cases m (2 ^ 0) with he | ⟨-, hhalf⟩
      · rw [he, Nat.pow_zero, Nat.div_one]
      · rw [Nat.pow_zero, Nat.mod_one] at hhalf
        exact absurd hhalf (by decide)
    have hm : m < 2 ^ 53 := by
      refine Nat.lt_of_lt_of_le Nat.lt_log2_self (Nat.pow_le_pow_right (by decide) ?_)
      omega
    rw [hshift, hr, if_pos hm]
    exact ⟨m, 0, ⟨hm, Nat.zero_le _, Or.inr rfl⟩, make_of_canonical _ negative⟩
  · have hm : m ≠ 0 := by
      rintro rfl
      exact hsmall (by decide)
    obtain ⟨hlow, hhigh⟩ := significand_bounds hm (Nat.le_of_not_lt hsmall)
    have hlog : m.log2 < 54 + step := (Nat.log2_lt hm).mpr (Nat.lt_of_lt_of_le h (Nat.sub_le _ _))
    have hshift : m.log2 - 52 ≤ 2045 := by omega
    generalize m.log2 - 52 = shift at hlow hhigh hshift ⊢
    rcases roundHalfEven_cases m (2 ^ shift) with he | ⟨he, hhalf⟩
    · rw [he, if_pos hhigh]
      exact ⟨_, shift, ⟨hhigh, hshift, Or.inl hlow⟩, make_of_canonical _ negative⟩
    · rw [he]
      by_cases hcarry : m / 2 ^ shift + 1 < 2 ^ 53
      · rw [if_pos hcarry]
        exact ⟨_, shift, ⟨hcarry, hshift, Or.inl (Nat.le_succ_of_le hlow)⟩,
          make_of_canonical _ negative⟩
      · have hones : m / 2 ^ shift = 2 ^ 53 - 1 := by omega
        have hne := shift_ne_of_carry h hones hhalf
        rw [if_neg hcarry, hones]
        exact ⟨2 ^ 52, shift + 1, ⟨by decide, by omega, Or.inl (Nat.le_refl _)⟩,
          make_of_canonical _ negative⟩

theorem mul_two_pow_lt {n a b c high low : Nat} (hhigh : high = a + c) (hlow : low = b + c)
    (h : n < 2 ^ a - 2 ^ b) : n * 2 ^ c < 2 ^ high - 2 ^ low := by
  rw [hhigh, hlow, Nat.pow_add, Nat.pow_add, ← Nat.sub_mul]
  exact Nat.mul_lt_mul_of_pos_right h (Nat.two_pow_pos c)

theorem ofInt?_far (n : Int) : FailsOnly (fun _ => Far n) (ofInt? n) := by
  intro fault hf
  rw [Far]
  apply Nat.le_of_not_lt
  intro hn
  obtain ⟨step, hstep⟩ : ∃ step, step = 2044 := ⟨_, rfl⟩
  have hm : n.natAbs * unitsPerOne < 2 ^ (54 + step) - 2 ^ step := by
    rw [unitsPerOne_eq rfl]
    exact mul_two_pow_lt (c := 1074) (by omega) (by omega) hn
  obtain ⟨significand, shift, canonical, he⟩ := ofRatio_one_finite (n < 0) hstep hm
  rw [ofInt?, ofInt, he] at hf
  cases hf

theorem make_of_lt {shift : Nat} (h : 2045 < shift) (negative : Bool) (significand : Nat) :
    make negative significand shift = .infinite negative :=
  dif_neg fun hc => Nat.not_lt.mpr hc.2.1 h

/-- A significand of ones only is rounded up from the middle on, as it is odd. -/
theorem roundHalfEven_of_ones {num den : Nat} (hones : num / den = 2 ^ 53 - 1)
    (hhalf : den ≤ 2 * (num % den)) : roundHalfEven num den = 2 ^ 53 := by
  unfold roundHalfEven
  dsimp only
  rw [if_neg (Nat.not_lt.mpr hhalf), hones]
  split <;> rfl

/-- Natural numbers of units from the limit on are rounded to infinity. -/
theorem ofRatio_one_infinite (negative : Bool) {m step : Nat} (hstep : step = 2044)
    (h : 2 ^ (54 + step) - 2 ^ step ≤ m) : ofRatio negative m 1 = .infinite negative := by
  have hpos : 0 < 2 ^ step := Nat.two_pow_pos step
  have htop : 2 ^ (54 + step) = 2 ^ 54 * 2 ^ step := Nat.pow_add 2 54 step
  have hlow : 2 ^ (53 + step) ≤ m := by
    rw [Nat.pow_add]
    omega
  have hm : m ≠ 0 := by omega
  have hlog : 53 + step ≤ m.log2 := (Nat.le_log2 hm).mpr hlow
  rw [ofRatio_one]
  by_cases hmore : 54 + step ≤ m.log2
  · -- Already the power of two is too large.
    rw [make_of_lt (by omega), make_of_lt (by omega), ite_self]
  · have hshift : m.log2 - 52 = step + 1 := by omega
    have hlt : m < 2 ^ (54 + step) := (Nat.log2_lt hm).mp (Nat.lt_of_not_le hmore)
    have hden : 2 ^ (step + 1) = 2 * 2 ^ step := Nat.pow_succ'
    have hones : m / 2 ^ (step + 1) = 2 ^ 53 - 1 := by
      rw [hden, Nat.div_eq_iff (by omega)]
      omega
    have hhalf : 2 ^ (step + 1) ≤ 2 * (m % 2 ^ (step + 1)) := by
      have hdiv := Nat.div_add_mod m (2 ^ (step + 1))
      rw [hones, hden] at hdiv
      rw [hden]
      omega
    rw [hshift, roundHalfEven_of_ones hones hhalf, if_neg (Nat.lt_irrefl _), make_of_lt (by omega)]

theorem le_mul_two_pow {n a b c high low : Nat} (hhigh : high = a + c) (hlow : low = b + c)
    (h : 2 ^ a - 2 ^ b ≤ n) : 2 ^ high - 2 ^ low ≤ n * 2 ^ c := by
  rw [hhigh, hlow, Nat.pow_add, Nat.pow_add, ← Nat.sub_mul]
  exact Nat.mul_le_mul_right _ h

theorem ofInt?_eq_error {n : Int} (h : Far n) : ofInt? n = .error .numberTooLarge := by
  obtain ⟨step, hstep⟩ : ∃ step, step = 2044 := ⟨_, rfl⟩
  have hm : 2 ^ (54 + step) - 2 ^ step ≤ n.natAbs * unitsPerOne := by
    rw [unitsPerOne_eq rfl]
    exact le_mul_two_pow (c := 1074) (by omega) (by omega) h
  rw [ofInt?, ofInt, ofRatio_one_infinite (n < 0) hstep hm]
  rfl

theorem make_ne_nan (negative : Bool) (significand shift : Nat) :
    make negative significand shift ≠ .nan := by
  unfold make
  split <;> exact nofun

theorem ofRatio_ne_nan (negative : Bool) (num den : Nat) : ofRatio negative num den ≠ .nan := by
  unfold ofRatio
  dsimp only
  split <;> exact make_ne_nan _ _ _

theorem ofInt?_ne_nan (n : Int) : ofInt? n ≠ .ok .nan := by
  have hn := ofRatio_ne_nan (n < 0) (n.natAbs * unitsPerOne) 1
  rw [ofInt?, ofInt]
  cases hx : ofRatio (n < 0) (n.natAbs * unitsPerOne) 1 with
  | nan => exact absurd hx hn
  | infinite negative => exact nofun
  | finite negative significand shift canonical => exact nofun

theorem ofInt?_eq_ok {n : Int} (h : ¬ Far n) : ofInt? n = .ok (ofInt n) := by
  cases hn : ofInt? n with
  | error fault => exact absurd (ofInt?_far n fault hn) h
  | ok x =>
      rw [ofInt?] at hn
      cases hx : ofInt n with
      | infinite negative =>
          rw [hx] at hn
          cases hn
      | nan | finite =>
          rw [hx] at hn
          exact hn.symm

/-- A natural number is rounded, unless it lies at the limit or beyond. -/
theorem ofInt?_natCast (n : Nat) :
    ofInt? n = if n < 2 ^ 1024 - 2 ^ 970 then .ok (ofInt n) else .error .numberTooLarge := by
  split
  · rename_i hn
    exact ofInt?_eq_ok fun hfar => Nat.not_lt.mpr hfar hn
  · rename_i hn
    exact ofInt?_eq_error (Nat.le_of_not_lt hn)

end Binary64

end Prepass
