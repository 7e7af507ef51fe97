/- The bitwise operators are the operations of words of 32 bits, and no result is rounded. -/
import Mathlib.Algebra.Group.Int.Defs
import Mathlib.Data.Int.Bitwise
import Prepass.Expression.Tree
import Prepass.Proofs.Binary64.Exact
namespace Prepass

/-- The whole part of a number, and zero if it is not finite. -/
def Binary64.whole (x : Binary64) : Int := x.truncate?.getD 0

/-- The word of 32 bits that the whole part leaves. -/
def Binary64.bits (x : Binary64) : BitVec 32 := .ofInt 32 x.whole

/-- The operators as operations of words. -/
def Bitwise.onWords (op : Bitwise) (a b : BitVec 32) : Int :=
  match op with
  | .and => (a &&& b).toInt
  | .or => (a ||| b).toInt
  | .xor => (a ^^^ b).toInt
  | .shiftLeft => (a <<< (b.toNat % 32)).toInt
  | .shiftRight => (a.sshiftRight (b.toNat % 32)).toInt
  | .shiftRightZero => (a >>> (b.toNat % 32)).toNat

theorem Binary64.word_eq (x : Binary64) : x.word = x.bits.toNat := by
  rw [bits, BitVec.toNat_ofInt, whole, word]
  cases x.truncate? with
  | none => rfl
  | some n => rfl

theorem signed32_toNat (a : BitVec 32) : signed32 a.toNat = a.toInt := by
  rw [signed32, BitVec.toInt_eq_toNat_cond]
  split <;> split <;> omega

theorem natAbs_toInt_lt (a : BitVec 32) : a.toInt.natAbs < 2 ^ 53 := by
  have hlow := BitVec.le_toInt a
  have hhigh := BitVec.toInt_lt (x := a)
  omega

/-- What a left shift gives on whole numbers has no more significant bits than the word. -/
theorem Binary64.ofInt_shift_exactly (a : BitVec 32) {distance : Nat} (h : distance < 32) :
    (ofInt (a.toInt * 2 ^ distance)).Exactly (a.toInt * 2 ^ distance) := by
  have habs : (a.toInt * 2 ^ distance).natAbs = a.toInt.natAbs * 2 ^ distance := by
    rw [Int.natAbs_mul, Int.natAbs_pow]
    rfl
  exact ofInt_exactly habs (natAbs_toInt_lt a) (by omega)

/-- A left shift within the word keeps the low bits of the product. -/
theorem ofInt_mul_two_pow (a : BitVec 32) (distance : Nat) :
    BitVec.ofInt 32 (a.toInt * 2 ^ distance) = a <<< distance := by
  have hcast : (2 : Int) ^ distance = (2 ^ distance : Nat) := (Int.natCast_pow 2 distance).symm
  have hpow : BitVec.ofInt 32 (2 ^ distance) = BitVec.twoPow 32 distance := by
    apply BitVec.eq_of_toNat_eq
    rw [BitVec.toNat_twoPow, hcast, BitVec.ofInt_natCast, BitVec.toNat_ofNat]
  rw [BitVec.shiftLeft_eq_mul_twoPow, BitVec.ofInt_mul, BitVec.ofInt_toInt, hpow]

namespace TwosComplement

/-- The bit at a place. -/
def bit (t : TwosComplement) (i : Nat) : Bool := t.differing.testBit i != t.negative

theorem toInt_ofInt (n : Int) : (ofInt n).toInt = n := by cases n <;> rfl

theorem bit_combine (f : Bool → Bool → Bool) (a b : TwosComplement) (i : Nat) :
    (combine f a b).bit i = f (a.bit i) (b.bit i) := by
  -- Where no bit differs from its sign, the result shows its own sign.
  have hsigns : (f (false != a.negative) (false != b.negative) != f a.negative b.negative) =
      false := by
    rw [Bool.false_bne, Bool.false_bne, bne_self_eq_false]
  simp only [bit, combine]
  rw [Nat.testBit_bitwise hsigns, Bool.bne_assoc, bne_self_eq_false, Bool.bne_false]

/-- Integers are equal if all their bits are. -/
theorem eq_of_bit_eq {s t : TwosComplement} (h : ∀ i, s.bit i = t.bit i) : s = t := by
  have hnegative : s.negative = t.negative := by
    -- Beyond both numbers only the signs are left.
    have hfar := h (s.differing + t.differing)
    have hs : s.differing < 2 ^ (s.differing + t.differing) :=
      Nat.lt_of_le_of_lt (Nat.le_add_right _ _) Nat.lt_two_pow_self
    have ht : t.differing < 2 ^ (s.differing + t.differing) :=
      Nat.lt_of_le_of_lt (Nat.le_add_left _ _) Nat.lt_two_pow_self
    rwa [bit, bit, Nat.testBit_lt_two_pow hs, Nat.testBit_lt_two_pow ht, Bool.false_bne,
      Bool.false_bne] at hfar
  have hdiffering : s.differing = t.differing := by
    apply Nat.eq_of_testBit_eq
    intro i
    have hi := h i
    rwa [bit, bit, hnegative, Bool.bne_left_inj] at hi
  exact TwosComplement.ext hnegative hdiffering

theorem bit_ofInt (n : Int) (i : Nat) : (ofInt n).bit i = n.testBit i := by
  cases n with
  | ofNat n => exact Bool.bne_false _
  | negSucc n => exact Bool.bne_true _

/-- The bits of a word, continued by its sign. -/
theorem bit_ofInt_toInt {width : Nat} (x : BitVec width) (i : Nat) :
    (ofInt x.toInt).bit i = if i < width then x.getLsbD i else x.msb := by
  cases hmsb : x.msb with
  | false =>
      have hx : x.toInt = .ofNat x.toNat := by
        rw [BitVec.toInt_eq_msb_cond, hmsb]
        rfl
      rw [hx, ofInt, bit, BitVec.testBit_toNat, Bool.bne_false]
      split
      · rfl
      · rename_i hi
        exact x.getLsbD_of_ge i (Nat.le_of_not_lt hi)
  | true =>
      have hx : x.toInt = .negSucc (~~~x).toNat := by
        have hlt := x.isLt
        rw [BitVec.toInt_eq_msb_cond, if_pos hmsb, BitVec.toNat_not, Int.negSucc_eq]
        omega
      rw [hx, ofInt, bit, BitVec.testBit_toNat, BitVec.getLsbD_not, Bool.bne_true]
      split
      · rename_i hi
        rw [decide_eq_true hi, Bool.true_and, Bool.not_not]
      · rename_i hi
        rw [decide_eq_false hi, Bool.false_and, Bool.not_false]

end TwosComplement

theorem onBits_eq_bitwise (f : Bool → Bool → Bool) (m n : Int) :
    onBits f m n = Int.bitwise f m n := by
  rw [onBits, ← TwosComplement.toInt_ofInt (Int.bitwise f m n)]
  congr 1
  apply TwosComplement.eq_of_bit_eq
  intro i
  rw [TwosComplement.bit_combine, TwosComplement.bit_ofInt, TwosComplement.bit_ofInt,
    TwosComplement.bit_ofInt, Int.testBit_bitwise]

/-- The first three operators are those of unbounded integers, on the signed numbers of the words. -/
theorem Bitwise.apply_signed (a b : Nat) :
    Bitwise.and.apply a b = Int.land (signed32 a) (signed32 b) ∧
      Bitwise.or.apply a b = Int.lor (signed32 a) (signed32 b) ∧
      Bitwise.xor.apply a b = Int.xor (signed32 a) (signed32 b) := by
  rw [← Int.bitwise_and, ← Int.bitwise_or, ← Int.bitwise_xor]
  exact ⟨onBits_eq_bitwise _ _ _, onBits_eq_bitwise _ _ _, onBits_eq_bitwise _ _ _⟩

/-- An operation on the bits of signed words is the operation of words that acts so on the bits. -/
theorem onBits_signed32 {f : Bool → Bool → Bool} {a b c : BitVec 32}
    (h : ∀ i, c.getLsbD i = f (a.getLsbD i) (b.getLsbD i)) :
    onBits f (signed32 a.toNat) (signed32 b.toNat) = c.toInt := by
  rw [signed32_toNat, signed32_toNat, onBits, ← TwosComplement.toInt_ofInt c.toInt]
  congr 1
  apply TwosComplement.eq_of_bit_eq
  intro i
  rw [TwosComplement.bit_combine, TwosComplement.bit_ofInt_toInt, TwosComplement.bit_ofInt_toInt,
    TwosComplement.bit_ofInt_toInt]
  split
  · exact (h i).symm
  · -- Beyond the word stands its sign, which is its last bit.
    exact (h 31).symm

theorem Bitwise.apply_toNat (op : Bitwise) (a b : BitVec 32) :
    op.apply a.toNat b.toNat = op.onWords a b := by
  cases op with
  | and => exact onBits_signed32 fun _ => BitVec.getLsbD_and
  | or => exact onBits_signed32 fun _ => BitVec.getLsbD_or
  | xor => exact onBits_signed32 fun _ => BitVec.getLsbD_xor
  | shiftLeft =>
      have hexact := Binary64.ofInt_shift_exactly a (Nat.mod_lt b.toNat (by decide : 0 < 32))
      rw [apply, signed32_toNat, Int.shiftLeft_eq, Binary64.word_eq, signed32_toNat, Binary64.bits,
        Binary64.whole, hexact.truncate?, Option.getD_some, ofInt_mul_two_pow, onWords]
  | shiftRight => rw [apply, signed32_toNat, ← BitVec.toInt_sshiftRight, onWords]
  | shiftRightZero => rw [apply, onWords, BitVec.toNat_ushiftRight]

theorem Bitwise.ofText?_spelling (op : Bitwise) : ofText? op.spelling = some op := by
  cases op <;> decide

theorem Bitwise.natAbs_onWords_lt (op : Bitwise) (a b : BitVec 32) :
    (op.onWords a b).natAbs < 2 ^ 53 := by
  cases op with
  | and | or | xor | shiftLeft | shiftRight => exact natAbs_toInt_lt _
  | shiftRightZero =>
      have hlt := (a >>> (b.toNat % 32)).isLt
      rw [onWords, Int.natAbs_natCast]
      omega

theorem toInt_not (a : BitVec 32) : (~~~a).toInt = -a.toInt - 1 := by
  have hlt := a.isLt
  rw [BitVec.toInt_eq_toNat_cond, BitVec.toInt_eq_toNat_cond, BitVec.toNat_not]
  split <;> split <;> omega

namespace Value

variable {v w : Value} {x y : Binary64}

theorem toUInt32_eq (h : v.toNumber = .ok x) : v.toUInt32 = .ok x.bits.toNat := by
  rw [toUInt32, h, ← Binary64.word_eq]
  rfl

theorem toInt32_eq (h : v.toNumber = .ok x) : v.toInt32 = .ok x.bits.toInt := by
  rw [toInt32, toUInt32_eq h, ← signed32_toNat]
  rfl

theorem bitwise_eq (hv : v.toNumber = .ok x) (hw : w.toNumber = .ok y) (op : Bitwise) :
    bitwise op v w = .ok (.ofInt (op.onWords x.bits y.bits)) := by
  rw [bitwise, toUInt32_eq hw, toUInt32_eq hv, ← Bitwise.apply_toNat]
  rfl

theorem complement_eq (h : v.toNumber = .ok x) :
    v.complement = .ok (.num (.ofInt (~~~x.bits).toInt)) := by
  rw [complement, toInt32_eq h, toInt_not]
  rfl

/-- Operands of the bitwise operators are cut to words: their two readings lie in their ranges and
have the remainder of the whole part modulo `2 ^ 32`. Each operator then gives exactly what its
operation of words gives, and the whole number that a left shift goes through is not rounded. -/
theorem bitwise_words (hv : v.toNumber = .ok x) (hw : w.toNumber = .ok y) :
    (∃ unsigned signed, v.toUInt32 = .ok unsigned ∧ v.toInt32 = .ok signed ∧
      unsigned < 2 ^ 32 ∧ -2 ^ 31 ≤ signed ∧ signed < 2 ^ 31 ∧
      (unsigned : Int) % 2 ^ 32 = x.whole % 2 ^ 32 ∧ signed % 2 ^ 32 = x.whole % 2 ^ 32) ∧
    (∀ op : Bitwise, ∃ z, bitwise op v w = .ok z ∧ bitwiseSpelled op.spelling v w = .ok z ∧
      z.Exactly (op.onWords x.bits y.bits)) ∧
    (∃ z, unary .complement v = .ok (.num z) ∧ z.Exactly (~~~x.bits).toInt) ∧
    (Binary64.ofInt (x.bits.toInt * 2 ^ (y.bits.toNat % 32))).Exactly
      (x.bits.toInt * 2 ^ (y.bits.toNat % 32)) := by
  refine ⟨⟨_, _, toUInt32_eq hv, toInt32_eq hv, x.bits.isLt, BitVec.le_toInt _, BitVec.toInt_lt,
    ?_, ?_⟩, ?_, ?_, ?_⟩
  · rw [Binary64.bits, BitVec.toNat_ofInt]
    omega
  · rw [Binary64.bits, BitVec.toInt_ofInt]
    exact Int.bmod_emod
  · intro op
    have heq := bitwise_eq hv hw op
    refine ⟨_, heq, ?_, Binary64.ofInt_exactly_of_lt (op.natAbs_onWords_lt _ _)⟩
    rw [bitwiseSpelled, Bitwise.ofText?_spelling]
    exact heq
  · exact ⟨_, complement_eq hv, Binary64.ofInt_exactly_of_lt (natAbs_toInt_lt _)⟩
  · exact Binary64.ofInt_shift_exactly _ (Nat.mod_lt _ (by decide))

/-- All bits of its word are set. -/
def allOnes : Value := .num (.ofInt 4294967295)

/-- As a distance it counts as one. -/
def overlong : Value := .num (.ofInt 33)

theorem bitwise_words_allOnes :
    (∃ z, bitwiseSpelled "&" allOnes overlong = .ok z ∧ z.Exactly 33) ∧
      (∃ z, bitwiseSpelled "|" allOnes overlong = .ok z ∧ z.Exactly (-1)) ∧
      (∃ z, bitwiseSpelled "^" allOnes overlong = .ok z ∧ z.Exactly (-34)) ∧
      (∃ z, bitwiseSpelled "<<" allOnes overlong = .ok z ∧ z.Exactly (-2)) ∧
      (∃ z, bitwiseSpelled ">>>" allOnes overlong = .ok z ∧ z.Exactly 2147483647) ∧
      ∃ z, unary .complement allOnes = .ok (.num z) ∧ z.Exactly 0 := by
  have hv : allOnes.toNumber = .ok (.ofInt 4294967295) := rfl
  have hw : overlong.toNumber = .ok (.ofInt 33) := rfl
  have hx : (Binary64.ofInt 4294967295).bits = BitVec.allOnes 32 := by decide +kernel
  have hy : (Binary64.ofInt 33).bits = 33 := by decide +kernel
  obtain ⟨-, hbitwise, hcomplement, -⟩ := bitwise_words hv hw
  rw [hx] at hbitwise hcomplement
  rw [hy] at hbitwise
  obtain ⟨conj, -, hconj, hconjExact⟩ := hbitwise .and
  obtain ⟨disj, -, hdisj, hdisjExact⟩ := hbitwise .or
  obtain ⟨diff, -, hdiff, hdiffExact⟩ := hbitwise .xor
  obtain ⟨left, -, hleft, hleftExact⟩ := hbitwise .shiftLeft
  obtain ⟨right, -, hright, hrightExact⟩ := hbitwise .shiftRightZero
  exact ⟨⟨conj, hconj, hconjExact⟩, ⟨disj, hdisj, hdisjExact⟩, ⟨diff, hdiff, hdiffExact⟩,
    ⟨left, hleft, hleftExact⟩, ⟨right, hright, hrightExact⟩, hcomplement⟩

end Value

end Prepass
