/- Which texts are runs of quantities, and how many quantities they hold. -/
import Mathlib.Data.List.Basic
import Prepass.Proofs.Outcome
import Prepass.Proofs.SourceMap.RoundTrip
namespace Prepass.Vlq

/-- The continuation bit of a digit: more groups of the same quantity follow it. -/
def continues (c : CodePoint) : Bool := (alphabet.idxOf c).testBit 5

/-- Whether a text ends within a quantity, if it begins within one or not. -/
def endsWithin (within : Bool) (t : Text) : Bool := t.getLast?.elim within continues

theorem endsWithin_cons (within : Bool) (c : CodePoint) (rest : Text) :
    endsWithin within (c :: rest) = endsWithin (continues c) rest := by
  rw [endsWithin, endsWithin, List.getLast?_cons]
  cases rest.getLast? with
  | none => rfl
  | some last => rfl

theorem value?_of_not_mem {c : CodePoint} (h : c ∉ alphabet) : value? c = none :=
  List.idxOf?_eq_none_iff.mpr h

/-- The value of a digit is below 64, so its continuation bit is the highest one. -/
theorem exists_value?_of_mem {c : CodePoint} (h : c ∈ alphabet) :
    ∃ d, value? c = some d ∧ continues c = decide (32 ≤ d) := by
  obtain ⟨d, hd⟩ := Option.ne_none_iff_exists'.mp (mt List.idxOf?_eq_none_iff.mp (not_not_intro h))
  have hindex : alphabet.idxOf c = d := by
    rw [List.idxOf_eq_getD_idxOf?, hd]
    rfl
  have hbit : ∀ n < 64, n.testBit 5 = decide (32 ≤ n) := by decide
  have hlt : d < 64 := hindex ▸ List.idxOf_lt_length_of_mem h
  exact ⟨d, hd, by rw [continues, hindex, hbit d hlt]⟩

/-- What comes of reading a text, the values of the quantities apart. -/
def outcome (within : Bool) (t : Text) : Except DecodeError Nat :=
  if ∃ c ∈ t, c ∉ alphabet then .error .notADigit
  else if endsWithin within t then .error .truncated
  else .ok (t.countP fun c => !continues c)

theorem outcome_nil (within : Bool) :
    outcome within [] = if within then .error .truncated else .ok 0 :=
  if_neg (by simp)

theorem outcome_of_not_mem (within : Bool) {c : CodePoint} (h : c ∉ alphabet) (rest : Text) :
    outcome within (c :: rest) = .error .notADigit :=
  if_pos ⟨c, List.mem_cons_self, h⟩

theorem outcome_of_mem (within : Bool) {c : CodePoint} (h : c ∈ alphabet) (rest : Text) :
    outcome within (c :: rest) =
      if continues c then outcome true rest else (outcome false rest).map (· + 1) := by
  have hrest : (∃ d ∈ c :: rest, d ∉ alphabet) ↔ ∃ d ∈ rest, d ∉ alphabet := by simp [h]
  simp only [outcome, hrest, endsWithin_cons, List.countP_cons]
  cases continues c with
  | true => simp
  | false =>
      simp only [Bool.false_eq_true, if_false, Bool.not_false, if_true]
      split_ifs <;> rfl

/-- The induction is on the text; of what is known of the first quantity only matters whether the
text begins within it. -/
theorem length_decodeFrom (shift value : Nat) (t : Text) :
    (decodeFrom shift value t).map List.length = outcome (shift ≠ 0) t := by
  induction t generalizing shift value with
  | nil =>
      rw [decodeFrom, outcome_nil]
      by_cases hs : shift = 0 <;> simp [hs, Except.map]
  | cons c rest ih =>
      rw [decodeFrom]
      by_cases hc : c ∈ alphabet
      · obtain ⟨d, hd, hbit⟩ := exists_value?_of_mem hc
        rw [outcome_of_mem _ hc, hbit, hd]
        by_cases hmore : 32 ≤ d
        · simp [hmore, ih]
        · have hnext : (decodeFrom 0 0 rest).map List.length = outcome false rest := ih 0 0
          simp only [hmore, if_false, decide_false, Bool.false_eq_true, ← hnext]
          cases decodeFrom 0 0 rest with
          | error e => rfl
          | ok ns => rfl
      · rw [value?_of_not_mem hc, outcome_of_not_mem _ hc]
        rfl

theorem decode_flatMap_encode (ns : List Int) : decode (ns.flatMap encode) = .ok ns := by
  rw [decode]
  induction ns with
  | nil => rfl
  | cons n rest ih =>
      rw [List.flatMap_cons, decodeFrom_encode, ih]
      rfl

theorem length_decode (t : Text) :
    (decode t).map List.length =
      if ∃ c ∈ t, c ∉ alphabet then .error .notADigit
      else if t.getLast?.any continues then .error .truncated
      else .ok (t.countP fun c => !continues c) := by
  have hends : endsWithin false t = t.getLast?.any continues := by
    rw [endsWithin]
    cases t.getLast? with
    | none => rfl
    | some last => rfl
  rw [← hends]
  exact length_decodeFrom 0 0 t

theorem exists_decode_iff (t : Text) :
    (∃ ns, decode t = .ok ns) ↔
      (∀ c ∈ t, c ∈ alphabet) ∧ ∀ c ∈ t.getLast?, continues c = false := by
  have hlength := length_decode t
  constructor
  · rintro ⟨ns, hns⟩
    rw [hns] at hlength
    have hdigits : ∀ c ∈ t, c ∈ alphabet := by
      intro c hc
      refine Decidable.byContradiction fun hn => ?_
      rw [if_pos ⟨c, hc, hn⟩] at hlength
      cases hlength
    refine ⟨hdigits, ?_⟩
    intro c hc
    refine Bool.eq_false_iff.mpr fun hmore => ?_
    rw [if_neg fun ⟨d, hd, hn⟩ => hn (hdigits d hd), if_pos (by rw [hc]; exact hmore)] at hlength
    cases hlength
  · rintro ⟨hdigits, hends⟩
    rw [if_neg, if_neg] at hlength
    · obtain ⟨ns, hns, -⟩ := map_eq_ok.mp hlength
      exact ⟨ns, hns⟩
    · intro hany
      obtain ⟨c, hc, hmore⟩ := (Option.any_eq_true _ _).mp hany
      rw [hends c hc] at hmore
      cases hmore
    · rintro ⟨c, hc, hn⟩
      exact hn (hdigits c hc)

/-- The codes of integers, one after another, are read as these integers. A text is read exactly
if it is made of digits and the last of them has no continuation bit, and then it holds as many
integers as digits without one; otherwise it is refused, as a text with another character or as one
that ends too early. -/
theorem decode_runs :
    (∀ ns : List Int, decode (ns.flatMap encode) = .ok ns) ∧
    ∀ t : Text,
      ((∃ ns, decode t = .ok ns) ↔
        (∀ c ∈ t, c ∈ alphabet) ∧ ∀ c ∈ t.getLast?, continues c = false) ∧
      (decode t).map List.length =
        if ∃ c ∈ t, c ∉ alphabet then .error .notADigit
        else if t.getLast?.any continues then .error .truncated
        else .ok (t.countP fun c => !continues c) := by
  refine ⟨decode_flatMap_encode, ?_⟩
  intro t
  exact ⟨exists_decode_iff t, length_decode t⟩

end Prepass.Vlq
