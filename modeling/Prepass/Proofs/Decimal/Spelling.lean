/- How decimal literals are spelled, and that the reader finds exactly such spellings. -/
import Prepass.Decimal.Basic
import Prepass.Proofs.Text.Join
namespace Prepass

namespace Text

/-- Decimal digits only. -/
def Digits (t : Text) : Prop := ∀ c ∈ t, c.isAsciiDigit 10 = true

theorem digits_takeWhile (t : Text) : Digits (t.takeWhile (CodePoint.isAsciiDigit 10)) :=
  List.all_eq_true.mp List.all_takeWhile

end Text

namespace Decimal

/-- An exponent, or nothing. -/
inductive Exponent : Text → Int → Prop
  | none : Exponent [] 0
  | marked {mark : CodePoint} {sign : Option CodePoint} {digits : Text}
      (marks : mark = 'e' ∨ mark = 'E') (signs : ∀ c ∈ sign, c = '+' ∨ c = '-')
      (ne_nil : digits ≠ []) (all : digits.Digits) :
      Exponent (mark :: (sign.toList ++ digits))
        (if sign = some (CodePoint.ofChar '-') then -(Text.digitsValue 10 digits : Int)
          else Text.digitsValue 10 digits)

/-- Digits with an optional fraction, or a fraction alone. -/
inductive Mantissa (whole : Text) : Text → Text → Prop
  | integer (ne_nil : whole ≠ []) : Mantissa whole [] whole
  | point {fraction : Text} (ne_nil : whole ≠ [] ∨ fraction ≠ []) :
      Mantissa whole fraction (whole ++ CodePoint.ofChar '.' :: fraction)

inductive Spelled : Text → Decimal → Prop
  | literal {whole fraction mantissa exponent : Text} {e : Int} (left : whole.Digits)
      (right : fraction.Digits) (first : Mantissa whole fraction mantissa)
      (last : Exponent exponent e) :
      Spelled (mantissa ++ exponent)
        ⟨Text.digitsValue 10 (whole ++ fraction), e - fraction.length⟩

/-- The exponent that a text begins with, none counting as zero, and its length. -/
def exponentPart? (t : Text) : Option (Int × Nat) :=
  match t with
  | [] => some (0, 0)
  | mark :: after =>
    if mark = 'e' ∨ mark = 'E' then (readExponent? after).map fun (e, n) => (e, 1 + n)
    else some (0, 0)

/-- What the reader makes of a mantissa and of the text behind it. -/
theorem read?_eq {t whole fraction tail : Text} {n : Nat}
    (hw : t.takeWhile (CodePoint.isAsciiDigit 10) = whole)
    (hf : readFraction (t.drop whole.length) = (fraction, n))
    (ht : t.drop (whole.length + n) = tail) :
    read? t = if whole = [] ∧ fraction = [] then none
      else (exponentPart? tail).map fun (e, k) =>
        (⟨Text.digitsValue 10 (whole ++ fraction), e - fraction.length⟩,
          whole.length + n + k) := by
  unfold read?
  simp only [hw, hf, ht, Bool.and_eq_true, List.isEmpty_iff]
  split
  · rfl
  · cases tail with
    | nil => simp [exponentPart?]
    | cons mark after =>
        rw [exponentPart?]
        dsimp only
        split
        · rw [Option.map_map]
          refine congrArg (fun f => Option.map f (readExponent? after)) ?_
          funext found
          simp [Nat.add_assoc]
        · simp

/-- A character that no decimal literal ends before. -/
def Continues (c : CodePoint) : Prop :=
  c.isAsciiDigit 10 = true ∨ c = '.' ∨ c = 'e' ∨ c = 'E'

theorem readExponent?_append {sign : Option CodePoint} {digits rest : Text}
    (signs : ∀ c ∈ sign, c = '+' ∨ c = '-') (ne_nil : digits ≠ []) (all : digits.Digits)
    (hr : ∀ c ∈ rest.head?, c.isAsciiDigit 10 = false) :
    readExponent? (sign.toList ++ (digits ++ rest)) =
      some (if sign = some (CodePoint.ofChar '-') then -(Text.digitsValue 10 digits : Int)
        else Text.digitsValue 10 digits, sign.toList.length + digits.length) := by
  have hsign : (sign.toList ++ (digits ++ rest)).head?.filter
      (fun (c : CodePoint) => c = '+' ∨ c = '-') = sign := by
    cases sign with
    | some c => simp [signs c rfl]
    | none =>
        obtain ⟨d, more, rfl⟩ := List.exists_cons_of_ne_nil ne_nil
        have hd := all d List.mem_cons_self
        have hplus : d ≠ '+' := by
          rintro rfl
          exact absurd hd (by decide)
        have hminus : d ≠ '-' := by
          rintro rfl
          exact absurd hd (by decide)
        simp [hplus, hminus]
  unfold readExponent?
  simp only [hsign, List.drop_left, takeWhile_append_stop all hr,
    List.isEmpty_iff, ne_nil, if_false]

theorem exists_of_readExponent? {t : Text} {e : Int} {n : Nat} (h : readExponent? t = some (e, n)) :
    ∃ (sign : Option CodePoint) (digits rest : Text), t = sign.toList ++ (digits ++ rest) ∧
      (∀ c ∈ sign, c = '+' ∨ c = '-') ∧ digits ≠ [] ∧ digits.Digits ∧
      e = (if sign = some (CodePoint.ofChar '-') then -(Text.digitsValue 10 digits : Int)
        else Text.digitsValue 10 digits) ∧ n = sign.toList.length + digits.length := by
  unfold readExponent? at h
  dsimp only at h
  generalize hs : t.head?.filter (fun (c : CodePoint) => decide (c = '+' ∨ c = '-')) = sign at h
  have hsigns : ∀ c ∈ sign, c = '+' ∨ c = '-' := by
    rintro c rfl
    simpa using (Option.filter_eq_some_iff.mp hs).2
  have ht : t = sign.toList ++ t.drop sign.toList.length := by
    cases sign with
    | none => rfl
    | some c =>
        obtain ⟨more, rfl⟩ := List.head?_eq_some_iff.mp (Option.filter_eq_some_iff.mp hs).1
        rfl
  generalize t.drop sign.toList.length = u at h ht
  split at h
  · cases h
  · rename_i hne
    cases h
    refine ⟨sign, _, u.dropWhile (CodePoint.isAsciiDigit 10), ?_, hsigns, ?_,
      Text.digits_takeWhile u, rfl, rfl⟩
    · rwa [List.takeWhile_append_dropWhile]
    · exact mt List.isEmpty_iff.mpr hne

theorem Exponent.read? {s rest : Text} {e : Int} (h : Exponent s e)
    (hr : ∀ c ∈ rest.head?, ¬ Continues c) : exponentPart? (s ++ rest) = some (e, s.length) := by
  cases h with
  | none =>
      cases rest with
      | nil => rfl
      | cons c more =>
          have hc := hr c rfl
          rw [List.nil_append, exponentPart?, if_neg]
          · rfl
          · exact fun hm => hc (Or.inr (Or.inr hm))
  | @marked mark sign digits marks signs ne_nil all =>
      have hdigit (c : CodePoint) (hc : c ∈ rest.head?) : c.isAsciiDigit 10 = false :=
        Bool.eq_false_iff.mpr fun hd => hr c hc (Or.inl hd)
      rw [List.cons_append, List.append_assoc, exponentPart?, if_pos marks,
        readExponent?_append signs ne_nil all hdigit]
      simp [Nat.add_comm]

theorem exists_of_exponentPart? {t : Text} {e : Int} {n : Nat}
    (h : exponentPart? t = some (e, n)) :
    ∃ s rest, t = s ++ rest ∧ s.length = n ∧ Exponent s e := by
  cases t with
  | nil =>
      cases h
      exact ⟨[], [], rfl, rfl, .none⟩
  | cons mark after =>
      rw [exponentPart?] at h
      split at h
      · rename_i marks
        obtain ⟨⟨e', k⟩, hread, he⟩ := Option.map_eq_some_iff.mp h
        cases he
        obtain ⟨sign, digits, rest, rfl, signs, ne_nil, all, rfl, rfl⟩ :=
          exists_of_readExponent? hread
        refine ⟨mark :: (sign.toList ++ digits), rest, ?_, ?_, .marked marks signs ne_nil all⟩
        · rw [List.cons_append, List.append_assoc]
        · rw [List.length_cons, List.length_append, Nat.add_comm]
      · cases h
        exact ⟨[], mark :: after, rfl, rfl, .none⟩

theorem Exponent.head?_append {s rest : Text} {e : Int} (h : Exponent s e)
    (hr : ∀ c ∈ rest.head?, ¬ Continues c) :
    ∀ c ∈ (s ++ rest).head?, c.isAsciiDigit 10 = false ∧ c ≠ '.' := by
  cases h with
  | none =>
      intro c hc
      exact ⟨Bool.eq_false_iff.mpr fun hd => hr c hc (Or.inl hd),
        fun hp => hr c hc (Or.inr (Or.inl hp))⟩
  | marked marks =>
      rintro c ⟨⟩
      rcases marks with rfl | rfl <;> decide

/-- A literal begins with a digit or a point. -/
theorem Spelled.initial {s : Text} {d : Decimal} (h : Spelled s d) :
    ∃ c more, s = c :: more ∧ (c.isAsciiDigit 10 = true ∨ c = '.') := by
  cases h with
  | @literal whole fraction mantissa exponent e left right first last =>
      cases whole with
      | cons c more =>
          have hc := left c List.mem_cons_self
          cases first with
          | integer ne_nil => exact ⟨c, _, rfl, Or.inl hc⟩
          | point ne_nil => exact ⟨c, _, rfl, Or.inl hc⟩
      | nil =>
          cases first with
          | integer ne_nil => exact absurd rfl ne_nil
          | point ne_nil => exact ⟨'.', _, rfl, Or.inr rfl⟩

/-- A spelled literal is read as a whole, unless it goes on. -/
theorem Spelled.read? {s rest : Text} {d : Decimal} (h : Spelled s d)
    (hr : ∀ c ∈ rest.head?, ¬ Continues c) : Decimal.read? (s ++ rest) = some (d, s.length) := by
  cases h with
  | @literal whole fraction mantissa exponent e left right first last =>
      have htail := last.head?_append hr
      have hread := last.read? hr
      rw [List.append_assoc]
      generalize exponent ++ rest = tail at htail hread
      cases first with
      | integer ne_nil =>
          have hf : readFraction tail = ([], 0) := by
            cases tail with
            | nil => rfl
            | cons c more => exact if_neg (htail c rfl).2
          rw [read?_eq (takeWhile_append_stop left fun c hc => (htail c hc).1)
            (by rw [List.drop_left, hf]) (List.drop_left), if_neg fun h => ne_nil h.1, hread]
          simp
      | point ne_nil =>
          have hpoint : ∀ c ∈ (CodePoint.ofChar '.' :: (fraction ++ tail)).head?,
              c.isAsciiDigit 10 = false := by
            rintro c ⟨⟩
            decide
          have hf : readFraction (CodePoint.ofChar '.' :: (fraction ++ tail)) =
              (fraction, fraction.length + 1) := by
            simp only [readFraction, takeWhile_append_stop right fun c hc => (htail c hc).1,
              if_true]
          have hdrop : (whole ++ CodePoint.ofChar '.' :: (fraction ++ tail)).drop
              (whole.length + (fraction.length + 1)) = tail := by
            rw [List.drop_append, Nat.add_sub_cancel_left, List.drop_succ_cons, List.drop_left,
              List.drop_eq_nil_of_le (Nat.le_add_right _ _), List.nil_append]
          rw [List.append_assoc, List.cons_append,
            read?_eq (takeWhile_append_stop left hpoint) (by rw [List.drop_left, hf]) hdrop,
            if_neg (fun h => ne_nil.elim (· h.1) (· h.2)), hread, List.length_append,
            List.length_append, List.length_cons]
          rfl

theorem exists_of_readFraction {t fraction : Text} {n : Nat} (h : readFraction t = (fraction, n)) :
    ∃ point rest, t = point ++ rest ∧ point.length = n ∧
      (point = [] ∧ fraction = [] ∨ point = CodePoint.ofChar '.' :: fraction) ∧
      fraction.Digits := by
  cases t with
  | nil =>
      cases h
      exact ⟨[], [], rfl, rfl, Or.inl ⟨rfl, rfl⟩, List.forall_mem_nil _⟩
  | cons c more =>
      simp only [readFraction] at h
      split at h
      · rename_i hc
        cases h
        subst hc
        refine ⟨_, more.dropWhile (CodePoint.isAsciiDigit 10), ?_, rfl, Or.inr rfl,
          Text.digits_takeWhile more⟩
        rw [List.cons_append, List.takeWhile_append_dropWhile]
      · cases h
        exact ⟨[], c :: more, rfl, rfl, Or.inl ⟨rfl, rfl⟩, List.forall_mem_nil _⟩

/-- What is read is spelled as a literal. -/
theorem exists_spelled {t : Text} {d : Decimal} {n : Nat} (h : Decimal.read? t = some (d, n)) :
    ∃ s rest, t = s ++ rest ∧ s.length = n ∧ Spelled s d := by
  have left := t.digits_takeWhile
  have ht := (List.takeWhile_append_dropWhile (p := CodePoint.isAsciiDigit 10) (l := t)).symm
  generalize hw : t.takeWhile (CodePoint.isAsciiDigit 10) = whole at left ht
  generalize t.dropWhile (CodePoint.isAsciiDigit 10) = u at ht
  obtain ⟨⟨fraction, k⟩, hf⟩ : ∃ found, readFraction (t.drop whole.length) = found := ⟨_, rfl⟩
  rw [read?_eq hw hf rfl] at h
  split at h
  · cases h
  · rename_i hne
    obtain ⟨⟨e, j⟩, he, hd⟩ := Option.map_eq_some_iff.mp h
    cases hd
    rw [ht, List.drop_left] at hf
    obtain ⟨point, tail, rfl, rfl, hpoint, right⟩ := exists_of_readFraction hf
    rw [ht, ← List.append_assoc, ← List.length_append, List.drop_left] at he
    obtain ⟨exponent, rest, rfl, rfl, last⟩ := exists_of_exponentPart? he
    have first : Mantissa whole fraction (whole ++ point) := by
      rcases hpoint with ⟨rfl, rfl⟩ | rfl
      · rw [List.append_nil]
        exact .integer fun hnil => hne ⟨hnil, rfl⟩
      · exact .point (Decidable.not_and_iff_or_not.mp hne)
    refine ⟨whole ++ point ++ exponent, rest, ?_, ?_, .literal left right first last⟩
    · rw [ht]
      simp only [List.append_assoc]
    · simp only [List.length_append]

end Decimal

end Prepass
