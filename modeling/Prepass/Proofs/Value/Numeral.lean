/- Which texts mean numbers, and which numbers they mean. -/
import Prepass.Proofs.Binary64.Limit
import Prepass.Proofs.Expression.Lexeme
import Prepass.Proofs.Text.Integer
namespace Prepass

theorem Decimal.nearest_ne_nan (negative : Bool) (d : Decimal) : d.nearest negative ≠ .nan := by
  unfold nearest
  dsimp only
  split
  · exact nofun
  split
  · exact nofun
  split <;> exact Binary64.ofRatio_ne_nan _ _ _

/-- The characters of a decimal literal. -/
theorem Decimal.Spelled.characters {s : Text} {d : Decimal} (h : Spelled s d) :
    ∀ c ∈ s, c.isAsciiDigit 10 = true ∨ c ∈ Text.ofString ".eE+-" := by
  cases h with
  | @literal whole fraction mantissa exponent e left right first last =>
      have hmantissa : ∀ c ∈ mantissa, c.isAsciiDigit 10 = true ∨ c ∈ Text.ofString ".eE+-" := by
        cases first with
        | integer ne_nil => exact fun c hc => Or.inl (left c hc)
        | point ne_nil =>
            refine List.forall_mem_append.mpr ⟨fun c hc => Or.inl (left c hc), ?_⟩
            exact List.forall_mem_cons.mpr ⟨Or.inr (by decide), fun c hc => Or.inl (right c hc)⟩
      have hexponent : ∀ c ∈ exponent, c.isAsciiDigit 10 = true ∨ c ∈ Text.ofString ".eE+-" := by
        cases last with
        | none => exact List.forall_mem_nil _
        | @marked mark sign digits marks signs ne_nil all =>
            refine List.forall_mem_cons.mpr ⟨Or.inr ?_, List.forall_mem_append.mpr ⟨?_, ?_⟩⟩
            · rcases marks with rfl | rfl <;> decide
            · intro c hc
              rcases signs c (Option.mem_toList.mp hc) with rfl | rfl <;> exact Or.inr (by decide)
            · exact fun c hc => Or.inl (all c hc)
      exact List.forall_mem_append.mpr ⟨hmantissa, hexponent⟩

namespace Text

theorem announcedBase?_eq_some_iff {t rest : Text} {base : Nat} :
    announcedBase? t = some (base, rest) ↔
      ∃ mark ∈ baseMark base, t = CodePoint.ofChar '0' :: mark :: rest := by
  constructor
  · intro h
    obtain ⟨mark, rfl, -⟩ := exists_of_announcedBase? h
    refine ⟨mark, ?_, rfl⟩
    rw [announcedBase?, if_pos rfl] at h
    split_ifs at h with hx ho hb
    all_goals cases h
    · rcases hx with rfl | rfl <;> decide
    · rcases ho with rfl | rfl <;> decide
    · rcases hb with rfl | rfl <;> decide
  · rintro ⟨mark, hm, rfl⟩
    have hall : ∀ b ∈ [2, 8, 16], ∀ mark ∈ baseMark b,
        announcedBase? [CodePoint.ofChar '0', mark] = some (b, []) := by
      decide
    rw [announcedBase?_cons_cons, hall base (mem_bases_of_mem_baseMark hm) mark hm]
    rfl

theorem characters_of_signed {sign : Option CodePoint} {s : Text} {d : Decimal}
    (signs : ∀ c ∈ sign, c = '+' ∨ c = '-') (spelled : Decimal.Spelled s d) :
    ∀ c ∈ sign.toList ++ s, c.isAsciiDigit 10 = true ∨ c ∈ ofString ".eE+-" := by
  refine List.forall_mem_append.mpr ⟨?_, spelled.characters⟩
  intro c hc
  rcases signs c (Option.mem_toList.mp hc) with rfl | rfl <;> exact Or.inr (by decide)

/-- No mark of a base stands in a decimal literal. -/
theorem mark_not_mem {t : Text} (ht : ∀ c ∈ t, c.isAsciiDigit 10 = true ∨ c ∈ ofString ".eE+-")
    {base : Nat} {mark : CodePoint} (hm : mark ∈ baseMark base) : mark ∉ t := by
  have hall : ∀ b ∈ [2, 8, 16], ∀ c ∈ baseMark b,
      ¬ (c.isAsciiDigit 10 = true ∨ c ∈ ofString ".eE+-") := by
    decide
  exact fun hmem => hall base (mem_bases_of_mem_baseMark hm) mark hm (ht mark hmem)

/-- A text that is a decimal literal as a whole. -/
def wholeDecimal (negative : Bool) (t : Text) : Binary64 :=
  match Decimal.read? t with
  | some (d, length) => if length = t.length then d.nearest negative else .nan
  | none => .nan

theorem wholeDecimal_of_spelled {s : Text} {d : Decimal} (h : Decimal.Spelled s d)
    (negative : Bool) : wholeDecimal negative s = d.nearest negative := by
  have hread : Decimal.read? (s ++ []) = some (d, s.length) := h.read? nofun
  rw [List.append_nil] at hread
  rw [wholeDecimal, hread]
  exact if_pos rfl

theorem exists_spelled_of_wholeDecimal {negative : Bool} {t : Text}
    (h : wholeDecimal negative t ≠ .nan) : ∃ d, Decimal.Spelled t d := by
  unfold wholeDecimal at h
  split at h
  · rename_i d length hread
    obtain ⟨s, rest, rfl, rfl, hs⟩ := Decimal.exists_spelled hread
    split at h
    · rename_i hlength
      have hrest : rest = [] := by
        rw [List.length_append] at hlength
        exact List.length_eq_zero_iff.mp (by omega)
      rw [hrest, List.append_nil]
      exact ⟨d, hs⟩
    · exact absurd rfl h
  · exact absurd rfl h

theorem signedDecimal_of_sign {sign : Option CodePoint} {rest : Text}
    (signs : ∀ c ∈ sign, c = '+' ∨ c = '-')
    (unsigned : sign = none → ∀ c ∈ rest.head?, c ≠ '+' ∧ c ≠ '-') :
    signedDecimal (sign.toList ++ rest) =
      wholeDecimal (sign = some (CodePoint.ofChar '-')) rest := by
  cases sign with
  | none =>
      cases rest with
      | nil => rfl
      | cons c more =>
          obtain ⟨hplus, hminus⟩ := unsigned rfl c rfl
          exact (if_neg hminus).trans (if_neg hplus)
  | some c => rcases signs c rfl with rfl | rfl <;> rfl

/-- The number that digits of an announced base or a decimal literal mean. -/
def numeralNumber (t : Text) : Except Fault Binary64 :=
  match announcedBase? t with
  | some (base, digits) =>
    match readInteger? base digits with
    | some n => Binary64.ofInt? n
    | none => .ok .nan
  | none => .ok (signedDecimal t)

/-- The number that a text without blanks around it means. -/
def strippedNumber (t : Text) : Except Fault Binary64 :=
  if t.isEmpty then .ok (.zero false)
  else if t = ofString "Infinity" ∨ t = ofString "+Infinity" then .ok (.infinite false)
  else if t = ofString "-Infinity" then .ok (.infinite true)
  else numeralNumber t

theorem strippedNumber_eq {t : Text} (hne : t ≠ [])
    (hfinite : ∀ sign : Option CodePoint, (∀ c ∈ sign, c = '+' ∨ c = '-') →
      t ≠ sign.toList ++ ofString "Infinity") :
    strippedNumber t = numeralNumber t := by
  have hplus : ¬ (t = ofString "Infinity" ∨ t = ofString "+Infinity") :=
    not_or.mpr ⟨hfinite none (by decide), hfinite (some '+') (by decide)⟩
  have hminus : t ≠ ofString "-Infinity" := hfinite (some '-') (by decide)
  rw [strippedNumber, if_neg (mt List.isEmpty_iff.mp hne), if_neg hplus, if_neg hminus]

/-- No infinity begins with a zero. -/
theorem zero_cons_ne_infinity (rest : Text) (sign : Option CodePoint)
    (signs : ∀ c ∈ sign, c = '+' ∨ c = '-') :
    CodePoint.ofChar '0' :: rest ≠ sign.toList ++ ofString "Infinity" := by
  intro he
  cases sign with
  | none => exact absurd (List.cons.inj he).1 (by decide)
  | some c =>
      obtain rfl := (List.cons.inj he).1
      exact absurd (signs _ rfl) (by decide)

/-- The texts that mean numbers, and what comes of them. -/
inductive Means : Text → Except Fault Binary64 → Prop
  | blank : Means [] (.ok (.zero false))
  | infinity (sign : Option CodePoint) (signs : ∀ c ∈ sign, c = '+' ∨ c = '-') :
      Means (sign.toList ++ ofString "Infinity")
        (.ok (.infinite (sign = some (CodePoint.ofChar '-'))))
  | announced {base : Nat} {mark : CodePoint} {rest : Text} {n : Int} (marks : mark ∈ baseMark base)
      (loose : LooseInteger base rest n) :
      Means (CodePoint.ofChar '0' :: mark :: rest) (Binary64.ofInt? n)
  | decimal {sign : Option CodePoint} {s : Text} {d : Decimal}
      (signs : ∀ c ∈ sign, c = '+' ∨ c = '-') (spelled : Decimal.Spelled s d) :
      Means (sign.toList ++ s) (.ok (d.nearest (sign = some (CodePoint.ofChar '-'))))

theorem Means.ne_nan {t : Text} {result : Except Fault Binary64} (h : Means t result) :
    result ≠ .ok .nan := by
  cases h with
  | blank => exact nofun
  | infinity sign signs => exact nofun
  | announced marks loose => exact Binary64.ofInt?_ne_nan _
  | decimal signs spelled => exact fun he => Decimal.nearest_ne_nan _ _ (Except.ok.inj he)

theorem Means.strippedNumber {t : Text} {result : Except Fault Binary64} (h : Means t result) :
    strippedNumber t = result := by
  cases h with
  | blank => rfl
  | infinity sign signs =>
      cases sign with
      | none => decide
      | some c => rcases signs c rfl with rfl | rfl <;> decide
  | @announced base mark rest n marks loose =>
      have hbase : announcedBase? (CodePoint.ofChar '0' :: mark :: rest) = some (base, rest) :=
        announcedBase?_eq_some_iff.mpr ⟨mark, marks, rfl⟩
      rw [strippedNumber_eq (List.cons_ne_nil _ _) (zero_cons_ne_infinity _), numeralNumber, hbase]
      dsimp only
      rw [loose.readInteger?]
  | @decimal sign s d signs spelled =>
      have hchars := characters_of_signed signs spelled
      have hfinite (other : Option CodePoint) (_ : ∀ c ∈ other, c = '+' ∨ c = '-') :
          sign.toList ++ s ≠ other.toList ++ ofString "Infinity" := by
        intro he
        have hmem : CodePoint.ofChar 'I' ∈ other.toList ++ ofString "Infinity" :=
          List.mem_append_right _ (by decide)
        exact absurd (hchars _ (he ▸ hmem)) (by decide)
      have hbase : announcedBase? (sign.toList ++ s) = none := by
        refine Option.eq_none_iff_forall_ne_some.mpr ?_
        rintro ⟨base, rest⟩ hsome
        obtain ⟨mark, hm, he⟩ := announcedBase?_eq_some_iff.mp hsome
        refine mark_not_mem hchars hm (he ▸ ?_)
        exact List.mem_cons_of_mem _ List.mem_cons_self
      obtain ⟨first, more, hs, hfirst⟩ := spelled.initial
      have hne : sign.toList ++ s ≠ [] := by
        rw [hs]
        exact List.append_ne_nil_of_right_ne_nil _ (List.cons_ne_nil _ _)
      have hunsigned (c : CodePoint) (hc : c ∈ s.head?) : c ≠ '+' ∧ c ≠ '-' := by
        rw [hs] at hc
        cases hc
        constructor
        all_goals
          rintro rfl
          exact absurd hfirst (by decide)
      rw [strippedNumber_eq hne hfinite, numeralNumber, hbase]
      dsimp only
      rw [signedDecimal_of_sign signs fun _ => hunsigned, wholeDecimal_of_spelled spelled]

/-- Every other text is taken for no number. -/
theorem means_of_ne_nan {t : Text} (h : strippedNumber t ≠ .ok .nan) :
    Means t (strippedNumber t) := by
  unfold strippedNumber at h ⊢
  split_ifs at h ⊢ with hempty hplus hminus
  · rw [List.isEmpty_iff.mp hempty]
    exact .blank
  · rcases hplus with rfl | rfl
    · exact .infinity none (by decide)
    · exact .infinity (some '+') (by decide)
  · obtain rfl := hminus
    exact .infinity (some '-') (by decide)
  · unfold numeralNumber at h ⊢
    split
    · rename_i base digits hbase
      obtain ⟨mark, hm, rfl⟩ := announcedBase?_eq_some_iff.mp hbase
      rw [hbase] at h
      split
      · rename_i n hn
        exact .announced hm (looseInteger_of_readInteger? hn)
      · rename_i hn
        simp [hn] at h
    · rename_i hbase
      rw [hbase] at h
      obtain ⟨sign, rest, rfl, signs, unsigned⟩ := exists_sign t
      rw [signedDecimal_of_sign signs unsigned] at h ⊢
      obtain ⟨d, spelled⟩ := exists_spelled_of_wholeDecimal fun he => h (congrArg Except.ok he)
      rw [wholeDecimal_of_spelled spelled]
      exact .decimal signs spelled

theorem strippedNumber_ne_nan_iff {t : Text} :
    strippedNumber t ≠ .ok .nan ↔ ∃ result, Means t result :=
  ⟨fun h => ⟨_, means_of_ne_nan h⟩, fun ⟨_, h⟩ => h.strippedNumber ▸ h.ne_nan⟩

/-- The texts that numbers are written as: nothing, an infinity, plain digits of an announced base
and decimal literals. -/
inductive Numeric : Text → Prop
  | blank : Numeric []
  | infinity (sign : Option CodePoint) (signs : ∀ c ∈ sign, c = '+' ∨ c = '-') :
      Numeric (sign.toList ++ ofString "Infinity")
  | announced {base : Nat} {mark : CodePoint} {digits : Text} (marks : mark ∈ baseMark base)
      (ne_nil : digits ≠ []) (all : ∀ c ∈ digits, c.isAsciiDigit base = true) :
      Numeric (CodePoint.ofChar '0' :: mark :: digits)
  | decimal {sign : Option CodePoint} {s : Text} {d : Decimal}
      (signs : ∀ c ∈ sign, c = '+' ∨ c = '-') (spelled : Decimal.Spelled s d) :
      Numeric (sign.toList ++ s)

/-- An integer behind the announcement of its base that is spelled with more than plain digits. -/
inductive StrayNumeral : Text → Prop
  | spelled {base : Nat} {mark c : CodePoint} {rest : Text} {n : Int} (marks : mark ∈ baseMark base)
      (loose : LooseInteger base rest n) (mem : c ∈ rest) (stray : c.isAsciiDigit base = false) :
      StrayNumeral (CodePoint.ofChar '0' :: mark :: rest)

theorem exists_means_iff {t : Text} : (∃ result, Means t result) ↔ Numeric t ∨ StrayNumeral t := by
  constructor
  · rintro ⟨result, h⟩
    cases h with
    | blank => exact Or.inl .blank
    | infinity sign signs => exact Or.inl (.infinity sign signs)
    | @announced base mark rest n marks loose =>
        by_cases hall : ∀ c ∈ rest, c.isAsciiDigit base = true
        · exact Or.inl (.announced marks loose.ne_nil hall)
        · push Not at hall
          obtain ⟨c, hc, hd⟩ := hall
          exact Or.inr (.spelled marks loose hc (Bool.eq_false_iff.mpr hd))
    | decimal signs spelled => exact Or.inl (.decimal signs spelled)
  · rintro (h | h)
    · cases h with
      | blank => exact ⟨_, .blank⟩
      | infinity sign signs => exact ⟨_, .infinity sign signs⟩
      | announced marks ne_nil all => exact ⟨_, .announced marks (looseInteger_digits ne_nil all)⟩
      | decimal signs spelled => exact ⟨_, .decimal signs spelled⟩
    · cases h with
      | spelled marks loose mem stray => exact ⟨_, .announced marks loose⟩

theorem eq_of_mem_baseMark {base base' : Nat} {mark : CodePoint} (h : mark ∈ baseMark base)
    (h' : mark ∈ baseMark base') : base = base' := by
  have hone : announcedBase? [CodePoint.ofChar '0', mark] = some (base, []) :=
    announcedBase?_eq_some_iff.mpr ⟨mark, h, rfl⟩
  have hother : announcedBase? [CodePoint.ofChar '0', mark] = some (base', []) :=
    announcedBase?_eq_some_iff.mpr ⟨mark, h', rfl⟩
  exact congrArg Prod.fst (Option.some.inj (hone.symm.trans hother))

theorem StrayNumeral.not_numeric {t : Text} (h : StrayNumeral t) : ¬ Numeric t := by
  cases h with
  | @spelled base mark c rest n marks loose mem stray =>
      generalize ht : CodePoint.ofChar '0' :: mark :: rest = t
      intro hnumeric
      cases hnumeric with
      | blank => cases ht
      | infinity sign signs => exact zero_cons_ne_infinity _ sign signs ht
      | announced marks' ne_nil all =>
          cases ht
          obtain rfl := eq_of_mem_baseMark marks marks'
          rw [all c mem] at stray
          cases stray
      | decimal signs spelled =>
          refine mark_not_mem (characters_of_signed signs spelled) marks (ht ▸ ?_)
          exact List.mem_cons_of_mem _ List.mem_cons_self

end Text

namespace Value

open Text (Numeric StrayNumeral LooseInteger)

theorem toNumber_str (s : Text) : (Value.str s).toNumber = Text.strippedNumber s.strip := rfl

theorem toNumber_announced {s rest : Text} {base : Nat} {mark : CodePoint} {n : Int}
    (marks : mark ∈ Text.baseMark base) (hs : s.strip = CodePoint.ofChar '0' :: mark :: rest)
    (h : LooseInteger base rest n) : (Value.str s).toNumber = Binary64.ofInt? n := by
  rw [toNumber_str, hs]
  exact (Text.Means.announced marks h).strippedNumber

/-- A text means a number exactly if a number is written as it, or if it announces a base and
spells an integer of it more freely; it cannot be both. What follows the announcement is the number
that it spells, and plain digits spell their value. -/
theorem toNumber_ne_nan_iff (s : Text) :
    ((Value.str s).toNumber ≠ .ok .nan ↔ Numeric s.strip ∨ StrayNumeral s.strip) ∧
      ¬ (Numeric s.strip ∧ StrayNumeral s.strip) ∧
      ∀ (base : Nat) (mark : CodePoint) (rest : Text), mark ∈ Text.baseMark base →
        s.strip = CodePoint.ofChar '0' :: mark :: rest →
          (∀ n, LooseInteger base rest n → (Value.str s).toNumber = Binary64.ofInt? n) ∧
          (rest ≠ [] → (∀ c ∈ rest, c.isAsciiDigit base = true) →
            (Value.str s).toNumber =
              if Text.digitsValue base rest < 2 ^ 1024 - 2 ^ 970 then
                .ok (.ofInt (Text.digitsValue base rest))
              else .error .numberTooLarge) := by
  refine ⟨?_, fun h => h.2.not_numeric h.1, ?_⟩
  · rw [toNumber_str, Text.strippedNumber_ne_nan_iff, Text.exists_means_iff]
  · intro base mark rest marks hs
    refine ⟨fun n => toNumber_announced marks hs, ?_⟩
    intro hne hall
    rw [toNumber_announced marks hs (Text.looseInteger_digits hne hall), Binary64.ofInt?_natCast]

theorem toNumber_ne_nan_iff_grouped :
    (Value.str "0x1_0").toNumber = .ok (.ofInt 16) ∧ ¬ Numeric (Text.strip "0x1_0") ∧
      (Value.str "0x1_0").toNumber ≠ .ok .nan ∧
      (Value.str " 0XfF ").toNumber = .ok (.ofInt 255) := by
  have hloose : LooseInteger 16 "1_0" 16 := Text.readInteger?_eq_some_iff.mp (by decide)
  have hstray : StrayNumeral (Text.strip "0x1_0") :=
    .spelled (c := '_') (by decide) hloose (by decide) (by decide)
  obtain ⟨hiff, hnot, hvalue⟩ := toNumber_ne_nan_iff "0x1_0"
  obtain ⟨-, -, hdigits⟩ := toNumber_ne_nan_iff " 0XfF "
  refine ⟨?_, fun h => hnot ⟨h, hstray⟩, hiff.mpr (Or.inr hstray), ?_⟩
  · rw [(hvalue 16 'x' "1_0" (by decide) (by decide)).1 16 hloose]
    exact (Binary64.ofInt?_natCast 16).trans (if_pos (by decide +kernel))
  · rw [(hdigits 16 'X' "fF" (by decide) (by decide)).2 (by decide) (by decide)]
    exact if_pos (by decide +kernel)

end Value

end Prepass
