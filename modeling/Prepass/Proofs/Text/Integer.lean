/- Which texts are read as integers of a base: plain digits, and what is let through besides. -/
import Mathlib.Data.List.DropRight
import Prepass.Proofs.Text.Classes
import Prepass.Proofs.Text.Join
import Prepass.Text.Integer
namespace Prepass

/-- What stands between characters of a class is left without them. -/
theorem dropEnds_surrounded {α : Type} {p : α → Bool} {before middle after : List α}
    (hb : ∀ a ∈ before, p a = true) (ha : ∀ a ∈ after, p a = true)
    (hf : ∀ a ∈ middle.head?, p a = false) (hl : ∀ a ∈ middle.getLast?, p a = false) :
    (((before ++ (middle ++ after)).dropWhile p).reverse.dropWhile p).reverse = middle := by
  cases middle with
  | nil =>
      have hall : ∀ a ∈ before ++ ([] ++ after), p a = true := List.forall_mem_append.mpr ⟨hb, ha⟩
      rw [List.dropWhile_eq_nil_iff.mpr hall]
      rfl
  | cons first more =>
      have hr : ∀ a ∈ (first :: more).reverse.head?, p a = false := by rwa [List.head?_reverse]
      have hb' : ∀ a ∈ after.reverse, p a = true := fun a hm => ha a (List.mem_reverse.mp hm)
      have hf' : ∀ a ∈ (first :: more ++ after).head?, p a = false := hf
      rw [dropWhile_append_stop hb hf', List.reverse_append, dropWhile_append_stop hb' hr,
        List.reverse_reverse]

theorem exists_dropEnds {α : Type} (p : α → Bool) (l : List α) :
    ∃ before after, (∀ a ∈ before, p a = true) ∧ (∀ a ∈ after, p a = true) ∧
      l = before ++ (((l.dropWhile p).reverse.dropWhile p).reverse ++ after) := by
  refine ⟨l.takeWhile p, (l.dropWhile p).rtakeWhile p, ?_, ?_, ?_⟩
  · exact fun a => List.mem_takeWhile_imp
  · exact fun a => List.mem_rtakeWhile_imp
  · have hr : ((l.dropWhile p).reverse.dropWhile p).reverse ++ (l.dropWhile p).rtakeWhile p =
        l.dropWhile p := List.rdropWhile_append_rtakeWhile
    rw [hr, List.takeWhile_append_dropWhile]

namespace Text

/-- A digit of some script below the base. -/
def IsWideDigit (base : Nat) (c : CodePoint) : Prop := ∃ d, wideDigitIn? base c = some d

/-- The value of digits of any script. -/
def wideValue (base : Nat) (digits : Text) : Nat :=
  digits.foldl (fun n c => n * base + (wideDigit? c).getD 0) 0

/-- The announcement of a base, or nothing. -/
inductive Announcement (base : Nat) : Text → Prop
  | none : Announcement base []
  | marked {zero mark : CodePoint} (zeros : zero.decimalValue? = some 0)
      (marks : mark ∈ baseMark base) : Announcement base [zero, mark]
  | divided {zero mark : CodePoint} (zeros : zero.decimalValue? = some 0)
      (marks : mark ∈ baseMark base) : Announcement base [zero, mark, CodePoint.ofChar '_']

/-- Digits in groups, none of which is empty. -/
structure Grouped (base : Nat) (groups : List Text) : Prop where
  ne_nil : groups ≠ []
  full : [] ∉ groups
  digits : ∀ group ∈ groups, ∀ c ∈ group, IsWideDigit base c

/-- The integer with this magnitude behind an optional sign. -/
def signed (sign : Option CodePoint) (n : Nat) : Int :=
  if sign = some (CodePoint.ofChar '-') then -(n : Int) else n

/-- An integer of a base, as it is taken by lenient readers. -/
inductive LooseInteger (base : Nat) : Text → Int → Prop
  | spelled {before announcement after : Text} {sign : Option CodePoint} {groups : List Text}
      (blankBefore : ∀ c ∈ before, isIntegerBlank c = true)
      (signs : ∀ c ∈ sign, c = '+' ∨ c = '-') (announces : Announcement base announcement)
      (grouped : Grouped base groups) (blankAfter : ∀ c ∈ after, isIntegerBlank c = true) :
      LooseInteger base
        (before ++ ((sign.toList ++ (announcement ++ join "_" groups)) ++ after))
        (signed sign (wideValue base groups.flatten))

section Characters

variable {base : Nat} {c : CodePoint}

theorem wideDigit?_of_isBlank (h : c.isBlank = true) : wideDigit? c = none := by
  have hall : ∀ range ∈ blankRanges, ∀ k < range.2 + 1 - range.1,
      (CodePoint.ofNat? (range.1 + k)).all (fun d => (wideDigit? d).isNone) = true := by
    decide +kernel
  obtain ⟨range, hm, hlow, hhigh⟩ := exists_mem_of_inRanges h
  have hc := hall range hm (c.toNat - range.1) (by omega)
  rw [Nat.add_sub_cancel' hlow, CodePoint.ofNat?_toNat] at hc
  simpa using hc

theorem IsWideDigit.ne_none (h : IsWideDigit base c) : wideDigit? c ≠ none := by
  obtain ⟨d, hd⟩ := h
  intro hnone
  rw [wideDigitIn?, hnone] at hd
  cases hd

theorem isIntegerBlank_of_wideDigit? (h : wideDigit? c ≠ none) : isIntegerBlank c = false := by
  refine Bool.eq_false_iff.mpr fun hb => h (wideDigit?_of_isBlank ?_)
  exact (Bool.and_eq_true_iff.mp hb).1

/-- No digit is a sign or an underscore. -/
theorem ne_of_wideDigit? (h : wideDigit? c ≠ none) : c ≠ '+' ∧ c ≠ '-' ∧ c ≠ '_' := by
  refine ⟨?_, ?_, ?_⟩
  all_goals
    rintro rfl
    exact h (by decide)

theorem wideDigit?_of_decimalValue? {n : Nat} (h : c.decimalValue? = some n) :
    wideDigit? c = some n := by
  rw [wideDigit?, h]

theorem wideDigit?_of_asciiDigit? {d : Nat} (h : c.asciiDigit? = some d) :
    wideDigit? c = some d := by
  have hall : ∀ n < 0x67, (CodePoint.ofNat? n).all
      (fun e => e.asciiDigit?.isNone || wideDigit? e == e.asciiDigit?) = true := by
    decide +kernel
  have hdigit : c.isAsciiDigit (d + 1) = true := by
    rw [CodePoint.isAsciiDigit, h]
    simp
  have hc := hall c.toNat (CodePoint.toNat_lt_of_isAsciiDigit hdigit)
  rw [CodePoint.ofNat?_toNat] at hc
  simpa [h] using hc

theorem mem_bases_of_mem_baseMark (h : c ∈ baseMark base) : base ∈ [2, 8, 16] := by
  unfold baseMark at h
  split at h
  · decide
  · decide
  · decide
  · cases h

/-- The mark of a base is no digit of it. -/
theorem wideDigitIn?_of_mem_baseMark (h : c ∈ baseMark base) : wideDigitIn? base c = none := by
  have hall : ∀ b ∈ [2, 8, 16], ∀ mark ∈ baseMark b, wideDigitIn? b mark = none := by decide
  exact hall base (mem_bases_of_mem_baseMark h) c h

theorem ne_underscore_of_mem_baseMark (h : c ∈ baseMark base) : c ≠ '_' := by
  have hall : ∀ b ∈ [2, 8, 16], CodePoint.ofChar '_' ∉ baseMark b := by decide
  rintro rfl
  exact hall base (mem_bases_of_mem_baseMark h) h

end Characters

section Reading

variable {base : Nat}

theorem splitOn_ne_nil (sep : CodePoint) (t : Text) : splitOn sep t ≠ [] := by
  cases t with
  | nil => exact List.cons_ne_nil _ _
  | cons c rest =>
      rw [splitOn]
      split
      · exact List.cons_ne_nil _ _
      · split <;> exact List.cons_ne_nil _ _

theorem join_splitOn (sep : CodePoint) (t : Text) : join [sep] (splitOn sep t) = t := by
  induction t with
  | nil => rfl
  | cons c rest ih =>
      obtain ⟨part, parts, hparts⟩ := List.exists_cons_of_ne_nil (splitOn_ne_nil sep rest)
      rw [splitOn]
      rw [hparts] at ih ⊢
      split
      · rename_i hc
        rw [join_cons_cons, ih, hc]
        rfl
      · rw [join_cons, List.cons_append, ← join_cons, ih]

/-- Digits are read one by one, if all of them are digits. -/
theorem mapM_wideDigitIn? {t : Text} (h : ∀ c ∈ t, IsWideDigit base c) :
    t.mapM (wideDigitIn? base) = some (t.map fun c => (wideDigit? c).getD 0) := by
  induction t with
  | nil => rfl
  | cons c rest ih =>
      obtain ⟨⟨d, hd⟩, hrest⟩ := List.forall_mem_cons.mp h
      obtain ⟨hw, -⟩ := Option.filter_eq_some_iff.mp hd
      rw [List.mapM_cons, hd, ih hrest, List.map_cons, hw]
      rfl

theorem isWideDigit_of_mapM {t : Text} {digits : List Nat}
    (h : t.mapM (wideDigitIn? base) = some digits) : ∀ c ∈ t, IsWideDigit base c := by
  induction t generalizing digits with
  | nil => exact List.forall_mem_nil _
  | cons c rest ih =>
      rw [List.mapM_cons] at h
      obtain ⟨d, hd, h⟩ := Option.bind_eq_some_iff.mp h
      obtain ⟨more, hm, -⟩ := Option.bind_eq_some_iff.mp h
      exact List.forall_mem_cons.mpr ⟨⟨d, hd⟩, ih hm⟩

theorem Grouped.underscore_not_mem {groups : List Text} (h : Grouped base groups) :
    ∀ group ∈ groups, CodePoint.ofChar '_' ∉ group := by
  intro group hg hm
  exact (ne_of_wideDigit? (h.digits group hg _ hm).ne_none).2.2 rfl

theorem Grouped.readGroups? {groups : List Text} (h : Grouped base groups) :
    readGroups? base (join "_" groups) = some (wideValue base groups.flatten) := by
  have hsplit : splitOn '_' (join "_" groups) = groups :=
    splitOn_join h.ne_nil h.underscore_not_mem
  have hfull : groups.any List.isEmpty = false := by
    refine List.any_eq_false.mpr fun group hg he => h.full ?_
    exact List.isEmpty_iff.mp he ▸ hg
  have hdigits : ∀ c ∈ groups.flatten, IsWideDigit base c := by
    intro c hc
    obtain ⟨group, hg, hm⟩ := List.mem_flatten.mp hc
    exact h.digits group hg c hm
  simp only [Text.readGroups?, hsplit, hfull, mapM_wideDigitIn? hdigits, Bool.false_eq_true,
    if_false, Option.map_some, List.foldl_map]
  rfl

theorem exists_grouped {t : Text} {n : Nat} (h : readGroups? base t = some n) :
    ∃ groups, Grouped base groups ∧ t = join "_" groups ∧ n = wideValue base groups.flatten := by
  have hjoin : t = join "_" (splitOn '_' t) := (join_splitOn '_' t).symm
  have hread := h
  unfold Text.readGroups? at h
  dsimp only at h
  split at h
  · cases h
  · rename_i hfull
    obtain ⟨digits, hdigits, -⟩ := Option.map_eq_some_iff.mp h
    have hgrouped : Grouped base (splitOn '_' t) := by
      refine ⟨splitOn_ne_nil '_' t, ?_, ?_⟩
      · simpa using hfull
      · intro group hg c hc
        exact isWideDigit_of_mapM hdigits c (List.mem_flatten.mpr ⟨group, hg, hc⟩)
    refine ⟨_, hgrouped, hjoin, ?_⟩
    rw [hjoin, hgrouped.readGroups?] at hread
    exact (Option.some.inj hread).symm

theorem Grouped.exists_first {groups : List Text} (h : Grouped base groups) :
    ∃ c more, join "_" groups = c :: more ∧ IsWideDigit base c := by
  obtain ⟨group, rest, rfl⟩ := List.exists_cons_of_ne_nil h.ne_nil
  cases group with
  | nil => exact absurd List.mem_cons_self h.full
  | cons c more =>
      exact ⟨c, _, join_cons _ _ _, h.digits _ List.mem_cons_self c List.mem_cons_self⟩

theorem Grouped.exists_last {groups : List Text} (h : Grouped base groups) :
    ∃ init c, join "_" groups = init ++ [c] ∧ IsWideDigit base c := by
  obtain ⟨init, group, rfl⟩ := (List.eq_nil_or_concat' groups).resolve_left h.ne_nil
  have hmem : group ∈ init ++ [group] := List.mem_append_right init List.mem_cons_self
  rcases List.eq_nil_or_concat' group with rfl | ⟨front, c, rfl⟩
  · exact absurd hmem h.full
  · have hc := h.digits _ hmem c (List.mem_append_right front List.mem_cons_self)
    cases init with
    | nil => exact ⟨front, c, List.intercalate_singleton, hc⟩
    | cons first rest =>
        refine ⟨join "_" (first :: rest) ++ ("_" ++ front), c, ?_, hc⟩
        rw [join_concat (List.cons_ne_nil _ _)]
        simp only [List.append_assoc]

/-- Without an announcement no mark of the base follows the first digit. -/
theorem Grouped.mark_not_mem {groups : List Text} (h : Grouped base groups) {mark : CodePoint}
    (hm : mark ∈ baseMark base) : mark ∉ join "_" groups := by
  refine not_mem_join ?_ ?_
  · exact fun hmem => ne_underscore_of_mem_baseMark hm (List.mem_singleton.mp hmem)
  · intro group hg hmem
    obtain ⟨d, hd⟩ := h.digits group hg mark hmem
    rw [wideDigitIn?_of_mem_baseMark hm] at hd
    cases hd

theorem Announcement.dropBaseMark {announcement : Text} {groups : List Text}
    (ha : Announcement base announcement) (hg : Grouped base groups) :
    dropBaseMark base (announcement ++ join "_" groups) = join "_" groups := by
  obtain ⟨c, more, hjoin, hc⟩ := hg.exists_first
  cases ha with
  | none =>
      rw [List.nil_append]
      have hmark : ∀ mark ∈ baseMark base, mark ∉ c :: more := by
        intro mark hm
        exact hjoin ▸ hg.mark_not_mem hm
      rw [hjoin]
      cases more with
      | nil => rfl
      | cons mark rest =>
          refine if_neg fun hboth => hmark mark hboth.2 ?_
          exact List.mem_cons_of_mem c List.mem_cons_self
  | marked zeros marks =>
      rw [hjoin]
      exact (if_pos ⟨zeros, marks⟩).trans (if_neg (ne_of_wideDigit? hc.ne_none).2.2)
  | divided zeros marks => exact (if_pos ⟨zeros, marks⟩).trans (if_pos rfl)

theorem exists_announcement (base : Nat) (t : Text) :
    ∃ announcement, Announcement base announcement ∧ t = announcement ++ dropBaseMark base t := by
  unfold Text.dropBaseMark
  split
  · rename_i zero mark rest
    split
    · rename_i hboth
      cases rest with
      | nil => exact ⟨[zero, mark], .marked hboth.1 hboth.2, rfl⟩
      | cons c more =>
          dsimp only
          split
          · rename_i hc
            exact ⟨[zero, mark, '_'], .divided hboth.1 hboth.2, by rw [hc]; rfl⟩
          · exact ⟨[zero, mark], .marked hboth.1 hboth.2, rfl⟩
    · exact ⟨[], .none, rfl⟩
  · exact ⟨[], .none, rfl⟩

/-- What stands before the digits or is one is no blank. -/
theorem first_of_announced {announcement : Text} {groups : List Text}
    (ha : Announcement base announcement) (hg : Grouped base groups) :
    ∃ c more, announcement ++ join "_" groups = c :: more ∧ wideDigit? c ≠ none := by
  have hzero {zero : CodePoint} (zeros : zero.decimalValue? = some 0) : wideDigit? zero ≠ none := by
    rw [wideDigit?_of_decimalValue? zeros]
    exact Option.some_ne_none 0
  cases ha with
  | none =>
      obtain ⟨c, more, hjoin, hc⟩ := hg.exists_first
      exact ⟨c, more, hjoin, hc.ne_none⟩
  | marked zeros marks => exact ⟨_, _, rfl, hzero zeros⟩
  | divided zeros marks => exact ⟨_, _, rfl, hzero zeros⟩

/-- The text without blanks around it. -/
def integerCore (t : Text) : Text :=
  ((t.dropWhile isIntegerBlank).reverse.dropWhile isIntegerBlank).reverse

/-- Reading goes on behind the sign. -/
theorem readInteger?_of_core {t rest : Text} {sign : Option CodePoint}
    (hcore : integerCore t = sign.toList ++ rest) (signs : ∀ c ∈ sign, c = '+' ∨ c = '-')
    (unsigned : sign = none → ∀ c ∈ rest.head?, c ≠ '+' ∧ c ≠ '-') :
    readInteger? base t = (readGroups? base (dropBaseMark base rest)).map (signed sign) := by
  unfold integerCore at hcore
  simp only [readInteger?, hcore]
  cases sign with
  | none =>
      cases rest with
      | nil => rfl
      | cons c more =>
          obtain ⟨hplus, hminus⟩ := unsigned rfl c rfl
          exact (if_neg hminus).trans (if_neg hplus)
  | some c =>
      rw [Option.toList_some, List.singleton_append]
      rcases signs c rfl with rfl | rfl
      · rfl
      · refine (if_pos rfl).trans ?_
        cases readGroups? base (dropBaseMark base rest) <;> rfl

theorem exists_sign (t : Text) : ∃ (sign : Option CodePoint) (rest : Text),
    t = sign.toList ++ rest ∧ (∀ c ∈ sign, c = '+' ∨ c = '-') ∧
      (sign = none → ∀ c ∈ rest.head?, c ≠ '+' ∧ c ≠ '-') := by
  cases t with
  | nil => exact ⟨none, [], rfl, nofun, fun _ => nofun⟩
  | cons c rest =>
      by_cases hc : c = '+' ∨ c = '-'
      · exact ⟨some c, rest, rfl, by rintro _ ⟨⟩; exact hc, nofun⟩
      · refine ⟨none, c :: rest, rfl, nofun, ?_⟩
        rintro - _ ⟨⟩
        exact not_or.mp hc

theorem LooseInteger.readInteger? {t : Text} {n : Int} (h : LooseInteger base t n) :
    readInteger? base t = some n := by
  cases h with
  | @spelled before announcement after sign groups blankBefore signs announces grouped blankAfter =>
      obtain ⟨c, more, hfirst, hc⟩ := first_of_announced announces grouped
      obtain ⟨init, last, hlast, hl⟩ := grouped.exists_last
      have hcore : integerCore
          (before ++ ((sign.toList ++ (announcement ++ join "_" groups)) ++ after)) =
          sign.toList ++ (announcement ++ join "_" groups) := by
        refine dropEnds_surrounded blankBefore blankAfter ?_ ?_
        · cases sign with
          | none =>
              rw [hfirst]
              rintro _ ⟨⟩
              exact isIntegerBlank_of_wideDigit? hc
          | some s =>
              rintro _ ⟨⟩
              rcases signs s rfl with rfl | rfl <;> decide
        · rw [hlast, ← List.append_assoc, ← List.append_assoc, List.getLast?_concat]
          rintro _ ⟨⟩
          exact isIntegerBlank_of_wideDigit? hl.ne_none
      rw [readInteger?_of_core hcore signs, announces.dropBaseMark grouped, grouped.readGroups?]
      · rfl
      · intro _
        rw [hfirst]
        rintro _ ⟨⟩
        exact ⟨(ne_of_wideDigit? hc).1, (ne_of_wideDigit? hc).2.1⟩

theorem looseInteger_of_readInteger? {t : Text} {n : Int} (h : readInteger? base t = some n) :
    LooseInteger base t n := by
  obtain ⟨before, after, hbefore, hafter, ht⟩ := exists_dropEnds isIntegerBlank t
  obtain ⟨sign, rest, hcore, signs, unsigned⟩ := exists_sign (integerCore t)
  obtain ⟨announcement, announces, hrest⟩ := exists_announcement base rest
  rw [readInteger?_of_core hcore signs unsigned] at h
  obtain ⟨m, hm, rfl⟩ := Option.map_eq_some_iff.mp h
  obtain ⟨groups, grouped, hjoin, rfl⟩ := exists_grouped hm
  change t = before ++ (integerCore t ++ after) at ht
  rw [ht, hcore, hrest, hjoin]
  exact .spelled hbefore signs announces grouped hafter

theorem readInteger?_eq_some_iff {t : Text} {n : Int} :
    readInteger? base t = some n ↔ LooseInteger base t n :=
  ⟨looseInteger_of_readInteger?, LooseInteger.readInteger?⟩

/-- Plain digits are read as such. -/
theorem looseInteger_digits {digits : Text} (ne_nil : digits ≠ [])
    (all : ∀ c ∈ digits, c.isAsciiDigit base = true) :
    LooseInteger base digits (digitsValue base digits) := by
  have hwide : ∀ c ∈ digits, IsWideDigit base c ∧ (wideDigit? c).getD 0 = c.asciiDigit?.getD 0 := by
    intro c hc
    obtain ⟨d, hd, hlt⟩ := (Option.any_eq_true _ _).mp (all c hc)
    have hw := wideDigit?_of_asciiDigit? hd
    exact ⟨⟨d, Option.filter_eq_some_iff.mpr ⟨hw, hlt⟩⟩, by rw [hw, hd]⟩
  have hvalue : wideValue base digits = digitsValue base digits :=
    List.foldl_ext _ _ _ fun n c hc => by rw [(hwide c hc).2]
  have hgrouped : Grouped base [digits] :=
    ⟨List.cons_ne_nil _ _, fun hm => ne_nil (List.mem_singleton.mp hm).symm,
      List.forall_mem_singleton.mpr fun c hc => (hwide c hc).1⟩
  have hloose : LooseInteger base
      ([] ++ ((Option.none.toList ++ ([] ++ join "_" [digits])) ++ []))
      (signed none (wideValue base [digits].flatten)) :=
    .spelled (List.forall_mem_nil _) nofun .none hgrouped (List.forall_mem_nil _)
  rw [List.flatten_singleton, hvalue] at hloose
  simpa [join, signed] using hloose

theorem LooseInteger.ne_nil {t : Text} {n : Int} (h : LooseInteger base t n) : t ≠ [] := by
  rintro rfl
  cases h.readInteger?

end Reading

end Text

end Prepass
