/- What a single token looks like. Every token that is read has one of these forms, it is as long as
it can be, and before a blank each of the forms is read as that token. -/
import Mathlib.Data.List.Find
import Prepass.Proofs.Decimal.Spelling
import Prepass.Proofs.Expression.Faults
import Prepass.Proofs.Expression.Quoted
import Prepass.Proofs.Substitution.Order
import Prepass.Proofs.Text.Classes
namespace Prepass

namespace Text

/-- A letter, an underscore or a dollar sign, and identifier characters behind it. -/
structure IsIdentifier (t : Text) : Prop where
  starts : ∃ c ∈ t.head?, c.isIdentifierStart = true
  all : ∀ c ∈ t, c.isIdentifierChar = true

/-- A text that is empty or begins with a blank. -/
def StartsBlank (t : Text) : Prop := ∀ c ∈ t.head?, c.isBlank = true

theorem StartsBlank.identifierChar {t : Text} (h : t.StartsBlank) :
    ∀ c ∈ t.head?, c.isIdentifierChar = false :=
  fun c hc => CodePoint.isIdentifierChar_of_isBlank (h c hc)

theorem StartsBlank.digit {t : Text} (h : t.StartsBlank) (base : Nat) :
    ∀ c ∈ t.head?, c.isAsciiDigit base = false := by
  intro c hc
  refine Bool.eq_false_iff.mpr fun hd => ?_
  have hi := CodePoint.isIdentifierChar_of_isAsciiDigit hd
  rw [h.identifierChar c hc] at hi
  cases hi

theorem StartsBlank.not_mem {t : Text} (h : t.StartsBlank) {symbols : List Text}
    (hs : ∀ s ∈ symbols, ∀ c ∈ s, c.isBlank = false) :
    ∀ c ∈ t.head?, ∀ s ∈ symbols, c ∉ s := by
  intro c hc s hm hcs
  have hb := hs s hm c hcs
  rw [h c hc] at hb
  cases hb

theorem StartsBlank.not_continues {t : Text} (h : t.StartsBlank) :
    ∀ c ∈ t.head?, ¬ Decimal.Continues c := by
  rintro c hc (hd | rfl | rfl | rfl)
  · rw [h.digit 10 c hc] at hd
    cases hd
  all_goals exact absurd (h _ hc) (by decide)

/-- The announcement of a base is two characters, whatever follows. -/
theorem announcedBase?_cons_cons (z mark : CodePoint) (rest : Text) :
    announcedBase? (z :: mark :: rest) =
      (announcedBase? [z, mark]).map fun (base, _) => (base, rest) := by
  unfold announcedBase?
  dsimp only
  split_ifs <;> rfl

theorem announcedBase?_eq_none {z : CodePoint} (hz : z ≠ '0') (rest : Text) :
    announcedBase? (z :: rest) = none := by
  cases rest with
  | nil => rfl
  | cons mark rest => exact if_neg hz

theorem exists_of_announcedBase? {t after : Text} {base : Nat}
    (h : announcedBase? t = some (base, after)) :
    ∃ mark, t = CodePoint.ofChar '0' :: mark :: after ∧
      ∀ rest, announcedBase? (CodePoint.ofChar '0' :: mark :: rest) = some (base, rest) := by
  match t with
  | [] | [_] => cases h
  | z :: mark :: tail =>
      obtain rfl : z = '0' := by
        refine Decidable.byContradiction fun hz => ?_
        rw [announcedBase?_eq_none hz] at h
        cases h
      rw [announcedBase?_cons_cons] at h
      obtain ⟨⟨found, none⟩, hb, he⟩ := Option.map_eq_some_iff.mp h
      cases he
      refine ⟨mark, rfl, fun rest => ?_⟩
      rw [announcedBase?_cons_cons, hb]
      rfl

theorem announcedBase?_of_append {s rest : Text} (h : announcedBase? (s ++ rest) = none) :
    announcedBase? s = none := by
  match s with
  | [] | [_] => rfl
  | z :: mark :: more =>
      rw [List.cons_append, List.cons_append, announcedBase?_cons_cons] at h
      rw [announcedBase?_cons_cons, Option.map_eq_none_iff.mp h]
      rfl

/-- No blank announces a base. -/
theorem announcedBase?_append {s rest : Text} (h : announcedBase? s = none) (hs : s ≠ [])
    (hr : rest.StartsBlank) : announcedBase? (s ++ rest) = none := by
  match s with
  | [z] =>
      cases rest with
      | nil => rfl
      | cons c rest =>
          have hne (mark : Char) (hm : (CodePoint.ofChar mark).isBlank = false) : ¬ c = mark := by
            rintro rfl
            rw [hr _ rfl] at hm
            cases hm
          rw [List.singleton_append, announcedBase?]
          simp only [hne 'x' (by decide), hne 'X' (by decide), hne 'o' (by decide),
            hne 'O' (by decide), hne 'b' (by decide), hne 'B' (by decide), or_self, if_false,
            ite_self]
  | z :: mark :: more =>
      rw [announcedBase?_cons_cons] at h
      rw [List.cons_append, List.cons_append, announcedBase?_cons_cons, Option.map_eq_none_iff.mp h]
      rfl

end Text

namespace Lexeme

/-- A number: digits of an announced base, or a decimal literal. -/
inductive Numeral : Text → Binary64 → Prop
  | announced {mark : CodePoint} {base : Nat} {digits : Text} {x : Binary64}
      (marks : ∀ rest, Text.announcedBase? (CodePoint.ofChar '0' :: mark :: rest) = some (base, rest))
      (ne_nil : digits ≠ []) (all : ∀ c ∈ digits, c.isAsciiDigit base = true)
      (value : Binary64.ofInt? (Text.digitsValue base digits) = .ok x) :
      Numeral (CodePoint.ofChar '0' :: mark :: digits) x
  | decimal {s : Text} {d : Decimal} (spelled : Decimal.Spelled s d)
      (plain : Text.announcedBase? s = none) : Numeral s (d.nearest false)

/-- The text behind an opening quote, up to the closing one, and what it means. -/
inductive Quoted (quote : CodePoint) : Text → Text → Prop
  | closing : Quoted quote [quote] []
  | plain {c : CodePoint} {raw t : Text} (unquoted : c ≠ quote) (unescaped : c ≠ '\\')
      (more : Quoted quote raw t) : Quoted quote (c :: raw) (c :: t)
  | hex {a b d : CodePoint} {raw t : Text} (value : codePoint? [a, b] = some d)
      (more : Quoted quote raw t) :
      Quoted quote (CodePoint.ofChar '\\' :: CodePoint.ofChar 'x' :: a :: b :: raw) (d :: t)
  | unicode {a b a' b' d : CodePoint} {raw t : Text} (value : codePoint? [a, b, a', b'] = some d)
      (more : Quoted quote raw t) :
      Quoted quote (CodePoint.ofChar '\\' :: CodePoint.ofChar 'u' :: a :: b :: a' :: b' :: raw)
        (d :: t)
  | escaped {e : CodePoint} {raw t : Text} (notHex : e ≠ 'x') (notUnicode : e ≠ 'u')
      (more : Quoted quote raw t) :
      Quoted quote (CodePoint.ofChar '\\' :: e :: raw) ((namedEscape? e).getD e :: t)

/-- The forms of tokens. -/
inductive Form : Lexeme → Prop
  | number {s : Text} {x : Binary64} (numeral : Numeral s x) : Form ⟨s, .number x⟩
  | string {quote : CodePoint} {raw t : Text} (quotes : quote = '\'' ∨ quote = '"')
      (quoted : Quoted quote raw t) : Form ⟨quote :: raw, .string t⟩
  | identifier {s : Text} (name : s.IsIdentifier) : Form ⟨s, .identifier⟩
  | operator {s : Text} (listed : s ∈ operators) : Form ⟨s, .operator⟩
  | punctuator {s : Text} (listed : s ∈ punctuators) : Form ⟨s, .punctuator⟩

/-- No longer token of the same kind could have been read before this rest. -/
structure Maximal (l : Lexeme) (rest : Text) : Prop where
  identifier : l.kind = .identifier → ∀ c ∈ rest.head?, c.isIdentifierChar = false
  number : ∀ x, l.kind = .number x → ∀ c ∈ rest.head?, c.isIdentifierChar = false
  operator : l.kind = .operator →
    ∀ other ∈ operators, other <+: l.text ++ rest → other.length ≤ l.text.length

section Readers

variable {t rest : Text} {l : Lexeme}

theorem finishNumber_eq_ok {length : Nat} {x : Binary64} (h : finishNumber t length x = .ok l) :
    l = ⟨t.take length, .number x⟩ ∧ ∀ c ∈ (t.drop length).head?, c.isIdentifierChar = false := by
  unfold finishNumber at h
  split at h
  · cases h
  · rename_i hn
    cases h
    refine ⟨rfl, fun c hc => ?_⟩
    simpa [Option.mem_def.mp hc] using hn

theorem finishNumber_append {s : Text} (x : Binary64)
    (hr : ∀ c ∈ rest.head?, c.isIdentifierChar = false) :
    finishNumber (s ++ rest) s.length x = .ok ⟨s, .number x⟩ := by
  have hnone : rest.head?.any CodePoint.isIdentifierChar = false := by
    cases hc : rest.head? with
    | none => rfl
    | some c => exact hr c hc
  rw [finishNumber, List.drop_left, List.take_left, hnone]
  rfl

theorem Numeral.number {s : Text} {x : Binary64} (h : Numeral s x) (hr : rest.StartsBlank) :
    Lexeme.number (s ++ rest) = .ok ⟨s, .number x⟩ := by
  have hend := finishNumber_append (s := s) x hr.identifierChar
  cases h with
  | announced marks ne_nil all value =>
      rw [Lexeme.number, List.cons_append, List.cons_append, marks]
      simp only [takeWhile_append_stop all (hr.digit _), List.isEmpty_iff, ne_nil, if_false, value]
      rwa [Nat.add_comm]
  | decimal spelled plain =>
      obtain ⟨c, more, hs, -⟩ := spelled.initial
      have hplain := Text.announcedBase?_append plain (by simp [hs]) hr
      rw [Lexeme.number, hplain, spelled.read? hr.not_continues]
      exact hend

theorem numeral_of_number (h : number t = .ok l) : ∃ x rest, l.kind = .number x ∧
    t = l.text ++ rest ∧ Numeral l.text x ∧ ∀ c ∈ rest.head?, c.isIdentifierChar = false := by
  unfold number at h
  split at h
  · rename_i base after hb
    obtain ⟨mark, rfl, marks⟩ := Text.exists_of_announcedBase? hb
    dsimp only at h
    split at h
    · cases h
    · rename_i hne
      split at h
      · cases h
      · rename_i x hx
        obtain ⟨rfl, hend⟩ := finishNumber_eq_ok h
        have all : ∀ c ∈ after.takeWhile (CodePoint.isAsciiDigit base),
            c.isAsciiDigit base = true := List.all_eq_true.mp List.all_takeWhile
        have hafter := (List.takeWhile_append_dropWhile (p := CodePoint.isAsciiDigit base)
          (l := after)).symm
        generalize after.takeWhile (CodePoint.isAsciiDigit base) = digits at *
        generalize after.dropWhile (CodePoint.isAsciiDigit base) = rest at *
        subst hafter
        rw [Nat.add_comm, List.drop_succ_cons, List.drop_succ_cons, List.drop_left] at hend
        rw [Nat.add_comm, List.take_succ_cons, List.take_succ_cons, List.take_left]
        exact ⟨x, rest, rfl, rfl, .announced marks (mt List.isEmpty_iff.mpr hne) all hx, hend⟩
  · rename_i hb
    split at h
    · cases h
    · rename_i d length hd
      obtain ⟨rfl, hend⟩ := finishNumber_eq_ok h
      obtain ⟨s, rest, rfl, rfl, spelled⟩ := Decimal.exists_spelled hd
      rw [List.drop_left] at hend
      simp only [List.take_left]
      exact ⟨_, rest, rfl, rfl, .decimal spelled (Text.announcedBase?_of_append hb), hend⟩

/-- No number begins with anything but a digit, or a point before a digit. -/
theorem number_eq_error {c : CodePoint} (hc : c.isAsciiDigit 10 = false)
    (hp : c = '.' → ∀ d ∈ rest.head?, d.isAsciiDigit 10 = false) :
    number (c :: rest) = .error ⟨.invalidNumber, 0⟩ := by
  have hzero : c ≠ '0' := by
    rintro rfl
    exact absurd hc (by decide)
  have hw : (c :: rest).takeWhile (CodePoint.isAsciiDigit 10) = [] :=
    List.takeWhile_cons_of_neg (by simp [hc])
  have hnone : Decimal.read? (c :: rest) = none := by
    obtain ⟨n, hf⟩ : ∃ n, Decimal.readFraction (c :: rest) = ([], n) := by
      by_cases hpoint : c = '.'
      · have hr : rest.takeWhile (CodePoint.isAsciiDigit 10) = [] :=
          takeWhile_append_stop (List.forall_mem_nil _) (hp hpoint)
        exact ⟨1, by simp only [Decimal.readFraction, hpoint, if_true, hr, List.length_nil]⟩
      · exact ⟨0, by simp only [Decimal.readFraction, hpoint, if_false]⟩
    rw [Decimal.read?_eq hw hf rfl, if_pos ⟨rfl, rfl⟩]
  rw [number, Text.announcedBase?_eq_none hzero, hnone]

theorem quotedFrom_hex {quote a b d : CodePoint} (offset : Nat) (rest : Text) (hq : quote ≠ '\\')
    (hd : codePoint? [a, b] = some d) :
    quotedFrom quote offset
        (CodePoint.ofChar '\\' :: CodePoint.ofChar 'x' :: a :: b :: rest) =
      prepend [d] (quotedFrom quote (offset + 4) rest) := by
  rw [quotedFrom.eq_def]
  refine (if_neg hq.symm).trans ((if_neg (not_not_intro rfl)).trans ((if_pos rfl).trans ?_))
  dsimp only
  rw [hd]
  rfl

theorem Quoted.quotedFrom {quote : CodePoint} {raw t : Text} (h : Quoted quote raw t)
    (hq : quote ≠ '\\') (offset : Nat) (rest : Text) :
    Lexeme.quotedFrom quote offset (raw ++ rest) = .ok (t, offset + raw.length) := by
  induction h generalizing offset with
  | closing => exact quotedFrom_quote offset rest
  | plain unquoted unescaped more ih =>
      rw [List.cons_append, quotedFrom_plain offset _ unquoted unescaped, ih, List.length_cons,
        Nat.add_right_comm, Nat.add_assoc]
      rfl
  | hex value more ih =>
      simp only [List.cons_append, List.length_cons]
      rw [quotedFrom_hex offset _ hq value, ih, Nat.add_right_comm, Nat.add_assoc]
      rfl
  | unicode value more ih =>
      simp only [List.cons_append, List.length_cons]
      rw [quotedFrom_unicode offset _ hq value, ih, Nat.add_right_comm, Nat.add_assoc]
      rfl
  | escaped notHex notUnicode more ih =>
      simp only [List.cons_append, List.length_cons]
      rw [quotedFrom_escaped offset _ hq notHex notUnicode, ih, Nat.add_right_comm, Nat.add_assoc]
      rfl

/-- What stands for one character of the meaning comes before the rest. -/
theorem exists_quoted_append {quote d : CodePoint} {offset stop : Nat} {rest value : Text}
    {read : Except LexStop (Text × Nat)} (front : Text)
    (h : read.map (fun (t, stop) => (d :: t, stop)) = .ok (value, stop))
    (more : ∀ {t last}, read = .ok (t, last) → ∃ raw tail, rest = raw ++ tail ∧
      Quoted quote raw t ∧ last = offset + front.length + raw.length)
    (joins : ∀ {raw t}, Quoted quote raw t → Quoted quote (front ++ raw) (d :: t)) :
    ∃ raw tail, front ++ rest = raw ++ tail ∧ Quoted quote raw value ∧
      stop = offset + raw.length := by
  obtain ⟨⟨t, last⟩, ht, he⟩ := map_eq_ok.mp h
  cases he
  obtain ⟨raw, tail, rfl, hraw, rfl⟩ := more ht
  refine ⟨front ++ raw, tail, (List.append_assoc ..).symm, joins hraw, ?_⟩
  rw [List.length_append, Nat.add_assoc]

theorem quoted_of_quotedFrom {quote : CodePoint} {offset stop : Nat} {t value : Text}
    (h : quotedFrom quote offset t = .ok (value, stop)) :
    ∃ raw rest, t = raw ++ rest ∧ Quoted quote raw value ∧ stop = offset + raw.length := by
  fun_induction quotedFrom quote offset t generalizing value stop with
  | case2 offset rest =>
      cases h
      exact ⟨[quote], rest, rfl, .closing, rfl⟩
  | case3 offset c rest hq hb ih => exact exists_quoted_append [c] h ih (.plain hq hb)
  | case5 offset c hq hb a b rest d hd ih =>
      obtain rfl := Decidable.not_not.mp hb
      exact exists_quoted_append ['\\', 'x', a, b] h ih (.hex hd)
  | case8 offset c hq hb a b a' b' rest d hd hu ih =>
      obtain rfl := Decidable.not_not.mp hb
      exact exists_quoted_append ['\\', 'u', a, b, a', b'] h ih (.unicode hd)
  | case11 offset c hq hb e rest hx hu ih =>
      obtain rfl := Decidable.not_not.mp hb
      exact exists_quoted_append ['\\', e] h ih (.escaped hx hu)
  | case1 | case4 | case6 | case7 | case9 | case10 => cases h

theorem quote_ne_backslash {quote : CodePoint} (h : quote = '\'' ∨ quote = '"') :
    quote ≠ '\\' := by
  rcases h with rfl | rfl <;> decide

theorem Quoted.string {quote : CodePoint} {raw t : Text} (h : Quoted quote raw t)
    (hq : quote = '\'' ∨ quote = '"') (rest : Text) :
    Lexeme.string (quote :: raw ++ rest) = .ok ⟨quote :: raw, .string t⟩ := by
  have hlength : 1 + raw.length = (quote :: raw).length := Nat.add_comm _ _
  rw [List.cons_append, Lexeme.string, if_pos hq, h.quotedFrom (quote_ne_backslash hq), hlength,
    ← List.cons_append]
  exact congrArg (fun u => Except.ok (Lexeme.mk u (.string t))) List.take_left

theorem quoted_of_string (h : string t = .ok l) : ∃ quote raw value rest,
    (quote = CodePoint.ofChar '\'' ∨ quote = '"') ∧ Quoted quote raw value ∧
      l = ⟨quote :: raw, .string value⟩ ∧ t = quote :: raw ++ rest := by
  cases t with
  | nil => cases h
  | cons quote u =>
      rw [Lexeme.string] at h
      split at h
      · rename_i hq
        obtain ⟨⟨value, stop⟩, hv, rfl⟩ := map_eq_ok.mp h
        obtain ⟨raw, rest, rfl, hraw, rfl⟩ := quoted_of_quotedFrom hv
        refine ⟨quote, raw, value, rest, hq, hraw, ?_, rfl⟩
        dsimp only
        rw [Nat.add_comm, List.take_succ_cons, List.take_left]
      · cases h

theorem identifier_append {s : Text} (hs : s.IsIdentifier)
    (hr : ∀ c ∈ rest.head?, c.isIdentifierChar = false) :
    identifier (s ++ rest) = .ok ⟨s, .identifier⟩ := by
  obtain ⟨⟨c, hc, hstart⟩, hall⟩ := hs
  obtain ⟨more, rfl⟩ := List.head?_eq_some_iff.mp hc
  rw [identifier, takeWhile_append_stop hall hr]
  exact if_pos hstart

theorem isIdentifier_of_identifier (h : identifier t = .ok l) : ∃ rest, l.kind = .identifier ∧
    l.text.IsIdentifier ∧ t = l.text ++ rest ∧ ∀ c ∈ rest.head?, c.isIdentifierChar = false := by
  unfold identifier at h
  split at h
  · rename_i hstart
    cases h
    obtain ⟨c, hc, hstart⟩ := (Option.any_eq_true _ _).mp hstart
    obtain ⟨more, rfl⟩ := List.head?_eq_some_iff.mp hc
    have hchar := CodePoint.isIdentifierChar_of_start hstart
    refine ⟨_, rfl, ⟨⟨c, ?_, hstart⟩, List.all_eq_true.mp List.all_takeWhile⟩,
      List.takeWhile_append_dropWhile.symm, head?_dropWhile _ _⟩
    rw [List.takeWhile_cons_of_pos hchar]
    rfl
  · cases h

/-- Only a character of a symbol could go on with it. -/
theorem isPrefixOf_append {s other : Text} (hr : ∀ c ∈ rest.head?, c ∉ other) :
    other.isPrefixOf (s ++ rest) = other.isPrefixOf s := by
  refine Bool.eq_iff_iff.mpr ?_
  rw [List.isPrefixOf_iff_prefix, List.isPrefixOf_iff_prefix]
  refine ⟨fun h => ?_, fun h => h.trans (List.prefix_append s rest)⟩
  rcases List.prefix_or_prefix_of_prefix h (List.prefix_append s rest) with hp | ⟨more, rfl⟩
  · exact hp
  · have hmore : more <+: rest := (List.prefix_append_right_inj s).mp h
    cases more with
    | nil => exact (List.append_nil s).symm ▸ List.prefix_rfl
    | cons c more =>
        obtain ⟨tail, rfl⟩ := hmore
        exact absurd (List.mem_append_right s List.mem_cons_self) (hr c rfl)

theorem symbol_append {symbols : List Text} {s : Text} (kind : TokenKind)
    (hs : symbols.find? (·.isPrefixOf s) = some s)
    (hr : ∀ c ∈ rest.head?, ∀ other ∈ symbols, c ∉ other) :
    symbol symbols kind (s ++ rest) = .ok ⟨s, kind⟩ := by
  have hfind : symbols.find? (·.isPrefixOf (s ++ rest)) = some s := by
    rw [← hs]
    refine List.find?_congr fun other ho => ?_
    exact isPrefixOf_append fun c hc => hr c hc other ho
  rw [symbol, hfind]

theorem symbol_eq_ok {symbols : List Text} {kind : TokenKind} (h : symbol symbols kind t = .ok l) :
    l.kind = kind ∧ symbols.find? (·.isPrefixOf t) = some l.text := by
  unfold symbol at h
  split at h
  · rename_i s hs
    cases h
    exact ⟨rfl, hs⟩
  · cases h

/-- A character that begins symbols only. -/
def isSymbolStart (c : CodePoint) : Bool :=
  !(c.isBlank || c.isAsciiDigit 10 || c.isIdentifierStart || c == '\'' || c == '"')

theorem initial_of_mem_operators :
    ∀ s ∈ operators, ∃ c ∈ s.head?, isSymbolStart c = true ∧ c ≠ '.' := by
  decide +kernel

theorem initial_of_mem_punctuators : ∀ s ∈ punctuators, ∃ c ∈ s.head?, isSymbolStart c = true ∧
    ∀ other ∈ operators, other.head? ≠ some c := by
  decide +kernel

theorem isBlank_of_mem_operators : ∀ s ∈ operators, ∀ c ∈ s, c.isBlank = false := by
  decide +kernel

theorem isBlank_of_mem_punctuators : ∀ s ∈ punctuators, ∀ c ∈ s, c.isBlank = false := by
  decide +kernel

/-- A symbol is the first one of its table that it begins with. -/
theorem find?_of_mem_operators : ∀ s ∈ operators, operators.find? (·.isPrefixOf s) = some s := by
  decide +kernel

theorem find?_of_mem_punctuators :
    ∀ s ∈ punctuators, punctuators.find? (·.isPrefixOf s) = some s := by
  decide +kernel

/-- Longer operators stand before shorter ones. -/
theorem pairwise_operators : operators.Pairwise fun s other => other.length ≤ s.length := by
  decide +kernel

theorem length_le_of_find? {s other : Text} (h : operators.find? (·.isPrefixOf t) = some s)
    (ho : other ∈ operators) (hp : other <+: t) : other.length ≤ s.length := by
  obtain ⟨-, before, after, htable, hbefore⟩ := List.find?_eq_some_iff_append.mp h
  have hpairs := pairwise_operators
  rw [htable] at ho hpairs
  rcases List.mem_append.mp ho with hb | ha
  · have hno := hbefore other hb
    simp [List.isPrefixOf_iff_prefix.mpr hp] at hno
  · rcases List.mem_cons.mp ha with rfl | hafter
    · exact Nat.le_refl _
    · exact (List.pairwise_cons.mp (List.pairwise_append.mp hpairs).2.1).1 other hafter

/-- A reader that leaves the text to the next one. -/
def Passes (t : Text) (read : Text → Except LexStop Lexeme) : Prop :=
  ∃ stop, read t = .error stop ∧ stop.error ≠ .numberTooLarge

theorem firstOf_of_passes {before after : List (Text → Except LexStop Lexeme)}
    {read : Text → Except LexStop Lexeme} (hb : ∀ other ∈ before, Passes t other)
    (hr : read t = .ok l) : firstOf t (before ++ read :: after) = .ok (some l) := by
  induction before with
  | nil => rw [List.nil_append, firstOf, hr]
  | cons other before ih =>
      obtain ⟨⟨stop, hs, hl⟩, hmore⟩ := List.forall_mem_cons.mp hb
      rw [List.cons_append, firstOf, hs]
      exact (if_neg hl).trans (ih hmore)

section Passing

variable {c : CodePoint}

theorem passes_number (hc : c.isAsciiDigit 10 = false)
    (hp : c = '.' → ∀ d ∈ rest.head?, d.isAsciiDigit 10 = false) : Passes (c :: rest) number :=
  ⟨_, number_eq_error hc hp, nofun⟩

theorem passes_string (h : ¬ (c = '\'' ∨ c = '"')) : Passes (c :: rest) string :=
  ⟨⟨.expectedQuote, 0⟩, if_neg h, nofun⟩

theorem passes_identifier (h : c.isIdentifierStart = false) : Passes (c :: rest) identifier := by
  refine ⟨⟨.invalidIdentifier, 0⟩, if_neg ?_, nofun⟩
  rw [List.head?_cons, Option.any_some, h]
  exact Bool.false_ne_true

theorem passes_operator (h : ∀ other ∈ operators, other.head? ≠ some c) :
    Passes (c :: rest) operator := by
  have hnone : operators.find? (·.isPrefixOf (c :: rest)) = none := by
    refine List.find?_eq_none.mpr fun other ho hp => h other ho ?_
    obtain ⟨d, hd, -⟩ := initial_of_mem_operators other ho
    obtain ⟨more, rfl⟩ := List.head?_eq_some_iff.mp hd
    obtain ⟨rfl, -⟩ := List.cons_prefix_cons.mp (List.isPrefixOf_iff_prefix.mp hp)
    rfl
  refine ⟨⟨.noSuchSymbol, 0⟩, ?_, nofun⟩
  rw [operator, symbol, hnone]

theorem isSymbolStart_iff : isSymbolStart c = true ↔ c.isBlank = false ∧
    c.isAsciiDigit 10 = false ∧ c.isIdentifierStart = false ∧ ¬ (c = '\'' ∨ c = '"') := by
  simp [isSymbolStart, and_assoc]

/-- Before the readers of symbols all others pass. -/
theorem passes_symbol (h : isSymbolStart c = true)
    (hp : c = '.' → ∀ d ∈ rest.head?, d.isAsciiDigit 10 = false) :
    ∀ read ∈ [number, string, identifier], Passes (c :: rest) read := by
  obtain ⟨-, hdigit, hstart, hquote⟩ := isSymbolStart_iff.mp h
  simp only [List.forall_mem_cons, List.not_mem_nil, false_imp_iff, implies_true, and_true]
  exact ⟨passes_number hdigit hp, passes_string hquote, passes_identifier hstart⟩

end Passing

theorem Form.initial (h : l.Form) : ∃ c more, l.text = c :: more ∧ c.isBlank = false := by
  have hchar {c : CodePoint} (hc : c.isIdentifierChar = true) : c.isBlank = false := by
    refine Bool.eq_false_iff.mpr fun hb => ?_
    rw [CodePoint.isIdentifierChar_of_isBlank hb] at hc
    cases hc
  cases h with
  | number numeral =>
      cases numeral with
      | announced marks ne_nil all value => exact ⟨_, _, rfl, by decide⟩
      | decimal spelled plain =>
          obtain ⟨c, more, rfl, hd | rfl⟩ := spelled.initial
          · exact ⟨c, more, rfl, hchar (CodePoint.isIdentifierChar_of_isAsciiDigit hd)⟩
          · exact ⟨_, more, rfl, by decide⟩
  | string quotes quoted => exact ⟨_, _, rfl, by rcases quotes with rfl | rfl <;> decide⟩
  | identifier name =>
      obtain ⟨c, hc, hstart⟩ := name.starts
      obtain ⟨more, rfl⟩ := List.head?_eq_some_iff.mp hc
      exact ⟨c, more, rfl, hchar (CodePoint.isIdentifierChar_of_start hstart)⟩
  | operator listed =>
      obtain ⟨c, hc, hs, -⟩ := initial_of_mem_operators _ listed
      obtain ⟨more, rfl⟩ := List.head?_eq_some_iff.mp hc
      exact ⟨c, more, rfl, (isSymbolStart_iff.mp hs).1⟩
  | punctuator listed =>
      obtain ⟨c, hc, hs, -⟩ := initial_of_mem_punctuators _ listed
      obtain ⟨more, rfl⟩ := List.head?_eq_some_iff.mp hc
      exact ⟨c, more, rfl, (isSymbolStart_iff.mp hs).1⟩

theorem next?_identifier {s : Text} (hs : s.IsIdentifier)
    (hr : ∀ c ∈ rest.head?, c.isIdentifierChar = false) :
    next? (s ++ rest) = .ok (some ⟨s, .identifier⟩) := by
  have hread := identifier_append hs hr
  obtain ⟨c, hc, hstart⟩ := hs.starts
  obtain ⟨more, rfl⟩ := List.head?_eq_some_iff.mp hc
  have hne (d : Char) (hd : (CodePoint.ofChar d).isIdentifierStart = false) : ¬ c = d := by
    rintro rfl
    rw [hstart] at hd
    cases hd
  have hpasses : ∀ read ∈ [number, string], Passes (c :: (more ++ rest)) read := by
    simp only [List.forall_mem_cons, List.not_mem_nil, false_imp_iff, implies_true, and_true]
    refine ⟨passes_number (CodePoint.isAsciiDigit_of_isIdentifierStart hstart) ?_,
      passes_string ?_⟩
    · exact fun hp => absurd hp (hne '.' (by decide))
    · exact not_or.mpr ⟨hne '\'' (by decide), hne '"' (by decide)⟩
  exact firstOf_of_passes hpasses hread

theorem next?_string {quote : CodePoint} {raw t : Text} (hq : quote = '\'' ∨ quote = '"')
    (h : Quoted quote raw t) (rest : Text) :
    next? (quote :: raw ++ rest) = .ok (some ⟨quote :: raw, .string t⟩) := by
  have hpasses : ∀ read ∈ [number], Passes (quote :: (raw ++ rest)) read := by
    simp only [List.forall_mem_cons, List.not_mem_nil, false_imp_iff, implies_true, and_true]
    rcases hq with rfl | rfl
    · exact passes_number (by decide) nofun
    · exact passes_number (by decide) nofun
  exact firstOf_of_passes hpasses (h.string hq rest)

theorem next?_operator {s : Text} (hs : s ∈ operators)
    (hr : ∀ c ∈ rest.head?, ∀ other ∈ operators, c ∉ other) :
    next? (s ++ rest) = .ok (some ⟨s, .operator⟩) := by
  have hread := symbol_append .operator (find?_of_mem_operators s hs) hr
  obtain ⟨c, hc, hstart, hpoint⟩ := initial_of_mem_operators s hs
  obtain ⟨more, rfl⟩ := List.head?_eq_some_iff.mp hc
  exact firstOf_of_passes (passes_symbol hstart fun hp => absurd hp hpoint) hread

/-- A point is a token by itself only if no digit follows. -/
theorem next?_punctuator {s : Text} (hs : s ∈ punctuators)
    (hd : ∀ c ∈ rest.head?, c.isAsciiDigit 10 = false)
    (hr : ∀ c ∈ rest.head?, ∀ other ∈ punctuators, c ∉ other) :
    next? (s ++ rest) = .ok (some ⟨s, .punctuator⟩) := by
  have hread := symbol_append .punctuator (find?_of_mem_punctuators s hs) hr
  obtain ⟨c, hc, hstart, hoperators⟩ := initial_of_mem_punctuators s hs
  obtain ⟨more, rfl⟩ := List.head?_eq_some_iff.mp hc
  have hpoint (hp : c = '.') : ∀ d ∈ (more ++ rest).head?, d.isAsciiDigit 10 = false := by
    have hmore : more = [] := by
      have hlength : ∀ other ∈ punctuators, other.length = 1 := by decide
      exact List.length_eq_zero_iff.mp (Nat.succ.inj (hlength _ hs))
    rwa [hmore, List.nil_append]
  have hpasses : ∀ read ∈ [number, string, identifier] ++ [operator],
      Passes (c :: (more ++ rest)) read :=
    List.forall_mem_append.mpr ⟨passes_symbol hstart hpoint,
      List.forall_mem_singleton.mpr (passes_operator hoperators)⟩
  exact firstOf_of_passes hpasses hread

theorem next?_point {name : Text} (hn : name.IsIdentifier) (rest : Text) :
    next? (Text.ofString "." ++ (name ++ rest)) = .ok (some ⟨".", .punctuator⟩) := by
  obtain ⟨c, hc, hstart⟩ := hn.starts
  obtain ⟨more, rfl⟩ := List.head?_eq_some_iff.mp hc
  have hsymbols : ∀ other ∈ punctuators, ∀ d ∈ other, d.isIdentifierStart = false := by
    decide
  refine next?_punctuator (by decide) ?_ ?_
  · intro d hd
    cases hd
    exact CodePoint.isAsciiDigit_of_isIdentifierStart hstart
  · intro d hd other ho hm
    cases hd
    cases hstart.symm.trans (hsymbols other ho c hm)

/-- Each form is read before a blank as the token that it is. -/
theorem Form.next? (h : l.Form) (hr : rest.StartsBlank) :
    Lexeme.next? (l.text ++ rest) = .ok (some l) := by
  cases h with
  | number numeral => exact firstOf_of_passes (List.forall_mem_nil _) (numeral.number hr)
  | string quotes quoted => exact next?_string quotes quoted rest
  | identifier name => exact next?_identifier name hr.identifierChar
  | operator listed => exact next?_operator listed (hr.not_mem isBlank_of_mem_operators)
  | punctuator listed =>
      exact next?_punctuator listed (hr.digit 10) (hr.not_mem isBlank_of_mem_punctuators)

/-- A token that is read has its form and could not have been longer. -/
theorem form_of_next? (h : next? t = .ok (some l)) :
    ∃ rest, t = l.text ++ rest ∧ l.Form ∧ l.Maximal rest := by
  obtain ⟨read, hm, hread⟩ := firstOf_eq_some h
  obtain ⟨after, hafter⟩ := next?_isPrefix h
  simp only [List.mem_cons, List.not_mem_nil, or_false] at hm
  rcases hm with rfl | rfl | rfl | rfl | rfl
  · obtain ⟨x, rest, hkind, ht, numeral, hend⟩ := numeral_of_number hread
    obtain ⟨s, kind⟩ := l
    cases hkind
    exact ⟨rest, ht, .number numeral, nofun, fun _ _ => hend, nofun⟩
  · obtain ⟨quote, raw, value, rest, quotes, quoted, rfl, ht⟩ := quoted_of_string hread
    exact ⟨rest, ht, .string quotes quoted, nofun, nofun, nofun⟩
  · obtain ⟨rest, hkind, name, ht, hend⟩ := isIdentifier_of_identifier hread
    obtain ⟨s, kind⟩ := l
    cases hkind
    exact ⟨rest, ht, .identifier name, fun _ => hend, nofun, nofun⟩
  · obtain ⟨hkind, hfind⟩ := symbol_eq_ok hread
    obtain ⟨s, kind⟩ := l
    cases hkind
    refine ⟨after, hafter.symm, .operator (List.mem_of_find?_eq_some hfind), nofun, nofun, ?_⟩
    intro hk other ho hp
    exact length_le_of_find? hfind ho (hafter ▸ hp)
  · obtain ⟨hkind, hfind⟩ := symbol_eq_ok hread
    obtain ⟨s, kind⟩ := l
    cases hkind
    exact ⟨after, hafter.symm, .punctuator (List.mem_of_find?_eq_some hfind), nofun, nofun, nofun⟩

end Readers

end Lexeme

end Prepass
