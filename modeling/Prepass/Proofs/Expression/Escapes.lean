/- How the characters of a string constant are written, one after another, and where hexadecimal
codes are spelled with more than digits. -/
import Mathlib.Data.List.Forall2
import Prepass.Proofs.Expression.Lexeme
import Prepass.Proofs.Text.Integer
namespace Prepass

namespace Lexeme

/-- What follows the mark of a code: two characters or four. -/
def IsCode (mark : CodePoint) (digits : Text) : Prop :=
  (mark = 'x' ∧ digits.length = 2) ∨ (mark = 'u' ∧ digits.length = 4)

/-- One character between quotes, where codes are read in some way. -/
inductive Piece (reads : Text → CodePoint → Prop) (quote : CodePoint) : Text → CodePoint → Prop
  | plain {c : CodePoint} (unquoted : c ≠ quote) (unescaped : c ≠ '\\') : Piece reads quote [c] c
  | code {mark d : CodePoint} {digits : Text} (marked : IsCode mark digits)
      (value : reads digits d) : Piece reads quote (CodePoint.ofChar '\\' :: mark :: digits) d
  | escaped {e : CodePoint} (notHex : e ≠ 'x') (notUnicode : e ≠ 'u') :
      Piece reads quote [CodePoint.ofChar '\\', e] ((namedEscape? e).getD e)

/-- Pieces between quotes and the characters that they stand for. -/
def Constant (reads : Text → CodePoint → Prop) (quote : CodePoint) (raw value : Text) : Prop :=
  ∃ pieces, List.Forall₂ (Piece reads quote) pieces value ∧
    raw = quote :: (pieces.flatten ++ [quote])

/-- A code of hexadecimal digits and the character with that number. -/
def HexCode (digits : Text) (d : CodePoint) : Prop :=
  (∀ c ∈ digits, c.isAsciiDigit 16 = true) ∧ d.toNat = Text.digitsValue 16 digits

/-- A code that lenient readers take for the number of a character. -/
def LooseCode (digits : Text) (d : CodePoint) : Prop := Text.LooseInteger 16 digits d.toNat

/-- A code in which not every character is a hexadecimal digit. -/
def StrayPiece (piece : Text) : Prop :=
  ∃ mark digits, IsCode mark digits ∧ piece = CodePoint.ofChar '\\' :: mark :: digits ∧
    ∃ c ∈ digits, c.isAsciiDigit 16 = false

/-- A constant that is read although one of its codes has a character that is no digit. -/
def StrayConstant (quote : CodePoint) (raw value : Text) : Prop :=
  ∃ pieces, List.Forall₂ (Piece LooseCode quote) pieces value ∧
    raw = quote :: (pieces.flatten ++ [quote]) ∧ ∃ piece ∈ pieces, StrayPiece piece

theorem codePoint?_eq_some_iff {digits : Text} {d : CodePoint} :
    codePoint? digits = some d ↔ LooseCode digits d := by
  rw [LooseCode, ← Text.readInteger?_eq_some_iff, codePoint?]
  constructor
  · intro h
    split at h
    · rename_i n hn
      rw [CodePoint.ofNat?] at h
      split at h
      · cases h
        exact hn
      · cases h
    · cases h
  · intro h
    rw [h]
    exact CodePoint.ofNat?_toNat d

theorem IsCode.ne_nil {mark : CodePoint} {digits : Text} (h : IsCode mark digits) :
    digits ≠ [] := by
  rintro rfl
  rcases h with ⟨-, hlength⟩ | ⟨-, hlength⟩ <;> cases hlength

section Pieces

variable {quote : CodePoint}

theorem Piece.quoted {piece raw t : Text} {d : CodePoint} (h : Piece LooseCode quote piece d)
    (more : Quoted quote raw t) : Quoted quote (piece ++ raw) (d :: t) := by
  cases h with
  | plain unquoted unescaped => exact .plain unquoted unescaped more
  | @code mark d digits marked value =>
      have hd := codePoint?_eq_some_iff.mpr value
      rcases marked with ⟨rfl, hlength⟩ | ⟨rfl, hlength⟩
      · obtain ⟨a, b, rfl⟩ := List.length_eq_two.mp hlength
        exact .hex hd more
      · match digits, hlength with
        | [a, b, a', b'], _ => exact .unicode hd more
  | escaped notHex notUnicode => exact .escaped notHex notUnicode more

theorem Piece.exists_pieces {front raw t : Text} {d : CodePoint}
    (h : Piece LooseCode quote front d)
    (more : ∃ pieces, List.Forall₂ (Piece LooseCode quote) pieces t ∧
      raw = pieces.flatten ++ [quote]) :
    ∃ pieces, List.Forall₂ (Piece LooseCode quote) pieces (d :: t) ∧
      front ++ raw = pieces.flatten ++ [quote] := by
  obtain ⟨pieces, hpieces, rfl⟩ := more
  refine ⟨front :: pieces, .cons h hpieces, ?_⟩
  rw [List.flatten_cons, List.append_assoc]

/-- A text up to its closing quote is made of pieces. -/
theorem quoted_iff {raw t : Text} : Quoted quote raw t ↔
    ∃ pieces, List.Forall₂ (Piece LooseCode quote) pieces t ∧ raw = pieces.flatten ++ [quote] := by
  constructor
  · intro h
    induction h with
    | closing => exact ⟨[], .nil, rfl⟩
    | plain unquoted unescaped more ih => exact (Piece.plain unquoted unescaped).exists_pieces ih
    | hex value more ih =>
        have hcode := codePoint?_eq_some_iff.mp value
        exact (Piece.code (Or.inl ⟨rfl, rfl⟩) hcode).exists_pieces ih
    | unicode value more ih =>
        have hcode := codePoint?_eq_some_iff.mp value
        exact (Piece.code (Or.inr ⟨rfl, rfl⟩) hcode).exists_pieces ih
    | escaped notHex notUnicode more ih => exact (Piece.escaped notHex notUnicode).exists_pieces ih
  · rintro ⟨pieces, hpieces, rfl⟩
    induction hpieces with
    | nil => exact .closing
    | cons piece more ih =>
        rw [List.flatten_cons, List.append_assoc]
        exact piece.quoted ih

theorem IsCode.length_eq {mark : CodePoint} {digits digits' : Text} (h : IsCode mark digits)
    (h' : IsCode mark digits') : digits.length = digits'.length := by
  have hne : CodePoint.ofChar 'x' ≠ 'u' := by decide
  rcases h with ⟨rfl, hlength⟩ | ⟨rfl, hlength⟩
  · rcases h' with ⟨-, hlength'⟩ | ⟨hmark, -⟩
    · exact hlength.trans hlength'.symm
    · exact absurd hmark hne
  · rcases h' with ⟨hmark, -⟩ | ⟨-, hlength'⟩
    · exact absurd hmark.symm hne
    · exact hlength.trans hlength'.symm

theorem IsCode.not_escaped {mark : CodePoint} {digits : Text} (h : IsCode mark digits)
    (notHex : mark ≠ 'x') : ¬ mark ≠ 'u' := by
  rcases h with ⟨hmark, -⟩ | ⟨hmark, -⟩
  · exact absurd hmark notHex
  · exact not_not_intro hmark

/-- Where a piece ends does not depend on what follows it or on how codes are read. -/
theorem Piece.append_inj {reads reads' : Text → CodePoint → Prop} {piece piece' t t' : Text}
    {d d' : CodePoint} (h : Piece reads quote piece d) (h' : Piece reads' quote piece' d')
    (he : piece ++ t = piece' ++ t') : piece = piece' ∧ t = t' := by
  refine List.append_inj he ?_
  cases h with
  | plain unquoted unescaped =>
      cases h' with
      | plain unquoted' unescaped' => rfl
      | code marked' value' => exact absurd (List.cons.inj he).1 unescaped
      | escaped notHex' notUnicode' => exact absurd (List.cons.inj he).1 unescaped
  | code marked value =>
      cases h' with
      | plain unquoted' unescaped' => exact absurd (List.cons.inj he).1.symm unescaped'
      | code marked' value' =>
          obtain rfl := (List.cons.inj (List.cons.inj he).2).1
          exact congrArg (· + 2) (marked.length_eq marked')
      | escaped notHex' notUnicode' =>
          obtain rfl := (List.cons.inj (List.cons.inj he).2).1
          exact absurd notUnicode' (marked.not_escaped notHex')
  | escaped notHex notUnicode =>
      cases h' with
      | plain unquoted' unescaped' => exact absurd (List.cons.inj he).1.symm unescaped'
      | code marked' value' =>
          obtain rfl := (List.cons.inj (List.cons.inj he).2).1
          exact absurd notUnicode (marked'.not_escaped notHex)
      | escaped notHex' notUnicode' => rfl

theorem Piece.append_ne {reads : Text → CodePoint → Prop} {piece t t' : Text} {d : CodePoint}
    (h : Piece reads quote piece d) (hq : quote ≠ '\\') : piece ++ t ≠ quote :: t' := by
  intro he
  cases h with
  | plain unquoted unescaped => exact unquoted (List.cons.inj he).1
  | code marked value => exact hq (List.cons.inj he).1.symm
  | escaped notHex notUnicode => exact hq (List.cons.inj he).1.symm

/-- A quoted text is cut into pieces in one way only. -/
theorem pieces_unique {reads reads' : Text → CodePoint → Prop} {pieces pieces' : List Text}
    {value value' rest rest' : Text} (hq : quote ≠ '\\')
    (h : List.Forall₂ (Piece reads quote) pieces value)
    (h' : List.Forall₂ (Piece reads' quote) pieces' value')
    (he : pieces.flatten ++ quote :: rest = pieces'.flatten ++ quote :: rest') :
    pieces = pieces' := by
  induction h generalizing pieces' value' with
  | nil =>
      cases h' with
      | nil => rfl
      | cons piece' more' =>
          rw [List.flatten_cons, List.append_assoc] at he
          exact absurd he.symm (piece'.append_ne hq)
  | cons piece more ih =>
      rw [List.flatten_cons, List.append_assoc] at he
      cases h' with
      | nil => exact absurd he (piece.append_ne hq)
      | cons piece' more' =>
          rw [List.flatten_cons, List.append_assoc] at he
          obtain ⟨rfl, hrest⟩ := piece.append_inj piece' he
          rw [ih more' hrest]

/-- Hexadecimal digits are a code for lenient readers too. -/
theorem HexCode.loose {digits : Text} {d : CodePoint} (h : HexCode digits d) (hne : digits ≠ []) :
    LooseCode digits d := by
  rw [LooseCode, h.2]
  exact Text.looseInteger_digits hne h.1

theorem Piece.loose {piece : Text} {d : CodePoint} (h : Piece HexCode quote piece d) :
    Piece LooseCode quote piece d := by
  cases h with
  | plain unquoted unescaped => exact .plain unquoted unescaped
  | code marked value => exact .code marked (value.loose marked.ne_nil)
  | escaped notHex notUnicode => exact .escaped notHex notUnicode

/-- The number of a character is the one that its digits spell. -/
theorem LooseCode.hexCode {digits : Text} {d : CodePoint} (h : LooseCode digits d)
    (hne : digits ≠ []) (all : ∀ c ∈ digits, c.isAsciiDigit 16 = true) : HexCode digits d := by
  have hread := (Text.looseInteger_digits hne all).readInteger?
  rw [h.readInteger?] at hread
  exact ⟨all, Int.ofNat.inj (Option.some.inj hread)⟩

/-- A piece is strict unless a character of its code is no digit. -/
theorem Piece.strict_or_stray {piece : Text} {d : CodePoint} (h : Piece LooseCode quote piece d) :
    Piece HexCode quote piece d ∨ StrayPiece piece := by
  cases h with
  | plain unquoted unescaped => exact Or.inl (.plain unquoted unescaped)
  | @code mark d digits marked value =>
      by_cases hall : ∀ c ∈ digits, c.isAsciiDigit 16 = true
      · exact Or.inl (.code marked (LooseCode.hexCode value marked.ne_nil hall))
      · push Not at hall
        obtain ⟨c, hc, hd⟩ := hall
        exact Or.inr ⟨mark, digits, marked, rfl, c, hc, Bool.eq_false_iff.mpr hd⟩
  | escaped notHex notUnicode => exact Or.inl (.escaped notHex notUnicode)

theorem StrayPiece.not_strict {piece : Text} {d : CodePoint} (h : StrayPiece piece) :
    ¬ Piece HexCode quote piece d := by
  obtain ⟨mark, digits, marked, rfl, c, hc, hstray⟩ := h
  intro hstrict
  cases hstrict with
  | code marked' value =>
      rw [value.1 c hc] at hstray
      cases hstray
  | escaped notHex notUnicode => exact marked.ne_nil rfl

/-- Pieces are all strict unless one of them strays. -/
theorem pieces_strict_or_stray {pieces : List Text} {value : Text}
    (h : List.Forall₂ (Piece LooseCode quote) pieces value) :
    List.Forall₂ (Piece HexCode quote) pieces value ∨ ∃ piece ∈ pieces, StrayPiece piece := by
  induction h with
  | nil => exact Or.inl .nil
  | cons piece more ih =>
      rcases piece.strict_or_stray with hstrict | hstray
      · rcases ih with hmore | ⟨other, hm, hstray⟩
        · exact Or.inl (.cons hstrict hmore)
        · exact Or.inr ⟨other, List.mem_cons_of_mem _ hm, hstray⟩
      · exact Or.inr ⟨_, List.mem_cons_self, hstray⟩

theorem constant_loose_iff {raw value : Text} :
    Constant LooseCode quote raw value ↔
      Constant HexCode quote raw value ∨ StrayConstant quote raw value := by
  constructor
  · rintro ⟨pieces, hpieces, hraw⟩
    rcases pieces_strict_or_stray hpieces with hstrict | hstray
    · exact Or.inl ⟨pieces, hstrict, hraw⟩
    · exact Or.inr ⟨pieces, hpieces, hraw, hstray⟩
  · rintro (⟨pieces, hpieces, hraw⟩ | ⟨pieces, hpieces, hraw, -⟩)
    · exact ⟨pieces, hpieces.imp fun _ _ => Piece.loose, hraw⟩
    · exact ⟨pieces, hpieces, hraw⟩

/-- A text that begins with a strict constant begins with no stray one. -/
theorem Constant.not_stray {raw value raw' value' rest rest' : Text} (hq : quote ≠ '\\')
    (h : Constant HexCode quote raw value) (he : raw ++ rest = raw' ++ rest') :
    ¬ StrayConstant quote raw' value' := by
  obtain ⟨pieces, hpieces, rfl⟩ := h
  rintro ⟨pieces', hpieces', rfl, piece, hm, hstray⟩
  have hflat : pieces.flatten ++ quote :: rest = pieces'.flatten ++ quote :: rest' := by
    simpa using he
  obtain rfl := pieces_unique hq hpieces hpieces' hflat
  have hnone : ∀ other ∈ pieces, ¬ StrayPiece other := by
    have hboth : List.Forall₂ (fun other d => ¬ StrayPiece other ∧ Piece HexCode quote other d)
        pieces value := by
      apply hpieces.imp
      intro other d hstrict
      exact ⟨fun h => h.not_strict hstrict, hstrict⟩
    exact ((List.forall₂_and_left pieces value).mp hboth).1
  exact hnone piece hm hstray

end Pieces

/-- Reading succeeds on the constants whose codes lenient readers take. -/
theorem string_eq_ok_iff {t : Text} {quote : CodePoint} (quotes : quote = '\'' ∨ quote = '"')
    (here : t.head? = some quote) (l : Lexeme) :
    Lexeme.string t = .ok l ↔ ∃ raw value rest, Constant LooseCode quote raw value ∧
      l = ⟨raw, .string value⟩ ∧ t = raw ++ rest := by
  constructor
  · intro h
    obtain ⟨quote', raw, value, rest, -, hraw, rfl, rfl⟩ := quoted_of_string h
    cases here
    obtain ⟨pieces, hpieces, rfl⟩ := quoted_iff.mp hraw
    exact ⟨_, value, rest, ⟨pieces, hpieces, rfl⟩, rfl, rfl⟩
  · rintro ⟨raw, value, rest, ⟨pieces, hpieces, rfl⟩, rfl, rfl⟩
    exact (quoted_iff.mpr ⟨pieces, hpieces, rfl⟩).string quotes rest

/-- At a quote, reading succeeds on the constants whose codes are hexadecimal digits, and besides
on those in which a code is spelled with other characters but still taken for a number. -/
theorem string_accepts (text : Text) (pos : Nat) (quote : CodePoint)
    (quotes : quote = '\'' ∨ quote = '"') (here : text[pos]? = some quote) :
    (∀ l, Lexeme.string (text.drop pos) = .ok l ↔ ∃ raw value rest,
      (Constant HexCode quote raw value ∨ StrayConstant quote raw value) ∧
        l = ⟨raw, .string value⟩ ∧ text.drop pos = raw ++ rest) ∧
    ∀ raw value rest raw' value' rest', text.drop pos = raw ++ rest →
      text.drop pos = raw' ++ rest' → Constant HexCode quote raw value →
        ¬ StrayConstant quote raw' value' := by
  refine ⟨fun l => ?_, ?_⟩
  · rw [string_eq_ok_iff quotes (List.head?_drop.trans here) l]
    simp only [constant_loose_iff]
  · intro raw value rest raw' value' rest' hraw hraw' hstrict
    exact hstrict.not_stray (quote_ne_backslash quotes) (hraw.symm.trans hraw')

theorem string_accepts_signed :
    Lexeme.string (List.drop 1 (Text.ofString "a'\\x+4'b")) =
        .ok ⟨"'\\x+4'", .string [⟨4, by decide⟩]⟩ ∧
      ∀ raw value rest, List.drop 1 (Text.ofString "a'\\x+4'b") = raw ++ rest →
        ¬ Constant HexCode '\'' raw value := by
  have hloose : LooseCode "+4" ⟨4, by decide⟩ := Text.readInteger?_eq_some_iff.mp (by decide)
  have hstray : StrayConstant '\'' "'\\x+4'" [⟨4, by decide⟩] :=
    ⟨["\\x+4"], .cons (.code (Or.inl ⟨rfl, rfl⟩) hloose) .nil, rfl,
      "\\x+4", List.mem_cons_self, 'x', "+4", Or.inl ⟨rfl, rfl⟩, rfl, '+', by decide, by decide⟩
  obtain ⟨hread, hnot⟩ := string_accepts "a'\\x+4'b" 1 '\'' (by decide) (by decide)
  refine ⟨(hread _).mpr ⟨_, _, "b", Or.inr hstray, rfl, by decide⟩, ?_⟩
  intro raw value rest hraw hstrict
  exact hnot raw value rest _ _ "b" hraw (by decide) hstrict hstray

end Lexeme

end Prepass
