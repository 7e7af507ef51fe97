/- A text that is written as a literal is read back as it was. -/
import Mathlib.Tactic.SplitIfs
import Prepass.Expression.Parser
namespace Prepass

namespace Lexeme

/-- What reading the rest of a quoted text gives, with a text in front of it. -/
def prepend (front : Text) (x : Except LexStop (Text × Nat)) : Except LexStop (Text × Nat) :=
  x.map fun (t, stop) => (front ++ t, stop)

theorem prepend_prepend (front more : Text) (x : Except LexStop (Text × Nat)) :
    prepend front (prepend more x) = prepend (front ++ more) x := by
  cases x with
  | error stop => rfl
  | ok read =>
      obtain ⟨t, stop⟩ := read
      exact congrArg (fun u => Except.ok (u, stop)) (List.append_assoc front more t).symm

theorem prepend_nil (x : Except LexStop (Text × Nat)) : prepend [] x = x := by
  cases x <;> rfl

section Reading

variable {quote c : CodePoint} (offset : Nat) (rest : Text)

theorem quotedFrom_quote : quotedFrom quote offset (quote :: rest) = .ok ([], offset + 1) := by
  rw [quotedFrom.eq_def]
  exact if_pos rfl

theorem quotedFrom_plain (hq : c ≠ quote) (hb : c ≠ '\\') :
    quotedFrom quote offset (c :: rest) = prepend [c] (quotedFrom quote (offset + 1) rest) := by
  rw [quotedFrom.eq_def]
  exact (if_neg hq).trans (if_pos hb)

theorem quotedFrom_escaped {e : CodePoint} (hq : quote ≠ '\\') (hx : e ≠ 'x') (hu : e ≠ 'u') :
    quotedFrom quote offset (CodePoint.ofChar '\\' :: e :: rest) =
      prepend [(namedEscape? e).getD e] (quotedFrom quote (offset + 2) rest) := by
  rw [quotedFrom.eq_def]
  refine (if_neg hq.symm).trans ((if_neg (not_not_intro rfl)).trans ?_)
  exact (if_neg hx).trans (if_neg hu)

theorem quotedFrom_unicode {a b a' b' : CodePoint} (hq : quote ≠ '\\')
    (hc : codePoint? [a, b, a', b'] = some c) :
    quotedFrom quote offset
        (CodePoint.ofChar '\\' :: CodePoint.ofChar 'u' :: a :: b :: a' :: b' :: rest) =
      prepend [c] (quotedFrom quote (offset + 6) rest) := by
  have hx : CodePoint.ofChar 'u' ≠ 'x' := by decide
  rw [quotedFrom.eq_def]
  refine (if_neg hq.symm).trans ((if_neg (not_not_intro rfl)).trans ?_)
  refine (if_neg hx).trans ((if_pos rfl).trans ?_)
  dsimp only
  rw [hc]
  rfl

end Reading

/-- The four hexadecimal digits of a control character are read as that character. -/
theorem codePoint?_hex {c : CodePoint} (h : c.toNat < 0x20) :
    ∃ a b a' b', Text.hex 4 c.toNat = [a, b, a', b'] ∧ codePoint? [a, b, a', b'] = some c := by
  have hlength : ∀ n < 0x20, (Text.hex 4 n).length = 4 := by decide +kernel
  have hread : ∀ n < 0x20, codePoint? (Text.hex 4 n) = CodePoint.ofNat? n := by decide +kernel
  have hc : codePoint? (Text.hex 4 c.toNat) = some c := by
    rw [hread c.toNat h, CodePoint.ofNat?, dif_pos c.isLt]
  match hdigits : Text.hex 4 c.toNat, hlength c.toNat h with
  | [a, b, a', b'], _ => exact ⟨a, b, a', b', rfl, hdigits ▸ hc⟩

/-- The ways in which a character is written between quotes. -/
theorem escape_cases (c : CodePoint) :
    (∃ e, Text.escape c = [CodePoint.ofChar '\\', e] ∧ e ≠ 'x' ∧ e ≠ 'u' ∧
      (namedEscape? e).getD e = c) ∨
    (Text.escape c = "\\u" ++ Text.hex 4 c.toNat ∧ c.toNat < 0x20) ∨
    (Text.escape c = [c] ∧ c ≠ '"' ∧ c ≠ '\\') := by
  have control {n : Nat} (hn : n < 0x110000) (hc : c.toNat = n) : (⟨n, hn⟩ : CodePoint) = c := by
    subst hc
    rfl
  generalize he : Text.escape c = written
  unfold Text.escape Text.shortEscape? at he
  split_ifs at he with hq hb hn hr ht h8 h12 hlow
  all_goals subst he
  · exact Or.inl ⟨'"', rfl, by decide, by decide, hq.symm⟩
  · exact Or.inl ⟨'\\', rfl, by decide, by decide, hb.symm⟩
  · exact Or.inl ⟨'n', rfl, by decide, by decide, hn.symm⟩
  · exact Or.inl ⟨'r', rfl, by decide, by decide, hr.symm⟩
  · exact Or.inl ⟨'t', rfl, by decide, by decide, ht.symm⟩
  · exact Or.inl ⟨'b', rfl, by decide, by decide, control _ h8⟩
  · exact Or.inl ⟨'f', rfl, by decide, by decide, control _ h12⟩
  · exact Or.inr (Or.inl ⟨rfl, hlow⟩)
  · exact Or.inr (Or.inr ⟨rfl, hq, hb⟩)

/-- An escape means the character that it stands for, whichever way it is written. -/
theorem quotedFrom_escape (c : CodePoint) (offset : Nat) (rest : Text) :
    quotedFrom '"' offset (Text.escape c ++ rest) =
      prepend [c] (quotedFrom '"' (offset + (Text.escape c).length) rest) := by
  have hquote : CodePoint.ofChar '"' ≠ '\\' := by decide
  rcases escape_cases c with ⟨e, he, hx, hu, hc⟩ | ⟨he, hlow⟩ | ⟨he, hq, hb⟩
  · rw [he, ← hc]
    exact quotedFrom_escaped offset rest hquote hx hu
  · obtain ⟨a, b, a', b', hdigits, hc⟩ := codePoint?_hex hlow
    rw [he, hdigits]
    exact quotedFrom_unicode offset rest hquote hc
  · rw [he]
    exact quotedFrom_plain offset rest hq hb

/-- All that stands between the quotes is read before what follows. -/
theorem quotedFrom_escapes (t : Text) (offset : Nat) (rest : Text) :
    quotedFrom '"' offset (t.flatMap Text.escape ++ rest) =
      prepend t (quotedFrom '"' (offset + (t.flatMap Text.escape).length) rest) := by
  induction t generalizing offset with
  | nil => exact (prepend_nil _).symm
  | cons c more ih =>
      rw [List.flatMap_cons, List.append_assoc, quotedFrom_escape, ih, prepend_prepend,
        List.length_append, Nat.add_assoc]
      rfl

theorem quote_append (t rest : Text) : t.quote ++ rest =
    CodePoint.ofChar '"' :: (t.flatMap Text.escape ++ CodePoint.ofChar '"' :: rest) := by
  rw [Text.quote, List.append_assoc, List.append_assoc]
  rfl

theorem string_quote (t rest : Text) : string (t.quote ++ rest) = .ok ⟨t.quote, .string t⟩ := by
  have hlength : (t.quote).length = 1 + (t.flatMap Text.escape).length + 1 := by
    rw [← List.append_nil t.quote, quote_append, List.length_cons, List.length_append,
      List.length_singleton]
    omega
  have hread : quotedFrom '"' 1 (t.flatMap Text.escape ++ CodePoint.ofChar '"' :: rest) =
      .ok (t, t.quote.length) := by
    rw [quotedFrom_escapes, quotedFrom_quote, hlength]
    exact congrArg (fun u => Except.ok (u, _)) (List.append_nil t)
  rw [quote_append, string, if_pos (Or.inr rfl), hread, ← quote_append]
  exact congrArg (fun u => Except.ok (Lexeme.mk u (.string t))) List.take_left

/-- No number begins with a quote. -/
theorem number_quote (rest : Text) :
    number (CodePoint.ofChar '"' :: rest) = .error ⟨.invalidNumber, 0⟩ := by
  cases rest with
  | nil => rfl
  | cons c rest => rfl

theorem next?_quote (t rest : Text) :
    next? (t.quote ++ rest) = .ok (some ⟨t.quote, .string t⟩) := by
  have hnumber : number (t.quote ++ rest) = .error ⟨.invalidNumber, 0⟩ := by
    rw [quote_append, number_quote]
  simp only [next?, firstOf, hnumber, string_quote, reduceCtorEq, if_false]

end Lexeme

namespace Token

/-- What belongs to a token that was read already is passed over. -/
theorem scanFrom_skip (column : Nat) (t rest : Text) :
    scanFrom column t.length (t ++ rest) = scanFrom (column + t.length) 0 rest := by
  induction t generalizing column with
  | nil => rfl
  | cons c more ih =>
      rw [List.length_cons, List.cons_append, scanFrom, ih, Nat.add_right_comm, Nat.add_assoc]

theorem scanFrom_next (l : Lexeme) {c : CodePoint} {more rest : Text} (hl : l.text = c :: more)
    (hc : c.isBlank = false) (hnext : Lexeme.next? (l.text ++ rest) = .ok (some l)) (column : Nat) :
    scanFrom column 0 (l.text ++ rest) =
      (scanFrom (column + l.text.length) 0 rest).map fun (tokens, stop) =>
        (⟨l, column⟩ :: tokens, stop) := by
  rw [hl, List.cons_append] at hnext ⊢
  rw [scanFrom, if_neg (by rw [hc]; decide), hnext]
  dsimp only
  rw [hl, List.length_cons, Nat.add_sub_cancel, scanFrom_skip, Nat.add_right_comm, Nat.add_assoc]

theorem scanFrom_quote (column : Nat) (t rest : Text) :
    scanFrom column 0 (t.quote ++ rest) =
      (scanFrom (column + t.quote.length) 0 rest).map fun (tokens, stop) =>
        (⟨⟨t.quote, .string t⟩, column⟩ :: tokens, stop) := by
  have hblank : (CodePoint.ofChar '"').isBlank = false := by decide
  exact scanFrom_next ⟨t.quote, .string t⟩ rfl hblank (Lexeme.next?_quote t rest) column

theorem scan_quote (t : Text) : scan t.quote = .ok [⟨⟨t.quote, .string t⟩, 0⟩] := by
  rw [scan, ← List.append_nil t.quote, scanFrom_quote, List.append_nil]
  rfl

end Token

/-- The literal of a text is one string token, whose value is the text, and this is also what the
literal evaluates to. -/
theorem Value.literal_str_reads (t : Text) : ∃ written, (Value.str t).literal = .ok written ∧
    Token.scan written = .ok [⟨⟨written, .string t⟩, 0⟩] ∧
    ∀ env, Expr.evalText env written = .ok (.str t) := by
  refine ⟨t.quote, rfl, Token.scan_quote t, ?_⟩
  intro env
  have htree : Expr.ofText t.quote = .ok (.literal (.str t)) := by
    rw [Expr.ofText, Token.scan_quote]
    rfl
  rw [Expr.evalText, htree]
  rfl

end Prepass
