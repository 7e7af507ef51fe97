/- The parser accepts what the grammar derives, with the same tree, and nothing else. -/
import Prepass.Proofs.Expression.Reader
namespace Prepass

namespace Expr

/-- Going on from the tokens before, the tree is that of all tokens up to the rest, and the rest
does not go on with it. -/
def Completes (least : Nat) (before tokens : List Token) (t : Expr) (rest : List Token) : Prop :=
  ∃ used, tokens = used ++ rest ∧ Derives (nonterminal least) (before ++ used) t ∧ Stops least rest

theorem Completes.shift {least : Nat} {before tokens after rest : List Token} {t : Expr}
    (read : List Token) (he : tokens = read ++ after)
    (h : Completes least (before ++ read) after t rest) : Completes least before tokens t rest := by
  obtain ⟨used, rfl, hd, hs⟩ := h
  rw [List.append_assoc] at hd
  exact ⟨read ++ used, he.trans (List.append_assoc read used rest).symm, hd, hs⟩

theorem operators_of_stops {fuel least : Nat} {lhs : Expr} {tokens : List Token}
    {found : Expr × List Token} (hs : Stops least tokens)
    (h : operators fuel least lhs tokens = .ok found) : found = (lhs, tokens) := by
  cases fuel with
  | zero =>
      rw [operators] at h
      cases h
  | succ fuel =>
      cases operation h with
      | conditional asks low first parts second more =>
          obtain ⟨hk, ht⟩ := isSymbol_iff.mp asks
          exact absurd ⟨hk, Or.inl ⟨ht, low⟩⟩ (stops_cons.mp hs)
      | binary kind text low second more =>
          exact absurd ⟨kind, Or.inr ⟨_, text, low⟩⟩ (stops_cons.mp hs)
      | none stops last => exact last

structure Sound (fuel : Nat) : Prop where
  expression : ∀ {least tokens t rest}, least ≤ 12 →
    expression fuel least tokens = .ok (t, rest) → Completes least [] tokens t rest
  members : ∀ {least before target tokens t rest}, least ≤ 12 → Derives .access before target →
    members fuel least target tokens = .ok (t, rest) → Completes least before tokens t rest
  /-- The operand on the left binds at least as tight as any operator that comes next. -/
  operators : ∀ {least n before lhs tokens t rest}, 2 ≤ n → n ≤ 12 → least ≤ n →
    Derives (.level n) before lhs → Stops (n + 1) tokens →
    operators fuel least lhs tokens = .ok (t, rest) → Completes least before tokens t rest

namespace Sound

variable {fuel : Nat} (ih : Sound fuel)

include ih

theorem operand {least : Nat} {before tokens rest : List Token} {lhs t : Expr} (hl : least ≤ 12)
    (hd : Derives (.level 12) before lhs)
    (h : Expr.operators fuel least lhs tokens = .ok (t, rest)) :
    Completes least before tokens t rest :=
  ih.operators (by omega) (Nat.le_refl 12) hl hd (stops_of_le (by omega) tokens) h

theorem whole {least : Nat} {tokens rest : List Token} {t : Expr} (hl : least ≤ 1)
    (h : Expr.expression fuel least tokens = .ok (t, rest)) :
    ∃ used, tokens = used ++ rest ∧ Derives .expression used t ∧ Stops least rest := by
  obtain ⟨used, he, hd, hs⟩ := ih.expression (by omega) h
  rw [nonterminal, if_pos hl] at hd
  exact ⟨used, he, hd, hs⟩

theorem expression_succ {least : Nat} {tokens rest : List Token} {t : Expr} (hl : least ≤ 12)
    (h : Expr.expression (fuel + 1) least tokens = .ok (t, rest)) :
    Completes least [] tokens t rest := by
  cases beginning h with
  | @unary op token _ after operand kind text first more =>
      obtain ⟨used, rfl, hd, -⟩ := ih.expression (Nat.le_refl 12) first
      exact .shift (token :: used) rfl (ih.operand hl (.unary kind text hd) more)
  | @parentheses opening closing _ after inner opens first closes more =>
      obtain ⟨used, rfl, hd, -⟩ := ih.whole (Nat.zero_le 1) first
      refine .shift (opening :: (used ++ [closing])) ?_
        (ih.members hl (.atom (.parentheses opens hd closes)) more)
      simp only [List.cons_append, List.append_assoc, List.nil_append]
  | @terminal token _ _ alone more =>
      exact .shift [token] rfl (ih.members hl (.atom (.terminal alone)) more)

theorem members_succ {least : Nat} {before tokens rest : List Token} {target t : Expr}
    (hl : least ≤ 12) (hd : Derives .access before target)
    (h : Expr.members (fuel + 1) least target tokens = .ok (t, rest)) :
    Completes least before tokens t rest := by
  cases access h with
  | @dot dot name _ dotted kind more =>
      exact .shift [dot, name] rfl (ih.members hl (.dot hd dotted kind) more)
  | @index opening closing _ after key opens first closes more =>
      obtain ⟨used, rfl, hk, -⟩ := ih.whole (Nat.zero_le 1) first
      refine .shift (opening :: (used ++ [closing])) ?_
        (ih.members hl (.index hd opens hk closes) more)
      simp only [List.cons_append, List.append_assoc, List.nil_append]
  | none more => exact ih.operand hl (.access hd) more
  | nothing last =>
      cases last
      refine ⟨[], rfl, ?_, by simp [Stops]⟩
      rw [List.append_nil]
      exact (Derives.access hd).toNonterminal (by omega) (Nat.le_refl 12) hl

theorem operators_succ {least n : Nat} {before tokens rest : List Token} {lhs t : Expr}
    (h2 : 2 ≤ n) (hn : n ≤ 12) (hl : least ≤ n) (hd : Derives (.level n) before lhs)
    (hs : Stops (n + 1) tokens) (h : Expr.operators (fuel + 1) least lhs tokens = .ok (t, rest)) :
    Completes least before tokens t rest := by
  cases operation h with
  | @conditional question colon _ between after whenTrue whenFalse asks low first parts second more =>
      obtain ⟨used, rfl, ht, -⟩ := ih.whole (Nat.zero_le 1) first
      obtain ⟨last, rfl, hf, hstop⟩ := ih.whole (Nat.le_refl 1) second
      -- The branch for false has taken every operator, so nothing follows the conditional.
      cases operators_of_stops (hstop.of_one least) more
      refine ⟨question :: (used ++ colon :: last), ?_, ?_, hstop.of_one least⟩
      · simp only [List.cons_append, List.append_assoc]
      · rw [nonterminal, if_pos low]
        exact .conditional (hd.loosen (Nat.le_refl 2) hn h2) asks ht parts hf
  | @binary op token _ after rhs kind text low second more =>
      obtain ⟨hb2, hb11⟩ := BinaryOperator.precedence_bounds text
      have hle : op.precedence ≤ n := by
        by_cases hp : op.precedence ≤ n
        · exact hp
        · exact absurd ⟨kind, Or.inr ⟨op, text, by omega⟩⟩ (stops_cons.mp hs)
      obtain ⟨used, rfl, hr, hstop⟩ := ih.expression (by omega) second
      rw [nonterminal, if_neg (by omega)] at hr
      have hbinary := Derives.binary (hd.loosen hb2 hn hle) kind text hr
      exact .shift (token :: used) rfl (ih.operators hb2 (by omega) low hbinary hstop more)
  | none stops last =>
      cases last
      refine ⟨[], rfl, ?_, stops⟩
      rw [List.append_nil]
      exact hd.toNonterminal h2 hn hl

end Sound

theorem sound (fuel : Nat) : Sound fuel := by
  induction fuel with
  | zero =>
      refine ⟨?_, ?_, ?_⟩
      · intro least tokens t rest hl h
        rw [expression] at h
        cases h
      · intro least before target tokens t rest hl hd h
        rw [members] at h
        cases h
      · intro least n before lhs tokens t rest h2 hn hl hd hs h
        rw [operators] at h
        cases h
  | succ fuel ih => exact ⟨ih.expression_succ, ih.members_succ, ih.operators_succ⟩

/-- How the tokens of each nonterminal are read, whatever may follow them. -/
def Nonterminal.Reads (tokens : List Token) (t : Expr) : Nonterminal → Prop
  | .expression => ∀ least rest, least ≤ 1 → EndsAccess rest → Stops 1 rest →
      readExpression least (tokens ++ rest) = .ok (t, rest)
  | .level n => ∀ least rest, least ≤ n → EndsAccess rest → Stops (n + 1) rest →
      readExpression least (tokens ++ rest) = readOperators least t rest
  | .access | .atom => ∀ least rest,
      readExpression least (tokens ++ rest) = readMembers least t rest

theorem endsAccess_of_isSymbol {kind : TokenKind} {text : Text} {token : Token} {rest : List Token}
    (h : isSymbol kind text token = true)
    (hd : kind ≠ .punctuator ∨ text ≠ Text.ofString ".")
    (hb : kind ≠ .punctuator ∨ text ≠ Text.ofString "[") : EndsAccess (token :: rest) := by
  intro next hn
  cases hn
  exact ⟨isSymbol_of_ne h hd, isSymbol_of_ne h hb⟩

theorem endsAccess_of_operator {token : Token} {rest : List Token} (kind : token.kind = .operator) :
    EndsAccess (token :: rest) :=
  endsAccess_of_isSymbol (isSymbol_iff.mpr ⟨kind, rfl⟩) (Or.inl (by decide)) (Or.inl (by decide))

theorem stops_of_punctuator {text : Text} {token : Token} {rest : List Token}
    (h : isSymbol .punctuator text token = true) (least : Nat) : Stops least (token :: rest) := by
  refine stops_cons.mpr ?_
  rintro ⟨hk, -⟩
  rw [(isSymbol_iff.mp h).1] at hk
  cases hk

theorem stops_of_colon {token : Token} {rest : List Token}
    (h : isSymbol .operator ":" token = true) (least : Nat) : Stops least (token :: rest) := by
  obtain ⟨-, ht⟩ := isSymbol_iff.mp h
  refine stops_cons.mpr ?_
  rintro ⟨-, ⟨hq, -⟩ | ⟨op, ho, -⟩⟩
  · rw [ht] at hq
    exact absurd hq (by decide)
  · rw [ht, BinaryOperator.ofText?_colon] at ho
    cases ho

theorem stops_of_question {token : Token} {rest : List Token}
    (h : isSymbol .operator "?" token = true) {least : Nat} (hl : 2 ≤ least) :
    Stops least (token :: rest) := by
  obtain ⟨-, ht⟩ := isSymbol_iff.mp h
  refine stops_cons.mpr ?_
  rintro ⟨-, ⟨-, h1⟩ | ⟨op, ho, -⟩⟩
  · omega
  · rw [ht, BinaryOperator.ofText?_question] at ho
    cases ho

theorem stops_of_binary {op : BinaryOperator} {token : Token} {rest : List Token}
    (text : BinaryOperator.ofText? token.text = some op) :
    Stops (op.precedence + 1) (token :: rest) := by
  refine stops_cons.mpr ?_
  rintro ⟨-, ⟨-, h1⟩ | ⟨other, ho, hp⟩⟩
  · have := BinaryOperator.precedence_bounds text
    omega
  · cases text.symm.trans ho
    omega

theorem Derives.reads {symbol : Nonterminal} {tokens : List Token} {t : Expr}
    (h : Derives symbol tokens t) : symbol.Reads tokens t := by
  induction h with
  | plain operand ih =>
      intro least rest hl ha hs
      rw [ih least rest (by omega) ha (hs.mono (by omega))]
      exact readOperators_none (hs.of_one least)
  | @conditional condition whenTrue whenFalse question colon c t f tested asks first parts second
      ihc iht ihf =>
      intro least rest hl ha hs
      have hfirst := iht 0 (colon :: (whenFalse ++ rest)) (Nat.zero_le 1)
        (endsAccess_of_operator (isSymbol_iff.mp parts).1) (stops_of_colon parts 1)
      have hsecond := ihf 1 rest (Nat.le_refl 1) ha hs
      simp only [List.append_assoc, List.cons_append]
      rw [ihc least _ (by omega) (endsAccess_of_operator (isSymbol_iff.mp asks).1)
          (stops_of_question asks (by omega)),
        readOperators_conditional asks hl hfirst parts hsecond]
      exact readOperators_none (hs.of_one least)
  | tighter lower upper operand ih =>
      intro least rest hl ha hs
      exact ih least rest (by omega) ha (hs.mono (by omega))
  | @binary op left right token lhs rhs first kind text second ihl ihr =>
      intro least rest hl ha hs
      have hright : readExpression (op.precedence + 1) (right ++ rest) = .ok (rhs, rest) := by
        rw [ihr (op.precedence + 1) rest (Nat.le_refl _) ha (hs.mono (by omega))]
        exact readOperators_none hs
      rw [List.append_assoc, List.cons_append,
        ihl least _ hl (endsAccess_of_operator kind) (stops_of_binary text)]
      exact readOperators_binary kind text hl hright
  | @unary op token tokens t kind text operand ih =>
      intro least rest hl ha hs
      have hoperand : readExpression 12 (tokens ++ rest) = .ok (t, rest) := by
        rw [ih 12 rest (Nat.le_refl 12) ha hs]
        exact readOperators_none (stops_of_le (Nat.le_refl 12) rest)
      exact readExpression_unary kind text hoperand
  | access operand ih =>
      intro least rest hl ha hs
      rw [ih least rest]
      exact readMembers_none ha
  | atom operand ih => exact ih
  | dot target dotted kind ih =>
      intro least rest
      rw [List.append_assoc, ih least]
      exact readMembers_dot dotted kind
  | @index tokens key opening closing t k target opens inner closes iht ihk =>
      intro least rest
      have hkey := ihk 0 (closing :: rest) (Nat.zero_le 1)
        (endsAccess_of_isSymbol closes (Or.inr (by decide)) (Or.inr (by decide)))
        (stops_of_punctuator closes 1)
      simp only [List.append_assoc, List.cons_append, List.nil_append]
      rw [iht least]
      exact readMembers_index opens hkey closes
  | terminal alone =>
      intro least rest
      exact readExpression_terminal alone
  | @parentheses opening closing tokens t opens inner closes ih =>
      intro least rest
      have hinner := ih 0 (closing :: rest) (Nat.zero_le 1)
        (endsAccess_of_isSymbol closes (Or.inr (by decide)) (Or.inr (by decide)))
        (stops_of_punctuator closes 1)
      simp only [List.append_assoc, List.cons_append, List.nil_append]
      exact readExpression_parentheses opens hinner closes

theorem derives_of_ofTokens {tokens : List Token} {t : Expr} (h : ofTokens tokens = .ok t) :
    Derives .expression tokens t := by
  simp only [ofTokens] at h
  split at h
  · cases h
  · split at h
    · cases h
    · rename_i tree hr
      cases h
      obtain ⟨used, rfl, hd, -⟩ := (sound _).whole (Nat.zero_le 1) hr
      rwa [List.append_nil]
    · cases h

theorem ofTokens_of_derives {tokens : List Token} {t : Expr} (h : Derives .expression tokens t) :
    ofTokens tokens = .ok t := by
  have hr := h.reads 0 [] (Nat.zero_le 1) (by simp [EndsAccess]) (by simp [Stops])
  rw [List.append_nil] at hr
  cases tokens with
  | nil => cases hr
  | cons token rest =>
      rw [readExpression] at hr
      simp only [ofTokens, List.isEmpty_cons, Bool.false_eq_true, if_false, hr]

/-- A token list parses to a tree exactly if the grammar derives that tree from all of it, there is
at most one such tree, and without one an error is raised. Reading ends by itself: no fuel beyond
what the parser has makes a difference. -/
theorem ofTokens_exact (tokens : List Token) :
    (∀ t, ofTokens tokens = .ok t ↔ Derives .expression tokens t) ∧
      Subsingleton { t // Derives .expression tokens t } ∧
      ((∃ e, ofTokens tokens = .error e) ↔ ¬ ∃ t, Derives .expression tokens t) ∧
      ∀ extra, expression (2 * tokens.length + 2 + extra) 0 tokens =
        expression (2 * tokens.length + 2) 0 tokens := by
  have hiff : ∀ t, ofTokens tokens = .ok t ↔ Derives .expression tokens t :=
    fun t => ⟨derives_of_ofTokens, ofTokens_of_derives⟩
  refine ⟨hiff, ⟨?_⟩, ?_, ?_⟩
  · rintro ⟨t, ht⟩ ⟨u, hu⟩
    have hok : (Except.ok t : Except ParseError Expr) = .ok u :=
      ((hiff t).mpr ht).symm.trans ((hiff u).mpr hu)
    cases hok
    rfl
  · constructor
    · rintro ⟨e, he⟩ ⟨t, ht⟩
      cases he.symm.trans ((hiff t).mpr ht)
    · intro hnone
      cases h : ofTokens tokens with
      | error e => exact ⟨e, rfl⟩
      | ok t => exact absurd ⟨t, (hiff t).mp h⟩ hnone
  · intro extra
    exact expression_eq_read 0 (by omega)

end Expr

end Prepass
