/- What a step of the parser can do, and that its fuel never runs out. -/
import Prepass.Proofs.Expression.Grammar
import Prepass.Proofs.Outcome
namespace Prepass

/-- Whether a token goes on with an expression of operators of at least this precedence. -/
def Token.Continues (least : Nat) (token : Token) : Prop :=
  token.kind = .operator ∧
    (token.text = Text.ofString "?" ∧ least ≤ 1 ∨
      ∃ op, BinaryOperator.ofText? token.text = some op ∧ least ≤ op.precedence)

namespace Expr

theorem isSymbol_iff {kind : TokenKind} {text : Text} {token : Token} :
    isSymbol kind text token = true ↔ token.kind = kind ∧ token.text = text := by
  simp only [isSymbol, Bool.and_eq_true, decide_eq_true_eq]

theorem isSymbol_of_ne {kind kind' : TokenKind} {text text' : Text} {token : Token}
    (h : isSymbol kind text token = true) (hne : kind ≠ kind' ∨ text ≠ text') :
    isSymbol kind' text' token = false := by
  obtain ⟨rfl, rfl⟩ := isSymbol_iff.mp h
  refine Bool.eq_false_iff.mpr fun h' => ?_
  obtain ⟨hk, ht⟩ := isSymbol_iff.mp h'
  rcases hne with hne | hne
  · exact hne hk
  · exact hne ht

/-- No operator of at least this precedence comes next. -/
def Stops (least : Nat) (tokens : List Token) : Prop :=
  ∀ token ∈ tokens.head?, ¬ token.Continues least

theorem stops_cons {least : Nat} {token : Token} {rest : List Token} :
    Stops least (token :: rest) ↔ ¬ token.Continues least := by
  simp [Stops]

theorem Stops.mono {least more : Nat} {tokens : List Token} (h : Stops least tokens)
    (hle : least ≤ more) : Stops more tokens := by
  rintro token ht ⟨hk, ⟨hq, h1⟩ | ⟨op, ho, hp⟩⟩
  · exact h token ht ⟨hk, Or.inl ⟨hq, by omega⟩⟩
  · exact h token ht ⟨hk, Or.inr ⟨op, ho, by omega⟩⟩

/-- No binary operator binds as tight as a unary one. -/
theorem stops_of_le {least : Nat} (h : 12 ≤ least) (tokens : List Token) : Stops least tokens := by
  rintro token ht ⟨hk, ⟨hq, h1⟩ | ⟨op, ho, hp⟩⟩
  · omega
  · have := BinaryOperator.precedence_bounds ho
    omega

/-- Where nothing binds as loosely as a conditional, nothing goes on at all. -/
theorem Stops.of_one {tokens : List Token} (h : Stops 1 tokens) (least : Nat) :
    Stops least tokens := by
  rintro token ht ⟨hk, ⟨hq, h1⟩ | ⟨op, ho, hp⟩⟩
  · exact h token ht ⟨hk, Or.inl ⟨hq, Nat.le_refl 1⟩⟩
  · have := BinaryOperator.precedence_bounds ho
    exact h token ht ⟨hk, Or.inr ⟨op, ho, by omega⟩⟩

theorem expect_eq_ok {kind : TokenKind} {text : Text} {tokens rest : List Token} :
    expect kind text tokens = .ok rest ↔
      ∃ token, tokens = token :: rest ∧ isSymbol kind text token = true := by
  cases tokens with
  | nil => simp [expect]
  | cons token more =>
      simp only [expect]
      constructor
      · intro h
        split at h
        · cases h
          exact ⟨token, rfl, ‹_›⟩
        · cases h
      · rintro ⟨token, he, hs⟩
        cases he
        rw [if_pos hs]

theorem expect_of_isSymbol {kind : TokenKind} {text : Text} {token : Token} (rest : List Token)
    (h : isSymbol kind text token = true) : expect kind text (token :: rest) = .ok rest :=
  expect_eq_ok.mpr ⟨token, rfl, h⟩

/-- What the reading of an expression begins with. -/
inductive Beginning (fuel least : Nat) (found : Expr × List Token) : List Token → Prop where
  | unary {op : UnaryOperator} {token : Token} {rest after : List Token} {operand : Expr}
      (kind : token.kind = .operator) (text : UnaryOperator.ofText? token.text = some op)
      (first : expression fuel 12 rest = .ok (operand, after))
      (more : operators fuel least (.unary op operand) after = .ok found) :
      Beginning fuel least found (token :: rest)
  | parentheses {opening closing : Token} {rest after : List Token} {inner : Expr}
      (opens : isSymbol .punctuator "(" opening = true)
      (first : expression fuel 0 rest = .ok (inner, closing :: after))
      (closes : isSymbol .punctuator ")" closing = true)
      (more : members fuel least inner after = .ok found) :
      Beginning fuel least found (opening :: rest)
  | terminal {token : Token} {rest : List Token} {t : Expr} (alone : Terminal token t)
      (more : members fuel least t rest = .ok found) : Beginning fuel least found (token :: rest)

theorem beginning {fuel least : Nat} {tokens : List Token} {found : Expr × List Token}
    (h : expression (fuel + 1) least tokens = .ok found) : Beginning fuel least found tokens := by
  cases tokens with
  | nil => cases h
  | cons token rest =>
      rw [expression] at h
      cases hk : token.kind with
      | operator =>
          simp only [hk] at h
          cases ho : UnaryOperator.ofText? token.text with
          | none =>
              simp only [ho] at h
              cases h
          | some op =>
              simp only [ho] at h
              obtain ⟨⟨operand, after⟩, hf, hm⟩ := bind_eq_ok.mp h
              exact .unary hk ho hf hm
      | punctuator =>
          simp only [hk] at h
          split at h
          · rename_i hp
            obtain ⟨⟨inner, middle⟩, hf, h⟩ := bind_eq_ok.mp h
            obtain ⟨after, he, hm⟩ := bind_eq_ok.mp h
            obtain ⟨closing, rfl, hc⟩ := expect_eq_ok.mp he
            exact .parentheses (isSymbol_iff.mpr ⟨hk, hp⟩) hf hc hm
          · cases h
      | number x =>
          simp only [hk] at h
          exact .terminal (.number hk) h
      | string t =>
          simp only [hk] at h
          exact .terminal (.string hk) h
      | identifier =>
          simp only [hk] at h
          exact .terminal (terminal_ofIdentifier hk) h

inductive Access (fuel least : Nat) (target : Expr) (found : Expr × List Token) :
    List Token → Prop where
  | dot {dot name : Token} {rest : List Token} (dotted : isSymbol .punctuator "." dot = true)
      (kind : name.kind = .identifier)
      (more : members fuel least (.member target (.literal (.str name.text))) rest = .ok found) :
      Access fuel least target found (dot :: name :: rest)
  | index {opening closing : Token} {rest after : List Token} {key : Expr}
      (opens : isSymbol .punctuator "[" opening = true)
      (first : expression fuel 0 rest = .ok (key, closing :: after))
      (closes : isSymbol .punctuator "]" closing = true)
      (more : members fuel least (.member target key) after = .ok found) :
      Access fuel least target found (opening :: rest)
  | none {token : Token} {rest : List Token}
      (more : operators fuel least target (token :: rest) = .ok found) :
      Access fuel least target found (token :: rest)
  | nothing (last : found = (target, [])) : Access fuel least target found []

theorem access {fuel least : Nat} {target : Expr} {tokens : List Token}
    {found : Expr × List Token} (h : members (fuel + 1) least target tokens = .ok found) :
    Access fuel least target found tokens := by
  cases tokens with
  | nil =>
      cases h
      exact .nothing rfl
  | cons token rest =>
      unfold members at h
      split at h
      · rename_i hd
        cases rest with
        | nil => cases h
        | cons name rest =>
            dsimp only at h
            split at h
            · rename_i hn
              exact .dot hd hn h
            · cases h
      · split at h
        · rename_i hi
          obtain ⟨⟨key, middle⟩, hf, h⟩ := bind_eq_ok.mp h
          obtain ⟨after, he, hm⟩ := bind_eq_ok.mp h
          obtain ⟨closing, rfl, hc⟩ := expect_eq_ok.mp he
          exact .index hi hf hc hm
        · exact .none h

inductive Operation (fuel least : Nat) (lhs : Expr) (found : Expr × List Token) :
    List Token → Prop where
  | conditional {question colon : Token} {rest between after : List Token}
      {whenTrue whenFalse : Expr} (asks : isSymbol .operator "?" question = true)
      (low : least ≤ 1) (first : expression fuel 0 rest = .ok (whenTrue, colon :: between))
      (parts : isSymbol .operator ":" colon = true)
      (second : expression fuel 1 between = .ok (whenFalse, after))
      (more : operators fuel least (.conditional lhs whenTrue whenFalse) after = .ok found) :
      Operation fuel least lhs found (question :: rest)
  | binary {op : BinaryOperator} {token : Token} {rest after : List Token} {rhs : Expr}
      (kind : token.kind = .operator) (text : BinaryOperator.ofText? token.text = some op)
      (low : least ≤ op.precedence)
      (second : expression fuel (op.precedence + 1) rest = .ok (rhs, after))
      (more : operators fuel least (.binary op lhs rhs) after = .ok found) :
      Operation fuel least lhs found (token :: rest)
  | none {tokens : List Token} (stops : Stops least tokens) (last : found = (lhs, tokens)) :
      Operation fuel least lhs found tokens

theorem operation {fuel least : Nat} {lhs : Expr} {tokens : List Token}
    {found : Expr × List Token} (h : operators (fuel + 1) least lhs tokens = .ok found) :
    Operation fuel least lhs found tokens := by
  cases tokens with
  | nil =>
      cases h
      exact .none (by simp [Stops]) rfl
  | cons token rest =>
      rw [operators] at h
      split at h
      · rename_i hq
        obtain ⟨hs, hl⟩ := Bool.and_eq_true_iff.mp hq
        obtain ⟨⟨whenTrue, middle⟩, hf, h1⟩ := bind_eq_ok.mp h
        obtain ⟨between, he, h2⟩ := bind_eq_ok.mp h1
        obtain ⟨⟨whenFalse, after⟩, hw, hm⟩ := bind_eq_ok.mp h2
        obtain ⟨colon, rfl, hc⟩ := expect_eq_ok.mp he
        exact .conditional hs (of_decide_eq_true hl) hf hc hw hm
      · rename_i hq
        have hno : ¬ (isSymbol .operator "?" token = true ∧ least ≤ 1) := by
          simpa only [Bool.and_eq_true, decide_eq_true_eq] using hq
        split at h
        · rename_i op ho
          split at h
          · rename_i hl
            obtain ⟨⟨rhs, after⟩, hs, hm⟩ := bind_eq_ok.mp h
            exact .binary hl.1 ho hl.2 hs hm
          · rename_i hl
            cases h
            refine .none (stops_cons.mpr ?_) rfl
            rintro ⟨hk, ⟨ht, h1⟩ | ⟨other, ho', hp⟩⟩
            · exact hno ⟨isSymbol_iff.mpr ⟨hk, ht⟩, h1⟩
            · cases ho.symm.trans ho'
              exact hl ⟨hk, hp⟩
        · rename_i ho
          cases h
          refine .none (stops_cons.mpr ?_) rfl
          rintro ⟨hk, ⟨ht, h1⟩ | ⟨other, ho', hp⟩⟩
          · exact hno ⟨isSymbol_iff.mpr ⟨hk, ht⟩, h1⟩
          · cases ho.symm.trans ho'

/-- What is left over by each reader. -/
structure Shrinks (fuel : Nat) : Prop where
  expression : ∀ {least tokens t rest},
    expression fuel least tokens = .ok (t, rest) → rest.length < tokens.length
  members : ∀ {least target tokens t rest},
    members fuel least target tokens = .ok (t, rest) → rest.length ≤ tokens.length
  operators : ∀ {least lhs tokens t rest},
    operators fuel least lhs tokens = .ok (t, rest) → rest.length ≤ tokens.length

theorem shrinks (fuel : Nat) : Shrinks fuel := by
  induction fuel with
  | zero =>
      refine ⟨?_, ?_, ?_⟩
      · intro least tokens t rest h
        rw [expression] at h
        cases h
      · intro least target tokens t rest h
        rw [members] at h
        cases h
      · intro least lhs tokens t rest h
        rw [operators] at h
        cases h
  | succ fuel ih =>
      refine ⟨?_, ?_, ?_⟩
      · intro least tokens t rest h
        cases beginning h with
        | unary kind text first more =>
            have h1 := ih.expression first
            have h2 := ih.operators more
            simp only [List.length_cons]
            omega
        | parentheses opens first closes more =>
            have h1 := ih.expression first
            have h2 := ih.members more
            simp only [List.length_cons] at h1 ⊢
            omega
        | terminal alone more =>
            exact Nat.lt_succ_of_le (ih.members more)
      · intro least target tokens t rest h
        cases access h with
        | dot dotted kind more =>
            have h1 := ih.members more
            simp only [List.length_cons]
            omega
        | index opens first closes more =>
            have h1 := ih.expression first
            have h2 := ih.members more
            simp only [List.length_cons] at h1 ⊢
            omega
        | none more => exact ih.operators more
        | nothing last =>
            cases last
            exact Nat.le_refl _
      · intro least lhs tokens t rest h
        cases operation h with
        | conditional asks low first parts second more =>
            have h1 := ih.expression first
            have h2 := ih.expression second
            have h3 := ih.operators more
            simp only [List.length_cons] at h1 ⊢
            omega
        | binary kind text low second more =>
            have h1 := ih.expression second
            have h2 := ih.operators more
            simp only [List.length_cons]
            omega
        | none stops last =>
            cases last
            exact Nat.le_refl _

/-- Enough fuel for the tokens: one more changes nothing. -/
structure Settled (fuel : Nat) : Prop where
  expression : ∀ least tokens, 2 * tokens.length + 1 ≤ fuel →
    expression (fuel + 1) least tokens = expression fuel least tokens
  members : ∀ least target tokens, 2 * tokens.length + 2 ≤ fuel →
    members (fuel + 1) least target tokens = members fuel least target tokens
  operators : ∀ least lhs tokens, 2 * tokens.length + 1 ≤ fuel →
    operators (fuel + 1) least lhs tokens = operators fuel least lhs tokens

theorem Settled.expression_succ {fuel : Nat} (h : Settled fuel) (least : Nat) (tokens : List Token)
    (hf : 2 * tokens.length + 1 ≤ fuel + 1) :
    Expr.expression (fuel + 2) least tokens = Expr.expression (fuel + 1) least tokens := by
  cases tokens with
  | nil => rfl
  | cons token rest =>
      simp only [List.length_cons] at hf
      have he (least : Nat) := h.expression least rest (by omega)
      have hm (t : Expr) := h.members least t rest (by omega)
      rw [Expr.expression, Expr.expression]
      simp only [he, hm]
      split
      · split
        · rfl
        · refine bind_congr_ok ?_
          rintro ⟨operand, after⟩ ho
          have := (shrinks fuel).expression ho
          exact h.operators least _ after (by omega)
      · split
        · refine bind_congr_ok ?_
          rintro ⟨inner, middle⟩ hi
          have := (shrinks fuel).expression hi
          refine bind_congr_ok fun after ha => ?_
          obtain ⟨closing, rfl, -⟩ := expect_eq_ok.mp ha
          simp only [List.length_cons] at this
          exact h.members least inner after (by omega)
        · rfl
      · rfl
      · rfl
      · rfl

theorem Settled.members_succ {fuel : Nat} (h : Settled fuel) (least : Nat) (target : Expr)
    (tokens : List Token) (hf : 2 * tokens.length + 2 ≤ fuel + 1) :
    Expr.members (fuel + 2) least target tokens = Expr.members (fuel + 1) least target tokens := by
  cases tokens with
  | nil => rfl
  | cons token rest =>
      simp only [List.length_cons] at hf
      have he := h.expression 0 rest (by omega)
      have ho := h.operators least target (token :: rest) (by simp only [List.length_cons]; omega)
      unfold Expr.members
      simp only [he, ho]
      split
      · cases rest with
        | nil => rfl
        | cons name rest =>
            simp only [List.length_cons] at hf
            simp only [h.members least _ rest (by omega)]
      · split
        · refine bind_congr_ok ?_
          rintro ⟨key, middle⟩ hk
          have hlt := (shrinks fuel).expression hk
          refine bind_congr_ok fun after ha => ?_
          obtain ⟨closing, rfl, -⟩ := expect_eq_ok.mp ha
          simp only [List.length_cons] at hlt
          exact h.members least _ after (by omega)
        · rfl

theorem Settled.operators_succ {fuel : Nat} (h : Settled fuel) (least : Nat) (lhs : Expr)
    (tokens : List Token) (hf : 2 * tokens.length + 1 ≤ fuel + 1) :
    Expr.operators (fuel + 2) least lhs tokens = Expr.operators (fuel + 1) least lhs tokens := by
  cases tokens with
  | nil => rfl
  | cons token rest =>
      simp only [List.length_cons] at hf
      have he (least : Nat) := h.expression least rest (by omega)
      rw [Expr.operators, Expr.operators]
      simp only [he]
      split
      · refine bind_congr_ok ?_
        rintro ⟨whenTrue, middle⟩ ht
        have hlt := (shrinks fuel).expression ht
        refine bind_congr_ok fun between hb => ?_
        obtain ⟨colon, rfl, -⟩ := expect_eq_ok.mp hb
        simp only [List.length_cons] at hlt
        rw [h.expression 1 between (by omega)]
        refine bind_congr_ok ?_
        rintro ⟨whenFalse, after⟩ hw
        have := (shrinks fuel).expression hw
        exact h.operators least _ after (by omega)
      · split
        · split
          · refine bind_congr_ok ?_
            rintro ⟨rhs, after⟩ hr
            have := (shrinks fuel).expression hr
            exact h.operators least _ after (by omega)
          · rfl
        · rfl

theorem settled (fuel : Nat) : Settled fuel := by
  induction fuel with
  | zero =>
      refine ⟨?_, ?_, ?_⟩
      · intro least tokens h
        omega
      · intro least target tokens h
        omega
      · intro least lhs tokens h
        omega
  | succ fuel ih => exact ⟨ih.expression_succ, ih.members_succ, ih.operators_succ⟩

/-- The readers, with as much fuel as the tokens can use. -/
def readExpression (least : Nat) (tokens : List Token) : Except ParseError (Expr × List Token) :=
  expression (2 * tokens.length + 2) least tokens

def readMembers (least : Nat) (target : Expr) (tokens : List Token) :
    Except ParseError (Expr × List Token) :=
  members (2 * tokens.length + 2) least target tokens

def readOperators (least : Nat) (lhs : Expr) (tokens : List Token) :
    Except ParseError (Expr × List Token) :=
  operators (2 * tokens.length + 2) least lhs tokens

theorem eq_of_forall_succ_eq {α : Type} (f : Nat → α) {start fuel : Nat}
    (h : ∀ n, start ≤ n → f (n + 1) = f n) (hle : start ≤ fuel) : f fuel = f start := by
  obtain ⟨k, rfl⟩ := Nat.exists_eq_add_of_le hle
  induction k with
  | zero => rfl
  | succ k ih => exact (h (start + k) (Nat.le_add_right start k)).trans (ih (Nat.le_add_right start k))

theorem expression_eq_read {fuel : Nat} {tokens : List Token} (least : Nat)
    (h : 2 * tokens.length + 1 ≤ fuel) :
    expression fuel least tokens = readExpression least tokens := by
  have hs (n : Nat) (hn : 2 * tokens.length + 1 ≤ n) := (settled n).expression least tokens hn
  exact (eq_of_forall_succ_eq (expression · least tokens) hs h).trans (hs _ (Nat.le_refl _)).symm

theorem expression_of_read {fuel least : Nat} {tokens : List Token} {found : Expr × List Token}
    (h : readExpression least tokens = .ok found) (hf : 2 * tokens.length + 1 ≤ fuel) :
    expression fuel least tokens = .ok found :=
  (expression_eq_read least hf).trans h

theorem members_eq_read {fuel : Nat} {tokens : List Token} (least : Nat) (target : Expr)
    (h : 2 * tokens.length + 2 ≤ fuel) :
    members fuel least target tokens = readMembers least target tokens :=
  eq_of_forall_succ_eq (members · least target tokens) (fun n hn => (settled n).members least target tokens hn) h

theorem operators_eq_read {fuel : Nat} {tokens : List Token} (least : Nat) (lhs : Expr)
    (h : 2 * tokens.length + 1 ≤ fuel) :
    operators fuel least lhs tokens = readOperators least lhs tokens := by
  have hs (n : Nat) (hn : 2 * tokens.length + 1 ≤ n) := (settled n).operators least lhs tokens hn
  exact (eq_of_forall_succ_eq (operators · least lhs tokens) hs h).trans (hs _ (Nat.le_refl _)).symm

section

variable {least : Nat} {token closing colon : Token} {rest between after : List Token} {t : Expr}

theorem readExpression_unary {op : UnaryOperator} (kind : token.kind = .operator)
    (text : UnaryOperator.ofText? token.text = some op)
    (first : readExpression 12 rest = .ok (t, after)) :
    readExpression least (token :: rest) = readOperators least (.unary op t) after := by
  have hlt := (shrinks _).expression first
  have he := expression_of_read first (by omega : 2 * rest.length + 1 ≤ 2 * rest.length + 3)
  show expression (2 * rest.length + 3 + 1) least (token :: rest) = _
  simp only [expression, kind, text, UnaryOperator.precedence, he]
  show operators (2 * rest.length + 3) least (.unary op t) after = _
  exact operators_eq_read least (.unary op t) (by omega)

theorem readExpression_parentheses (opens : isSymbol .punctuator "(" token = true)
    (first : readExpression 0 rest = .ok (t, closing :: after))
    (closes : isSymbol .punctuator ")" closing = true) :
    readExpression least (token :: rest) = readMembers least t after := by
  have hlt := (shrinks _).expression first
  have he := expression_of_read first (by omega : 2 * rest.length + 1 ≤ 2 * rest.length + 3)
  have hc := expect_of_isSymbol after closes
  obtain ⟨hk, ht⟩ := isSymbol_iff.mp opens
  simp only [List.length_cons] at hlt
  show expression (2 * rest.length + 3 + 1) least (token :: rest) = _
  simp only [expression, hk, ht, if_true, he]
  show (expect .punctuator ")" (closing :: after) >>= _) = _
  rw [hc]
  exact members_eq_read least t (by omega)

theorem readExpression_terminal (alone : Terminal token t) :
    readExpression least (token :: rest) = readMembers least t rest := by
  have hm : members (2 * rest.length + 3) least t rest = readMembers least t rest :=
    members_eq_read least t (by omega)
  show expression (2 * rest.length + 3 + 1) least (token :: rest) = _
  rw [← hm]
  cases alone with
  | number kind => simp only [expression, kind]
  | string kind => simp only [expression, kind]
  | keyword kind known => simp only [expression, kind, ofIdentifier_of_mem known]
  | name kind unknown => simp only [expression, kind, ofIdentifier_of_not_mem unknown]

theorem readMembers_dot {name : Token} (dotted : isSymbol .punctuator "." token = true)
    (kind : name.kind = .identifier) :
    readMembers least t (token :: name :: rest) =
      readMembers least (.member t (.literal (.str name.text))) rest := by
  show members (2 * rest.length + 5 + 1) least t (token :: name :: rest) = _
  simp only [members, dotted, kind, if_true]
  exact members_eq_read least _ (by omega)

theorem readMembers_index {key : Expr} (opens : isSymbol .punctuator "[" token = true)
    (first : readExpression 0 rest = .ok (key, closing :: after))
    (closes : isSymbol .punctuator "]" closing = true) :
    readMembers least t (token :: rest) = readMembers least (.member t key) after := by
  have hlt := (shrinks _).expression first
  have he := expression_of_read first (by omega : 2 * rest.length + 1 ≤ 2 * rest.length + 3)
  have hc := expect_of_isSymbol after closes
  have hd : isSymbol .punctuator "." token = false := isSymbol_of_ne opens (Or.inr (by decide))
  simp only [List.length_cons] at hlt
  show members (2 * rest.length + 3 + 1) least t (token :: rest) = _
  unfold members
  simp only [hd, opens, if_true, Bool.false_eq_true, if_false, he]
  show (expect .punctuator "]" (closing :: after) >>= _) = _
  rw [hc]
  exact members_eq_read least (.member t key) (by omega)

/-- Neither a dot nor a bracket comes next. -/
def EndsAccess (tokens : List Token) : Prop :=
  ∀ token ∈ tokens.head?,
    isSymbol .punctuator "." token = false ∧ isSymbol .punctuator "[" token = false

theorem readMembers_none {tokens : List Token} (h : EndsAccess tokens) :
    readMembers least t tokens = readOperators least t tokens := by
  cases tokens with
  | nil => rfl
  | cons token rest =>
      obtain ⟨hd, hb⟩ := h token rfl
      show members (2 * rest.length + 3 + 1) least t (token :: rest) = _
      unfold members
      simp only [hd, hb, Bool.false_eq_true, if_false]
      exact operators_eq_read least t (by simp only [List.length_cons]; omega)

theorem readOperators_none {tokens : List Token} (h : Stops least tokens) :
    readOperators least t tokens = .ok (t, tokens) := by
  cases tokens with
  | nil => rfl
  | cons token rest =>
      have hc := stops_cons.mp h
      have hq : (isSymbol .operator "?" token && decide (least ≤ 1)) = false := by
        refine Bool.eq_false_iff.mpr fun hq => hc ?_
        obtain ⟨hs, hl⟩ := Bool.and_eq_true_iff.mp hq
        obtain ⟨hk, ht⟩ := isSymbol_iff.mp hs
        exact ⟨hk, Or.inl ⟨ht, of_decide_eq_true hl⟩⟩
      show operators (2 * rest.length + 3 + 1) least t (token :: rest) = _
      rw [operators]
      simp only [hq, Bool.false_eq_true, if_false]
      split
      · rename_i op ho
        rw [if_neg]
        rintro ⟨hk, hl⟩
        exact hc ⟨hk, Or.inr ⟨op, ho, hl⟩⟩
      · rfl

theorem readOperators_binary {op : BinaryOperator} {rhs : Expr} (kind : token.kind = .operator)
    (text : BinaryOperator.ofText? token.text = some op) (low : least ≤ op.precedence)
    (second : readExpression (op.precedence + 1) rest = .ok (rhs, after)) :
    readOperators least t (token :: rest) = readOperators least (.binary op t rhs) after := by
  have hlt := (shrinks _).expression second
  have he := expression_of_read second (by omega : 2 * rest.length + 1 ≤ 2 * rest.length + 3)
  have hq : (isSymbol .operator "?" token && decide (least ≤ 1)) = false := by
    refine Bool.eq_false_iff.mpr fun hq => ?_
    obtain ⟨-, ht⟩ := isSymbol_iff.mp (Bool.and_eq_true_iff.mp hq).1
    rw [ht, BinaryOperator.ofText?_question] at text
    cases text
  show operators (2 * rest.length + 3 + 1) least t (token :: rest) = _
  rw [operators]
  simp only [hq, Bool.false_eq_true, if_false, text, kind, low, and_self, if_true, he]
  show operators (2 * rest.length + 3) least (.binary op t rhs) after = _
  exact operators_eq_read least (.binary op t rhs) (by omega)

theorem readOperators_conditional {whenTrue whenFalse : Expr}
    (asks : isSymbol .operator "?" token = true) (low : least ≤ 1)
    (first : readExpression 0 rest = .ok (whenTrue, colon :: between))
    (parts : isSymbol .operator ":" colon = true)
    (second : readExpression 1 between = .ok (whenFalse, after)) :
    readOperators least t (token :: rest) =
      readOperators least (.conditional t whenTrue whenFalse) after := by
  have hlt := (shrinks _).expression first
  have hlt' := (shrinks _).expression second
  simp only [List.length_cons] at hlt
  have he := expression_of_read first (by omega : 2 * rest.length + 1 ≤ 2 * rest.length + 3)
  have he' := expression_of_read second (by omega : 2 * between.length + 1 ≤ 2 * rest.length + 3)
  have hc := expect_of_isSymbol between parts
  show operators (2 * rest.length + 3 + 1) least t (token :: rest) = _
  rw [operators]
  simp only [asks, low, decide_true, Bool.and_self, if_true, he]
  show (expect .operator ":" (colon :: between) >>= _) = _
  rw [hc]
  show (expression (2 * rest.length + 3) 1 between >>= _) = _
  rw [he']
  show operators (2 * rest.length + 3) least (.conditional t whenTrue whenFalse) after = _
  exact operators_eq_read least (.conditional t whenTrue whenFalse) (by omega)

end

end Expr

end Prepass
