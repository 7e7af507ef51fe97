/- The grammar of expressions, stratified by the precedence of their operators. -/
import Prepass.Expression.Parser
namespace Prepass

namespace Expr

/-- The identifiers that stand for values. -/
def keywords : List (Text × Value) :=
  [("true", .bool true), ("false", .bool false), ("null", .null), ("undefined", .undefined),
    ("NaN", .num .nan), ("Infinity", .num (.infinite false))]

/-- Tokens that are terms by themselves. -/
inductive Terminal (token : Token) : Expr → Prop where
  | number {x : Binary64} (kind : token.kind = .number x) : Terminal token (.literal (.num x))
  | string {t : Text} (kind : token.kind = .string t) : Terminal token (.literal (.str t))
  | keyword {v : Value} (kind : token.kind = .identifier) (known : (token.text, v) ∈ keywords) :
      Terminal token (.literal v)
  | name (kind : token.kind = .identifier) (unknown : ∀ v, (token.text, v) ∉ keywords) :
      Terminal token (.variable token.text)

inductive Nonterminal where
  | expression
  /-- Operands of operators of lower precedence than this. -/
  | level (precedence : Nat)
  | access
  | atom

inductive Derives : Nonterminal → List Token → Expr → Prop where
  | plain {tokens : List Token} {t : Expr} (operand : Derives (.level 2) tokens t) :
      Derives .expression tokens t
  | conditional {condition whenTrue whenFalse : List Token} {question colon : Token} {c t f : Expr}
      (tested : Derives (.level 2) condition c) (asks : isSymbol .operator "?" question = true)
      (first : Derives .expression whenTrue t) (parts : isSymbol .operator ":" colon = true)
      (second : Derives .expression whenFalse f) :
      Derives .expression (condition ++ question :: (whenTrue ++ colon :: whenFalse))
        (.conditional c t f)
  | tighter {n : Nat} {tokens : List Token} {t : Expr} (lower : 2 ≤ n) (upper : n ≤ 11)
      (operand : Derives (.level (n + 1)) tokens t) : Derives (.level n) tokens t
  | binary {op : BinaryOperator} {left right : List Token} {token : Token} {lhs rhs : Expr}
      (first : Derives (.level op.precedence) left lhs) (kind : token.kind = .operator)
      (text : BinaryOperator.ofText? token.text = some op)
      (second : Derives (.level (op.precedence + 1)) right rhs) :
      Derives (.level op.precedence) (left ++ token :: right) (.binary op lhs rhs)
  | unary {op : UnaryOperator} {token : Token} {tokens : List Token} {t : Expr}
      (kind : token.kind = .operator) (text : UnaryOperator.ofText? token.text = some op)
      (operand : Derives (.level 12) tokens t) : Derives (.level 12) (token :: tokens) (.unary op t)
  | access {tokens : List Token} {t : Expr} (operand : Derives .access tokens t) :
      Derives (.level 12) tokens t
  | atom {tokens : List Token} {t : Expr} (operand : Derives .atom tokens t) :
      Derives .access tokens t
  | dot {tokens : List Token} {dot name : Token} {t : Expr} (target : Derives .access tokens t)
      (dotted : isSymbol .punctuator "." dot = true) (kind : name.kind = .identifier) :
      Derives .access (tokens ++ [dot, name]) (.member t (.literal (.str name.text)))
  | index {tokens key : List Token} {opening closing : Token} {t k : Expr}
      (target : Derives .access tokens t) (opens : isSymbol .punctuator "[" opening = true)
      (inner : Derives .expression key k) (closes : isSymbol .punctuator "]" closing = true) :
      Derives .access (tokens ++ opening :: (key ++ [closing])) (.member t k)
  | terminal {token : Token} {t : Expr} (alone : Terminal token t) : Derives .atom [token] t
  | parentheses {opening closing : Token} {tokens : List Token} {t : Expr}
      (opens : isSymbol .punctuator "(" opening = true) (inner : Derives .expression tokens t)
      (closes : isSymbol .punctuator ")" closing = true) :
      Derives .atom (opening :: (tokens ++ [closing])) t

def nonterminal (least : Nat) : Nonterminal := if least ≤ 1 then .expression else .level least

/-- A tighter operand may stand wherever a looser one may. -/
theorem Derives.loosen {m n : Nat} {tokens : List Token} {t : Expr}
    (h : Derives (.level n) tokens t) (hm : 2 ≤ m) (hn : n ≤ 12) (hmn : m ≤ n) :
    Derives (.level m) tokens t := by
  obtain ⟨k, rfl⟩ := Nat.exists_eq_add_of_le hmn
  induction k with
  | zero => exact h
  | succ k ih => exact ih (.tighter (by omega) (by omega) h) (by omega) (by omega)

theorem Derives.toNonterminal {least n : Nat} {tokens : List Token} {t : Expr}
    (h : Derives (.level n) tokens t) (h2 : 2 ≤ n) (hn : n ≤ 12) (hl : least ≤ n) :
    Derives (nonterminal least) tokens t := by
  unfold nonterminal
  split
  · exact .plain (h.loosen (by omega) hn h2)
  · exact h.loosen (by omega) hn hl

theorem ofIdentifier_of_mem {name : Text} {v : Value} (h : (name, v) ∈ keywords) :
    ofIdentifier name = .literal v := by
  simp only [keywords, List.mem_cons, Prod.mk.injEq, List.not_mem_nil, or_false] at h
  rcases h with ⟨rfl, rfl⟩ | ⟨rfl, rfl⟩ | ⟨rfl, rfl⟩ | ⟨rfl, rfl⟩ | ⟨rfl, rfl⟩ | ⟨rfl, rfl⟩ <;> rfl

theorem ofIdentifier_of_not_mem {name : Text} (h : ∀ v, (name, v) ∉ keywords) :
    ofIdentifier name = .variable name := by
  have hne : ∀ entry ∈ keywords, name ≠ entry.1 := by
    rintro ⟨_, v⟩ he rfl
    exact h v he
  simp only [keywords, List.forall_mem_cons] at hne
  obtain ⟨h1, h2, h3, h4, h5, h6, -⟩ := hne
  rw [ofIdentifier, if_neg h1, if_neg h2, if_neg h3, if_neg h4, if_neg h5, if_neg h6]

theorem terminal_ofIdentifier {token : Token} (kind : token.kind = .identifier) :
    Terminal token (ofIdentifier token.text) := by
  by_cases h : ∃ v, (token.text, v) ∈ keywords
  · obtain ⟨v, hv⟩ := h
    rw [ofIdentifier_of_mem hv]
    exact .keyword kind hv
  · have hn : ∀ v, (token.text, v) ∉ keywords := fun v hv => h ⟨v, hv⟩
    rw [ofIdentifier_of_not_mem hn]
    exact .name kind hn

end Expr

namespace BinaryOperator

theorem ofText?_question : ofText? "?" = none := by decide

theorem ofText?_colon : ofText? ":" = none := by decide

/-- A spelling is never read as the operator that has none. -/
theorem precedence_bounds {t : Text} {op : BinaryOperator} (h : ofText? t = some op) :
    2 ≤ op.precedence ∧ op.precedence ≤ 11 := by
  cases op with
  | logical op => cases op <;> decide
  | equality op => cases op <;> decide
  | relation op => cases op <;> decide
  | arithmetic op => cases op <;> decide
  | bitwise op => cases op <;> decide
  | unknown spelling =>
      simp [ofText?] at h

end BinaryOperator

end Prepass
