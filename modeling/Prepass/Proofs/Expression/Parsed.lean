/- What an expression text is read as: the names in the tree stand in the text, its literals are
values that a variable can hold, and its operators are known. -/
import Prepass.Proofs.Expression.Exact
namespace Prepass

namespace Lexeme

theorem firstOf_eq_some {t : Text} {readers : List (Text → Except LexStop Lexeme)} {l : Lexeme}
    (h : firstOf t readers = .ok (some l)) : ∃ read ∈ readers, read t = .ok l := by
  induction readers with
  | nil => cases h
  | cons read more ih =>
      rw [firstOf] at h
      cases hr : read t with
      | ok found =>
          rw [hr] at h
          cases h
          exact ⟨read, List.mem_cons_self, hr⟩
      | error stop =>
          simp only [hr] at h
          split at h
          · cases h
          · obtain ⟨other, ho, hl⟩ := ih h
            exact ⟨other, List.mem_cons_of_mem read ho, hl⟩

theorem finishNumber_isPrefix {t : Text} {length : Nat} {x : Binary64} {l : Lexeme}
    (h : finishNumber t length x = .ok l) : l.text <+: t := by
  unfold finishNumber at h
  split at h
  · cases h
  · cases h
    exact List.take_prefix length t

theorem number_isPrefix {t : Text} {l : Lexeme} (h : number t = .ok l) : l.text <+: t := by
  unfold number at h
  split at h
  · dsimp only at h
    split at h
    · cases h
    · split at h
      · cases h
      · exact finishNumber_isPrefix h
  · split at h
    · cases h
    · exact finishNumber_isPrefix h

theorem string_isPrefix {t : Text} {l : Lexeme} (h : string t = .ok l) : l.text <+: t := by
  cases t with
  | nil => cases h
  | cons quote rest =>
      rw [string] at h
      split at h
      · obtain ⟨⟨value, stop⟩, -, rfl⟩ := map_eq_ok.mp h
        exact List.take_prefix stop _
      · cases h

theorem identifier_isPrefix {t : Text} {l : Lexeme} (h : identifier t = .ok l) : l.text <+: t := by
  unfold identifier at h
  split at h
  · cases h
    exact List.takeWhile_prefix _
  · cases h

theorem symbol_isPrefix {symbols : List Text} {kind : TokenKind} {t : Text} {l : Lexeme}
    (h : symbol symbols kind t = .ok l) : l.text <+: t := by
  unfold symbol at h
  split at h
  · rename_i s hs
    cases h
    have hp := List.find?_some hs
    exact List.isPrefixOf_iff_prefix.mp hp
  · cases h

/-- A token is what the text begins with. -/
theorem next?_isPrefix {t : Text} {l : Lexeme} (h : next? t = .ok (some l)) : l.text <+: t := by
  obtain ⟨read, hm, hr⟩ := firstOf_eq_some h
  simp only [List.mem_cons, List.not_mem_nil, or_false] at hm
  rcases hm with rfl | rfl | rfl | rfl | rfl
  · exact number_isPrefix hr
  · exact string_isPrefix hr
  · exact identifier_isPrefix hr
  · exact symbol_isPrefix hr
  · exact symbol_isPrefix hr

end Lexeme

namespace Token

theorem scanFrom_isInfix {column skip stop : Nat} {t : Text} {tokens : List Token}
    (h : scanFrom column skip t = .ok (tokens, stop)) : ∀ token ∈ tokens, token.text <:+: t := by
  induction t generalizing column skip tokens with
  | nil =>
      cases skip <;> cases h <;> exact List.forall_mem_nil _
  | cons c rest ih =>
      have step {skip : Nat} {tokens : List Token}
          (h : scanFrom (column + 1) skip rest = .ok (tokens, stop)) :
          ∀ token ∈ tokens, token.text <:+: c :: rest :=
        fun token ht => (ih h token ht).trans (List.suffix_cons c rest).isInfix
      cases skip with
      | succ skip => exact step h
      | zero =>
          rw [scanFrom] at h
          split at h
          · exact step h
          · split at h
            · cases h
            · cases h
            · rename_i lexeme hn
              obtain ⟨⟨more, last⟩, hm, he⟩ := map_eq_ok.mp h
              cases he
              refine List.forall_mem_cons.mpr ⟨?_, step hm⟩
              exact (Lexeme.next?_isPrefix hn).isInfix

end Token

namespace Expr

/-- What can come of reading a text: a tree without holes and unknown operators, whose literals are
values that a variable can hold. The names in it have a property. -/
inductive Parsed (named : Text → Prop) : Expr → Prop where
  | literal {v : Value} (supported : v.isSupported = true) : Parsed named (.literal v)
  | name {name : Text} (found : named name) : Parsed named (.variable name)
  | member {target key : Expr} (holder : Parsed named target) (index : Parsed named key) :
      Parsed named (.member target key)
  | unary {op : UnaryOperator} {operand : Expr} (known : ∀ t, op ≠ .unknown t)
      (only : Parsed named operand) : Parsed named (.unary op operand)
  | binary {op : BinaryOperator} {lhs rhs : Expr} (known : ∀ t, op ≠ .unknown t)
      (first : Parsed named lhs) (second : Parsed named rhs) : Parsed named (.binary op lhs rhs)
  | conditional {condition whenTrue whenFalse : Expr} (tested : Parsed named condition)
      (first : Parsed named whenTrue) (second : Parsed named whenFalse) :
      Parsed named (.conditional condition whenTrue whenFalse)

theorem Parsed.mono {named other : Text → Prop} {t : Expr} (h : Parsed named t)
    (hn : ∀ name, named name → other name) : Parsed other t := by
  induction h with
  | literal supported => exact .literal supported
  | name found => exact .name (hn _ found)
  | member holder index iht ihk => exact .member iht ihk
  | unary known only ih => exact .unary known ih
  | binary known first second ihl ihr => exact .binary known ihl ihr
  | conditional tested first second ihc iht ihf => exact .conditional ihc iht ihf

def Spells (tokens : List Token) (name : Text) : Prop := ∃ token ∈ tokens, token.text = name

theorem Spells.subset {tokens more : List Token} (hs : tokens ⊆ more) (name : Text)
    (h : Spells tokens name) : Spells more name := by
  obtain ⟨token, ht, he⟩ := h
  exact ⟨token, hs ht, he⟩

theorem supported_of_mem_keywords {name : Text} {v : Value} (h : (name, v) ∈ keywords) :
    v.isSupported = true := by
  simp only [keywords, List.mem_cons, Prod.mk.injEq, List.not_mem_nil, or_false] at h
  rcases h with ⟨-, rfl⟩ | ⟨-, rfl⟩ | ⟨-, rfl⟩ | ⟨-, rfl⟩ | ⟨-, rfl⟩ | ⟨-, rfl⟩ <;> rfl

theorem Terminal.parsed {token : Token} {t : Expr} (h : Terminal token t) :
    Parsed (Spells [token]) t := by
  cases h with
  | number kind => exact .literal rfl
  | string kind => exact .literal rfl
  | keyword kind known => exact .literal (supported_of_mem_keywords known)
  | name kind unknown => exact .name ⟨token, List.mem_singleton_self token, rfl⟩

theorem Derives.parsed {symbol : Nonterminal} {tokens : List Token} {t : Expr}
    (h : Derives symbol tokens t) : Parsed (Spells tokens) t := by
  induction h with
  | plain operand ih => exact ih
  | conditional tested asks first parts second ihc iht ihf =>
      refine .conditional (ihc.mono (Spells.subset ?_)) (iht.mono (Spells.subset ?_))
        (ihf.mono (Spells.subset ?_))
      all_goals
        intro token ht
        simp [ht]
  | tighter lower upper operand ih => exact ih
  | binary first kind text second ihl ihr =>
      refine .binary ?_ (ihl.mono (Spells.subset ?_)) (ihr.mono (Spells.subset ?_))
      · rintro t rfl
        simp [BinaryOperator.ofText?] at text
      all_goals
        intro token ht
        simp [ht]
  | unary kind text operand ih =>
      refine .unary ?_ (ih.mono (Spells.subset (List.subset_cons_self _ _)))
      rintro t rfl
      have hm := List.mem_of_find?_eq_some text
      simp at hm
  | access operand ih => exact ih
  | atom operand ih => exact ih
  | dot target dotted kind ih =>
      exact .member (ih.mono (Spells.subset (List.subset_append_left _ _))) (.literal rfl)
  | index target opens inner closes iht ihk =>
      refine .member (iht.mono (Spells.subset ?_)) (ihk.mono (Spells.subset ?_))
      all_goals
        intro token ht
        simp [ht]
  | terminal alone => exact alone.parsed
  | parentheses opens inner closes ih =>
      refine ih.mono (Spells.subset ?_)
      intro token ht
      simp [ht]

theorem parsed_of_ofText {text : Text} {t : Expr} (h : ofText text = .ok t) :
    Parsed (· <:+: text) t := by
  unfold ofText at h
  split at h
  · cases h
  · cases h
  · rename_i tokens hs
    split at h
    · cases h
    · rename_i tree ht
      cases h
      obtain ⟨⟨found, stop⟩, hf, rfl⟩ := map_eq_ok.mp hs
      refine (derives_of_ofTokens ht).parsed.mono ?_
      rintro name ⟨token, hm, rfl⟩
      exact Token.scanFrom_isInfix hf token hm

end Expr

end Prepass
