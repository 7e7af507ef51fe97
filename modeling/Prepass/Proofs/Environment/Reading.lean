/- What is read of the variables: those alone whose names stand in the text at hand. -/
import Prepass.Proofs.Comment.Partition
import Prepass.Proofs.Environment.Bindings
import Prepass.Proofs.Expression.Parsed
import Prepass.Proofs.Output.Batch
namespace Prepass

namespace Environment

/-- The names with a property stand for the same. -/
def AgreeOn (named : Text → Prop) (env other : Environment) : Prop :=
  ∀ name, named name → env.value? name = other.value? name

variable {named : Text → Prop} {env other : Environment}

theorem AgreeOn.mono {fewer : Text → Prop} (h : AgreeOn named env other)
    (hn : ∀ name, fewer name → named name) : AgreeOn fewer env other := by
  intro name hname
  exact h name (hn name hname)

theorem AgreeOn.within {text part : Text} (h : AgreeOn (· <:+: text) env other)
    (hp : part <:+: text) : AgreeOn (· <:+: part) env other :=
  h.mono fun _ hn => hn.trans hp

theorem AgreeOn.get (h : AgreeOn named env other) {name : Text} (hn : named name) :
    env.get name = other.get name := by
  rw [get_eq, get_eq, h name hn]

theorem AgreeOn.has (h : AgreeOn named env other) {name : Text} (hn : named name) :
    env.has name = other.has name := by
  rw [has_eq, has_eq, h name hn]

end Environment

open Environment (AgreeOn)

variable {env other : Environment}

namespace Expr

theorem Parsed.eval_congr {named : Text → Prop} {tree : Expr} (h : Parsed named tree)
    (ha : AgreeOn named env other) : tree.eval env = tree.eval other := by
  induction h with
  | literal supported => rfl
  | name found => rw [eval, eval, ha.get found]
  | member holder index iht ihk => rw [eval, eval, iht, ihk]
  | unary known only ih => rw [eval, eval, ih]
  | @binary op lhs rhs known first second ihl ihr =>
      cases op with
      | logical op => rw [eval, eval, ihl, ihr]
      | _ => simp only [eval, ihl, ihr]
  | conditional tested first second ihc iht ihf => rw [eval, eval, ihc, iht, ihf]

theorem evalText_congr {text : Text} (ha : AgreeOn (· <:+: text) env other) :
    evalText env text = evalText other text := by
  rw [evalText, evalText]
  apply bind_congr_ok
  intro tree ht
  exact (parsed_of_ofText ht).eval_congr ha

theorem evalCondition_congr {text : Text} (ha : AgreeOn (· <:+: text) env other) :
    evalCondition env text = evalCondition other text := by
  rw [evalCondition, evalCondition, evalText_congr ha]

end Expr

/-- What stands at the place of a reference is a part of the text. -/
theorem Environment.replacementsFrom_congr {t : Text} (ha : AgreeOn (· <:+: t) env other)
    (column : Nat) (previous : Option CodePoint) (skip : Nat) :
    env.replacementsFrom column previous skip t = other.replacementsFrom column previous skip t := by
  induction t generalizing column previous skip with
  | nil =>
      cases skip with
      | zero => rfl
      | succ skip => rfl
  | cons c rest ih =>
      have hrest := ih (ha.within (List.suffix_cons c rest).isInfix)
      cases skip with
      | succ skip => exact hrest (column + 1) (some c) skip
      | zero =>
          have hname : (c :: rest).takeWhile CodePoint.isIdentifierChar <:+: c :: rest :=
            (List.takeWhile_prefix _).isInfix
          simp only [replacementsFrom, hrest, ha.get hname, ha.has hname]

theorem Rendered.ofPiece_congr {piece : Piece} (ha : AgreeOn (· <:+: piece.text) env other) :
    ofPiece env piece = ofPiece other piece := by
  unfold ofPiece Environment.substitute Environment.replacements
  rw [Environment.replacementsFrom_congr ha]

theorem Output.code_congr (out : Output) (number : Nat) {line : Line}
    (ha : AgreeOn (· <:+: line.text) env other) :
    out.code env number line = out.code other number line := by
  have hm : (out.scanner.process line.text).1.pieces.mapM (Rendered.ofPiece env) =
      (out.scanner.process line.text).1.pieces.mapM (Rendered.ofPiece other) := by
    apply mapM_congr_mem
    intro piece hp
    exact Rendered.ofPiece_congr (ha.within ((out.scanner.tiles_process line.text).isInfix hp))
  rw [code_eq, code_eq, hm]

end Prepass
