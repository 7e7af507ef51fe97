/- How code can fail: over a variable whose value has no literal. -/
import Prepass.Proofs.Comment.Partition
import Prepass.Proofs.Environment.Bindings
import Prepass.Proofs.Output.Batch
import Prepass.Proofs.Substitution.Order
import Prepass.Proofs.Value.Faults
namespace Prepass

open Fault (TooLarge)

namespace Environment

/-- The text names a variable that holds an integer too far away. -/
def NamesFar (env : Environment) (t : Text) : Prop :=
  ∃ name v, name <:+: t ∧ env.value? name = some v ∧ v.HoldsFar

theorem NamesFar.within {env : Environment} {part t : Text} (h : env.NamesFar part)
    (hp : part <:+: t) : env.NamesFar t := by
  obtain ⟨name, v, hn, hv, hf⟩ := h
  exact ⟨name, v, hn.trans hp, hv, hf⟩

theorem holdsFar_of_follow {v : Value} {t : Text} (h : (follow v t).2.HoldsFar) : v.HoldsFar := by
  fun_induction follow v t with
  | case1 id entries dot rest name hn => exact h
  | case2 id entries dot rest name hn hl => exact h
  | case3 id entries dot rest name hn w hl length reached hf ih =>
      rw [hf] at ih
      obtain ⟨entry, he, rfl⟩ := Option.map_eq_some_iff.mp hl
      exact .entry (List.mem_of_find?_eq_some he) (ih h)
  | case4 v t hv => exact h

theorem replacementsFrom_fails (env : Environment) (column skip : Nat)
    (previous : Option CodePoint) (t : Text) :
    FailsOnly (TooLarge (env.NamesFar t)) (env.replacementsFrom column previous skip t) := by
  fun_induction replacementsFrom env column previous skip t with
  | case1 => exact .ok []
  | case2 column previous skip c rest ih =>
      exact ih.because fun hf => hf.within (List.suffix_cons c rest).isInfix
  | case3 column previous c rest hi ih =>
      exact ih.because fun hf => hf.within (List.suffix_cons c rest).isInfix
  | case4 column previous c rest hi name hn ih =>
      exact ih.because fun hf => hf.within (List.suffix_cons c rest).isInfix
  | case5 column previous c rest hi name hn length v hf ih =>
      refine (v.literal_fails.because ?_).bind fun literal => (ih.because ?_).bind fun more => .ok _
      · intro hv
        have hg : (env.get name).HoldsFar := by
          apply holdsFar_of_follow
          rw [hf]
          exact hv
        rw [get_eq] at hg
        cases hw : env.value? name with
        | none =>
            rw [hw] at hg
            cases hg
        | some w =>
            rw [hw] at hg
            exact ⟨name, w, (List.takeWhile_prefix _).isInfix, hw, hg⟩
      · intro hr
        exact hr.within (List.suffix_cons c rest).isInfix

end Environment

/-- Code can fail only over a value that has no literal. -/
theorem Output.code_fails (out : Output) (env : Environment) (number : Nat) (line : Line) :
    FailsOnly (TooLarge (env.NamesFar line.text)) (out.code env number line) := by
  refine FailsOnly.bind (.mapM fun piece hp => ?_) fun content => .ok _
  have hi := (out.scanner.tiles_process line.text).isInfix hp
  unfold Rendered.ofPiece
  split
  · exact .ok _
  · exact ((env.replacementsFrom_fails 0 0 none piece.text).because fun hf => hf.within hi).map.map

end Prepass
