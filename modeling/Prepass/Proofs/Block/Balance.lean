/- Which sequences of directives are accepted, and what is reported about the others. -/
import Prepass.Proofs.Block.Nesting
import Prepass.Proofs.Run.Failure
namespace Prepass

/-- The condition that a directive asks about. -/
def Action.condition? : Action → Option Condition
  | .opening condition => some condition
  | .elseIf expression => some (.holds expression)
  | _ => none

def Frame.outline (frame : Frame) : OpenBlock := ⟨frame.line, frame.seenElse⟩

namespace BlockStack

/-- Takes directives in order, each with the variables as they are when it is reached. -/
def processAll (file : Text) (stack : BlockStack) (steps : List (Environment × Directive)) :
    Except Fault BlockStack :=
  steps.foldlM (fun stack step => stack.process step.1 file step.2) stack

/-- Takes all directives of a file; no block may be left open. -/
def check (file : Text) (steps : List (Environment × Directive)) : Except Fault Unit := do
  let stack ← processAll file [] steps
  (stack.close file).mapError Fault.reported

/-- No condition fails that is looked at. -/
def Answered (file : Text) (stack : BlockStack) : List (Environment × Directive) → Prop
  | [] => True
  | (env, d) :: rest =>
    (∀ condition, d.action.condition? = some condition → stack.heeds d.action = true →
      ∃ held, condition.test env file d.line = .ok held) ∧
    ∀ next, stack.process env file d = .ok next → Answered file next rest

def outlines (stack : BlockStack) : List OpenBlock := stack.map Frame.outline

theorem close_outlines (file : Text) (stack : BlockStack) :
    (stack.close file).mapError Fault.reported = OpenBlock.close file stack.outlines := by
  cases stack with
  | nil => rfl
  | cons frame rest =>
      have hl : ((frame :: rest).reverse.map Frame.outline).map OpenBlock.line =
          (frame :: rest).reverse.map Frame.line := List.map_map
      rw [List.map_reverse] at hl
      exact congrArg
        (fun lines => Except.error (Fault.reported (.unclosedBlocks lines frame.line file))) hl.symm

/-- Where conditions do not fail, they do not matter to the nesting. -/
theorem process_outlines {env : Environment} {file : Text} {stack : BlockStack} {d : Directive}
    (h : ∀ condition, d.action.condition? = some condition → stack.heeds d.action = true →
      ∃ held, condition.test env file d.line = .ok held) :
    (stack.process env file d).map outlines =
      OpenBlock.advance file stack.outlines d.blockMark := by
  have hask (condition : Condition) (wanted : Bool) (hc : d.action.condition? = some condition)
      (hw : stack.heeds d.action = wanted) :
      ∃ held, condition.ask wanted env file d.line = .ok held := by
    cases wanted with
    | false => exact ⟨false, rfl⟩
    | true => exact h condition hc hw
  obtain ⟨number, action⟩ := d
  cases action with
  | opening condition =>
      obtain ⟨held, hheld⟩ := hask condition stack.active rfl rfl
      rw [process_opening, hheld]
      cases condition <;> rfl
  | elseIf expression =>
      cases stack with
      | nil => rfl
      | cons frame rest =>
          cases hf : frame.seenElse with
          | true =>
              simp [process, branching, outlines, OpenBlock.advance, Directive.blockMark,
                Action.keyword, Frame.outline, hf, bind, Except.bind, Except.map]
          | false =>
              obtain ⟨held, hheld⟩ := hask (.holds expression) frame.wanted rfl rfl
              rw [process_elseIf hf, hheld]
              simp [outlines, OpenBlock.advance, Directive.blockMark, Action.keyword, Frame.outline,
                Frame.enter, hf, Except.map]
  | otherwise =>
      cases stack with
      | nil => rfl
      | cons frame rest =>
          cases hf : frame.seenElse with
          | true =>
              simp [process, branching, outlines, OpenBlock.advance, Directive.blockMark,
                Action.keyword, Frame.outline, hf, bind, Except.bind, Except.map]
          | false =>
              rw [process_otherwise hf]
              simp [outlines, OpenBlock.advance, Directive.blockMark, Action.keyword,
                Frame.outline, hf, Except.map]
  | closing =>
      cases stack with
      | nil => rfl
      | cons frame rest => rfl
  | set name expression | unset name | error message => rfl

theorem processAll_outlines {file : Text} {stack : BlockStack}
    {steps : List (Environment × Directive)} (h : Answered file stack steps) :
    (processAll file stack steps).map outlines =
      (steps.map fun step => step.2.blockMark).foldlM (OpenBlock.advance file) stack.outlines := by
  induction steps generalizing stack with
  | nil => rfl
  | cons step rest ih =>
      obtain ⟨env, d⟩ := step
      obtain ⟨hfirst, hrest⟩ := h
      rw [processAll, List.foldlM_cons, List.map_cons, List.foldlM_cons, ← process_outlines hfirst]
      cases hp : stack.process env file d with
      | error fault => rfl
      | ok next => exact ih (hrest next hp)

theorem check_eq_verdict {file : Text} {steps : List (Environment × Directive)}
    (h : Answered file [] steps) :
    check file steps = OpenBlock.verdict file (BlockMark.conditional (steps.map Prod.snd)) := by
  have hm : (steps.map Prod.snd).map Directive.blockMark = steps.map fun step => step.2.blockMark :=
    List.map_map
  have ho := processAll_outlines h
  rw [OpenBlock.verdict, BlockMark.conditional, OpenBlock.advance_filter, hm, check]
  change _ = List.foldlM (OpenBlock.advance file) (outlines []) _ >>= _
  rw [← ho]
  cases processAll file [] steps with
  | error fault => rfl
  | ok stack => exact close_outlines file stack

/-- Where no condition fails that is looked at, directives are accepted exactly if those about
blocks are balanced. What is reported about others is the first directive that cannot stand where it
does, or the blocks that are left open: it depends on what is seen of the directives and not on any
variable. -/
theorem check_iff_balanced {file : Text} {steps : List (Environment × Directive)}
    (h : Answered file [] steps) :
    let marks := BlockMark.conditional (steps.map Prod.snd)
    (check file steps = .ok () ↔ Keyword.Balanced (BlockMark.keywords marks)) ∧
      (∀ fault, check file steps = .error fault ↔
        ∃ d, fault = .reported d ∧ Rejected file marks d) ∧
      ∀ others, Answered file [] others → BlockMark.conditional (others.map Prod.snd) = marks →
        check file others = check file steps := by
  intro marks
  have hc : ∀ m ∈ marks, m.keyword.isConditional = true := fun m hm => (List.mem_filter.mp hm).2
  rw [check_eq_verdict h]
  refine ⟨OpenBlock.verdict_eq_ok_iff hc, ?_, ?_⟩
  · intro fault
    exact OpenBlock.verdict_eq_error_iff hc
  · intro others ho hm
    rw [check_eq_verdict ho, hm]

theorem answered_of_unconditional {file : Text} {steps : List (Environment × Directive)}
    (h : ∀ step ∈ steps, step.2.action.condition? = none) (stack : BlockStack) :
    Answered file stack steps := by
  induction steps generalizing stack with
  | nil => trivial
  | cons step rest ih =>
      obtain ⟨hfirst, hrest⟩ := List.forall_mem_cons.mp h
      refine ⟨?_, fun next _ => ih hrest next⟩
      intro condition hc
      rw [hfirst] at hc
      cases hc

/-- Conditions that are no expressions, in a branch that is not taken. -/
def deadBranch (rest : List Directive) : List (Environment × Directive) :=
  (⟨1, .opening (.isSet "__A")⟩ :: ⟨2, .opening (.holds "1 +")⟩ :: ⟨3, .elseIf "1 +"⟩ :: rest).map
    (Prod.mk .empty)

theorem answered_deadBranch (rest : List Directive)
    (h : ∀ d ∈ rest, d.action.condition? = none) : Answered "f.js" [] (deadBranch rest) := by
  refine ⟨?_, ?_⟩
  · rintro _ ⟨⟩ -
    exact ⟨false, rfl⟩
  rintro _ ⟨⟩
  refine ⟨fun _ _ => nofun, ?_⟩
  rintro _ ⟨⟩
  refine ⟨fun _ _ => nofun, ?_⟩
  intro next _
  apply answered_of_unconditional
  intro step hs
  obtain ⟨d, hd, rfl⟩ := List.mem_map.mp hs
  exact h d hd

theorem check_iff_balanced_deadBranch :
    (Answered "f.js" [] (deadBranch [⟨4, .closing⟩, ⟨5, .otherwise⟩, ⟨6, .closing⟩]) ∧
      Keyword.Balanced [.ifSet, .ifHolds, .elseIf, .endIf, .otherwise, .endIf]) ∧
    Answered "f.js" [] (deadBranch [⟨4, .unset "__A"⟩, ⟨5, .otherwise⟩]) ∧
      Rejected "f.js" [⟨.ifSet, 1⟩, ⟨.ifHolds, 2⟩, ⟨.elseIf, 3⟩, ⟨.otherwise, 5⟩]
        (.unclosedBlocks [1, 2] 2 "f.js") := by
  constructor
  · have ha := answered_deadBranch [⟨4, .closing⟩, ⟨5, .otherwise⟩, ⟨6, .closing⟩] (by decide)
    exact ⟨ha, (check_iff_balanced ha).1.mp rfl⟩
  · have ha := answered_deadBranch [⟨4, .unset "__A"⟩, ⟨5, .otherwise⟩] (by decide)
    obtain ⟨d, hd, hr⟩ := ((check_iff_balanced ha).2.1 _).mp rfl
    cases hd
    exact ⟨ha, hr⟩

end BlockStack

end Prepass
