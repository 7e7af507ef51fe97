/- Frames that are changed in place: how they lie to each other after any calls, and that a call
which fails leaves them as they were. -/
import Prepass.Proofs.Run.Structured
namespace Prepass

/-- Whether a directive begins a further branch of a block. -/
def Action.isBranch : Action → Bool
  | .elseIf _ | .otherwise => true
  | _ => false

/-- What a frame records, above lines that are active or not. -/
structure Frame.Sound (below : Bool) (frame : Frame) : Prop where
  parent : frame.parentActive = below
  active : frame.active = true → frame.parentActive = true ∧ frame.matched = true
  last : frame.seenElse = true → frame.matched = true

namespace BlockStack

/-- Every frame is sound above the next one, and the outermost one above active lines. -/
inductive Consistent : BlockStack → Prop
  | nil : Consistent []
  | cons {frame : Frame} {rest : BlockStack} (sound : frame.Sound rest.active)
      (below : Consistent rest) : Consistent (frame :: rest)

/-- Changes to the frames, one after another. What is changed before a failure stays changed. -/
abbrev Change := EStateM Fault BlockStack

/-- A directive, and what the variables say to any condition when it is taken. -/
structure Call where
  directive : Directive
  answer : Condition → Except Fault Bool

/-- Sets something in the innermost frame. -/
def assign (f : Frame → Frame) : Change Unit := modify fun
  | [] => []
  | frame :: rest => f frame :: rest

/-- The frame that a directive goes on with or closes. -/
def innermost (file : Text) (line : Nat) (keyword : Keyword) : Change Frame := do
  match ← get with
  | [] => throw (.reported (.noOpenBlock keyword file line))
  | frame :: _ =>
    if frame.seenElse && keyword != .endIf then
      throw (.reported (.afterElse keyword frame.line file line))
    else return frame

namespace Call

/-- A directive that is taken with these variables. -/
def within (env : Environment) (file : Text) (d : Directive) : Call :=
  ⟨d, fun condition => condition.test env file d.line⟩

/-- Takes the directive, each field of a frame being set by itself. -/
def change (file : Text) (call : Call) : Change Unit :=
  let line := call.directive.line
  match call.directive.action with
  | .opening condition => do
    let parentActive := (← get).active
    if parentActive then
      let held ← MonadExcept.ofExcept (call.answer condition)
      modify ({ line, parentActive, active := held, matched := held } :: ·)
    else modify ({ line, parentActive } :: ·)
  | .elseIf expression => do
    let frame ← innermost file line .elseIf
    if frame.matched || !frame.parentActive then assign ({ · with active := false })
    else
      let held ← MonadExcept.ofExcept (call.answer (.holds expression))
      assign ({ · with active := held })
      assign fun frame => { frame with matched := frame.active }
  | .otherwise => do
    let _ ← innermost file line .otherwise
    assign ({ · with seenElse := true })
    assign fun frame => { frame with active := frame.parentActive && !frame.matched }
    assign ({ · with matched := true })
  | .closing => do
    let _ ← innermost file line .endIf
    modify List.tail
  | .set .. | .unset _ | .error _ => pure ()

end Call

/-- The frames that are left, after a failure too. -/
def left : EStateM.Result Fault BlockStack Unit → BlockStack
  | .ok _ stack => stack
  | .error _ stack => stack

/-- The frames after calls that may fail, none being open before. -/
def afterCalls (file : Text) (calls : List Call) : BlockStack :=
  calls.foldl (fun stack call => left (call.change file stack)) []

/-- New frames for a success, and the old ones for a failure. -/
def settle (stack : BlockStack) : Except Fault BlockStack → EStateM.Result Fault BlockStack Unit
  | .ok next => .ok () next
  | .error fault => .error fault stack

section Changing

variable (file : Text) (line : Nat) (answer : Condition → Except Fault Bool)

theorem change_opening (condition : Condition) (stack : BlockStack) :
    Call.change file ⟨⟨line, .opening condition⟩, answer⟩ stack =
      settle stack ((if stack.active then answer condition else .ok false).map fun held =>
        ⟨line, stack.active, held, held, false⟩ :: stack) := by
  simp only [Call.change]
  generalize answer condition = answered
  cases stack with
  | nil => cases answered <;> rfl
  | cons frame rest =>
      obtain ⟨opened, parentActive, active, matched, seenElse⟩ := frame
      cases active with
      | false => rfl
      | true => cases answered <;> rfl

theorem change_elseIf {frame : Frame} (hf : frame.seenElse = false) (expression : Text)
    (rest : BlockStack) :
    Call.change file ⟨⟨line, .elseIf expression⟩, answer⟩ (frame :: rest) =
      settle (frame :: rest) ((if frame.wanted then answer (.holds expression) else .ok false).map
        fun held => frame.enter held :: rest) := by
  simp only [Call.change]
  generalize answer (.holds expression) = answered
  obtain ⟨opened, parentActive, active, matched, seenElse⟩ := frame
  cases hf
  cases parentActive with
  | false => cases matched <;> rfl
  | true =>
      cases matched with
      | false => cases answered <;> rfl
      | true => rfl

theorem change_otherwise {frame : Frame} (hf : frame.seenElse = false) (rest : BlockStack) :
    Call.change file ⟨⟨line, .otherwise⟩, answer⟩ (frame :: rest) =
      .ok ()
        ({ frame with seenElse := true, active := frame.wanted, matched := true } :: rest) := by
  obtain ⟨opened, parentActive, active, matched, seenElse⟩ := frame
  cases hf
  rfl

theorem change_closing (frame : Frame) (rest : BlockStack) :
    Call.change file ⟨⟨line, .closing⟩, answer⟩ (frame :: rest) = .ok () rest := by
  obtain ⟨opened, parentActive, active, matched, seenElse⟩ := frame
  cases seenElse <;> rfl

theorem change_afterElse {frame : Frame} (hf : frame.seenElse = true) {action : Action}
    (ha : action.isBranch = true) (rest : BlockStack) :
    Call.change file ⟨⟨line, action⟩, answer⟩ (frame :: rest) =
      .error (.reported (.afterElse action.keyword frame.line file line)) (frame :: rest) := by
  obtain ⟨opened, parentActive, active, matched, seenElse⟩ := frame
  cases hf
  cases action with
  | elseIf expression => rfl
  | otherwise => rfl
  | _ => cases ha

end Changing

/-- All that a call which succeeds can make of the frames. -/
inductive Moves : BlockStack → BlockStack → Prop
  | opened (stack : BlockStack) (line : Nat) {held : Bool}
      (seen : held = true → stack.active = true) :
      Moves stack (⟨line, stack.active, held, held, false⟩ :: stack)
  | branched {frame : Frame} (rest : BlockStack) {held : Bool} (first : frame.seenElse = false)
      (seen : held = true → frame.wanted = true) : Moves (frame :: rest) (frame.enter held :: rest)
  | turned {frame : Frame} (rest : BlockStack) (first : frame.seenElse = false) :
      Moves (frame :: rest)
        ({ frame with seenElse := true, active := frame.wanted, matched := true } :: rest)
  | closed (frame : Frame) (rest : BlockStack) : Moves (frame :: rest) rest
  | idle (stack : BlockStack) : Moves stack stack

/-- A condition that is not looked at does not hold. -/
theorem yields_asked {P : BlockStack → Prop} {next : Bool → BlockStack} (wanted : Bool)
    (answered : Except Fault Bool) (h : ∀ held, (held = true → wanted = true) → P (next held)) :
    Yields P ((if wanted then answered else .ok false).map next) := by
  intro stack hs
  obtain ⟨held, ha, rfl⟩ := map_eq_ok.mp hs
  refine h held ?_
  rintro rfl
  cases wanted with
  | false => cases ha
  | true => rfl

theorem change_settles (file : Text) (call : Call) (stack : BlockStack) :
    ∃ result, call.change file stack = settle stack result ∧ Yields (Moves stack) result := by
  obtain ⟨⟨line, action⟩, answer⟩ := call
  cases action with
  | opening condition =>
      refine ⟨_, change_opening file line answer condition stack, yields_asked _ _ ?_⟩
      intro held seen
      exact .opened stack line seen
  | elseIf expression =>
      cases stack with
      | nil => exact ⟨.error _, rfl, .error _⟩
      | cons frame rest =>
          cases hf : frame.seenElse with
          | true =>
              exact ⟨.error _, change_afterElse file line answer hf rfl rest, .error _⟩
          | false =>
              refine ⟨_, change_elseIf file line answer hf expression rest, yields_asked _ _ ?_⟩
              intro held seen
              exact .branched rest hf seen
  | otherwise =>
      cases stack with
      | nil => exact ⟨.error _, rfl, .error _⟩
      | cons frame rest =>
          cases hf : frame.seenElse with
          | true => exact ⟨.error _, change_afterElse file line answer hf rfl rest, .error _⟩
          | false => exact ⟨.ok _, change_otherwise file line answer hf rest, .ok (.turned rest hf)⟩
  | closing =>
      cases stack with
      | nil => exact ⟨.error _, rfl, .error _⟩
      | cons frame rest =>
          exact ⟨.ok _, change_closing file line answer frame rest, .ok (.closed frame rest)⟩
  | set name expression | unset name | error message => exact ⟨.ok _, rfl, .ok (.idle stack)⟩

/-- A block that is in its last branch has no further one. -/
theorem process_afterElse {frame : Frame} (hf : frame.seenElse = true) {action : Action}
    (ha : action.isBranch = true) (rest : BlockStack)
    (env : Environment) (file : Text) (line : Nat) :
    process env file (frame :: rest) ⟨line, action⟩ =
      .error (.reported (.afterElse action.keyword frame.line file line)) := by
  obtain ⟨opened, parentActive, active, matched, seenElse⟩ := frame
  cases hf
  cases action with
  | elseIf expression => rfl
  | otherwise => rfl
  | _ => cases ha

/-- What is done in place is what `process` does. -/
theorem change_within (env : Environment) (file : Text) (d : Directive) (stack : BlockStack) :
    (Call.within env file d).change file stack = settle stack (stack.process env file d) := by
  obtain ⟨line, action⟩ := d
  cases action with
  | opening condition =>
      rw [process_opening]
      exact change_opening file line _ condition stack
  | elseIf expression =>
      cases stack with
      | nil => rfl
      | cons frame rest =>
          cases hf : frame.seenElse with
          | true =>
              rw [process_afterElse hf rfl]
              exact change_afterElse file line _ hf rfl rest
          | false =>
              rw [process_elseIf hf]
              exact change_elseIf file line _ hf expression rest
  | otherwise =>
      cases stack with
      | nil => rfl
      | cons frame rest =>
          cases hf : frame.seenElse with
          | true =>
              rw [process_afterElse hf rfl]
              exact change_afterElse file line _ hf rfl rest
          | false =>
              rw [process_otherwise hf]
              exact change_otherwise file line _ hf rest
  | closing =>
      cases stack with
      | nil => rfl
      | cons frame rest => exact change_closing file line _ frame rest
  | set name expression | unset name | error message => rfl

theorem Consistent.moves {stack next : BlockStack} (h : stack.Consistent) (hm : Moves stack next) :
    next.Consistent := by
  cases hm with
  | opened _ line seen => exact .cons ⟨rfl, fun held => ⟨seen held, held⟩, nofun⟩ h
  | @branched frame rest held first seen =>
      cases h with
      | cons sound below =>
          refine .cons ⟨sound.parent, ?_, ?_⟩ below
          · intro hheld
            exact ⟨(Bool.and_eq_true_iff.mp (seen hheld)).1, Bool.or_eq_true_iff.mpr (Or.inr hheld)⟩
          · intro hlast
            cases first.symm.trans hlast
  | turned rest first =>
      cases h with
      | cons sound below =>
          refine .cons ⟨sound.parent, ?_, fun _ => rfl⟩ below
          intro hwanted
          exact ⟨(Bool.and_eq_true_iff.mp hwanted).1, rfl⟩
  | closed frame rest =>
      cases h with
      | cons sound below => exact below
  | idle => exact h

theorem Consistent.change {stack : BlockStack} (h : stack.Consistent) (file : Text) (call : Call) :
    (left (call.change file stack)).Consistent := by
  obtain ⟨result, hresult, hmoves⟩ := change_settles file call stack
  rw [hresult]
  cases result with
  | error fault => exact h
  | ok next => exact h.moves (hmoves next rfl)

/-- The run of any calls, from the call to the rest of them. -/
theorem Consistent.changes {stack : BlockStack} (h : stack.Consistent) (file : Text)
    (calls : List Call) :
    (calls.foldl (fun stack call => left (call.change file stack)) stack).Consistent := by
  induction calls generalizing stack with
  | nil => exact h
  | cons call rest ih => exact ih (h.change file call)

/-- The innermost frame tells about all of them. -/
theorem Consistent.active_iff {stack : BlockStack} (h : stack.Consistent) :
    stack.active = true ↔ ∀ frame ∈ stack, frame.active = true := by
  induction h with
  | nil => exact ⟨fun _ => List.forall_mem_nil _, fun _ => rfl⟩
  | @cons frame rest sound below ih =>
      rw [List.forall_mem_cons]
      refine ⟨?_, fun hall => hall.1⟩
      intro hactive
      have hparent : rest.active = true := sound.parent ▸ (sound.active hactive).1
      exact ⟨hactive, ih.mp hparent⟩

theorem change_eq_error {file : Text} {call : Call} {stack after : BlockStack} {fault : Fault}
    (h : call.change file stack = .error fault after) : after = stack := by
  obtain ⟨result, hresult, -⟩ := change_settles file call stack
  rw [hresult] at h
  cases result with
  | error found => exact (EStateM.Result.error.inj h).2.symm
  | ok next => cases h

/-- After any calls on an empty stack, of which some may have failed, and whatever the variables
said to each, the frames are consistent: so the lines are active exactly if every frame is. A call
that fails leaves the frames as they were. These are the frames that `process` gives. -/
theorem frames_consistent (file : Text) :
    (∀ calls : List Call, (afterCalls file calls).Consistent ∧
      ((afterCalls file calls).active = true ↔
        ∀ frame ∈ afterCalls file calls, frame.active = true)) ∧
    (∀ (call : Call) (stack after : BlockStack) (fault : Fault),
      call.change file stack = .error fault after → after = stack) ∧
    ∀ (env : Environment) (d : Directive) (stack : BlockStack),
      (Call.within env file d).change file stack = settle stack (stack.process env file d) := by
  refine ⟨?_, fun _ _ _ _ => change_eq_error, ?_⟩
  · intro calls
    have hcalls := Consistent.nil.changes file calls
    exact ⟨hcalls, hcalls.active_iff⟩
  · intro env d stack
    exact change_within env file d stack

/-- A condition that cannot be told. -/
def unanswered (line : Nat) (action : Action) : Call :=
  ⟨⟨line, action⟩, fun _ => .error .unfinishedTree⟩

/-- Calls of which two fail: over a condition, and over a branch that comes after the last one. -/
def refusedCalls : List Call :=
  [⟨⟨1, .opening (.isSet "__A")⟩, fun _ => .ok true⟩, unanswered 2 (.opening (.holds "1 +")),
   unanswered 3 .otherwise, unanswered 4 (.elseIf "1 +"), unanswered 5 (.opening (.isSet "__A"))]

theorem frames_consistent_refused :
    afterCalls "f.js" refusedCalls =
      [⟨5, false, false, false, false⟩, ⟨1, true, false, true, true⟩] ∧
    (afterCalls "f.js" refusedCalls).Consistent ∧
    ∃ after, (unanswered 2 (.elseIf "1 +")).change "f.js" [⟨1, true, false, false, false⟩] =
        .error .unfinishedTree after ∧
      after = [⟨1, true, false, false, false⟩] := by
  refine ⟨rfl, ((frames_consistent "f.js").1 refusedCalls).1, _, rfl, ?_⟩
  exact (frames_consistent "f.js").2.1 (unanswered 2 (.elseIf "1 +")) _ _ .unfinishedTree rfl

end BlockStack

end Prepass
