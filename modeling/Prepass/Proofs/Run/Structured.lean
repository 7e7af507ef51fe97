/- Conditional blocks read as trees, and the line by line run of the lines of a tree. -/
import Prepass.Proofs.Run.Calls
namespace Prepass

/-- What a directive line says, wherever it stands. -/
def Directive.action? (style : CommentStyle) (text : Text) : Option Action :=
  ((scan style [] 0 text).toOption.bind Prod.fst).map Directive.action

def Directive.warnings (style : CommentStyle) (file : Text) (number : Nat) (text : Text) : Log :=
  ((scan style file number text).toOption.map Prod.snd).getD []

structure CodeLine (style : CommentStyle) where
  line : Line
  reads : Directive.split? style line.text = none

structure DirectiveLine (style : CommentStyle) (action : Action) where
  line : Line
  reads : Directive.action? style line.text = some action

inductive Effect where
  | set (name : Text) (expression : Option Text)
  | unset (name : Text)
  | error (message : Text)

def Effect.action : Effect → Action
  | .set name expression => .set name expression
  | .unset name => .unset name
  | .error message => .error message

/-- What a directive makes of the variables, and says; nothing where it is not active. -/
def Effect.perform (active : Bool) (env : Environment) (file : Text) (line : Nat)
    (effect : Effect) : Except Fault (Environment × Log) :=
  if active then Directive.execute env file ⟨line, effect.action⟩ else .ok (env, [])

mutual

/-- A list of items: lines of code, directives with an effect, and blocks. -/
inductive Document (style : CommentStyle) where
  | nil
  | code (line : CodeLine style) (rest : Document style)
  | effect (effect : Effect) (line : DirectiveLine style effect.action) (rest : Document style)
  | block (condition : Condition) (line : DirectiveLine style (.opening condition))
      (body : Document style) (branches : Branches style) (rest : Document style)

/-- What follows the first body of a block, to its end. -/
inductive Branches (style : CommentStyle) where
  | closing (line : DirectiveLine style .closing)
  | otherwise (line : DirectiveLine style .otherwise) (body : Document style)
      (closing : DirectiveLine style .closing)
  | elseIf (expression : Text) (line : DirectiveLine style (.elseIf expression))
      (body : Document style) (more : Branches style)

end

mutual

def Document.lines {style : CommentStyle} : Document style → List Line
  | .nil => []
  | .code line rest => line.line :: rest.lines
  | .effect _ line rest => line.line :: rest.lines
  | .block _ line body branches rest => line.line :: (body.lines ++ (branches.lines ++ rest.lines))

def Branches.lines {style : CommentStyle} : Branches style → List Line
  | .closing line => [line.line]
  | .otherwise line body closing => line.line :: (body.lines ++ [closing.line])
  | .elseIf _ line body more => line.line :: (body.lines ++ more.lines)

end

/-- Something done to lines in order: what each asks of the output, up to a line that fails. -/
structure Trace (α : Type) where
  calls : List OutputCall
  result : Except Halt α

namespace Trace

def andThen {α β : Type} (t : Trace α) (f : α → Trace β) : Trace β :=
  match t.result with
  | .ok a => ⟨t.calls ++ (f a).calls, (f a).result⟩
  | .error halt => ⟨t.calls, .error halt⟩

instance : Monad Trace where
  pure a := ⟨[], .ok a⟩
  bind := andThen

end Trace

/-- The state between two lines, without any record of blocks. -/
structure Reading where
  environment : Environment
  output : Output
  log : Log
  /-- The number of the next line. -/
  number : Nat

namespace Reading

def halt (r : Reading) (fault : Fault) : Halt := ⟨fault, r.environment, r.log⟩

def blank (r : Reading) (line : Line) : Reading :=
  { r with output := r.output.blank r.number line, number := r.number + 1 }

def code (active : Bool) (r : Reading) (line : Line) : Trace Reading :=
  if active then
    ⟨[.code r.environment r.number line],
      ((r.output.code r.environment r.number line).mapError r.halt).map fun output =>
        { r with output, number := r.number + 1 }⟩
  else ⟨[.blank r.number line], .ok (r.blank line)⟩

def warn (style : CommentStyle) (file : Text) (r : Reading) (line : Line) : Reading :=
  { r with log := (Directive.warnings style file r.number line.text).reverse ++ r.log }

/-- Reads a directive line and answers its question. -/
def answer {α : Type} (style : CommentStyle) (file : Text) (r : Reading) (line : Line)
    (question : Except Fault α) : Trace (α × Reading) :=
  ⟨[.blank r.number line],
    (question.mapError (r.warn style file line).halt).map fun a =>
      (a, (r.warn style file line).blank line)⟩

def pass (style : CommentStyle) (file : Text) (r : Reading) (line : Line) : Trace Reading :=
  ⟨[.blank r.number line], .ok ((r.warn style file line).blank line)⟩

def within (r : Reading) (blocks : BlockStack) : Run :=
  { environment := r.environment, blocks, output := r.output, log := r.log }

end Reading

/-- A condition that cannot matter is not looked at, and does not hold. -/
def Condition.ask (wanted : Bool) (env : Environment) (file : Text) (line : Nat)
    (condition : Condition) : Except Fault Bool :=
  if wanted then condition.test env file line else .ok false

mutual

/-- What a document does where it is active or not. -/
def Document.interpret {style : CommentStyle} (file : Text) (active : Bool) (r : Reading) :
    Document style → Trace Reading
  | .nil => pure r
  | .code line rest => do
    let r ← r.code active line.line
    rest.interpret file active r
  | .effect effect line rest => do
    let ((environment, log), r) ← r.answer style file line.line
      (effect.perform active r.environment file r.number)
    rest.interpret file active { r with environment, log := log.reverse ++ r.log }
  | .block condition line body branches rest => do
    let (held, r) ← r.answer style file line.line (condition.ask active r.environment file r.number)
    let r ← body.interpret file held r
    let r ← branches.interpret file (active && !held) r
    rest.interpret file active r

/-- A branch is `wanted` as long as the block is active and no condition has held. -/
def Branches.interpret {style : CommentStyle} (file : Text) (wanted : Bool) (r : Reading) :
    Branches style → Trace Reading
  | .closing line => r.pass style file line.line
  | .otherwise line body closing => do
    let r ← r.pass style file line.line
    let r ← body.interpret file wanted r
    r.pass style file closing.line
  | .elseIf expression line body more => do
    let (held, r) ← r.answer style file line.line
      ((Condition.holds expression).ask wanted r.environment file r.number)
    let r ← body.interpret file held r
    more.interpret file (wanted && !held) r

end

namespace Directive

/-- Neither the file nor the number of a line changes what its directive says. -/
theorem ofArgument_action {style : CommentStyle} {file : Text} {number : Nat}
    {keyword : Keyword} {argument : Text} {d : Directive} {log : Log}
    (h : ofArgument style file number keyword argument = .ok (d, log)) (other : Text) (line : Nat) :
    ∃ said, ofArgument style other line keyword argument = .ok (⟨line, d.action⟩, said) := by
  -- Whether the argument will do for the keyword is seen from the argument alone.
  cases keyword with
  | ifHolds | elseIf =>
      simp only [ofArgument] at h ⊢
      split at h
      · cases h
      · rename_i he
        cases h
        exact ⟨[], if_neg he⟩
  | ifSet | ifNotSet | unset =>
      simp only [ofArgument] at h ⊢
      split at h
      · rename_i hv
        cases h
        exact ⟨[], if_pos hv⟩
      · cases h
  | otherwise | endIf | error =>
      cases h
      exact ⟨_, rfl⟩
  | set =>
      simp only [ofArgument] at h ⊢
      cases ha : assignment? argument with
      | none =>
          rw [ha] at h
          cases h
      | some found =>
          rw [ha] at h
          cases h
          exact ⟨[], rfl⟩

theorem scan_of_action? {style : CommentStyle} {text : Text} {action : Action}
    (h : action? style text = some action) (file : Text) (number : Nat) :
    scan style file number text =
      .ok (some ⟨number, action⟩, warnings style file number text) := by
  unfold action? at h
  unfold warnings
  cases hs : split? style text with
  | none =>
      simp only [scan, hs] at h
      cases h
  | some found =>
      obtain ⟨keyword, argument⟩ := found
      simp only [scan, hs] at h ⊢
      cases ho : ofArgument style [] 0 keyword argument with
      | error e =>
          rw [ho] at h
          cases h
      | ok read =>
          obtain ⟨d, log⟩ := read
          rw [ho] at h
          cases h
          obtain ⟨said, hsaid⟩ := ofArgument_action ho file number
          rw [hsaid]
          rfl

end Directive

namespace Trace

theorem bind_assoc {α β γ : Type} (t : Trace α) (f : α → Trace β) (g : β → Trace γ) :
    t >>= f >>= g = t >>= fun a => f a >>= g := by
  obtain ⟨calls, result⟩ := t
  cases result with
  | error halt => rfl
  | ok a =>
      simp only [bind, andThen]
      cases (f a).result with
      | error halt => rfl
      | ok b => simp only [List.append_assoc]

end Trace

namespace Run

def trace (style : CommentStyle) (file : Text) (run : Run) (number : Nat) (lines : List Line) :
    Trace Run :=
  ⟨run.calls style file number lines, run.steps style file number lines⟩

theorem trace_cons (style : CommentStyle) (file : Text) (run : Run) (number : Nat) (line : Line)
    (rest : List Line) :
    run.trace style file number (line :: rest) =
      (⟨[run.call style number line], run.step style file number line⟩ : Trace Run) >>=
        fun next => next.trace style file (number + 1) rest := by
  simp only [trace, calls, steps, bind, Trace.andThen, Except.bind]
  cases run.step style file number line with
  | error halt => rfl
  | ok next => rfl

def reading (run : Run) (number : Nat) : Reading :=
  { environment := run.environment, output := run.output, log := run.log, number }

end Run

def Reading.trace (style : CommentStyle) (file : Text) (r : Reading) (blocks : BlockStack)
    (lines : List Line) : Trace Run :=
  (r.within blocks).trace style file r.number lines

namespace Reading

theorem bind_trace_nil (style : CommentStyle) (file : Text) (blocks : BlockStack)
    (t : Trace Reading) :
    (t >>= fun r => r.trace style file blocks []) = ⟨t.calls, t.result.map (·.within blocks)⟩ := by
  obtain ⟨calls, result⟩ := t
  cases result with
  | error halt => rfl
  | ok r => exact congrArg (Trace.mk · _) (List.append_nil calls)

theorem trace_code {style : CommentStyle} (file : Text) (r : Reading) (blocks : BlockStack)
    (line : CodeLine style) (rest : List Line) :
    r.trace style file blocks (line.line :: rest) =
      r.code blocks.active line.line >>= fun r => r.trace style file blocks rest := by
  have hs : (Directive.split? style line.line.text).isNone = true := by rw [line.reads]; rfl
  have hw : (r.within blocks).blocks = blocks := rfl
  rw [trace, Run.trace_cons, Run.step_code line.reads, Run.call, hw, code]
  by_cases ha : blocks.active
  · rw [if_pos ⟨hs, ha⟩, if_pos ha, if_pos ha]
    simp only [within]
    cases r.output.code r.environment r.number line.line with
    | error fault => rfl
    | ok output => rfl
  · rw [if_neg fun h => ha h.2, if_neg ha, if_neg ha]
    rfl

theorem call_directive {style : CommentStyle} {action : Action} (line : DirectiveLine style action)
    (run : Run) (number : Nat) : run.call style number line.line = .blank number line.line := by
  have hs : (Directive.split? style line.line.text).isNone = false := by
    have h := Directive.scan_of_action? line.reads [] 0
    cases hn : Directive.split? style line.line.text with
    | some found => rfl
    | none =>
        rw [Run.scan_of_split?_none hn] at h
        cases h
  simp only [Run.call, hs, Bool.false_eq_true, false_and, if_false]

/-- A directive about blocks, from what it does to them. -/
theorem trace_block {style : CommentStyle} {file : Text} {r : Reading} {blocks : BlockStack}
    {action : Action} {α : Type} {question : Except Fault α} {next : α → BlockStack}
    (line : DirectiveLine style action) (rest : List Line)
    (hx : Directive.execute r.environment file ⟨r.number, action⟩ = .ok (r.environment, []))
    (hp : blocks.process r.environment file ⟨r.number, action⟩ = question.map next) :
    r.trace style file blocks (line.line :: rest) =
      r.answer style file line.line question >>= fun found =>
        found.2.trace style file (next found.1) rest := by
  rw [trace, Run.trace_cons, Run.step_directive (Directive.scan_of_action? line.reads file r.number),
    call_directive]
  simp only [Run.directive, within, hp, hx]
  cases question with
  | error fault => rfl
  | ok a =>
      simp only [Except.map, mapError_ok, bind, Except.bind]
      by_cases ha : (next a).active
      · simp only [ha, if_true]
        rfl
      · simp only [ha]
        rfl

theorem trace_effect {style : CommentStyle} (file : Text) (r : Reading) (blocks : BlockStack)
    (effect : Effect) (line : DirectiveLine style effect.action) (rest : List Line) :
    r.trace style file blocks (line.line :: rest) =
      r.answer style file line.line (effect.perform blocks.active r.environment file r.number) >>=
        fun found => { found.2 with
          environment := found.1.1
          log := found.1.2.reverse ++ found.2.log }.trace style file blocks rest := by
  have hp : blocks.process r.environment file ⟨r.number, effect.action⟩ = .ok blocks := by
    cases effect <;> rfl
  rw [trace, Run.trace_cons, Run.step_directive (Directive.scan_of_action? line.reads file r.number),
    call_directive]
  simp only [Run.directive, within, hp, Effect.perform, mapError_ok, bind, Except.bind]
  by_cases ha : blocks.active
  · simp only [ha, if_true]
    cases Directive.execute r.environment file ⟨r.number, effect.action⟩ with
    | error fault => rfl
    | ok found => rfl
  · simp only [ha]
    rfl

end Reading

/-- Whether the block still looks for a branch to take. -/
def Frame.wanted (frame : Frame) : Bool := frame.parentActive && !frame.matched

def Frame.enter (frame : Frame) (held : Bool) : Frame :=
  { frame with active := held, matched := frame.matched || held }

theorem Frame.wanted_eq_false {frame : Frame}
    (h : frame.matched = true ∨ frame.parentActive = false) : frame.wanted = false := by
  rcases h with h | h <;> simp [wanted, h]

theorem Frame.wanted_enter (frame : Frame) (held : Bool) :
    (frame.enter held).wanted = (frame.wanted && !held) := by
  simp only [wanted, enter, Bool.not_or, Bool.and_assoc]

namespace BlockStack

theorem process_opening (blocks : BlockStack) (env : Environment) (file : Text) (number : Nat)
    (condition : Condition) :
    blocks.process env file ⟨number, .opening condition⟩ =
      (condition.ask blocks.active env file number).map fun held =>
        ⟨number, blocks.active, held, held, false⟩ :: blocks := by
  simp only [process, openBlock, Condition.ask]
  by_cases ha : blocks.active
  · simp only [ha, if_true]
    rfl
  · simp only [ha]
    rfl

theorem process_elseIf {frame : Frame} (hf : frame.seenElse = false) (blocks : BlockStack)
    (env : Environment) (file : Text) (number : Nat) (expression : Text) :
    process env file (frame :: blocks) ⟨number, .elseIf expression⟩ =
      ((Condition.holds expression).ask frame.wanted env file number).map fun held =>
        frame.enter held :: blocks := by
  obtain ⟨line, parentActive, active, matched, seenElse⟩ := frame
  cases hf
  cases parentActive with
  | false => cases matched <;> rfl
  | true => cases matched <;> rfl

theorem process_otherwise {frame : Frame} (hf : frame.seenElse = false) (blocks : BlockStack)
    (env : Environment) (file : Text) (number : Nat) :
    process env file (frame :: blocks) ⟨number, .otherwise⟩ =
      .ok ({ frame with seenElse := true, active := frame.wanted, matched := true } :: blocks) := by
  simp only [process, branching, hf]
  rfl

end BlockStack

namespace Reading

theorem trace_pass {style : CommentStyle} {file : Text} {r : Reading} {blocks next : BlockStack}
    {action : Action} (line : DirectiveLine style action) (rest : List Line)
    (hx : Directive.execute r.environment file ⟨r.number, action⟩ = .ok (r.environment, []))
    (hp : blocks.process r.environment file ⟨r.number, action⟩ = .ok next) :
    r.trace style file blocks (line.line :: rest) =
      r.pass style file line.line >>= fun r => r.trace style file next rest := by
  have hq : blocks.process r.environment file ⟨r.number, action⟩ =
      (Except.ok () : Except Fault Unit).map fun _ => next := hp
  rw [trace_block line rest hx hq]
  rfl

end Reading

mutual

theorem Document.trace_lines {style : CommentStyle} (file : Text) (r : Reading)
    (blocks : BlockStack) (rest : List Line) : (document : Document style) →
    r.trace style file blocks (document.lines ++ rest) =
      document.interpret file blocks.active r >>= fun r => r.trace style file blocks rest
  | .nil => rfl
  | .code line more => by
      rw [Document.lines, List.cons_append, Reading.trace_code, Document.interpret, Trace.bind_assoc]
      congr 1
      funext r
      exact more.trace_lines file r blocks rest
  | .effect effect line more => by
      rw [Document.lines, List.cons_append, Reading.trace_effect, Document.interpret, Trace.bind_assoc]
      congr 1
      funext found
      exact more.trace_lines file _ blocks rest
  | .block condition line body branches more => by
      rw [Document.lines, List.cons_append, Document.interpret, Trace.bind_assoc,
        Reading.trace_block line _ rfl (BlockStack.process_opening blocks _ file r.number condition)]
      congr 1
      funext ⟨held, r⟩
      rw [List.append_assoc, body.trace_lines, Trace.bind_assoc]
      congr 1
      funext r
      rw [List.append_assoc, branches.trace_lines file r _ rfl, Trace.bind_assoc]
      congr 1
      funext r
      exact more.trace_lines file r blocks rest

theorem Branches.trace_lines {style : CommentStyle} (file : Text) (r : Reading) (frame : Frame)
    (hf : frame.seenElse = false) (blocks : BlockStack) (rest : List Line) :
    (branches : Branches style) →
    r.trace style file (frame :: blocks) (branches.lines ++ rest) =
      branches.interpret file frame.wanted r >>= fun r => r.trace style file blocks rest
  | .closing line => by
      rw [Branches.lines, List.cons_append, Branches.interpret, Reading.trace_pass line _ rfl rfl]
      rfl
  | .otherwise line body closing => by
      rw [Branches.lines, List.cons_append, Branches.interpret, Trace.bind_assoc,
        Reading.trace_pass line _ rfl (BlockStack.process_otherwise hf blocks _ file r.number)]
      congr 1
      funext r
      rw [List.append_assoc, body.trace_lines, Trace.bind_assoc]
      congr 1
      funext r
      exact Reading.trace_pass closing rest rfl rfl
  | .elseIf expression line body more => by
      rw [Branches.lines, List.cons_append, Branches.interpret, Trace.bind_assoc,
        Reading.trace_block line _ rfl
          (BlockStack.process_elseIf hf blocks _ file r.number expression)]
      congr 1
      funext ⟨held, r⟩
      rw [List.append_assoc, body.trace_lines, Trace.bind_assoc]
      congr 1
      funext r
      rw [← Frame.wanted_enter]
      exact more.trace_lines file r (frame.enter held) hf blocks rest

end

/-- The lines of a document, taken one by one inside of any blocks, do what the document does:
each line asks the same of the output, so that code counts as active exactly where it is visited,
the same fault stops both at the same line, and without one the blocks are as they were. -/
theorem Document.steps_eq_interpret {style : CommentStyle} (document : Document style) (file : Text)
    (run : Run) (number : Nat) :
    run.calls style file number document.lines =
        (document.interpret file run.blocks.active (run.reading number)).calls ∧
      run.steps style file number document.lines =
        (document.interpret file run.blocks.active (run.reading number)).result.map
          (·.within run.blocks) := by
  have h := document.trace_lines file (run.reading number) run.blocks []
  rw [List.append_nil, Reading.bind_trace_nil] at h
  exact ⟨congrArg Trace.calls h, congrArg Trace.result h⟩

/-- The second condition is no expression; it stands after a branch that is taken. -/
def Document.sample : Document .javascript :=
  .block (.isNotSet "__A") ⟨⟨"// #ifnset __A", "\n"⟩, by decide +kernel⟩
    (.effect (.set "__A" (some "2")) ⟨⟨"// #set __A 2", "\n"⟩, by decide +kernel⟩
      (.code ⟨⟨"first()", "\n"⟩, by decide +kernel⟩ .nil))
    (.elseIf "__A +" ⟨⟨"// #elif __A +", "\n"⟩, by decide +kernel⟩
      (.code ⟨⟨"second()", "\n"⟩, by decide +kernel⟩ .nil)
      (.closing ⟨⟨"// #endif", "\n"⟩, by decide +kernel⟩))
    (.code ⟨⟨"last()", "\n"⟩, by decide +kernel⟩ .nil)

example :
    OutputCall.texts (Document.sample.interpret "f.js" true
      ⟨.empty, .start .javascript {}, [], 1⟩).calls =
        [("first()" : Text), ("last()" : Text)] := by
  decide +kernel

end Prepass
