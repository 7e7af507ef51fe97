/- Where a file stops: the line that is at fault, and what the lines before it have done. -/
import Prepass.Proofs.Expression.Faults
import Prepass.Proofs.Line.Splitting
import Prepass.Proofs.Run.Endings
import Prepass.Proofs.Run.Matching
import Prepass.Proofs.Run.Whole
import Prepass.Proofs.Substitution.Faults
namespace Prepass

/-- What is reported is a problem of this line, and of no block that is left open. -/
def Fault.At (file : Text) (line : Nat) (fault : Fault) : Prop :=
  ∀ d, fault = .reported d → d.line = some line ∧ d.kind ≠ .unclosedBlock ∧
    (d.file = none ∨ d.file = some file)

/-- What stops a line: one of its problems is reported, or something strays. -/
inductive Fault.Stopped (strays : Fault → Prop) (file : Text) (line : Nat) : Fault → Prop where
  | reported {d : Diagnostic} (place : d.line = some line) (kind : d.kind ≠ .unclosedBlock)
      (origin : d.file = none ∨ d.file = some file) : Stopped strays file line (.reported d)
  | strays {fault : Fault} (cause : strays fault) : Stopped strays file line fault

namespace Fault

variable {strays other : Fault → Prop} {file : Text} {line : Nat} {fault : Fault}

theorem Stopped.at (h : fault.Stopped strays file line) (hi : strays fault → fault.Internal) :
    fault.At file line := by
  intro d hd
  cases h with
  | reported place kind origin =>
      cases hd
      exact ⟨place, kind, origin⟩
  | strays cause => exact absurd hd (hi cause d)

theorem Stopped.imp (h : fault.Stopped strays file line) (hi : strays fault → other fault) :
    fault.Stopped other file line := by
  cases h with
  | reported place kind origin => exact .reported place kind origin
  | strays cause => exact .strays (hi cause)

theorem Internal.locate_eq (h : fault.Internal) (file : Option Text) (line : Option Nat) :
    fault.locate file line = fault := by
  cases fault with
  | reported d => exact absurd rfl (h d)
  | _ => rfl

/-- An expression is told its place. -/
theorem Explained.locate (h : fault.Explained strays) (hi : strays fault → fault.Internal)
    (file : Text) (line : Nat) :
    (fault.locate (some file) (some line)).Stopped strays file line := by
  cases h with
  | @reported d hf hl hk =>
      refine .reported ?_ ?_ (Or.inr ?_)
      · rw [Diagnostic.locate, hl]
        rfl
      · rintro he
        change d.kind = _ at he
        rw [he] at hk
        rcases hk with hk | hk <;> cases hk
      · rw [Diagnostic.locate, hf]
        rfl
  | strays cause =>
      rw [(hi cause).locate_eq]
      exact .strays cause

end Fault

theorem Fault.locate_eq_reported {fault : Fault} {file : Option Text} {line : Option Nat}
    {d : Diagnostic} (h : fault.locate file line = .reported d) :
    ∃ found, fault = .reported found ∧ found.locate file line = d := by
  cases fault with
  | reported found => exact ⟨found, rfl, Fault.reported.inj h⟩
  | _ => cases h

/-- Whether the expression of a directive is looked at. -/
def BlockStack.heeds (blocks : BlockStack) : Action → Bool
  | .elseIf _ => blocks.head?.any Frame.wanted
  | _ => blocks.active

def Action.expression? : Action → Option Text
  | .opening (.holds expression) | .elseIf expression => some expression
  | .set _ expression => expression
  | _ => none

/-- A directive strays if its expression is looked at and strays. -/
def Action.Strays (blocks : BlockStack) (env : Environment) (action : Action) (fault : Fault) :
    Prop :=
  blocks.heeds action = true ∧ ∃ text, action.expression? = some text ∧ text.Strays env fault

theorem Condition.test_fails (env : Environment) (file : Text) (line : Nat)
    (condition : Condition) :
    FailsOnly (Fault.Stopped (fun fault => ∃ text,
      (Action.opening condition).expression? = some text ∧ text.Strays env fault) file line)
      (condition.test env file line) := by
  cases condition with
  | isSet name => exact .ok _
  | isNotSet name => exact .ok _
  | holds expression =>
      refine (Expr.evalCondition_fails env expression).mapError fun fault hf => ?_
      exact (hf.locate Text.Strays.internal file line).imp fun hs => ⟨expression, rfl, hs⟩

theorem BlockStack.branching_fails {strays : Fault → Prop} (stack : BlockStack) (file : Text)
    (line : Nat) (keyword : Keyword) :
    FailsOnly (Fault.Stopped strays file line) (stack.branching file line keyword) := by
  unfold branching
  split
  · exact .error (.reported rfl nofun (Or.inr rfl))
  split
  · exact .error (.reported rfl nofun (Or.inr rfl))
  · exact .ok _

theorem BlockStack.eq_cons_of_branching {stack rest : BlockStack} {file : Text} {line : Nat}
    {keyword : Keyword} {frame : Frame}
    (h : stack.branching file line keyword = .ok (frame, rest)) : stack = frame :: rest := by
  unfold branching at h
  split at h
  · cases h
  split at h
  · cases h
  · cases h
    rfl

theorem BlockStack.process_fails (env : Environment) (file : Text) (stack : BlockStack)
    (d : Directive) :
    FailsOnly (Fault.Stopped (d.action.Strays stack env) file d.line)
      (stack.process env file d) := by
  obtain ⟨number, action⟩ := d
  cases action with
  | opening condition =>
      simp only [process, openBlock]
      split
      · rename_i ha
        refine ((condition.test_fails env file number).mono fun fault hf => ?_).bind fun b => .ok _
        exact hf.imp fun hs => ⟨ha, hs⟩
      · exact .ok _
  | elseIf expression =>
      refine (stack.branching_fails file number .elseIf).bind_of_ok ?_
      rintro ⟨frame, rest⟩ hb
      dsimp only
      split
      · exact .ok _
      · rename_i hw
        refine ((Condition.test_fails env file number (.holds expression)).mono
          fun fault hf => ?_).bind fun b => .ok _
        have hwanted : heeds stack (.elseIf expression) = true := by
          rw [eq_cons_of_branching hb]
          simpa [heeds, Frame.wanted, and_comm] using hw
        exact hf.imp fun hs => ⟨hwanted, hs⟩
  | otherwise => exact (stack.branching_fails file number .otherwise).bind fun found => .ok _
  | closing =>
      cases stack with
      | nil => exact .error (.reported rfl (by rintro ⟨⟩) (Or.inr rfl))
      | cons frame rest => exact .ok _
  | set name expression | unset name | error message => exact .ok _

namespace Directive

theorem execute_fails (env : Environment) (file : Text) (d : Directive) :
    FailsOnly (Fault.Stopped (fun fault => ∃ name text,
      d.action = .set name (some text) ∧ text.Strays env fault) file d.line)
      (d.execute env file) := by
  obtain ⟨number, action⟩ := d
  cases action with
  | set name expression =>
      cases expression with
      | none => exact .ok _
      | some expression =>
          simp only [execute]
          split
          · exact .ok _
          · rename_i fault hf
            have hs := (Expr.evalText_fails env expression fault hf).locate Text.Strays.internal
              file number
            exact .error (hs.imp fun hstrays => ⟨name, expression, rfl, hstrays⟩)
  | error message => exact .error (.reported rfl nofun (Or.inr rfl))
  | unset name | opening condition | elseIf expression | otherwise | closing => exact .ok _

theorem outcome_fails (file : Text) (blocks : BlockStack) (env : Environment) (d : Directive) :
    FailsOnly (Fault.Stopped (d.action.Strays blocks env) file d.line)
      (d.outcome file blocks env) := by
  refine (blocks.process_fails env file d).bind_of_ok fun next hn => .map ?_
  split
  · rename_i ha
    refine (d.execute_fails env file).mono fun fault hf => hf.imp ?_
    rintro ⟨name, text, hd, hs⟩
    -- Setting a variable leaves the blocks as they are.
    simp only [BlockStack.process, hd] at hn
    cases hn
    exact hd ▸ ⟨ha, text, rfl, hs⟩
  · exact .ok _

theorem scan_fails (style : CommentStyle) (file : Text) (number : Nat) (text : Text) :
    FailsOnly (fun d => d.line = some number ∧ d.kind ≠ .unclosedBlock ∧ d.file = none)
      (scan style file number text) := by
  unfold scan
  split
  · exact .ok _
  · rename_i keyword argument hs
    refine .map ?_
    cases keyword with
    | ifHolds | elseIf =>
        simp only [ofArgument]
        split
        · exact .error ⟨rfl, by rintro ⟨⟩, rfl⟩
        · exact .ok _
    | ifSet | ifNotSet | unset =>
        simp only [ofArgument]
        split
        · exact .ok _
        · exact .error ⟨rfl, by rintro ⟨⟩, rfl⟩
    | otherwise | endIf | error => exact .ok _
    | set =>
        simp only [ofArgument]
        split
        · exact .ok _
        · exact .error ⟨rfl, by rintro ⟨⟩, rfl⟩

end Directive

namespace Run

variable {style : CommentStyle} {file : Text} {run : Run} {number : Nat}

/-- What a line can fail over without a report. -/
inductive Strays (style : CommentStyle) (run : Run) (line : Line) : Fault → Prop where
  | code (active : run.blocks.active = true) (plain : Directive.split? style line.text = none)
      (far : run.environment.NamesFar line.text) : Strays style run line .numberTooLarge
  | directive {action : Action} {fault : Fault}
      (said : Directive.action? style line.text = some action)
      (strays : action.Strays run.blocks run.environment fault) : Strays style run line fault

theorem Strays.internal {line : Line} {fault : Fault} (h : run.Strays style line fault) :
    fault.Internal := by
  cases h with
  | code active plain far => nofun
  | directive said strays =>
      obtain ⟨-, text, -, hs⟩ := strays
      exact hs.internal

/-- A line that fails has changed nothing. -/
theorem step_fails (style : CommentStyle) (file : Text) (run : Run) (number : Nat) (line : Line) :
    FailsOnly (fun halt => halt.environment = run.environment ∧
      halt.fault.Stopped (run.Strays style line) file number) (run.step style file number line) := by
  cases hs : Directive.split? style line.text with
  | none =>
      rw [step_code hs]
      split
      · rename_i ha
        refine ((run.output.code_fails run.environment number line).mapError ?_).map
        rintro fault ⟨rfl, hf⟩
        exact ⟨rfl, .strays (.code ha hs hf)⟩
      · exact .ok _
  | some found =>
      rw [step_eq]
      split
      · rename_i d hd
        obtain ⟨hl, hk, hf⟩ := Directive.scan_fails style file number line.text d hd
        exact .error ⟨rfl, .reported hl hk (Or.inl hf)⟩
      · rename_i d log hd
        obtain ⟨ha, rfl⟩ := Directive.action?_of_scan hd
        rw [directive_eq]
        refine ((d.outcome_fails file _ _).mapError ?_).map
        intro fault hf
        exact ⟨rfl, hf.imp fun hstrays => .directive ha hstrays⟩
      · rename_i log hd
        simp only [Directive.scan, hs] at hd
        obtain ⟨read, -, he⟩ := map_eq_ok.mp hd
        cases he

theorem steps_take {lines : List Line} {halt : Halt} {n : Nat}
    (h : run.steps style file number (lines.take n) = .error halt) :
    run.steps style file number lines = .error halt := by
  rw [← List.take_append_drop n lines, steps_append, h]
  rfl

/-- The first line that fails comes after lines that have all been taken. -/
theorem steps_eq_error {lines : List Line} {halt : Halt}
    (h : run.steps style file number lines = .error halt) :
    ∃ i mid, i < lines.length ∧ run.steps style file number (lines.take i) = .ok mid ∧
      run.steps style file number (lines.take (i + 1)) = .error halt ∧
      halt.environment = mid.environment ∧ halt.fault.At file (number + i) := by
  induction lines generalizing run number with
  | nil => cases h
  | cons line rest ih =>
      rw [steps] at h
      cases hs : run.step style file number line with
      | error found =>
          rw [hs] at h
          cases h
          obtain ⟨he, hf⟩ := step_fails style file run number line halt hs
          refine ⟨0, run, Nat.succ_pos _, rfl, ?_, he, hf.at Strays.internal⟩
          rw [List.take_succ_cons, steps, hs]
          rfl
      | ok next =>
          rw [hs] at h
          obtain ⟨i, mid, hi, hm, hstop, he, hf⟩ := ih h
          refine ⟨i + 1, mid, Nat.succ_lt_succ hi, ?_, ?_, he, ?_⟩
          · rw [List.take_succ_cons, steps, hs]
            exact hm
          · rw [List.take_succ_cons, steps, hs]
            exact hstop
          · rwa [Nat.add_right_comm] at hf

end Run

/-- The variables after a directive that is carried out. -/
def Action.update (env : Environment) : Action → Except Fault Environment
  | .set name none => .ok (env.set name .undefined).1
  | .set name (some expression) => (Expr.evalText env expression).map fun v => (env.set name v).1
  | .unset name => .ok (env.unset name).1
  | .opening _ | .elseIf _ | .otherwise | .closing | .error _ => .ok env

theorem Directive.update_of_execute {env after : Environment} {file : Text} {d : Directive}
    {log : Log} (h : d.execute env file = .ok (after, log)) :
    Action.update env d.action = .ok after := by
  obtain ⟨number, action⟩ := d
  cases action with
  | set name expression =>
      cases expression with
      | none => exact congrArg (Except.map Prod.fst) h
      | some expression =>
          simp only [execute] at h
          split at h
          · rename_i v hv
            rw [Action.update, hv]
            exact congrArg (Except.map Prod.fst) h
          · cases h
  | unset name => exact congrArg (Except.map Prod.fst) h
  | error message => cases h
  | opening condition | elseIf expression | otherwise | closing =>
      cases h
      rfl

theorem Directive.update_of_outcome {file : Text} {blocks next : BlockStack}
    {env after : Environment} {d : Directive} {log : Log}
    (h : d.outcome file blocks env = .ok (next, after, log)) :
    (if blocks.active then Action.update env d.action else .ok env) = .ok after := by
  obtain ⟨hp, hx⟩ := outcome_eq_ok h
  obtain ⟨number, action⟩ := d
  cases action with
  | set name expression | unset name | error message =>
      cases hp
      split at hx
      · rename_i ha
        rw [if_pos ha]
        exact update_of_execute hx
      · rename_i ha
        rw [if_neg ha]
        cases hx
        rfl
  | opening condition | elseIf expression | otherwise | closing =>
      have ha : after = env := by
        split at hx <;> cases hx <;> rfl
      rw [ha]
      exact ite_self _

namespace Run

/-- The directives that are reached while active. -/
def effects (style : CommentStyle) (file : Text) (run : Run) (number : Nat) :
    List Line → List Action
  | [] => []
  | line :: rest =>
    (if run.blocks.active then (Directive.action? style line.text).toList else []) ++
      match run.step style file number line with
      | .ok next => next.effects style file (number + 1) rest
      | .error _ => []

theorem update_step {style : CommentStyle} {file : Text} {run next : Run} {number : Nat}
    {line : Line} (h : run.step style file number line = .ok next) :
    List.foldlM Action.update run.environment
      (if run.blocks.active then (Directive.action? style line.text).toList else []) =
        .ok next.environment := by
  have hs := step_eq_ok h
  cases ha : Directive.action? style line.text with
  | none =>
      rw [ha] at hs
      rw [Option.toList_none, ite_self, hs.2]
      rfl
  | some action =>
      rw [ha] at hs
      obtain ⟨log, ho⟩ := hs
      have hu := Directive.update_of_outcome ho
      split at hu
      · rename_i hactive
        rw [if_pos hactive, Option.toList_some, List.foldlM_cons, hu]
        rfl
      · rename_i hactive
        rw [if_neg hactive]
        exact hu

theorem update_steps {style : CommentStyle} {file : Text} {run final : Run} {number : Nat}
    {lines : List Line} (h : run.steps style file number lines = .ok final) :
    List.foldlM Action.update run.environment (run.effects style file number lines) =
      .ok final.environment := by
  induction lines generalizing run number with
  | nil =>
      cases h
      rfl
  | cons line rest ih =>
      obtain ⟨next, hn, h⟩ := bind_eq_ok.mp h
      rw [effects, List.foldlM_append, update_step hn]
      simp only [hn]
      exact ih h

end Run

namespace Preprocessor

/-- Line `k` stops the file, whatever follows. The variables are those that the lines before it
leave, none of which fails. -/
structure StopsAt (p : Preprocessor) (file source : Text) (d : Diagnostic) (k : Nat) : Prop where
  settled : ∀ other, ((Line.split other).take k).map Line.text =
      ((Line.split source).take k).map Line.text →
    (p.transform file other).result = .error (.reported d) ∧
      (p.transform file other).environment = (p.transform file source).environment
  unchanged : (p.transform file source).environment =
    (p.transform file (Line.written ((Line.split source).take (k - 1)))).environment
  clean : ∀ fault,
    (p.transform file (Line.written ((Line.split source).take (k - 1)))).result = .error fault →
    ∃ left, fault = .reported left ∧ left.kind = .unclosedBlock

/-- All lines are taken, and what they say is carried out where it is active. Of the blocks that are
left open, the one of line `k` is the innermost. -/
structure EndsOpen (p : Preprocessor) (file source : Text) (k : Nat) : Prop where
  taken : ∃ final, p.before file source (Line.split source).length = .ok final
  effects : List.foldlM Action.update (p.start file).environment
    ((p.start file).effects (p.commentStyle file) file 1 (Line.split source)) =
      .ok (p.transform file source).environment
  opening : Line.Unmatched (p.commentStyle file) (Line.split source) (k - 1)
  innermost : ∀ i, Line.Unmatched (p.commentStyle file) (Line.split source) i → i + 1 ≤ k

variable {p : Preprocessor} {file source : Text} {d : Diagnostic}

theorem stopsAt_of_steps {i : Nat} {mid : Run} {halt : Halt}
    (hm : p.before file source i = .ok mid) (hs : p.before file source (i + 1) = .error halt)
    (he : halt.environment = mid.environment)
    (hd : halt.fault.locate (some file) none = .reported d) : p.StopsAt file source d (i + 1) := by
  have hwhole := Run.steps_take hs
  have hfirst : (p.start file).steps (p.commentStyle file) file 1
      (Line.split (Line.written ((Line.split source).take i))) = .ok mid := by
    rw [Line.split_written_take]
    exact hm
  constructor
  · intro other ht
    have hother := Run.steps_take (Run.steps_error_of_texts ht hs)
    rw [transform_of_error hother, transform_of_error hwhole]
    exact ⟨congrArg Except.error hd, rfl⟩
  · rw [Nat.add_sub_cancel, transform_of_error hwhole, transform_of_ok hfirst]
    exact he
  · intro fault hf
    rw [Nat.add_sub_cancel, transform_of_ok hfirst] at hf
    cases hb : mid.blocks with
    | nil =>
        rw [hb] at hf
        cases hf
    | cons frame rest =>
        rw [hb] at hf
        cases hf
        exact ⟨_, rfl, rfl⟩

theorem endsOpen_of_steps {final : Run} {frame : Frame} {rest : BlockStack}
    (hs : (p.start file).steps (p.commentStyle file) file 1 (Line.split source) = .ok final)
    (hb : final.blocks = frame :: rest) :
    1 ≤ frame.line ∧ frame.line ≤ (Line.split source).length ∧
      p.EndsOpen file source frame.line := by
  have hu : Line.unmatched (p.commentStyle file) 1 (Line.split source) =
      frame.line :: rest.lines := by
    have hl := Run.lines_steps hs
    rw [hb, show (p.start file).blocks.lines = [] from rfl, List.drop_nil, List.append_nil] at hl
    exact hl.symm
  have hopen := Line.mem_unmatched_iff.mp (hu ▸ List.mem_cons_self)
  obtain ⟨i, hi, hunmatched⟩ := hopen
  obtain ⟨line, hline, -⟩ := hunmatched.1
  obtain ⟨hlt, -⟩ := List.getElem?_eq_some_iff.mp hline
  refine ⟨by omega, by omega, ?_, ?_, ?_, ?_⟩
  · exact ⟨final, before_length.trans hs⟩
  · rw [transform_of_ok hs]
    exact Run.update_steps hs
  · rwa [hi, Nat.add_sub_cancel_left]
  · intro j hj
    have hmem : 1 + j ∈ frame.line :: rest.lines := hu ▸ Line.mem_unmatched_iff.mpr ⟨j, rfl, hj⟩
    have hpair := Line.pairwise_unmatched (p.commentStyle file) 1 (Line.split source)
    rw [hu] at hpair
    rcases List.mem_cons.mp hmem with he | hm
    · omega
    · have hlt := List.rel_of_pairwise_cons hpair hm
      omega

/-- A file that fails for a problem of its own names the file and a line of it. If a line has stopped
it, nothing after the line counts and the line itself has changed nothing; otherwise all lines have
done their part, and the line is where the innermost block opens that none closes. -/
theorem transform_failure (h : (p.transform file source).result = .error (.reported d)) :
    d.file = some file ∧ ∃ k, d.line = some k ∧ 1 ≤ k ∧ k ≤ (Line.split source).length ∧
      (d.kind ≠ .unclosedBlock → p.StopsAt file source d k) ∧
      (d.kind = .unclosedBlock → p.EndsOpen file source k) := by
  cases hs : (p.start file).steps (p.commentStyle file) file 1 (Line.split source) with
  | error halt =>
      obtain ⟨i, mid, hi, hm, hstop, he, hat⟩ := Run.steps_eq_error hs
      rw [transform_of_error hs] at h
      -- A line that cannot be read is reported without the file, which is added at the end.
      have hd := Except.error.inj h
      have hstops := stopsAt_of_steps hm hstop he hd
      obtain ⟨found, hfault, rfl⟩ := Fault.locate_eq_reported hd
      obtain ⟨hline, hkind, hfile⟩ := hat found hfault
      refine ⟨?_, i + 1, ?_, Nat.succ_pos i, hi, fun _ => hstops, fun hk => absurd hk hkind⟩
      · rcases hfile with hfile | hfile
        · rw [Diagnostic.locate, hfile]
          rfl
        · rw [Diagnostic.locate, hfile]
          rfl
      · rw [Diagnostic.locate, hline, Nat.add_comm]
        rfl
  | ok final =>
      rw [transform_of_ok hs] at h
      cases hb : final.blocks with
      | nil =>
          rw [hb] at h
          cases h
      | cons frame rest =>
          rw [hb] at h
          cases h
          obtain ⟨hpos, hle, hends⟩ := endsOpen_of_steps hs hb
          exact ⟨rfl, frame.line, rfl, hpos, hle, fun hk => absurd rfl hk, fun _ => hends⟩

/-- An error within a block. -/
def stoppedLines : List Line :=
  [⟨"//#set __A 1", "\n"⟩, ⟨"//#if 1", "\n"⟩, ⟨"//#error", "\n"⟩, ⟨"//#endif", "\n"⟩]

/-- The second of two blocks is not closed. -/
def unclosedLines : List Line :=
  [⟨"//#if 1", "\n"⟩, ⟨"//#endif", "\n"⟩, ⟨"//#if 1", "\n"⟩, ⟨"//#set __A 1", "\n"⟩]

theorem transform_failure_sample :
    (∃ d, (sample.transform "f.js" (Line.written stoppedLines)).result = .error (.reported d) ∧
      d.kind = .user ∧ sample.StopsAt "f.js" (Line.written stoppedLines) d 3) ∧
    ∃ d, (sample.transform "f.js" (Line.written unclosedLines)).result = .error (.reported d) ∧
      d.kind = .unclosedBlock ∧ sample.EndsOpen "f.js" (Line.written unclosedLines) 3 := by
  constructor
  · have hr : (sample.transform "f.js" (Line.written stoppedLines)).result =
        .error (.reported ⟨.user, "#error directive reached", some "f.js", some 3⟩) := by
      decide +kernel
    obtain ⟨-, k, hk, -, -, hstops, -⟩ := transform_failure hr
    cases hk
    exact ⟨_, hr, rfl, hstops nofun⟩
  · have hr : (sample.transform "f.js" (Line.written unclosedLines)).result =
        .error (.reported (.unclosedBlocks [3] 3 "f.js")) := by
      decide +kernel
    obtain ⟨-, k, hk, -, -, -, hends⟩ := transform_failure hr
    cases hk
    exact ⟨_, hr, rfl, hends rfl⟩

end Preprocessor

end Prepass
