/- A variable that a file does not mention has no part in what becomes of the file. -/
import Prepass.Proofs.Environment.Reading
import Prepass.Proofs.Run.Session
namespace Prepass

variable {x : Text}

namespace Environment

/-- The variables but one. -/
def without (x : Text) (env : Environment) : Environment := ⟨env.bindings.erase x⟩

theorem agreeOn_without {text : Text} (h : ¬ x <:+: text) (env : Environment) :
    AgreeOn (· <:+: text) (env.without x) env := by
  intro name hn
  have hne : name ≠ x := by
    rintro rfl
    exact h hn
  exact Table.find?_erase_of_ne hne env.bindings

theorem set_without {name : Text} (h : x ≠ name) (env : Environment) (v : Value) :
    (env.without x).set name v = ((env.set name v).1.without x, (env.set name v).2) := by
  unfold set
  split
  · rfl
  · apply congrArg (Prod.mk · [])
    exact congrArg mk (Table.erase_insert_of_ne h env.bindings v).symm

theorem unset_without (env : Environment) (name : Text) :
    (env.without x).unset name = ((env.unset name).1.without x, (env.unset name).2) := by
  unfold unset
  split
  · rfl
  · apply congrArg (Prod.mk · [])
    exact congrArg mk (env.bindings.erase_comm x name)

theorem seed_without (h : x ≠ builtIn) (env : Environment) (v : Value) :
    (env.without x).seed v = (env.seed v).without x :=
  congrArg mk (Table.erase_insert_of_ne h env.bindings v).symm

end Environment

namespace Directive

variable {text : Text} {d : Directive}

theorem process_without (ha : d.action.Excerpt text) (h : ¬ x <:+: text) (env : Environment)
    (file : Text) (blocks : BlockStack) :
    blocks.process (env.without x) file d = blocks.process env file d := by
  have hagree := Environment.agreeOn_without h env
  obtain ⟨line, action⟩ := d
  cases action with
  | opening condition =>
      have ht : condition.test (env.without x) file line = condition.test env file line := by
        cases condition with
        | holds expression =>
            have he := hagree.within (ha.argument expression rfl)
            simp only [Condition.test, Expr.evalCondition_congr he]
        | isSet name | isNotSet name =>
            simp only [Condition.test, hagree.has (ha.name name rfl).1]
      simp only [BlockStack.process, ht]
  | elseIf expression =>
      have he := hagree.within (ha.argument expression rfl)
      simp only [BlockStack.process, Condition.test, Expr.evalCondition_congr he]
  | otherwise | closing | set name expression | unset name | error message => rfl

theorem execute_without (ha : d.action.Excerpt text) (h : ¬ x <:+: text) (env : Environment)
    (file : Text) :
    d.execute (env.without x) file =
      (d.execute env file).map fun found => (found.1.without x, found.2) := by
  have hagree := Environment.agreeOn_without h env
  obtain ⟨line, action⟩ := d
  cases action with
  | set name expression =>
      have hx : x ≠ name := by
        rintro rfl
        exact h (ha.name x rfl).1
      cases expression with
      | none => exact congrArg Except.ok (env.set_without hx .undefined)
      | some expression =>
          have he := hagree.within (ha.argument expression rfl)
          simp only [execute, Expr.evalText_congr he]
          cases Expr.evalText env expression with
          | error fault => rfl
          | ok v => exact congrArg Except.ok (env.set_without hx v)
  | unset name => exact congrArg Except.ok (env.unset_without name)
  | error message | opening condition | elseIf expression | otherwise | closing => rfl

theorem outcome_without (ha : d.action.Excerpt text) (h : ¬ x <:+: text) (env : Environment)
    (file : Text) (blocks : BlockStack) :
    d.outcome file blocks (env.without x) =
      (d.outcome file blocks env).map fun found => (found.1, found.2.1.without x, found.2.2) := by
  rw [outcome, outcome, process_without ha h, execute_without ha h]
  cases blocks.process env file d with
  | error fault => rfl
  | ok next =>
      simp only [bind, Except.bind]
      split
      · cases d.execute env file with
        | error fault => rfl
        | ok found => rfl
      · rfl

end Directive

def Halt.without (x : Text) (halt : Halt) : Halt :=
  { halt with environment := halt.environment.without x }

namespace Run

def without (x : Text) (run : Run) : Run := { run with environment := run.environment.without x }

theorem directive_without {text file : Text} {d : Directive} (ha : d.action.Excerpt text)
    (h : ¬ x <:+: text) (run : Run) (number : Nat) (line : Line) :
    (run.without x).directive file number line d =
      ((run.directive file number line d).mapError (Halt.without x)).map (without x) := by
  rw [directive_eq, directive_eq]
  change Except.map _ ((d.outcome file run.blocks (run.environment.without x)).mapError _) = _
  rw [Directive.outcome_without ha h]
  cases d.outcome file run.blocks run.environment with
  | error fault => rfl
  | ok found => rfl

theorem step_without (style : CommentStyle) (file : Text) (run : Run) (number : Nat) {line : Line}
    (h : ¬ x <:+: line.text) :
    (run.without x).step style file number line =
      ((run.step style file number line).mapError (Halt.without x)).map (without x) := by
  have hcode : run.output.code (run.environment.without x) number line =
      run.output.code run.environment number line :=
    run.output.code_congr number (Environment.agreeOn_without h run.environment)
  rw [step_eq, step_eq]
  cases hd : Directive.scan style file number line.text with
  | error d => rfl
  | ok read =>
      obtain ⟨d?, log⟩ := read
      cases d? with
      | some d =>
          have ha := Directive.excerpt_of_action? (Directive.action?_of_scan hd).1
          exact directive_without ha h (run.warned log) number line
      | none =>
          change (if run.blocks.active then _ else _) = _
          by_cases hb : run.blocks.active
          · simp only [hb, if_true]
            change Except.map _ ((run.output.code (run.environment.without x) number line).mapError
              _) = _
            rw [hcode]
            cases run.output.code run.environment number line with
            | error fault => rfl
            | ok output => rfl
          · simp only [hb]
            rfl

theorem steps_without (style : CommentStyle) (file : Text) (run : Run) (number : Nat)
    {lines : List Line} (h : ∀ line ∈ lines, ¬ x <:+: line.text) :
    (run.without x).steps style file number lines =
      ((run.steps style file number lines).mapError (Halt.without x)).map (without x) := by
  induction lines generalizing run number with
  | nil => rfl
  | cons line rest ih =>
      obtain ⟨hline, hrest⟩ := List.forall_mem_cons.mp h
      rw [steps, steps, step_without style file run number hline]
      cases run.step style file number line with
      | error halt => rfl
      | ok next => exact ih next (number + 1) hrest

end Run

theorem Line.text_isInfix_written {lines : List Line} {line : Line} (h : line ∈ lines) :
    line.text <:+: written lines := by
  induction lines with
  | nil => cases h
  | cons first rest ih =>
      rw [written_cons]
      rcases List.mem_cons.mp h with rfl | h
      · exact (List.prefix_append _ _).isInfix
      · refine (ih h).trans ?_
        exact (List.suffix_append _ _).isInfix.trans (List.suffix_append _ _).isInfix

theorem Line.not_isInfix_text {source : Text} (h : ¬ x <:+: source) {line : Line}
    (hl : line ∈ split source) : ¬ x <:+: line.text := by
  intro hx
  have hs := hx.trans (text_isInfix_written hl)
  rw [written_split] at hs
  exact h hs

namespace Preprocessor

def without (x : Text) (p : Preprocessor) : Preprocessor :=
  { p with environment := p.environment.without x }

variable {p : Preprocessor} {file source : Text}

theorem transform_without (hx : x ≠ Environment.builtIn) (h : ¬ x <:+: source)
    (p : Preprocessor) (file : Text) :
    (p.without x).transform file source =
      { p.transform file source with
        environment := (p.transform file source).environment.without x } := by
  have hstart : (p.without x).start file = (p.start file).without x :=
    congrArg (Run.mk · [] _ []) (p.environment.seed_without hx _)
  have hsteps := (p.start file).steps_without (p.commentStyle file) file 1
    (fun _ hl => Line.not_isInfix_text h hl)
  rw [← hstart] at hsteps
  cases hs : (p.start file).steps (p.commentStyle file) file 1 (Line.split source) with
  | error halt =>
      rw [hs] at hsteps
      rw [transform_of_error hs, transform_of_error (p := p.without x) hsteps]
      rfl
  | ok final =>
      rw [hs] at hsteps
      rw [transform_of_ok hs, transform_of_ok (p := p.without x) hsteps]
      rfl

/-- A variable that the file does not mention is left as it is. -/
theorem value?_transform (hx : x ≠ Environment.builtIn) (h : ¬ x <:+: source) (p : Preprocessor)
    (file : Text) : (p.transform file source).environment.value? x = p.environment.value? x := by
  obtain ⟨i, run, hr, he⟩ := p.transform_environment file source
  rw [he]
  refine Run.steps_invariant (I := fun env => env.value? x = _) ?_ ?_ hr
  · intro line hl action ha env after hv hu
    refine (Action.value?_update ?_ hu).trans hv
    intro hn
    have hline := Line.not_isInfix_text h (List.mem_of_mem_take hl)
    exact absurd ((Directive.excerpt_of_action? ha).name x hn).1 hline
  · exact Table.find?_insert_of_ne hx _ _

/-- Whether a variable that a file does not mention is set, and to what, makes no difference to the
file. Nor does the file make a difference to the variable. -/
theorem transform_unmentioned {x : Text} (hx : x ≠ Environment.builtIn) {source : Text}
    (h : ¬ x <:+: source) (v : Value) (p : Preprocessor) (file : Text) :
    let bound := { p with environment := (p.environment.set x v).1 }.transform file source
    let free := { p with environment := (p.environment.unset x).1 }.transform file source
    bound.result = free.result ∧ bound.log = free.log ∧
      (∀ name, name ≠ x → bound.environment.value? name = free.environment.value? name) ∧
      bound.environment.value? x = some v ∧ free.environment.value? x = none := by
  have hset : (p.environment.set x v).1 = ⟨p.environment.bindings.insert x v⟩ := by
    rw [Environment.set, if_neg hx]
  have hunset : (p.environment.unset x).1 = p.environment.without x := by
    rw [Environment.unset, if_neg hx]
    rfl
  have hp : { p with environment := p.environment.without x } =
      without x { p with environment := (p.environment.set x v).1 } := by
    rw [hset]
    exact congrArg (fun table => { p with environment := ⟨table⟩ })
      (p.environment.bindings.erase_insert_self x v).symm
  intro bound free
  have hfree : free = { bound with environment := bound.environment.without x } := by
    unfold free bound
    rw [hunset, hp, transform_without hx h]
  rw [hfree]
  refine ⟨rfl, rfl, ?_, ?_, ?_⟩
  · intro name hn
    exact (Table.find?_erase_of_ne hn _).symm
  · unfold bound
    rw [value?_transform hx h, hset]
    exact Table.find?_insert_self _ _ _
  · exact Table.find?_erase_self _ _

/-- Another variable is asked for, written and changed. -/
def mentioningLines : List Line :=
  [⟨"//#ifset __X", "\n"⟩, ⟨"a = __X;", "\n"⟩, ⟨"//#set __X __Z + 1", "\n"⟩, ⟨"//#endif", "\n"⟩]

theorem transform_unmentioned_sample :
    let bound := { sample with environment := (sample.environment.set "__Y" .null).1 }.transform
      "f.js" (Line.written mentioningLines)
    let free := { sample with environment := (sample.environment.unset "__Y").1 }.transform
      "f.js" (Line.written mentioningLines)
    bound.result = free.result ∧ bound.environment.value? "__Y" = some .null ∧
      free.environment.value? "__Y" = none := by
  have hx : ("__Y" : Text) ≠ Environment.builtIn := by decide
  have h : ¬ ("__Y" : Text) <:+: Line.written mentioningLines := by
    intro hi
    have hy : CodePoint.ofChar 'Y' ∈ Line.written mentioningLines := hi.subset (by decide)
    revert hy
    decide +kernel
  obtain ⟨hr, -, -, hb, hf⟩ := transform_unmentioned hx h .null sample "f.js"
  exact ⟨hr, hb, hf⟩

end Preprocessor

end Prepass
