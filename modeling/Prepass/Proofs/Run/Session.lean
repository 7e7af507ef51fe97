/- The variables over a session, in which one preprocessor takes file after file. -/
import Prepass.Proofs.Directive.Excerpt
import Prepass.Proofs.Expression.Supported
import Prepass.Proofs.Run.Failure
namespace Prepass

namespace Run

variable {I : Environment → Prop} {style : CommentStyle} {file : Text} {run : Run} {number : Nat}

theorem step_invariant {next : Run} {line : Line}
    (hi : ∀ action, Directive.action? style line.text = some action →
      ∀ env after, I env → Action.update env action = .ok after → I after)
    (h0 : I run.environment) (h : run.step style file number line = .ok next) :
    I next.environment := by
  have hu := update_step h
  split at hu
  · cases ha : Directive.action? style line.text with
    | none =>
        rw [ha] at hu
        exact Except.ok.inj hu ▸ h0
    | some action =>
        rw [ha] at hu
        obtain ⟨after, hafter, hu⟩ := bind_eq_ok.mp hu
        exact Except.ok.inj hu ▸ hi action ha _ _ h0 hafter
  · exact Except.ok.inj hu ▸ h0

/-- What no directive of the lines destroys holds of the variables after them. -/
theorem steps_invariant {final : Run} {lines : List Line}
    (hi : ∀ line ∈ lines, ∀ action, Directive.action? style line.text = some action →
      ∀ env after, I env → Action.update env action = .ok after → I after)
    (h0 : I run.environment) (h : run.steps style file number lines = .ok final) :
    I final.environment := by
  induction lines generalizing run number with
  | nil =>
      cases h
      exact h0
  | cons line rest ih =>
      obtain ⟨hfirst, hrest⟩ := List.forall_mem_cons.mp hi
      obtain ⟨next, hn, h⟩ := bind_eq_ok.mp h
      exact ih hrest (step_invariant hfirst h0 hn) h

end Run

namespace Action

variable {env after : Environment} {action : Action}

theorem wellFormed_update {text : Text} (ha : action.Excerpt text) (he : env.WellFormed)
    (h : update env action = .ok after) : after.WellFormed := by
  cases action with
  | set name expression =>
      obtain ⟨-, hn⟩ := ha.name name rfl
      cases expression with
      | none =>
          cases h
          exact he.set hn rfl
      | some expression =>
          obtain ⟨v, hv, rfl⟩ := map_eq_ok.mp h
          exact he.set hn (Expr.evalText_supported he expression v hv)
  | unset name =>
      cases h
      exact he.unset name
  | opening condition | elseIf expression | otherwise | closing | error message =>
      cases h
      exact he

/-- An action changes the variable it names, and that only if it is not the built-in one. -/
theorem value?_update {other : Text} (hn : action.name? = some other → other = Environment.builtIn)
    (h : update env action = .ok after) : after.value? other = env.value? other := by
  cases action with
  | set name expression =>
      have hset := fun he => hn (congrArg some he)
      cases expression with
      | none =>
          cases h
          exact Environment.value?_set hset .undefined
      | some expression =>
          obtain ⟨v, -, rfl⟩ := map_eq_ok.mp h
          exact Environment.value?_set hset v
  | unset name =>
      cases h
      exact Environment.value?_unset fun he => hn (congrArg some he)
  | opening condition | elseIf expression | otherwise | closing | error message =>
      cases h
      rfl

end Action

theorem Environment.wellFormed_ofBindings {bindings : List (Option Text × Value)}
    {env : Environment} (h : ofBindings bindings = .ok env) : env.WellFormed := by
  obtain ⟨pairs, hp, h⟩ := bind_eq_ok.mp h
  cases h
  refine Yields.mapM ?_ _ pairs hp
  rintro ⟨name?, v⟩
  refine Yields.bind (Q := fun name => name.isVariableName = true ∧ v.Supported) ?_ ?_
  · intro name hc
    unfold checkBinding at hc
    split at hc
    · cases hc
    · split at hc
      · cases hc
      · split at hc
        · cases hc
        · rename_i hn hv
          cases hc
          exact ⟨by simpa using hn, by simpa [Value.Supported] using hv⟩
  · intro name hname
    exact .ok hname

namespace Path

/-- A path that climbs nowhere leads below the directory. -/
theorem resolve_below {path : Text} (ha : isAbsolute path = false) (hp : parent ∉ segments path)
    (directory : List Text) : resolve directory path = directory ++ segments path := by
  rw [resolve, ha, if_neg Bool.false_ne_true]
  generalize segments path = segs at hp ⊢
  induction segs generalizing directory with
  | nil => exact (List.append_nil directory).symm
  | cons s rest ih =>
      obtain ⟨hs, hrest⟩ := List.ne_and_not_mem_of_not_mem_cons hp
      rw [List.foldl_cons, if_neg hs.symm, ih _ hrest, List.append_assoc, List.singleton_append]

theorem dropShared_append (directory below : List Text) :
    dropShared directory (directory ++ below) = ([], below) := by
  induction directory with
  | nil => cases below <;> rfl
  | cons s rest ih => rw [List.cons_append, dropShared, if_pos rfl, ih]

theorem relative_append (directory : List Text) {below : List Text} (h : below ≠ []) :
    relative directory (directory ++ below) = Text.join "/" below := by
  rw [relative, dropShared_append]
  obtain ⟨s, rest, rfl⟩ := List.exists_cons_of_ne_nil h
  rfl

end Path

namespace Preprocessor

/-- Where the working directory is the root, a file below it is known by its own path. -/
theorem relativePath_below {p : Preprocessor} {file : Text} (hroot : p.root = p.directory)
    (ha : Path.isAbsolute file = false) (hp : Path.parent ∉ Path.segments file)
    (hs : Path.segments file ≠ []) :
    p.relativePath file = Text.join "/" (Path.segments file) := by
  rw [relativePath, hroot, Path.resolve_below ha hp, Path.relative_append _ hs]

/-- The preprocessor after one more file. -/
def next (p : Preprocessor) (file source : Text) : Preprocessor :=
  { p with environment := (p.transform file source).environment }

/-- The preprocessor after several files, given by their names and sources. -/
def after (p : Preprocessor) (files : List (Text × Text)) : Preprocessor :=
  files.foldl (fun p f => p.next f.1 f.2) p

theorem after_cons (p : Preprocessor) (file source : Text) (rest : List (Text × Text)) :
    p.after ((file, source) :: rest) = (p.next file source).after rest := rfl

/-- Files change nothing of a preprocessor but its variables. -/
theorem after_eq (p : Preprocessor) (files : List (Text × Text)) :
    p.after files = { p with environment := (p.after files).environment } := by
  induction files generalizing p with
  | nil => rfl
  | cons f rest ih => exact ih (p.next f.1 f.2)

theorem relativePath_after (p : Preprocessor) (files : List (Text × Text)) (file : Text) :
    (p.after files).relativePath file = p.relativePath file := by
  rw [after_eq]
  rfl

/-- The parts of a preprocessor come each from one option. -/
theorem ofOptions_eq_ok {options : Options} {p : Preprocessor} (h : ofOptions options = .ok p) :
    (∃ pairs, options.values = .bindings pairs ∧
      Environment.ofBindings pairs = .ok p.environment) ∧
      CommentFilter.ofSelection options.comments = .ok p.filter ∧
      ExtensionTable.ofRequest options.extensions = .ok p.extensions ∧
      resolveRoot options.directory options.root = .ok p.root ∧
      options.sourceMaps = some p.sourceMaps ∧ options.directory = p.directory := by
  rw [ofOptions] at h
  cases hv : options.values with
  | bindings pairs =>
      rw [hv] at h
      obtain ⟨environment, he, h⟩ := bind_eq_ok.mp h
      obtain ⟨filter, hf, h⟩ := bind_eq_ok.mp h
      obtain ⟨extensions, hx, h⟩ := bind_eq_ok.mp h
      obtain ⟨root, hr, h⟩ := bind_eq_ok.mp h
      split at h
      · rename_i sourceMaps hm
        cases h
        exact ⟨⟨pairs, rfl, mapError_eq_ok.mp he⟩, mapError_eq_ok.mp hf, mapError_eq_ok.mp hx, hr,
          hm, rfl⟩
      · cases h
  | other =>
      rw [hv] at h
      cases h

theorem wellFormed_ofOptions {options : Options} {p : Preprocessor}
    (h : ofOptions options = .ok p) : p.environment.WellFormed := by
  obtain ⟨⟨pairs, -, he⟩, -⟩ := ofOptions_eq_ok h
  exact Environment.wellFormed_ofBindings he

variable {p : Preprocessor} {file source : Text}

/-- A file leaves the variables as some line of it is reached with, or as its last line does. -/
theorem transform_environment (p : Preprocessor) (file source : Text) :
    ∃ i run, p.before file source i = .ok run ∧
      (p.transform file source).environment = run.environment := by
  cases hs : (p.start file).steps (p.commentStyle file) file 1 (Line.split source) with
  | error halt =>
      obtain ⟨i, mid, -, hm, -, he, -⟩ := Run.steps_eq_error hs
      rw [transform_of_error hs]
      exact ⟨i, mid, hm, he⟩
  | ok final =>
      rw [transform_of_ok hs]
      exact ⟨_, final, before_length.trans hs, rfl⟩

theorem wellFormed_before (h : p.environment.WellFormed) {i : Nat} {run : Run}
    (hr : p.before file source i = .ok run) : run.environment.WellFormed := by
  have hv : (Value.str (p.relativePath file)).Supported := rfl
  refine Run.steps_invariant ?_ (h.seed hv) hr
  intro line _ action ha env after he hu
  exact Action.wellFormed_update (Directive.excerpt_of_action? ha) he hu

theorem builtIn_before {i : Nat} {run : Run} (hr : p.before file source i = .ok run) :
    run.environment.value? Environment.builtIn = some (.str (p.relativePath file)) := by
  refine Run.steps_invariant (I := fun env => env.value? Environment.builtIn = _) ?_ ?_ hr
  · intro line _ action _ env after he hu
    exact (Action.value?_update (fun _ => rfl) hu).trans he
  · exact Table.find?_insert_self _ _ _

theorem wellFormed_after (h : p.environment.WellFormed) (files : List (Text × Text)) :
    (p.after files).environment.WellFormed := by
  induction files generalizing p with
  | nil => exact h
  | cons f rest ih =>
      apply ih
      obtain ⟨i, run, hr, he⟩ := p.transform_environment f.1 f.2
      change (p.transform f.1 f.2).environment.WellFormed
      rw [he]
      exact wellFormed_before h hr

/-- However many files a preprocessor has taken, and however they ended, its variables are named as
they should be and hold what they can. While a file is at work, from its first line to its end, the
built-in variable holds the file's path. -/
theorem session_environment {options : Options} {p : Preprocessor} (h : ofOptions options = .ok p)
    (files : List (Text × Text)) :
    (p.after files).environment.WellFormed ∧
      ∀ file source,
        (∀ i run, (p.after files).before file source i = .ok run →
          run.environment.WellFormed ∧
            run.environment.value? Environment.builtIn = some (.str (p.relativePath file))) ∧
        ((p.after files).transform file source).environment.value? Environment.builtIn =
          some (.str (p.relativePath file)) := by
  have hw := wellFormed_after (wellFormed_ofOptions h) files
  refine ⟨hw, ?_⟩
  intro file source
  rw [← p.relativePath_after files file]
  constructor
  · intro i run hr
    exact ⟨wellFormed_before hw hr, builtIn_before hr⟩
  · obtain ⟨i, run, hr, he⟩ := (p.after files).transform_environment file source
    rw [he]
    exact builtIn_before hr

/-- Variables of which one is taken for the built-in one, and a root below the working directory. -/
def suppliedOptions : Options :=
  { values := .bindings
      [(some "__FILE", .null), (some "__L", .list 0 .list [.dict 1 [(.name "a", .int 7)]])]
    comments := .flag true
    root := .path "src"
    directory := ["home", "u"] }

def supplied : Preprocessor :=
  { environment :=
      ⟨[("__FILE", .null), ("__L", .list 0 .list [.dict 1 [(.name "a", .int 7)]])]⟩
    filter := { keepAll := true }
    extensions := .byDefault
    root := ["home", "u", "src"]
    sourceMaps := true
    directory := ["home", "u"] }

/-- The first file fails after a variable is set; the second one tries to change the built-in one. -/
def session : List (Text × Text) :=
  [("src/a.js", Line.written [⟨"//#set __A __L[0]", "\n"⟩, ⟨"//#error", "\n"⟩]),
    ("/home/u/src/b.js", Line.written [⟨"//#set __FILE 1", "\n"⟩, ⟨"//#unset __FILE", "\n"⟩])]

theorem session_environment_supplied :
    ofOptions suppliedOptions = .ok supplied ∧
      (supplied.after session).environment.WellFormed ∧
      ((supplied.after session).transform "src/c/d.js" "//#unset __FILE").environment.value?
        Environment.builtIn = some (.str "c/d.js") := by
  have hp : ofOptions suppliedOptions = .ok supplied := rfl
  obtain ⟨hw, hf⟩ := session_environment hp session
  have hr : supplied.relativePath "src/c/d.js" = "c/d.js" := by decide +kernel
  exact ⟨hp, hw, hr ▸ (hf _ _).2⟩

end Preprocessor

end Prepass
