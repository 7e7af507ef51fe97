/- A build is determined by the outcomes of the accepted files, taken one after another, whether it
keeps going or ends with the first problem. -/
import Prepass.Proofs.Run.Escape
namespace Prepass

instance Fault.decidableReported (fault : Fault) : Decidable fault.Reported :=
  match fault with
  | .reported d => isTrue ⟨d, rfl⟩
  | .numberTooLarge | .malformedIndex _ | .unknownOperator _ | .unfinishedTree => isFalse nofun

instance FailsOnly.decidable {ε α : Type} {P : ε → Prop} [DecidablePred P] (x : Except ε α) :
    Decidable (FailsOnly P x) :=
  match x with
  | .ok a => isTrue (.ok a)
  | .error e => decidable_of_iff (P e) ⟨.error, fun h => h e rfl⟩

namespace Transformed

def made? (t : Transformed) : Option TransformResult := t.result.toOption

def problem? (t : Transformed) : Option Diagnostic :=
  match t.result with
  | .error (.reported d) => some d
  | _ => none

/-- What the log holds after a file whose problems are logged too. -/
def notes (t : Transformed) : Log := t.log ++ t.problem?.toList.map fun d => ⟨.error, d.message⟩

theorem made_or_problem {t : Transformed} (h : FailsOnly Fault.Reported t.result) :
    (∃ r, t.result = .ok r) ∨ ∃ d, t.result = .error (.reported d) := by
  cases hr : t.result with
  | ok r => exact Or.inl ⟨r, rfl⟩
  | error fault =>
      obtain ⟨d, rfl⟩ := h fault hr
      exact Or.inr ⟨d, rfl⟩

theorem made?_of_ok {t : Transformed} {r : TransformResult} (h : t.result = .ok r) :
    t.made? = some r := by
  rw [made?, h]
  rfl

theorem problem?_of_ok {t : Transformed} {r : TransformResult} (h : t.result = .ok r) :
    t.problem? = none := by
  rw [problem?, h]

theorem made?_of_error {t : Transformed} {fault : Fault} (h : t.result = .error fault) :
    t.made? = none := by
  rw [made?, h]
  rfl

theorem problem?_of_error {t : Transformed} {d : Diagnostic}
    (h : t.result = .error (.reported d)) : t.problem? = some d := by
  rw [problem?, h]

variable {α : Type} (view : Transformed → Option α)

/-- What the last outcome of a name shows, of those that show something. -/
def latest (outcomes : List (Text × Transformed)) (name : Text) : Option α :=
  outcomes.reverse.findSome? fun t => if t.1 = name then view t.2 else none

/-- A table in which each outcome that shows something is entered under its name. -/
def enter (table : Table Text α) (outcomes : List (Text × Transformed)) : Table Text α :=
  outcomes.foldl (fun table t => (view t.2).elim table (table.insert t.1)) table

theorem latest_cons (file : Text) (t : Transformed) (rest : List (Text × Transformed))
    (name : Text) :
    latest view ((file, t) :: rest) name =
      (latest view rest name).or (if file = name then view t else none) := by
  rw [latest, List.reverse_cons, List.findSome?_append]
  congr 1
  cases h : if file = name then view t else none with
  | none => simp only [List.findSome?_cons, List.findSome?_nil, h]
  | some a => simp only [List.findSome?_cons, h]

theorem enter_cons (table : Table Text α) (file : Text) (t : Transformed)
    (rest : List (Text × Transformed)) :
    enter view table ((file, t) :: rest) =
      enter view ((view t).elim table (table.insert file)) rest := rfl

theorem find?_enter (table : Table Text α) (outcomes : List (Text × Transformed)) (name : Text) :
    (enter view table outcomes).find? name =
      (latest view outcomes name).or (table.find? name) := by
  induction outcomes generalizing table with
  | nil => rfl
  | cons outcome rest ih =>
      obtain ⟨file, t⟩ := outcome
      rw [latest_cons, Option.or_assoc, enter_cons, ih]
      congr 1
      cases view t with
      | none => rw [ite_self, Option.none_or, Option.elim_none]
      | some a =>
          rw [Option.elim_some]
          by_cases hn : file = name
          · rw [if_pos hn, hn, Table.find?_insert_self, Option.some_or]
          · rw [if_neg hn, Option.none_or, Table.find?_insert_of_ne (Ne.symm hn)]

end Transformed

namespace Preprocessor

/-- The files that are not skipped. -/
def accepted (p : Preprocessor) (files : List (Text × Text)) : List (Text × Text) :=
  files.filter fun f => p.accepts f.1

/-- What becomes of files, each of which is transformed from the variables that the one before it
leaves. -/
def outcomes (p : Preprocessor) : List (Text × Text) → List (Text × Transformed)
  | [] => []
  | (file, source) :: rest =>
    (file, p.transform file source) :: (p.next file source).outcomes rest

section BuildFrom

variable {p : Preprocessor} {file source : Text} {rest : List (Text × Text)} {build : Build}
  {log : Log} {keepGoing : Bool}

theorem buildFrom_skip (ha : p.accepts file = false) :
    p.buildFrom keepGoing build log ((file, source) :: rest) =
      p.buildFrom keepGoing build log rest := by
  rw [buildFrom, ha]
  rfl

theorem buildFrom_made {r : TransformResult} (ha : p.accepts file = true)
    (hr : (p.transform file source).result = .ok r) :
    p.buildFrom keepGoing build log ((file, source) :: rest) =
      (p.next file source).buildFrom keepGoing
        { build with results := build.results.insert file r }
        (log ++ (p.transform file source).log) rest := by
  rw [buildFrom, ha]
  simp only [Bool.not_true, Bool.false_eq_true, if_false, hr]
  rfl

theorem buildFrom_problem {d : Diagnostic} (ha : p.accepts file = true)
    (hr : (p.transform file source).result = .error (.reported d)) :
    p.buildFrom keepGoing build log ((file, source) :: rest) =
      if keepGoing then
        (p.next file source).buildFrom keepGoing { build with errors := build.errors.insert file d }
          (log ++ (p.transform file source).log ++ [⟨.error, d.message⟩]) rest
      else
        ⟨.error (.reported d), (p.next file source).environment,
          log ++ (p.transform file source).log⟩ := by
  rw [buildFrom, ha]
  simp only [Bool.not_true, Bool.false_eq_true, if_false, hr]
  rfl

/-- Files that are not accepted have no part in a build. -/
theorem buildFrom_accepted (p : Preprocessor) (keepGoing : Bool) (build : Build) (log : Log)
    (files : List (Text × Text)) :
    p.buildFrom keepGoing build log files = p.buildFrom keepGoing build log (p.accepted files) := by
  induction files generalizing p build log with
  | nil => rfl
  | cons f rest ih =>
      obtain ⟨file, source⟩ := f
      cases ha : p.accepts file with
      | false =>
          have hskip : p.accepted ((file, source) :: rest) = p.accepted rest :=
            List.filter_cons_of_neg (by rw [ha]; exact Bool.false_ne_true)
          rw [buildFrom_skip ha, hskip, ih]
      | true =>
          have hkeep : p.accepted ((file, source) :: rest) = (file, source) :: p.accepted rest :=
            List.filter_cons_of_pos ha
          have hnext : (p.next file source).accepted rest = p.accepted rest := rfl
          rw [hkeep, buildFrom, buildFrom]
          simp only [ih, ha, ← hnext]
          rfl

theorem accepts_of_mem_accepted (p : Preprocessor) (files : List (Text × Text)) :
    ∀ f ∈ p.accepted files, p.accepts f.1 = true :=
  fun _ hf => (List.mem_filter.mp hf).2

/-- With all files accepted, a build that keeps going comes to its end, unless a file fails in a way
that is not reported. -/
theorem buildFrom_keepGoing {files : List (Text × Text)} (ha : ∀ f ∈ files, p.accepts f.1 = true)
    (h : ∀ t ∈ p.outcomes files, FailsOnly Fault.Reported t.2.result) :
    p.buildFrom true build log files =
      ⟨.ok ⟨Transformed.enter Transformed.made? build.results (p.outcomes files),
          Transformed.enter Transformed.problem? build.errors (p.outcomes files)⟩,
        (p.after files).environment,
        log ++ (p.outcomes files).flatMap fun t => t.2.notes⟩ := by
  induction files generalizing p build log with
  | nil =>
      rw [outcomes, List.flatMap_nil, List.append_nil]
      rfl
  | cons f rest ih =>
      obtain ⟨file, source⟩ := f
      obtain ⟨hf, hrest⟩ := List.forall_mem_cons.mp ha
      obtain ⟨hfirst, hothers⟩ := List.forall_mem_cons.mp h
      have hih := fun build log => @ih (p.next file source) build log hrest hothers
      rw [outcomes, Transformed.enter_cons, Transformed.enter_cons, List.flatMap_cons,
        Transformed.notes, after_cons]
      rcases Transformed.made_or_problem hfirst with ⟨r, hr⟩ | ⟨d, hr⟩
      · rw [buildFrom_made hf hr, hih, Transformed.made?_of_ok hr, Transformed.problem?_of_ok hr]
        simp only [Option.elim_some, Option.elim_none, Option.toList_none, List.map_nil,
          List.append_nil, List.append_assoc]
      · rw [buildFrom_problem hf hr, if_pos rfl, hih, Transformed.made?_of_error hr,
          Transformed.problem?_of_error hr]
        simp only [Option.elim_some, Option.elim_none, Option.toList_some, List.map_cons,
          List.map_nil, List.append_assoc]

/-- Up to the first problem, it makes no difference whether a build keeps going. -/
theorem buildFrom_append {files : List (Text × Text)} (ha : ∀ f ∈ files, p.accepts f.1 = true)
    (h : ∀ t ∈ p.outcomes files, ∃ r, t.2.result = .ok r) :
    p.buildFrom keepGoing build log (files ++ rest) =
      (p.after files).buildFrom keepGoing
        { build with
          results := Transformed.enter Transformed.made? build.results (p.outcomes files) }
        (log ++ (p.outcomes files).flatMap fun t => t.2.log) rest := by
  induction files generalizing p build log with
  | nil =>
      rw [outcomes, List.flatMap_nil, List.append_nil]
      rfl
  | cons f more ih =>
      obtain ⟨file, source⟩ := f
      obtain ⟨hf, hmore⟩ := List.forall_mem_cons.mp ha
      obtain ⟨⟨r, hr⟩, hothers⟩ := List.forall_mem_cons.mp h
      have hih := fun build log => @ih (p.next file source) build log hmore hothers
      rw [List.cons_append, buildFrom_made hf hr, hih, outcomes, Transformed.enter_cons,
        Transformed.made?_of_ok hr, Option.elim_some, List.flatMap_cons, List.append_assoc]
      rfl

theorem build_of_made {files : List (Text × Text)} (ha : ∀ f ∈ files, p.accepts f.1 = true)
    (h : ∀ t ∈ p.outcomes files, ∃ r, t.2.result = .ok r) :
    p.build keepGoing files =
      ⟨.ok { results := Transformed.enter Transformed.made? [] (p.outcomes files) },
        (p.after files).environment, (p.outcomes files).flatMap fun t => t.2.log⟩ := by
  have hnil : p.build keepGoing files = p.buildFrom keepGoing {} [] (files ++ []) := by
    rw [List.append_nil]
    rfl
  rw [hnil, buildFrom_append ha h]
  rfl

theorem exists_first_problem {files : List (Text × Text)}
    (h : ∀ t ∈ p.outcomes files, FailsOnly Fault.Reported t.2.result)
    (hnot : ¬ ∀ t ∈ p.outcomes files, ∃ r, t.2.result = .ok r) :
    ∃ done file source rest d, files = done ++ (file, source) :: rest ∧
      (∀ t ∈ p.outcomes done, ∃ r, t.2.result = .ok r) ∧
      ((p.after done).transform file source).result = .error (.reported d) := by
  induction files generalizing p with
  | nil => exact absurd nofun hnot
  | cons f more ih =>
      obtain ⟨file, source⟩ := f
      obtain ⟨hfirst, hothers⟩ := List.forall_mem_cons.mp h
      rcases Transformed.made_or_problem hfirst with hmade | ⟨d, hd⟩
      · have hnext : ¬ ∀ t ∈ (p.next file source).outcomes more, ∃ r, t.2.result = .ok r :=
          fun hall => hnot (List.forall_mem_cons.mpr ⟨hmade, hall⟩)
        obtain ⟨done, other, text, rest, d, rfl, hdone, hd⟩ := ih hothers hnext
        exact ⟨(file, source) :: done, other, text, rest, d, rfl,
          List.forall_mem_cons.mpr ⟨hmade, hdone⟩, hd⟩
      · exact ⟨[], file, source, more, d, rfl, nofun, hd⟩

/-- A build that does not keep going ends with the first problem. -/
theorem build_first_problem {done : List (Text × Text)} {d : Diagnostic}
    (ha : ∀ f ∈ done ++ (file, source) :: rest, p.accepts f.1 = true)
    (hdone : ∀ t ∈ p.outcomes done, ∃ r, t.2.result = .ok r)
    (hd : ((p.after done).transform file source).result = .error (.reported d)) :
    (∃ b, (p.build true (done ++ [(file, source)])).result = .ok b ∧ b.errors = [(file, d)]) ∧
      (p.build false (done ++ (file, source) :: rest)).result = .error (.reported d) ∧
      (p.build false (done ++ (file, source) :: rest)).environment =
        (p.build true (done ++ [(file, source)])).environment := by
  obtain ⟨hd', hrest⟩ := List.forall_mem_append.mp ha
  have hf : (p.after done).accepts file = true := by
    have hx : (p.after done).extensions = p.extensions := by rw [after_eq]
    rw [accepts, hx]
    exact hrest (file, source) List.mem_cons_self
  rw [build, build, buildFrom_append hd' hdone, buildFrom_append hd' hdone,
    buildFrom_problem hf hd, buildFrom_problem hf hd]
  exact ⟨⟨_, rfl, rfl⟩, rfl, rfl⟩

end BuildFrom

/-- A build that does not keep going ends with the first problem, and leaves the variables as the
build that keeps going has them right behind that file. -/
def EndsEarly (p : Preprocessor) (files : List (Text × Text)) : Prop :=
  ∃ done file source rest d b, p.accepted files = done ++ (file, source) :: rest ∧
    (∀ t ∈ p.outcomes done, ∃ r, t.2.result = .ok r) ∧
    (p.build true (done ++ [(file, source)])).result = .ok b ∧ b.errors = [(file, d)] ∧
    (p.build false files).result = .error (.reported d) ∧
    (p.build false files).environment = (p.build true (done ++ [(file, source)])).environment

section Outcomes

variable {p : Preprocessor} {files : List (Text × Text)}

theorem build_accepted (p : Preprocessor) (keepGoing : Bool) (files : List (Text × Text)) :
    p.build keepGoing files = p.build keepGoing (p.accepted files) :=
  p.buildFrom_accepted keepGoing {} [] files

theorem endsEarly_of_problem
    (h : ∀ t ∈ p.outcomes (p.accepted files), FailsOnly Fault.Reported t.2.result)
    (hnot : ¬ ∀ t ∈ p.outcomes (p.accepted files), ∃ r, t.2.result = .ok r) :
    p.EndsEarly files := by
  have ha := p.accepts_of_mem_accepted files
  obtain ⟨done, file, source, rest, d, he, hdone, hd⟩ := exists_first_problem h hnot
  obtain ⟨⟨b, hb, hbe⟩, hresult, henv⟩ := build_first_problem (he ▸ ha) hdone hd
  rw [← he, ← build_accepted] at hresult henv
  exact ⟨done, file, source, rest, d, b, he, hdone, hb, hbe, hresult, henv⟩

/-- Where each accepted file is transformed or has its problem reported, a build that keeps going
takes them in order and holds, for each name, the last result and the last problem. A build that
does not keep going is the same if there is no problem, and ends early otherwise. The other files
have no part in either. -/
theorem build_outcomes
    (h : ∀ t ∈ p.outcomes (p.accepted files), FailsOnly Fault.Reported t.2.result) :
    (∀ keepGoing, p.build keepGoing files = p.build keepGoing (p.accepted files)) ∧
    (∃ b, (p.build true files).result = .ok b ∧
      (∀ name, b.results.find? name =
        Transformed.latest Transformed.made? (p.outcomes (p.accepted files)) name) ∧
      ∀ name, b.errors.find? name =
        Transformed.latest Transformed.problem? (p.outcomes (p.accepted files)) name) ∧
    (p.build true files).environment = (p.after (p.accepted files)).environment ∧
    ((p.build false files = p.build true files ∧
        ∃ b, (p.build true files).result = .ok b ∧ b.errors = []) ↔
      ∀ t ∈ p.outcomes (p.accepted files), ∃ r, t.2.result = .ok r) ∧
    ((¬ ∀ t ∈ p.outcomes (p.accepted files), ∃ r, t.2.result = .ok r) → p.EndsEarly files) := by
  have ha := p.accepts_of_mem_accepted files
  have hgoing : p.build true (p.accepted files) = _ := buildFrom_keepGoing ha h
  refine ⟨fun keepGoing => p.build_accepted keepGoing files, ?_, ?_, ?_, endsEarly_of_problem h⟩
  · rw [build_accepted, hgoing]
    refine ⟨_, rfl, ?_, ?_⟩
    · intro name
      rw [Transformed.find?_enter]
      exact Option.or_none
    · intro name
      rw [Transformed.find?_enter]
      exact Option.or_none
  · rw [build_accepted, hgoing]
  · constructor
    · rintro ⟨hsame, b, hb, -⟩
      by_contra hnot
      obtain ⟨_, _, _, _, d, _, _, _, _, _, hresult, _⟩ := endsEarly_of_problem h hnot
      rw [hsame, hb] at hresult
      cases hresult
    · intro hall
      rw [build_accepted, p.build_accepted true, build_of_made ha hall, build_of_made ha hall]
      exact ⟨rfl, _, rfl, rfl⟩

end Outcomes

/-- Names come again, one file is skipped, and one fails after it has changed a variable. -/
def mixedFiles : List (Text × Text) :=
  [("/src/a.js", "//#set __A 1"), ("/src/c.txt", "//#set __A 3"),
    ("/src/b.js", Line.written [⟨"//#set __A 2", "\n"⟩, ⟨"//#error first", "\n"⟩]),
    ("/src/a.js", "__A"), ("/src/b.js", "__A"), ("/src/b.js", "//#endif")]

theorem build_outcomes_mixed :
    (∀ t ∈ supplied.outcomes (supplied.accepted mixedFiles),
      FailsOnly Fault.Reported t.2.result) ∧
    (∃ b, (supplied.build true mixedFiles).result = .ok b ∧
      (b.results.find? "/src/a.js").map TransformResult.code = some "2" ∧
      (b.results.find? "/src/b.js").map TransformResult.code = some "2" ∧
      b.results.find? "/src/c.txt" = none ∧
      (b.errors.find? "/src/b.js").map Diagnostic.line = some (some 1)) ∧
    supplied.EndsEarly mixedFiles := by
  have h : ∀ t ∈ supplied.outcomes (supplied.accepted mixedFiles),
      FailsOnly Fault.Reported t.2.result := by
    decide +kernel
  obtain ⟨-, ⟨b, hb, hresults, herrors⟩, -, -, hearly⟩ := build_outcomes h
  refine ⟨h, ⟨b, hb, ?_⟩, hearly ?_⟩
  · rw [hresults, hresults, hresults, herrors]
    decide +kernel
  · have hsome : ∃ t ∈ supplied.outcomes (supplied.accepted mixedFiles), t.2.made? = none := by
      decide +kernel
    obtain ⟨t, ht, hn⟩ := hsome
    intro hall
    obtain ⟨r, hr⟩ := hall t ht
    rw [Transformed.made?_of_ok hr] at hn
    cases hn

end Preprocessor

end Prepass
