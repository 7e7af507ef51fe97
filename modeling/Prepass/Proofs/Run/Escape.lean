/- What can end a file, and with it a build, without being a problem that the file is told about. -/
import Prepass.Build
import Prepass.Proofs.Run.Scanning
import Prepass.Proofs.Run.Session
namespace Prepass

namespace Fault

def Reported (fault : Fault) : Prop := ∃ d, fault = .reported d

/-- Attributing a fault to a file matters only to those that are reported. -/
theorem Stopped.escapes {strays : Fault → Prop} {fault : Fault} {file : Text} {line : Nat}
    (h : fault.Stopped strays file line) (hi : strays fault → fault.Internal) :
    (fault.locate (some file) none).Reported ∨ strays (fault.locate (some file) none) := by
  cases h with
  | reported place kind origin => exact Or.inl ⟨_, rfl⟩
  | strays cause =>
      rw [(hi cause).locate_eq]
      exact Or.inr cause

end Fault

/-- Where lines up to one are taken and those up to the next are not, the one between fails. -/
theorem Run.step_of_steps_take {style : CommentStyle} {file : Text} {run mid : Run}
    {number i : Nat} {lines : List Line} {halt : Halt} (hi : i < lines.length)
    (hm : run.steps style file number (lines.take i) = .ok mid)
    (hs : run.steps style file number (lines.take (i + 1)) = .error halt) :
    mid.step style file (number + i) lines[i] = .error halt := by
  rw [List.take_succ_eq_append_getElem hi, steps_append, hm] at hs
  have hl : (lines.take i).length = i := List.length_take_of_le (Nat.le_of_lt hi)
  simp only [bind, Except.bind, hl] at hs
  rw [steps] at hs
  cases hstep : mid.step style file (number + i) lines[i] with
  | error found =>
      rw [hstep] at hs
      cases hs
      rfl
  | ok next =>
      rw [hstep] at hs
      cases hs

namespace Preprocessor

/-- A line of the file strays when it is reached. -/
def Strays (p : Preprocessor) (file source : Text) (fault : Fault) : Prop :=
  ∃ i run line, p.before file source i = .ok run ∧ (Line.split source)[i]? = some line ∧
    run.Strays (p.commentStyle file) line fault

variable {p : Preprocessor} {file source : Text}

theorem transform_escapes (p : Preprocessor) (file source : Text) :
    FailsOnly (fun fault => fault.Reported ∨ p.Strays file source fault)
      (p.transform file source).result := by
  cases hs : (p.start file).steps (p.commentStyle file) file 1 (Line.split source) with
  | error halt =>
      obtain ⟨i, mid, hi, hm, hstop, -, -⟩ := Run.steps_eq_error hs
      have hstep := Run.step_of_steps_take hi hm hstop
      obtain ⟨-, hstopped⟩ := Run.step_fails _ file mid _ _ halt hstep
      rw [transform_of_error hs]
      refine .error ((hstopped.escapes Run.Strays.internal).imp_right fun hstrays => ?_)
      exact ⟨i, mid, _, hm, List.getElem?_eq_getElem hi, hstrays⟩
  | ok final =>
      rw [transform_of_ok hs]
      refine FailsOnly.map ?_
      unfold BlockStack.close
      split
      · exact .ok _
      · exact .error (.inl ⟨_, rfl⟩)

/-- A file of a build that strays, in the state in which the accepted files before it leave the
variables. -/
def BuildStrays (p : Preprocessor) (files : List (Text × Text)) (fault : Fault) : Prop :=
  ∃ done file source rest, files = done ++ (file, source) :: rest ∧ p.accepts file = true ∧
    (p.after (done.filter fun f => p.accepts f.1)).Strays file source fault

theorem BuildStrays.skip {rest : List (Text × Text)} {fault : Fault}
    (ha : p.accepts file = false) (h : p.BuildStrays rest fault) :
    p.BuildStrays ((file, source) :: rest) fault := by
  obtain ⟨done, other, text, more, rfl, ho, hs⟩ := h
  refine ⟨(file, source) :: done, other, text, more, rfl, ho, ?_⟩
  rw [List.filter_cons, ha]
  exact hs

theorem BuildStrays.next {rest : List (Text × Text)} {fault : Fault}
    (ha : p.accepts file = true) (h : (p.next file source).BuildStrays rest fault) :
    p.BuildStrays ((file, source) :: rest) fault := by
  obtain ⟨done, other, text, more, rfl, ho, hs⟩ := h
  refine ⟨(file, source) :: done, other, text, more, rfl, ho, ?_⟩
  rw [List.filter_cons, ha, if_pos rfl, after_cons]
  exact hs

theorem buildFrom_escapes (p : Preprocessor) (build : Build) (log : Log)
    (files : List (Text × Text)) :
    FailsOnly (p.BuildStrays files) (p.buildFrom true build log files).result := by
  induction files generalizing p build log with
  | nil => exact .ok _
  | cons f rest ih =>
      obtain ⟨file, source⟩ := f
      rw [buildFrom]
      cases ha : p.accepts file with
      | false => exact (ih p build log).mono fun fault hs => hs.skip ha
      | true =>
          have hrest (build : Build) (log : Log) :
              FailsOnly (p.BuildStrays ((file, source) :: rest))
                ((p.next file source).buildFrom true build log rest).result :=
            (ih (p.next file source) build log).mono fun fault hs => hs.next ha
          simp only [Bool.not_true, Bool.false_eq_true, if_false]
          split
          · exact hrest _ _
          · exact hrest _ _
          · rename_i fault hnot hf
            refine .error ⟨[], file, source, rest, rfl, ha, ?_⟩
            rcases p.transform_escapes file source fault hf with ⟨d, rfl⟩ | hs
            · exact absurd rfl (hnot d)
            · exact hs

theorem extensions_after (p : Preprocessor) (files : List (Text × Text)) :
    (p.after files).extensions = p.extensions := by
  rw [after_eq]

theorem delimiting_ofOptions {options : Options} (hp : ofOptions options = .ok p)
    (h : options.extensions.Delimiting) : p.extensions.Delimiting := by
  obtain ⟨-, -, hx, -⟩ := ofOptions_eq_ok hp
  exact ExtensionTable.delimiting_ofRequest h _ hx

/-- Let the block comments of all styles have delimiters, and let nothing limit how deep expressions
and values nest. After any files, the scanner then comes to the end of each line of the next one.
That file is transformed, or what ends it is reported, unless one of its lines strays. What ends an
expression is reported as such, unless the expression strays. A build that keeps going comes to its
end unless one of its files strays. -/
theorem escapes_only_straying (p : Preprocessor) (h : p.extensions.Delimiting) :
    (∀ files file source, (p.after files).ScansLines file source ∧
      FailsOnly (fun fault => fault.Reported ∨ (p.after files).Strays file source fault)
        ((p.after files).transform file source).result) ∧
    (∀ env text, FailsOnly (Fault.Explained (text.Strays env)) (Expr.evalText env text) ∧
      FailsOnly (Fault.Explained (text.Strays env)) (Expr.evalCondition env text)) ∧
    ∀ files, FailsOnly (p.BuildStrays files) (p.build true files).result := by
  refine ⟨?_, ?_, p.buildFrom_escapes {} []⟩
  · intro files file source
    have hafter : (p.after files).extensions.Delimiting := p.extensions_after files ▸ h
    exact ⟨scansLines hafter file source, (p.after files).transform_escapes file source⟩
  · intro env text
    exact ⟨Expr.evalText_fails env text, Expr.evalCondition_fails env text⟩

/-- A text is asked for the item at a digit that is no decimal position. -/
def superscriptSource : Text :=
  Line.written [⟨"//#if \"a\"[\"²\"]", "\n"⟩, ⟨"x", "\n"⟩, ⟨"//#endif", "\n"⟩]

/-- A number of 1024 bits, all of them ones. -/
def oversizeSource : Text := Text.ofString "//#if 0x" ++ List.replicate 256 (CodePoint.ofChar 'F')

/-- Comments that both begin and end with nothing. -/
def undelimited : CommentStyle := { name := "undelimited", blocks := [⟨"", ""⟩] }

theorem transform_superscript :
    (supplied.transform "f.js" superscriptSource).result = .error (.malformedIndex "²") := by
  decide +kernel

theorem escapes_only_straying_superscript :
    supplied.extensions.Delimiting ∧ supplied.ScansLines "f.js" superscriptSource ∧
      supplied.Strays "f.js" superscriptSource (.malformedIndex "²") ∧
      FailsOnly (supplied.BuildStrays [("f.js", superscriptSource)])
        (supplied.build true [("f.js", superscriptSource)]).result := by
  have hp : ofOptions suppliedOptions = .ok supplied := rfl
  have hd := delimiting_ofOptions hp trivial
  obtain ⟨hfiles, -, hbuild⟩ := escapes_only_straying supplied hd
  obtain ⟨hscans, hfails⟩ := hfiles [] "f.js" superscriptSource
  obtain ⟨d, hreported⟩ | hstrays := hfails _ transform_superscript
  · cases hreported
  · exact ⟨hd, hscans, hstrays, hbuild _⟩

theorem unreported_escapes :
    (supplied.transform "f.js" superscriptSource).result = .error (.malformedIndex "²") ∧
      (supplied.transform "f.js" oversizeSource).result = .error .numberTooLarge ∧
      (supplied.build true [("f.js", superscriptSource), ("g.js", "y")]).result =
        .error (.malformedIndex "²") ∧
      (∀ n > 4300, Value.member (.str "a") (.str (List.replicate n '1')) =
        .error (.malformedIndex (List.replicate n '1'))) ∧
      ∀ v, ¬ ScanLoop.Runs undelimited (CommentScanner.enter { style := undelimited } "x") v := by
  have ha : supplied.accepts "f.js" = true := by decide +kernel
  refine ⟨transform_superscript, by decide +kernel, ?_, ?_, ?_⟩
  · simp only [build, buildFrom, ha, transform_superscript, Bool.not_true, Bool.false_eq_true,
      if_false]
  · intro n hn
    have hone : (CodePoint.ofChar '1').isDigit = true := by decide
    refine Value.member_of_malformed rfl rfl ⟨?_, .inr ?_⟩
    · intro c hc
      rw [List.eq_of_mem_replicate hc, hone]
    · rw [List.length_replicate]
      exact hn
  · intro v
    exact CommentScanner.endless_enter rfl rfl rfl rfl v

end Preprocessor

end Prepass
