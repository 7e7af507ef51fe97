/- The scanner comes to the end of every line of a file, unless a block comment both begins and ends
with nothing. -/
import Prepass.Proofs.Comment.Shape
import Prepass.Proofs.Environment.Bindings
import Prepass.Proofs.Run.Calls
import Prepass.Proofs.Run.Whole
namespace Prepass

namespace ScanLoop

variable {style : CommentStyle} {c : CodePoint} {rest : Text} {w v : ScanLoop}

/-- The loop at a character, outside or inside of a comment without delimiters. -/
inductive Spins (c : CodePoint) (rest : Text) : ScanLoop → Prop
  | outside {significant : Significant} {count : Nat} {before : Option CodePoint} {column : Nat}
      {held : Text} {found : LinePieces} :
      Spins c rest (code .topLevel significant count before column held found (c :: rest))
  | inside {parts : List Text} {significant : Significant} {count : Nat}
      {before : Option CodePoint} {column : Nat} {held : Text} {found : LinePieces} :
      Spins c rest
        (inBlock ⟨[], []⟩ parts significant count before column held found (c :: rest))

/-- A round goes in or out, and takes nothing of the line. -/
theorem Spins.step (hl : style.lineOpener? (c :: rest) = none)
    (hb : style.blocks.find? (·.opener.isPrefixOf (c :: rest)) = some ⟨[], []⟩)
    (h : Spins c rest w) (hs : w.step style = some v) : Spins c rest v := by
  cases h with
  | outside =>
      rw [step_block _ _ _ _ _ _ (List.nil_append (c :: rest)) hl hb] at hs
      cases hs
      exact .inside
  | @inside parts significant count before column held found =>
      have hround : (inBlock ⟨[], []⟩ parts significant count before column held found
          (c :: rest)).step style = some ((inBlock ⟨[], []⟩ parts significant count before column
            held found (c :: rest)).advance 0).flush.endComment.pop :=
        (step_blockComment style rfl rfl (List.cons_ne_nil c rest)).trans (if_pos rfl)
      rw [advance_zero, flush_inBlock, pop_endComment_inBlock, hs] at hround
      cases hround
      exact .outside

theorem Spins.endless (hl : style.lineOpener? (c :: rest) = none)
    (hb : style.blocks.find? (·.opener.isPrefixOf (c :: rest)) = some ⟨[], []⟩)
    (h : Spins c rest w) : ¬ Runs style w v := by
  intro hr
  induction hr with
  | done hr => cases h <;> cases hr
  | next hr hs hu ih => exact ih (h.step hl hb hs)

end ScanLoop

namespace CommentScanner

variable {style : CommentStyle} {s : CommentScanner}

/-- Where a comment without delimiters comes first, the loop goes in and out of it for ever. -/
theorem endless_enter {c : CodePoint} {rest : Text} (hm : s.mode = .topLevel)
    (hc : s.current = none) (hl : style.lineOpener? (c :: rest) = none)
    (hb : style.blocks.find? (·.opener.isPrefixOf (c :: rest)) = some ⟨[], []⟩) (v : ScanLoop) :
    ¬ ScanLoop.Runs style (s.enter (c :: rest)) v := by
  have henter : s.enter (c :: rest) =
      ScanLoop.code .topLevel s.significant s.count none 0 [] {} (c :: rest) := by
    rw [enter, registers, hm, hc]
    rfl
  rw [henter]
  exact ScanLoop.Spins.endless hl hb .outside

/-- The scanner of a style between two lines. -/
structure Ready (style : CommentStyle) (s : CommentScanner) : Prop where
  style_eq : s.style = style
  settled : s.registers.Settled style

theorem Ready.start (style : CommentStyle) : Ready style { style } :=
  ⟨rfl, .topLevel ⟨rfl, rfl, rfl, rfl⟩⟩

theorem Ready.process (hd : style.Delimiting) (h : s.Ready style) (line : Text) :
    (s.process line).2.Ready style := by
  obtain ⟨rfl, hs⟩ := h
  exact ⟨s.style_process line, settled_process hd hs line⟩

theorem Ready.finishes (hd : style.Delimiting) (h : s.Ready style) (line : Text) :
    ScanLoop.Finishes style line (s.enter line)
      ((s.process line).1, (s.process line).2.registers) := by
  obtain ⟨rfl, hs⟩ := h
  exact finishes_process hd (mode_of_settled hs) line

end CommentScanner

theorem Output.take_ready {style : CommentStyle} (hd : style.Delimiting) {out next : Output}
    (h : out.scanner.Ready style) {call : OutputCall} (ht : out.take call = .ok next) :
    next.scanner.Ready style := by
  cases call with
  | code env number line =>
      rw [take, code_eq] at ht
      obtain ⟨content, -, rfl⟩ := map_eq_ok.mp ht
      rw [add_scanner]
      exact h.process hd line.text
  | blank number line =>
      cases ht
      rw [blank, add_scanner]
      exact h

theorem Run.steps_ready {style : CommentStyle} (hd : style.Delimiting) {file : Text}
    {run final : Run} {number : Nat} {lines : List Line} (h : run.output.scanner.Ready style)
    (hs : run.steps style file number lines = .ok final) : final.output.scanner.Ready style := by
  induction lines generalizing run number with
  | nil =>
      cases hs
      exact h
  | cons line rest ih =>
      obtain ⟨next, hn, hs⟩ := bind_eq_ok.mp hs
      exact ih (Output.take_ready hd h (step_output hn)) hs

/-- The block comments of all styles have delimiters. -/
def ExtensionTable.Delimiting (table : ExtensionTable) : Prop := ∀ entry ∈ table, entry.2.Delimiting

/-- The styles that are given in full have delimiters for their block comments. -/
def ExtensionRequest.Delimiting : ExtensionRequest → Prop
  | .mapping entries => ∀ entry ∈ entries, ∀ style, entry.2 = .given style → style.Delimiting
  | .default | .known _ | .other => True

namespace ExtensionTable

variable {table : ExtensionTable} {style : CommentStyle}

instance (table : ExtensionTable) : Decidable table.Delimiting :=
  inferInstanceAs (Decidable (∀ entry ∈ table, entry.2.Delimiting))

theorem delimiting_byDefault : byDefault.Delimiting := by decide

theorem delimiting_wellKnown : wellKnown.Delimiting := by decide

theorem delimiting_insert (h : table.Delimiting) (extension : Text) (hs : style.Delimiting) :
    Delimiting (table.insert extension style) := by
  intro entry he
  rcases Table.mem_insert he with rfl | he
  · exact hs
  · exact h entry he

theorem delimiting_named {name : Text} (h : CommentStyle.named? name = some style) :
    style.Delimiting := by
  have hall : ∀ style ∈ [CommentStyle.javascript, .stylesheet, .markup], style.Delimiting := by
    decide
  exact hall style (List.mem_of_find?_eq_some h)

theorem delimiting_addKnown (h : table.Delimiting) (label : ExtensionLabel) :
    Yields Delimiting (addKnown table label) := by
  refine Yields.bind (Q := fun _ => True) (fun _ _ => trivial) fun extension _ => ?_
  split
  · rename_i style hs
    exact .ok (delimiting_insert h extension (delimiting_wellKnown _ (Table.mem_of_find? hs)))
  · exact .error _

theorem delimiting_addMapped (h : table.Delimiting) (entry : ExtensionLabel × StyleChoice)
    (hg : ∀ style, entry.2 = .given style → style.Delimiting) :
    Yields Delimiting (addMapped table entry) := by
  have hinsert {style : CommentStyle} (hs : style.Delimiting) :
      Yields Delimiting (do
        let extension ← labelText entry.1
        return table.insert extension style) :=
    Yields.bind (Q := fun _ => True) (fun _ _ => trivial) fun extension _ =>
      .ok (delimiting_insert h extension hs)
  unfold addMapped
  split
  · rename_i style he
    exact hinsert (hg style he)
  · split
    · rename_i style hs
      exact hinsert (delimiting_named hs)
    · exact .error _
  · exact .error _

theorem delimiting_ofRequest {request : ExtensionRequest} (h : request.Delimiting) :
    Yields Delimiting (ofRequest request) := by
  cases request with
  | default => exact .ok delimiting_byDefault
  | other => exact .error _
  | known labels =>
      refine Yields.foldlM ?_ delimiting_byDefault
      intro label _ table ht
      exact delimiting_addKnown ht label
  | mapping entries =>
      refine Yields.foldlM ?_ delimiting_byDefault
      intro entry he table ht
      exact delimiting_addMapped ht entry (h entry (Table.mem_ofPairs he))

end ExtensionTable

namespace Preprocessor

variable {p : Preprocessor}

theorem delimiting_commentStyle (h : p.extensions.Delimiting) (file : Text) :
    (p.commentStyle file).Delimiting := by
  rw [commentStyle]
  cases hf : p.extensions.find? (Path.extension file) with
  | none => decide
  | some style => exact h _ (Table.mem_of_find? hf)

/-- On each line that is reached, the scanner's loop comes to the end of the line, with what the
scanner gives for it. -/
def ScansLines (p : Preprocessor) (file source : Text) : Prop :=
  ∀ i run line, p.before file source i = .ok run → (Line.split source)[i]? = some line →
    let scanned := run.output.scanner.process line.text
    ScanLoop.Finishes (p.commentStyle file) line.text (run.output.scanner.enter line.text)
      (scanned.1, scanned.2.registers)

theorem scansLines (h : p.extensions.Delimiting) (file source : Text) :
    p.ScansLines file source := by
  intro i run line hr _
  have hd := delimiting_commentStyle h file
  have hready : run.output.scanner.Ready (p.commentStyle file) :=
    Run.steps_ready hd (.start _) hr
  exact hready.finishes hd line.text

end Preprocessor

end Prepass
