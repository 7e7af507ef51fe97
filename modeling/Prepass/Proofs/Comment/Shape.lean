/- The shapes of the scanner's stack within a line and between two lines. -/
import Prepass.Proofs.Comment.Loop
namespace Prepass

theorem CommentStyle.modeAtNewline_cases (style : CommentStyle) (mode : ScanMode) :
    style.modeAtNewline mode = .topLevel ∨ ∃ quote ∈ style.multilineQuotes,
      style.modeAtNewline mode = .literal (.quotation quote) := by
  match mode with
  | .topLevel | .literal .regex | .literal .regexClass | .escaping .regex
  | .escaping .regexClass => exact .inl rfl
  | .literal (.quotation quote) | .escaping (.quotation quote) =>
    by_cases hm : style.multilineQuotes.contains quote = true
    · exact .inr ⟨quote, List.contains_iff_mem.mp hm, if_pos hm⟩
    · exact .inl (if_neg hm)

namespace Registers

/-- Outside of comments. -/
structure InCode (mode : ScanMode) (r : Registers) : Prop where
  stack : r.stack = mode.layers
  quote : r.quote = mode.quote?
  closer : r.closer = none
  comment : r.comment = none

/-- In a comment of one of the style's pairs of delimiters. -/
structure InBlock (style : CommentStyle) (r : Registers) : Prop where
  stack : r.stack = [.blockComment, .topLevel]
  quote : r.quote = none
  delimiters : ∃ d ∈ style.blocks, r.closer = some d.closer ∧
    ∃ parts, r.comment = some ⟨d.opener, parts, false⟩

/-- The shapes between two lines. -/
inductive Settled (style : CommentStyle) (r : Registers) : Prop
  | topLevel : r.InCode .topLevel → Settled style r
  | quotation {quote : CodePoint} : quote ∈ style.multilineQuotes →
      r.InCode (.literal (.quotation quote)) → Settled style r
  | blockComment : r.InBlock style → Settled style r

/-- The shapes within a line. -/
inductive Shaped (style : CommentStyle) (r : Registers) : Prop
  | code {mode : ScanMode} : r.InCode mode → Shaped style r
  | lineComment : r.stack = [.lineComment, .topLevel] → r.quote = none → r.closer = none →
      Shaped style r
  | blockComment : r.InBlock style → Shaped style r

theorem Settled.shaped {style : CommentStyle} {r : Registers} (h : r.Settled style) :
    r.Shaped style := by
  cases h with
  | topLevel h => exact .code h
  | quotation hq h => exact .code h
  | blockComment h => exact .blockComment h

end Registers

namespace ScanLoop

variable {style : CommentStyle} {w v : ScanLoop}

theorem eq_code {mode : ScanMode} (h : w.InCode mode) :
    w = code mode w.significant w.count w.before w.column w.held w.found w.rest := by
  obtain ⟨⟨stack, quote, closer, comment, significant, count⟩, before, column, held, found, rest⟩ :=
    w
  obtain ⟨rfl, rfl, rfl, rfl⟩ := h
  rfl

theorem eq_inBlock (h : w.InBlock style) : ∃ d ∈ style.blocks, ∃ parts,
    w = inBlock d parts w.significant w.count w.before w.column w.held w.found w.rest := by
  obtain ⟨⟨stack, quote, closer, comment, significant, count⟩, before, column, held, found, rest⟩ :=
    w
  obtain ⟨rfl, rfl, d, hd, rfl, parts, rfl⟩ := h
  exact ⟨d, hd, parts, rfl⟩

theorem step_end (h : w.rest = []) : w.step style = none := by
  cases hs : w.stack with
  | nil => simp only [step, hs]
  | cons layer below => cases layer <;> simp only [step, hs, h]

theorem inCode_code (mode : ScanMode) (significant : Significant) (count : Nat)
    (before : Option CodePoint) (column : Nat) (held : Text) (found : LinePieces) (rest : Text) :
    (code mode significant count before column held found rest).InCode mode :=
  ⟨rfl, rfl, rfl, rfl⟩

/-- Each round keeps the shape. -/
theorem shaped_step (h : w.Shaped style) (hs : w.step style = some v) : v.Shaped style := by
  cases hr : w.rest with
  | nil =>
      rw [step_end hr] at hs
      cases hs
  | cons c rest =>
      cases h with
      | @code mode h =>
          rw [eq_code h, hr] at hs
          cases mode with
          | literal inside =>
              rw [step_literal] at hs
              cases hs
              exact .code (inCode_code ..)
          | escaping inside =>
              rw [step_escaping] at hs
              cases hs
              exact .code (inCode_code ..)
          | topLevel =>
              cases hl : style.lineOpener? (c :: rest) with
              | some opener =>
                  rw [step_lineComment _ _ _ _ _ _ hl] at hs
                  cases hs
                  exact .lineComment rfl rfl rfl
              | none =>
                  cases hb : style.blocks.find? (·.opener.isPrefixOf (c :: rest)) with
                  | none =>
                      rw [step_topLevel _ _ _ _ _ _ hl hb] at hs
                      cases hs
                      exact .code (inCode_code ..)
                  | some d =>
                      have hp := List.find?_some hb
                      obtain ⟨tail, ht⟩ := List.isPrefixOf_iff_prefix.mp hp
                      rw [step_block _ _ _ _ _ _ ht hl hb] at hs
                      cases hs
                      exact .blockComment ⟨rfl, rfl, d, List.mem_of_find?_eq_some hb, rfl, [], rfl⟩
      | lineComment hstack hquote hcloser =>
          rw [step, hstack] at hs
          cases hs
      | blockComment h =>
          obtain ⟨d, hd, parts, hw⟩ := eq_inBlock h
          have hadvance (n : Nat) : (w.advance n).InBlock style := ⟨h.stack, h.quote, h.delimiters⟩
          have hcloser : w.closer = some d.closer := congrArg (·.closer) hw
          rw [step_blockComment style h.stack hcloser (hr ▸ List.cons_ne_nil c rest)] at hs
          split at hs
          · obtain ⟨e, he, more, hclosing⟩ := eq_inBlock (hadvance d.closer.length)
            rw [hclosing, flush_inBlock, pop_endComment_inBlock] at hs
            cases hs
            exact .code (inCode_code ..)
          · cases hs
            exact .blockComment (hadvance 1)

theorem Runs.shaped (hr : Runs style w v) (h : w.Shaped style) : v.Shaped style := by
  induction hr with
  | done hr => exact h
  | next hr hs hu ih => exact ih (shaped_step h hs)

/-- At the end of a line three shapes are left. -/
theorem settled_finish (h : w.Shaped style) (line : Text) :
    (w.finish style line).2.Settled style := by
  cases h with
  | @code mode h =>
      rw [eq_code h, finish_code]
      obtain hm | ⟨quote, hq, hm⟩ := style.modeAtNewline_cases mode
      · rw [hm]
        exact .topLevel ⟨rfl, rfl, rfl, rfl⟩
      · rw [hm]
        exact .quotation hq ⟨rfl, rfl, rfl, rfl⟩
  | lineComment hstack hquote hcloser =>
      obtain ⟨⟨stack, quote, closer, comment, significant, count⟩, before, column, held, found,
        rest⟩ := w
      obtain rfl : stack = _ := hstack
      obtain rfl : quote = _ := hquote
      obtain rfl : closer = _ := hcloser
      rw [finish, flush]
      split <;> split <;> exact .topLevel ⟨rfl, rfl, rfl, rfl⟩
  | blockComment h =>
      obtain ⟨d, hd, parts, hw⟩ := eq_inBlock h
      rw [hw, finish, flush_inBlock]
      split <;> exact .blockComment ⟨rfl, rfl, d, hd, rfl, _, rfl⟩

end ScanLoop

theorem ScanMode.eq_topLevel {mode : ScanMode} (h : mode.layers = [.topLevel]) :
    mode = .topLevel := by
  match mode with
  | .topLevel => rfl
  | .literal (.quotation _) | .literal .regex | .literal .regexClass | .escaping _ => cases h

namespace CommentScanner

variable {s : CommentScanner} {style : CommentStyle}

theorem mode_of_settled (h : s.registers.Settled style) (hc : s.current.isSome) :
    s.mode = .topLevel := by
  obtain ⟨style, mode, significant, count, current⟩ := s
  obtain ⟨o, rfl⟩ := Option.isSome_iff_exists.mp hc
  cases h with
  | topLevel h => cases h.stack
  | quotation hq h => cases h.stack
  | blockComment h => exact ScanMode.eq_topLevel (List.cons.inj h.stack).2

/-- The loop comes to the end of a line, and leaves a settled state if it found one. -/
theorem settled_process (hd : s.style.Delimiting) (h : s.registers.Settled s.style) (line : Text) :
    (s.process line).2.registers.Settled s.style := by
  obtain ⟨v, hr, hf⟩ := finishes_process hd (mode_of_settled h) line
  have hsettled := ScanLoop.settled_finish (hr.shaped h.shaped) line
  rw [hf] at hsettled
  exact hsettled

theorem settled_processAll (hd : s.style.Delimiting) (h : s.registers.Settled s.style)
    (lines : List Text) : (s.processAll lines).2.style = s.style ∧
      (s.processAll lines).2.registers.Settled s.style := by
  induction lines generalizing s with
  | nil => exact ⟨rfl, h⟩
  | cons line rest ih =>
      have hstyle := s.style_process line
      have hrest := @ih (s.process line).2 (hstyle ▸ hd) (hstyle ▸ settled_process hd h line)
      rw [hstyle] at hrest
      rw [processAll_cons]
      exact hrest

/-- On every line after any others, the loop comes to the end of the line. The pieces that it finds
make up the line, and the stack is left in one of three shapes. -/
theorem process_settles (hd : style.Delimiting) (lines : List Text) (line : Text) :
    let s := (({ style } : CommentScanner).processAll lines).2
    let found := (s.process line).1
    let after := (s.process line).2
    (∃ v, ScanLoop.Runs style (s.enter line) v ∧
      v.finish style line = (found, after.registers)) ∧
    (∀ piece ∈ found.pieces, piece.text ≠ []) ∧
    found.pieces.flatMap Piece.text = line ∧
    (∀ front piece back, found.pieces = front ++ piece :: back →
      piece.column = (front.flatMap Piece.text).length) ∧
    after.registers.Settled style := by
  intro s found after
  obtain ⟨hstyle, hs⟩ := @settled_processAll { style } hd (.topLevel ⟨rfl, rfl, rfl, rfl⟩) lines
  have htiles := s.tiles_process line
  have hfinish := finishes_process (hstyle ▸ hd) (mode_of_settled hs) line
  have hafter := settled_process (hstyle ▸ hd) (hstyle ▸ hs) line
  rw [hstyle] at hfinish hafter
  refine ⟨hfinish, htiles.ne_nil, htiles.flatMap_text, ?_, hafter⟩
  intro front piece back hp
  rw [htiles.column_eq hp, Nat.zero_add]

/-- Comments that begin with nothing, one behind the other. -/
def sentences : CommentStyle := { name := "sentences", blocks := [⟨"", "."⟩] }

theorem process_settles_sentences :
    let s := (({ style := sentences } : CommentScanner).processAll ["a"]).2
    sentences.Delimiting ∧
    (s.process "b.c").1.pieces = [⟨0, "b.", some 0⟩, ⟨2, "c", some 1⟩] ∧
    (∃ v, ScanLoop.Runs sentences (s.enter "b.c") v ∧
      v.finish sentences "b.c" = ((s.process "b.c").1, (s.process "b.c").2.registers)) ∧
    (s.process "b.c").2.registers.Settled sentences := by
  intro s
  have hd : sentences.Delimiting := by
    intro d hd
    obtain rfl := List.mem_singleton.mp hd
    exact fun h => List.cons_ne_nil _ _ h.2
  obtain ⟨hruns, -, -, -, hsettled⟩ := process_settles hd ["a"] "b.c"
  exact ⟨hd, by decide, hruns, hsettled⟩

end CommentScanner

end Prepass
