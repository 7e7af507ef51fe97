/- The pieces of a line, written one after another, are the line. -/
import Prepass.Comment.Scanner
namespace Prepass

def Span.text : Span → Text
  | .code t | .lineComment _ t | .blockComment _ t _ => t

/-- Spans that make up a text. None is empty, and only the last one can be left open. -/
inductive Span.Cover : Text → List Span → Prop
  | nil : Cover [] []
  | code {c : Text} {t : Text} {rest : List Span} : c ≠ [] → Cover t rest →
      Cover (c ++ t) (.code c :: rest)
  | lineComment {opener c t : Text} {rest : List Span} : c ≠ [] → Cover t rest →
      Cover (c ++ t) (.lineComment opener c :: rest)
  | blockComment {d : BlockDelimiters} {c t : Text} {rest : List Span} : c ≠ [] → Cover t rest →
      Cover (c ++ t) (.blockComment d c true :: rest)
  | unclosed {d : BlockDelimiters} {t : Text} : t ≠ [] → Cover t [.blockComment d t false]

/-- Spans of a text as a style has them: where each comment begins, and where a block ends. -/
inductive Span.Marked (style : CommentStyle) : Text → List Span → Prop
  | nil : Marked style [] []
  | code {c t : Text} {rest : List Span} : c ≠ [] → Marked style t rest →
      Marked style (c ++ t) (.code c :: rest)
  | lineComment {t opener : Text} : t ≠ [] → style.lineOpener? t = some opener →
      Marked style t [.lineComment opener t]
  | blockComment {d : BlockDelimiters} {inside t : Text} {rest : List Span} :
      style.lineOpener? (d.opener ++ inside ++ t) = none →
      style.blockAt? (d.opener ++ inside ++ t) = some d →
      upToCloser? d.closer (inside ++ t) = some inside → Marked style t rest →
      Marked style (d.opener ++ inside ++ t) (.blockComment d (d.opener ++ inside) true :: rest)
  | unclosed {d : BlockDelimiters} {inside : Text} : d.opener ++ inside ≠ [] →
      style.lineOpener? (d.opener ++ inside) = none → style.blockAt? (d.opener ++ inside) = some d →
      upToCloser? d.closer inside = none →
      Marked style (d.opener ++ inside) [.blockComment d (d.opener ++ inside) false]

/-- Pieces that stand one after another, the first of them at a column. None is empty. -/
inductive Piece.Tiles : Nat → Text → List Piece → Prop
  | nil (column : Nat) : Tiles column [] []
  | cons {column : Nat} {c t : Text} {rest : List Piece} (comment : Option Nat) : c ≠ [] →
      Tiles (column + c.length) t rest → Tiles column (c ++ t) (⟨column, c, comment⟩ :: rest)

theorem Piece.Tiles.single (column : Nat) {t : Text} (comment : Option Nat) (h : t ≠ []) :
    Tiles column t [⟨column, t, comment⟩] := by
  simpa only [List.append_nil] using Tiles.cons comment h (.nil (column + t.length))

theorem Piece.Tiles.isInfix {column : Nat} {t : Text} {pieces : List Piece}
    (h : Tiles column t pieces) {piece : Piece} (hp : piece ∈ pieces) : piece.text <:+: t := by
  induction h with
  | nil column => cases hp
  | cons comment hc hr ih =>
      rcases List.mem_cons.mp hp with rfl | hp
      · exact (List.prefix_append _ _).isInfix
      · exact (ih hp).trans (List.suffix_append _ _).isInfix

namespace Piece.Tiles

variable {column : Nat} {t : Text} {pieces : List Piece}

theorem ne_nil (h : Tiles column t pieces) : ∀ piece ∈ pieces, piece.text ≠ [] := by
  induction h with
  | nil column => exact List.forall_mem_nil _
  | cons comment hc hr ih => exact List.forall_mem_cons.mpr ⟨hc, ih⟩

theorem flatMap_text (h : Tiles column t pieces) : pieces.flatMap Piece.text = t := by
  induction h with
  | nil column => rfl
  | cons comment hc hr ih => rw [List.flatMap_cons, ih]

theorem column_eq (h : Tiles column t pieces) {front back : List Piece} {piece : Piece}
    (hp : pieces = front ++ piece :: back) :
    piece.column = column + (front.flatMap Piece.text).length := by
  induction h generalizing front with
  | nil column => cases front <;> cases hp
  | cons comment hc hr ih =>
      cases front with
      | nil =>
          cases hp
          rfl
      | cons first more =>
          obtain ⟨rfl, hmore⟩ := List.cons.inj hp
          rw [ih hmore, List.flatMap_cons, List.length_append, Nat.add_assoc]

end Piece.Tiles

theorem upToCloser?_prefix {closer t inside : Text} (h : upToCloser? closer t = some inside) :
    inside <+: t := by
  induction t generalizing inside with
  | nil => cases h
  | cons c rest ih =>
      rw [upToCloser?] at h
      split at h
      · cases h
        exact List.isPrefixOf_iff_prefix.mp ‹_›
      · obtain ⟨more, hm, rfl⟩ := Option.map_eq_some_iff.mp h
        exact List.prefix_cons_inj c |>.mpr (ih hm)

theorem upToCloser?_ne_nil {closer t inside : Text} (hc : closer ≠ [])
    (h : upToCloser? closer t = some inside) : inside ≠ [] := by
  cases t with
  | nil => cases h
  | cons c rest =>
      rw [upToCloser?] at h
      split at h
      · cases h
        exact hc
      · obtain ⟨more, hm, rfl⟩ := Option.map_eq_some_iff.mp h
        exact List.cons_ne_nil c more

namespace CommentStyle

theorem blockAt?_opener {style : CommentStyle} {t : Text} {d : BlockDelimiters}
    (h : style.blockAt? t = some d) : d.opener <+: t ∧ ¬ (d.opener = [] ∧ d.closer = []) := by
  have hp := List.find?_some h
  simp only [Bool.and_eq_true, Bool.not_eq_true', Bool.and_eq_false_iff] at hp
  refine ⟨List.isPrefixOf_iff_prefix.mp hp.2, ?_⟩
  rintro ⟨ho, hc⟩
  simp only [ho, hc, List.isEmpty_nil, Bool.true_eq_false, or_self, false_and] at hp

/-- A block comment that ends on the line is not empty. -/
theorem block_ne_nil {style : CommentStyle} {t u inside : Text} {d : BlockDelimiters}
    (hd : style.blockAt? t = some d) (hi : upToCloser? d.closer u = some inside) :
    d.opener ++ inside ≠ [] := by
  obtain ⟨-, hne⟩ := blockAt?_opener hd
  intro he
  obtain ⟨ho, hinside⟩ := List.append_eq_nil_iff.mp he
  exact upToCloser?_ne_nil (fun hc => hne ⟨ho, hc⟩) hi hinside

end CommentStyle

theorem Span.Marked.cover {style : CommentStyle} {t : Text} {spans : List Span}
    (h : Marked style t spans) : Cover t spans := by
  induction h with
  | nil => exact .nil
  | code hc hr ih => exact .code hc ih
  | lineComment hne ho => simpa only [List.append_nil] using Cover.lineComment hne .nil
  | blockComment hl hd hi hr ih => exact .blockComment (CommentStyle.block_ne_nil hd hi) ih
  | unclosed hne hl hd hi => exact .unclosed hne

theorem ScannedLine.marked_pushCode {style : CommentStyle} {t : Text} {s : ScannedLine}
    (h : Span.Marked style t s.spans) (c : CodePoint) :
    Span.Marked style (c :: t) (s.pushCode c).spans := by
  have hnew : Span.Marked style ([c] ++ t) (.code [c] :: s.spans) :=
    .code (List.cons_ne_nil c []) h
  obtain ⟨spans, mode, significant⟩ := s
  cases h with
  | @code u t rest hu hr => exact Span.Marked.code (List.cons_ne_nil c u) hr
  | nil | lineComment hne ho | blockComment hl hd hi hr | unclosed hne hl hd hi => exact hnew

/-- The spans of a line are as the style has them, from what is not skipped on. -/
theorem CommentStyle.marked_scanFrom (style : CommentStyle) (mode : ScanMode)
    (significant : Significant) (before : Option CodePoint) (skip : Nat) (t : Text) :
    Span.Marked style (t.drop skip) (style.scanFrom mode significant before skip t).spans := by
  induction t generalizing mode significant before skip with
  | nil =>
      rw [List.drop_nil]
      cases skip <;> exact .nil
  | cons c rest ih =>
      cases skip with
      | succ skip => exact ih mode significant (some c) skip
      | zero =>
          cases mode with
          | escaping inside => exact ScannedLine.marked_pushCode (ih _ _ _ 0) c
          | literal inside => exact ScannedLine.marked_pushCode (ih _ _ _ 0) c
          | topLevel =>
              simp only [scanFrom, List.drop_zero]
              split
              · exact .lineComment (List.cons_ne_nil c rest) ‹_›
              · rename_i hl
                split
                · rename_i d hd
                  obtain ⟨⟨tail, ht⟩, -⟩ := blockAt?_opener hd
                  rw [← ht, List.drop_left]
                  split
                  · rename_i inside hi
                    obtain ⟨after, rfl⟩ := upToCloser?_prefix hi
                    rw [← List.append_assoc] at ht ⊢
                    refine .blockComment (ht ▸ hl) (ht ▸ hd) hi ?_
                    have hpos : (d.opener ++ inside).length ≠ 0 :=
                      fun he => block_ne_nil hd hi (List.eq_nil_of_length_eq_zero he)
                    obtain ⟨k, hk⟩ := Nat.exists_eq_succ_of_ne_zero hpos
                    have hafter : (c :: rest).drop k.succ = after := by
                      rw [← ht, ← hk, List.drop_left]
                    rw [hk, ← hafter]
                    exact ih _ _ _ k
                  · exact .unclosed (ht ▸ List.cons_ne_nil c rest) (ht ▸ hl) (ht ▸ hd) ‹_›
                · exact ScannedLine.marked_pushCode (ih _ _ _ 0) c

/-- The spans of a line cover what is not skipped. -/
theorem CommentStyle.cover_scanFrom (style : CommentStyle) (mode : ScanMode)
    (significant : Significant) (before : Option CodePoint) (skip : Nat) (t : Text) :
    Span.Cover (t.drop skip) (style.scanFrom mode significant before skip t).spans :=
  (style.marked_scanFrom mode significant before skip t).cover

theorem LinePieces.tiles_ofSpans {t : Text} {spans : List Span} (h : Span.Cover t spans)
    (column number : Nat) : Piece.Tiles column t (ofSpans column number spans).1.pieces := by
  induction h generalizing column number with
  | nil => exact .nil column
  | code hc hr ih => exact .cons none hc (ih _ _)
  | lineComment hc hr ih => exact .cons (some number) hc (ih _ _)
  | blockComment hc hr ih => exact .cons (some number) hc (ih _ _)
  | unclosed hc => exact .single column (some number) hc

namespace CommentScanner

theorem tiles_scanCode (s : CommentScanner) (column : Nat) (before : Option CodePoint) (t : Text) :
    Piece.Tiles column t (s.scanCode column before t).1.pieces :=
  LinePieces.tiles_ofSpans (s.style.cover_scanFrom s.mode s.significant before 0 t) column s.count

/-- No character of a line is lost, and each piece is where its column says. -/
theorem tiles_process (s : CommentScanner) (line : Text) :
    Piece.Tiles 0 line (s.process line).1.pieces := by
  unfold process
  split
  · exact s.tiles_scanCode 0 none line
  · rename_i o ho
    split
    · rename_i hi
      cases line with
      | nil => exact .nil 0
      | cons c rest => exact .single 0 (some s.count) (List.cons_ne_nil c rest)
    · rename_i inside hi
      obtain ⟨after, rfl⟩ := upToCloser?_prefix hi
      rw [List.drop_left]
      cases inside with
      | nil => exact tiles_scanCode _ 0 none after
      | cons c more =>
          have ht := tiles_scanCode { s with count := s.count + 1, current := none }
            (c :: more).length (c :: more).getLast? after
          refine Piece.Tiles.cons (some s.count) (List.cons_ne_nil c more) ?_
          rw [Nat.zero_add]
          exact ht

end CommentScanner

end Prepass
