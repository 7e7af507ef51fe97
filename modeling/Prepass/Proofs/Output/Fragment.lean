/- Output lines as runs of characters that are copied from the source line or stand for a reference. -/
import Prepass.Proofs.Comment.Partition
import Prepass.Proofs.Output.Batch
import Prepass.Proofs.Substitution.Order
namespace Prepass

/-- A run of an output line: characters copied from a column of the source line on, or the literal
that took the place of a reference at that column. -/
inductive Fragment where
  | copied (column : Nat) (text : Text)
  | literal (column : Nat) (reference text : Text)

namespace Fragment

def column : Fragment → Nat
  | .copied column _ | .literal column _ _ => column

def text : Fragment → Text
  | .copied _ text | .literal _ _ text => text

/-- What the source line has at the column. -/
def source : Fragment → Text
  | .copied _ text => text
  | .literal _ reference _ => reference

/-- The fragments of a text with its replacements made. The text begins `position` characters after
the column from which the replacements are counted. -/
def ofReplacements (column position : Nat) (t : Text) : List Replacement → List Fragment
  | [] => [.copied (column + position) t]
  | r :: rest =>
    .copied (column + position) (t.take (r.column - position)) ::
      .literal (column + r.column) ((t.drop (r.column - position)).take r.length) r.text ::
      ofReplacements column (r.column + r.length) (t.drop (r.column + r.length - position)) rest

end Fragment

/-- A comment is one fragment; code has its references replaced. -/
def Rendered.fragments (r : Rendered) : List Fragment :=
  Fragment.ofReplacements r.piece.column 0 r.piece.text r.replacements

/-- Where a character of an output line comes from. -/
inductive Origin where
  | copied (column : Nat)
  /-- The output column at which the literal begins, and the source column of its reference. -/
  | literal (start reference : Nat)
deriving DecidableEq

namespace Fragment

/-- The origins of the characters of a fragment that is written at column `generated`. -/
def origins (generated : Nat) : Fragment → List Origin
  | .copied column text => (List.range text.length).map fun k => .copied (column + k)
  | .literal column _ text => List.replicate text.length (.literal generated column)

def allOrigins (generated : Nat) : List Fragment → List Origin
  | [] => []
  | f :: rest => f.origins generated ++ allOrigins (generated + f.text.length) rest

/-- A segment at the beginning of each fragment. -/
def marks (generated : Nat) (line : Int) : List Fragment → List Segment
  | [] => []
  | f :: rest => ⟨generated, line, f.column⟩ :: marks (generated + f.text.length) line rest

theorem text_ofReplacements (column position : Nat) (t : Text) (rs : List Replacement) :
    (ofReplacements column position t rs).flatMap text = Replacement.applyFrom position t rs := by
  induction rs generalizing position t with
  | nil => simp only [ofReplacements, List.flatMap_cons, List.flatMap_nil, List.append_nil, text,
      Replacement.applyFrom]
  | cons r rest ih =>
      simp only [ofReplacements, List.flatMap_cons, text, ih, Replacement.applyFrom,
        List.append_assoc]

/-- Each replacement gives two segments, one where its literal begins and one behind it. With the
one at the beginning of the text these are the beginnings of the fragments. -/
theorem marks_ofReplacements {position : Nat} {t : Text} {rs : List Replacement}
    (h : Replacement.Ordered position (position + t.length) rs) (start column g : Nat)
    (line shift : Int) (hg : (g : Int) = start + position + shift) :
    ⟨g, line, (column + position : Nat)⟩ :: Rendered.editSegments start line column shift rs =
      marks g line (ofReplacements column position t rs) := by
  induction rs generalizing position t g shift with
  | nil => rfl
  | cons r rest ih =>
      cases h with
      | cons hc hp ht hr =>
          have hle := hr.le
          have htake : (t.take (r.column - position)).length = r.column - position := by
            rw [List.length_take]
            omega
          have hdrop : r.column + r.length + (t.drop (r.column + r.length - position)).length =
              position + t.length := by
            rw [List.length_drop]
            omega
          rw [← hdrop] at hr
          have hi := ih hr (g + (r.column - position) + r.text.length)
            (shift + (r.text.length - r.length)) (by omega)
          simp only [ofReplacements, marks, text, Fragment.column, htake, ← hi,
            Rendered.editSegments]
          congr 1
          congr 1
          · congr 1
            omega
          · congr 1
            congr 1 <;> omega

/-- Fragments that come from a line in order, none before `low`: their sources do not overlap. -/
inductive Laid (line : Text) : Nat → List Fragment → Prop
  | nil (low : Nat) : Laid line low []
  | cons {low : Nat} {f : Fragment} {rest : List Fragment} : low ≤ f.column →
      f.source <+: line.drop f.column → (f.text ≠ [] → f.source ≠ []) →
      Laid line (f.column + f.source.length) rest → Laid line low (f :: rest)

theorem Laid.mono {line : Text} {low low' : Nat} {frags : List Fragment}
    (h : Laid line low frags) (hl : low' ≤ low) : Laid line low' frags := by
  cases h with
  | nil => exact .nil low'
  | cons hc hs ht hr => exact .cons (Nat.le_trans hl hc) hs ht hr

/-- A copied text and what follows it on the line. -/
theorem Laid.copied {line u after : Text} {column : Nat} {rest : List Fragment}
    (hl : line.drop column = u ++ after) (hr : Laid line (column + u.length) rest) :
    Laid line column (.copied column u :: rest) :=
  .cons (Nat.le_refl _) ⟨after, hl.symm⟩ id hr

theorem drop_add_of_append {line u after : Text} {column k : Nat}
    (hl : line.drop column = u ++ after) (hk : k ≤ u.length) :
    line.drop (column + k) = u.drop k ++ after := by
  rw [← List.drop_drop, hl, List.drop_append_of_le_length hk]

theorem laid_ofReplacements {line t after : Text} {column position : Nat} {rs : List Replacement}
    {rest : List Fragment} (hl : line.drop (column + position) = t ++ after)
    (h : Replacement.Ordered position (position + t.length) rs)
    (hr : Laid line (column + position + t.length) rest) :
    Laid line (column + position) (ofReplacements column position t rs ++ rest) := by
  induction rs generalizing position t with
  | nil => exact .copied hl hr
  | cons r more ih =>
      cases h with
      | cons hc hp ht hm =>
          have hle := hm.le
          have htake : (t.take (r.column - position)).length = r.column - position := by
            rw [List.length_take]
            omega
          have hcol : column + position + (r.column - position) = column + r.column := by omega
          have hlit := drop_add_of_append hl (show r.column - position ≤ t.length by omega)
          rw [hcol] at hlit
          have href : ((t.drop (r.column - position)).take r.length).length = r.length := by
            rw [List.length_take, List.length_drop]
            omega
          have hnext := drop_add_of_append hl
            (show r.column + r.length - position ≤ t.length by omega)
          have hcol' : column + position + (r.column + r.length - position) =
              column + (r.column + r.length) := by omega
          rw [hcol'] at hnext
          have hdrop : r.column + r.length + (t.drop (r.column + r.length - position)).length =
              position + t.length := by
            rw [List.length_drop]
            omega
          have hfirst : line.drop (column + position) =
              t.take (r.column - position) ++ (t.drop (r.column - position) ++ after) := by
            rw [hl, ← List.append_assoc, List.take_append_drop]
          refine .copied hfirst ?_
          rw [htake, hcol]
          refine .cons (Nat.le_refl _) ?_ ?_ ?_
          · exact ⟨(t.drop (r.column - position)).drop r.length ++ after, by
              rw [Fragment.source, Fragment.column, ← List.append_assoc, List.take_append_drop,
                hlit]⟩
          · intro _ he
            rw [Fragment.source] at he
            rw [he] at href
            simp only [List.length_nil] at href
            omega
          · rw [Fragment.source, Fragment.column, href, Nat.add_assoc]
            refine ih hnext (hdrop ▸ hm) ?_
            rwa [Nat.add_assoc, hdrop, ← Nat.add_assoc]

def lineText (frags : List Fragment) : Text := frags.flatMap text

theorem lineText_cons (f : Fragment) (rest : List Fragment) :
    lineText (f :: rest) = f.text ++ lineText rest := List.flatMap_cons

theorem lineText_append (a b : List Fragment) : lineText (a ++ b) = lineText a ++ lineText b :=
  List.flatMap_append

theorem marks_append (g : Nat) (line : Int) (a b : List Fragment) :
    marks g line (a ++ b) = marks g line a ++ marks (g + (lineText a).length) line b := by
  induction a generalizing g with
  | nil => rfl
  | cons f rest ih =>
      simp only [List.cons_append, marks, ih, lineText_cons, List.length_append, Nat.add_assoc]

/-- The fragments of which something can be seen. -/
def visible (frags : List Fragment) : List Fragment := frags.filter fun f => !f.text.isEmpty

theorem visible_cons_empty {f : Fragment} (h : f.text = []) (rest : List Fragment) :
    visible (f :: rest) = visible rest :=
  List.filter_cons_of_neg (by simp [h])

theorem visible_cons {f : Fragment} (h : f.text ≠ []) (rest : List Fragment) :
    visible (f :: rest) = f :: visible rest :=
  List.filter_cons_of_pos (by simp [h])

theorem le_of_mem_marks {g : Nat} {line : Int} {frags : List Fragment} {s : Segment}
    (h : s ∈ marks g line frags) : (g : Int) ≤ s.generated := by
  induction frags generalizing g with
  | nil => cases h
  | cons f rest ih =>
      rcases List.mem_cons.mp h with rfl | h
      · exact Int.le_refl _
      · have := ih h
        omega

end Fragment

theorem Segment.dropRepeated_cons {s : Segment} {rest : List Segment}
    (h : ∀ r ∈ rest, s.generated < r.generated) :
    dropRepeated (s :: rest) = s :: dropRepeated rest := by
  cases rest with
  | nil => rfl
  | cons r more =>
      have hr := h r List.mem_cons_self
      rw [dropRepeated, if_neg (by omega)]

namespace Fragment

/-- Of the beginnings of fragments those are left at which something can be seen: an empty fragment
begins where the next one does, or at the end of the line. -/
theorem tidy_marks (g : Nat) (line : Int) (frags : List Fragment) :
    Segment.tidy (g + (lineText frags).length) (marks g line frags) =
      marks g line (visible frags) := by
  induction frags generalizing g with
  | nil => rfl
  | cons f rest ih =>
      by_cases hf : f.text = []
      · have hw : (lineText (f :: rest)).length = (lineText rest).length := by
          rw [lineText_cons, hf, List.nil_append]
        have hm : marks g line (f :: rest) = ⟨g, line, f.column⟩ :: marks g line rest := by
          rw [marks, hf, List.length_nil, Nat.add_zero]
        rw [hw, hm, visible_cons_empty hf, ← ih g]
        by_cases hr : (lineText rest).length = 0
        · rw [Segment.tidy, List.filter_cons_of_neg (by simp [hr]), Segment.tidy]
        · cases rest with
          | nil => exact absurd rfl hr
          | cons next more =>
              have hlt : (decide ((g : Int) < ((g + (lineText (next :: more)).length : Nat) : Int)))
                  = true := decide_eq_true (by omega)
              simp only [Segment.tidy, marks, List.filter_cons, hlt, if_true, Segment.dropRepeated]
      · have hpos : 0 < f.text.length := List.length_pos_iff.mpr hf
        have hw : g + (lineText (f :: rest)).length =
            g + f.text.length + (lineText rest).length := by
          rw [lineText_cons, List.length_append]
          omega
        rw [visible_cons hf, marks, marks, ← ih, hw, Segment.tidy, List.filter_cons_of_pos,
          Segment.dropRepeated_cons]
        · rfl
        · intro r hr
          have := le_of_mem_marks (List.mem_filter.mp hr).1
          dsimp only
          omega
        · exact decide_eq_true (by dsimp only; omega)

theorem Laid.visible {line : Text} {low : Nat} {frags : List Fragment} (h : Laid line low frags) :
    Laid line low (visible frags) := by
  induction h with
  | nil low => exact .nil low
  | @cons low f rest hc hs ht hr ih =>
      by_cases hf : f.text = []
      · rw [visible_cons_empty hf]
        exact ih.mono (by omega)
      · rw [visible_cons hf]
        exact .cons hc hs ht ih

theorem lineText_visible (frags : List Fragment) : lineText (visible frags) = lineText frags := by
  induction frags with
  | nil => rfl
  | cons f rest ih =>
      by_cases hf : f.text = []
      · rw [visible_cons_empty hf, lineText_cons, hf, List.nil_append, ih]
      · rw [visible_cons hf, lineText_cons, lineText_cons, ih]

theorem origins_empty {f : Fragment} (h : f.text = []) (g : Nat) : f.origins g = [] := by
  cases f with
  | copied column t =>
      cases h
      rfl
  | literal column reference t =>
      cases h
      rfl

theorem allOrigins_visible (g : Nat) (frags : List Fragment) :
    allOrigins g (visible frags) = allOrigins g frags := by
  induction frags generalizing g with
  | nil => rfl
  | cons f rest ih =>
      by_cases hf : f.text = []
      · rw [visible_cons_empty hf, allOrigins, origins_empty hf, hf, List.length_nil, Nat.add_zero,
          List.nil_append, ih]
      · rw [visible_cons hf, allOrigins, allOrigins, ih]

theorem text_ne_nil_of_mem_visible {f : Fragment} {frags : List Fragment}
    (h : f ∈ visible frags) : f.text ≠ [] := by
  simpa using (List.mem_filter.mp h).2

end Fragment

namespace Rendered

/-- What a rendered piece shows is what its fragments show, and its replacements are in order. -/
theorem ofPiece_ordered {env : Environment} {piece : Piece} {r : Rendered}
    (h : ofPiece env piece = .ok r) :
    Replacement.Ordered 0 r.piece.text.length r.replacements ∧
      Fragment.lineText r.fragments = r.text := by
  unfold ofPiece at h
  split at h
  · cases h
    refine ⟨.nil (Nat.zero_le _), ?_⟩
    exact Fragment.text_ofReplacements _ _ _ _
  · obtain ⟨⟨t, rs⟩, hs, rfl⟩ := map_eq_ok.mp h
    obtain ⟨rs', hrs, he⟩ := map_eq_ok.mp hs
    cases he
    refine ⟨Environment.ordered_replacements hrs, ?_⟩
    exact Fragment.text_ofReplacements _ _ _ _

theorem mapM_cons_eq_ok {env : Environment} {piece : Piece} {pieces : List Piece}
    {rs : List Rendered} (h : (piece :: pieces).mapM (ofPiece env) = .ok rs) :
    ∃ r more, ofPiece env piece = .ok r ∧ pieces.mapM (ofPiece env) = .ok more ∧
      rs = r :: more := by
  rw [List.mapM_cons] at h
  obtain ⟨r, hr, h⟩ := bind_eq_ok.mp h
  obtain ⟨more, hm, h⟩ := bind_eq_ok.mp h
  cases h
  exact ⟨r, more, hr, hm, rfl⟩

theorem lineText_of_mapM {env : Environment} {pieces : List Piece} {rs : List Rendered}
    (h : pieces.mapM (ofPiece env) = .ok rs) :
    Fragment.lineText (rs.flatMap fragments) = rs.flatMap text := by
  induction pieces generalizing rs with
  | nil =>
      cases h
      rfl
  | cons piece rest ih =>
      obtain ⟨r, more, hr, hm, rfl⟩ := mapM_cons_eq_ok h
      rw [List.flatMap_cons, List.flatMap_cons, Fragment.lineText_append, (ofPiece_ordered hr).2,
        ih hm]

/-- The segments of rendered pieces are the beginnings of their fragments. -/
theorem allSegments_of_mapM {env : Environment} {pieces : List Piece} {rs : List Rendered}
    (h : pieces.mapM (ofPiece env) = .ok rs) (g : Nat) (line : Int) :
    allSegments g line rs = Fragment.marks g line (rs.flatMap fragments) := by
  induction pieces generalizing g rs with
  | nil =>
      cases h
      rfl
  | cons piece rest ih =>
      obtain ⟨r, more, hr, hm, rfl⟩ := mapM_cons_eq_ok h
      obtain ⟨ho, ht⟩ := ofPiece_ordered hr
      rw [← Nat.zero_add r.piece.text.length] at ho
      have hs : r.segments g line = Fragment.marks g line r.fragments :=
        Fragment.marks_ofReplacements ho g r.piece.column g line 0 (by omega)
      rw [allSegments, hs, ih hm, List.flatMap_cons, Fragment.marks_append, ht]

/-- The pieces that are kept of a line give fragments that come from the line in order. The
induction is on the pieces: those that are dropped leave a gap. -/
theorem laid_of_tiles {env : Environment} {line t : Text} {column : Nat} {pieces : List Piece}
    (ht : Piece.Tiles column t pieces) (hl : line.drop column = t) (keep : Piece → Bool)
    {rs : List Rendered} (h : (pieces.filter keep).mapM (ofPiece env) = .ok rs) :
    Fragment.Laid line column (rs.flatMap fragments) := by
  induction ht generalizing rs with
  | nil column =>
      cases h
      exact .nil column
  | @cons column c t rest comment hc hr ih =>
      have hnext : line.drop (column + c.length) = t := by
        rw [← List.drop_drop, hl, List.drop_left]
      by_cases hk : keep ⟨column, c, comment⟩ = true
      · rw [List.filter_cons_of_pos hk] at h
        obtain ⟨r, more, hr, hm, rfl⟩ := mapM_cons_eq_ok h
        have hp := piece_of_ofPiece hr
        obtain ⟨ho, -⟩ := ofPiece_ordered hr
        rw [hp, ← Nat.zero_add c.length] at ho
        rw [List.flatMap_cons, fragments, hp]
        have hpos : line.drop (column + 0) = c ++ t := hl
        exact Fragment.laid_ofReplacements hpos ho (ih hnext hm)
      · rw [List.filter_cons_of_neg hk] at h
        exact (ih hnext h).mono (Nat.le_add_right _ _)

end Rendered

namespace OutputCall

def fragments (keep : Piece → Bool) (pieces : List Piece) :
    OutputCall → Except Fault (List Fragment)
  | .blank .. => .ok []
  | .code env _ _ =>
    ((pieces.filter keep).mapM (Rendered.ofPiece env)).map (List.flatMap Rendered.fragments)

def ofFragments (call : OutputCall) (frags : List Fragment) : OutputLine :=
  ⟨Fragment.lineText frags, call.line.ending,
    Fragment.marks 0 (call.number - 1) (Fragment.visible frags)⟩

theorem render_eq_map_fragments (keep : Piece → Bool) (pieces : List Piece) (call : OutputCall) :
    call.render keep pieces = (call.fragments keep pieces).map call.ofFragments := by
  cases call with
  | blank number line => rfl
  | code env number line =>
      simp only [render, fragments]
      cases h : (pieces.filter keep).mapM (Rendered.ofPiece env) with
      | error fault => rfl
      | ok kept =>
          have ht := Rendered.lineText_of_mapM h
          have hm := Fragment.tidy_marks 0 (number - 1) (kept.flatMap Rendered.fragments)
          rw [Nat.zero_add, ht, ← Rendered.allSegments_of_mapM h] at hm
          simp only [bind, Except.bind, pure, Except.pure, Except.map, ofFragments, ht, hm,
            OutputCall.line, OutputCall.number]

theorem laid_fragments {keep : Piece → Bool} {pieces : List Piece} {call : OutputCall}
    {frags : List Fragment} (ht : call.code? = none ∨ Piece.Tiles 0 call.line.text pieces)
    (h : call.fragments keep pieces = .ok frags) : Fragment.Laid call.line.text 0 frags := by
  cases call with
  | blank number line =>
      cases h
      exact .nil 0
  | code env number line =>
      rcases ht with ht | ht
      · cases ht
      · obtain ⟨kept, hk, rfl⟩ := map_eq_ok.mp h
        exact Rendered.laid_of_tiles ht List.drop_zero keep hk

end OutputCall

end Prepass
