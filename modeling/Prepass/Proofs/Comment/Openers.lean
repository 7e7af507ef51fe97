/- Which of several openers a comment begins with. -/
import Prepass.Proofs.Comment.Loop
import Prepass.Proofs.Text.Strip
namespace Prepass

namespace CommentStyle

variable {openers : List Text} {t o p : Text}

/-- What is chosen among openers: none if none of them begins the text, and else a longest one. -/
def Longest (openers : List Text) (t : Text) : Option Text → Prop
  | none => ∀ p ∈ openers, ¬ p <+: t
  | some o => o ∈ openers ∧ o <+: t ∧ ∀ p ∈ openers, p <+: t → p.length ≤ o.length

/-- A further opener is chosen if it begins the text and is longer than the one chosen so far. -/
theorem Longest.append {best : Option Text} (h : Longest openers t best) (p : Text) :
    Longest (openers ++ [p]) t
      (if p.isPrefixOf t && best.all (List.length · < p.length) then some p else best) := by
  have hmem : p ∈ openers ++ [p] := List.mem_append_right _ (List.mem_singleton_self p)
  cases best with
  | none =>
      by_cases hp : p <+: t
      · rw [if_pos (by simpa using hp)]
        refine ⟨hmem, hp, List.forall_mem_append.mpr ⟨?_, ?_⟩⟩
        · intro q hq hqt
          exact absurd hqt (h q hq)
        · exact List.forall_mem_singleton.mpr fun _ => Nat.le_refl _
      · rw [if_neg (by simpa using hp)]
        exact List.forall_mem_append.mpr ⟨h, List.forall_mem_singleton.mpr hp⟩
  | some o =>
      obtain ⟨ho, hot, hlongest⟩ := h
      by_cases hp : p <+: t ∧ o.length < p.length
      · rw [if_pos (by simpa using hp)]
        refine ⟨hmem, hp.1, List.forall_mem_append.mpr ⟨?_, ?_⟩⟩
        · intro q hq hqt
          exact (hlongest q hq hqt).trans (Nat.le_of_lt hp.2)
        · exact List.forall_mem_singleton.mpr fun _ => Nat.le_refl _
      · rw [if_neg (by simpa using hp)]
        refine ⟨List.mem_append_left _ ho, hot, List.forall_mem_append.mpr ⟨hlongest, ?_⟩⟩
        exact List.forall_mem_singleton.mpr fun hpt => Nat.not_lt.mp fun hlt => hp ⟨hpt, hlt⟩

theorem longest_longestOpener? (openers : List Text) (t : Text) :
    Longest openers t (longestOpener? openers t) := by
  induction openers using List.reverseRecOn with
  | nil => exact List.forall_mem_nil _
  | append_singleton openers p ih =>
      rw [longestOpener?, List.foldl_append]
      exact ih.append p

theorem eq_of_prefix_length (ho : o <+: t) (hp : p <+: t) (h : o.length = p.length) : o = p :=
  (List.prefix_of_prefix_length_le ho hp (Nat.le_of_eq h)).eq_of_length h

/-- Openers of one length that begin the same text are the same, so there is one longest of them. -/
theorem longestOpener?_eq_some_iff :
    longestOpener? openers t = some o ↔
      o ∈ openers ∧ o <+: t ∧ ∀ p ∈ openers, p <+: t → p.length ≤ o.length := by
  have h := longest_longestOpener? openers t
  constructor
  · intro he
    rwa [he] at h
  · rintro ⟨ho, hot, hlongest⟩
    cases he : longestOpener? openers t with
    | none =>
        rw [he] at h
        exact absurd hot (h o ho)
    | some p =>
        rw [he] at h
        obtain ⟨hp, hpt, hle⟩ := h
        exact congrArg some (eq_of_prefix_length hpt hot
          (Nat.le_antisymm (hlongest p hp hpt) (hle o ho hot)))

/-- The first of a style's openers that a text begins with, those of line comments before those of
blocks. -/
def firstOpener? (style : CommentStyle) (t : Text) : Option Text :=
  style.openers.find? (·.isPrefixOf t)

/-- Openers that are not empty and hold no white space. -/
def Tight (style : CommentStyle) : Prop := ∀ o ∈ style.openers, o.Solid

instance decidableTight (style : CommentStyle) : Decidable style.Tight :=
  inferInstanceAs (Decidable (∀ o ∈ style.openers, o.Solid))

variable {style : CommentStyle}

theorem mem_of_firstOpener? (h : style.firstOpener? t = some o) : o ∈ style.openers ∧ o <+: t := by
  have hp := List.find?_some h
  exact ⟨List.mem_of_find?_eq_some h, List.isPrefixOf_iff_prefix.mp hp⟩

theorem exists_firstOpener? (ho : o ∈ style.openers) (hot : o <+: t) :
    ∃ f, style.firstOpener? t = some f :=
  Option.isSome_iff_exists.mp
    (List.find?_isSome.mpr ⟨o, ho, List.isPrefixOf_iff_prefix.mpr hot⟩)

theorem exists_longestOpener? (ho : o ∈ openers) (hot : o <+: t) :
    ∃ p, longestOpener? openers t = some p := by
  have h := longest_longestOpener? openers t
  cases hp : longestOpener? openers t with
  | none =>
      rw [hp] at h
      exact absurd hot (h o ho)
  | some p => exact ⟨p, rfl⟩

theorem longestOpener?_congr {u : Text} (h : ∀ p ∈ openers, p <+: t ↔ p <+: u) :
    longestOpener? openers t = longestOpener? openers u := by
  ext o
  rw [longestOpener?_eq_some_iff, longestOpener?_eq_some_iff]
  constructor
  · rintro ⟨ho, hot, hlongest⟩
    exact ⟨ho, (h o ho).mp hot, fun p hp hpu => hlongest p hp ((h p hp).mpr hpu)⟩
  · rintro ⟨ho, hou, hlongest⟩
    exact ⟨ho, (h o ho).mpr hou, fun p hp hpt => hlongest p hp ((h p hp).mp hpt)⟩

theorem longestOpener?_self (ho : o ∈ openers) : longestOpener? openers o = some o :=
  longestOpener?_eq_some_iff.mpr ⟨ho, List.prefix_rfl, fun _ _ hp => hp.length_le⟩

/-- All openers that begin a text begin the longest of them. -/
theorem firstOpener?_longest (h : longestOpener? style.openers t = some o) :
    style.firstOpener? t = style.firstOpener? o := by
  obtain ⟨-, hot, hlongest⟩ := longestOpener?_eq_some_iff.mp h
  refine List.find?_congr fun p hp => ?_
  rw [Bool.eq_iff_iff, List.isPrefixOf_iff_prefix, List.isPrefixOf_iff_prefix]
  constructor
  · intro hpt
    exact List.prefix_of_prefix_length_le hpt hot (hlongest p hp hpt)
  · intro hpo
    exact hpo.trans hot

theorem modeAfter_blank (style : CommentStyle) (significant : Significant) {c : CodePoint}
    (hc : c.isBlank = true) (hq : c ∉ style.quotes) :
    style.modeAfter significant c = .topLevel := by
  have hslash : c ≠ '/' := by
    rintro rfl
    revert hc
    decide +kernel
  simp [modeAfter, hq, hslash]

namespace Tight

theorem delimiting (h : style.Tight) : style.Delimiting := by
  rintro d hd ⟨ho, -⟩
  have hmem : d.opener ∈ style.openers :=
    List.mem_append_right _ (List.mem_map_of_mem hd)
  exact (h _ hmem).ne_nil ho

theorem firstOpener?_eq (h : style.Tight) (t : Text) :
    style.firstOpener? t =
      (style.lineOpener? t).or ((style.blockAt? t).map BlockDelimiters.opener) := by
  rw [firstOpener?, openers, List.find?_append, List.find?_map, ← h.delimiting.find?_eq]
  rfl

theorem firstOpener?_blank (h : style.Tight) {c : CodePoint} (hc : c.isBlank = true) (t : Text) :
    style.firstOpener? (c :: t) = none := by
  cases hf : style.firstOpener? (c :: t) with
  | none => rfl
  | some o =>
      obtain ⟨ho, hot⟩ := mem_of_firstOpener? hf
      have hsolid := h o ho
      obtain ⟨d, rest, rfl⟩ := List.exists_cons_of_ne_nil hsolid.ne_nil
      obtain ⟨rfl, -⟩ := List.cons_prefix_cons.mp hot
      rw [hsolid.dense d List.mem_cons_self] at hc
      cases hc

theorem scanFrom_blank (h : style.Tight) (significant : Significant) (before : Option CodePoint)
    {c : CodePoint} (hc : c.isBlank = true) (t : Text) :
    style.scanFrom .topLevel significant before 0 (c :: t) =
      (style.scanFrom (style.modeAfter significant c) significant (some c) 0 t).pushCode c := by
  have hnone := h.firstOpener?_blank hc t
  rw [h.firstOpener?_eq, Option.or_eq_none_iff, Option.map_eq_none_iff] at hnone
  have hpush : significant.push before c = significant := by rw [Significant.push, if_pos hc]
  simp only [scanFrom, hnone, hpush]

theorem longestOpener?_strip (h : style.Tight) (line : Text) :
    longestOpener? style.openers line.strip = longestOpener? style.openers line.stripLeft :=
  longestOpener?_congr fun p hp => (h p hp).isPrefix_stripRight

end Tight

end CommentStyle

theorem Span.Cover.tail {t : Text} {span : Span} {spans : List Span} (h : Cover t (span :: spans)) :
    ∃ after, Cover after spans := by
  cases h with
  | code hc hr => exact ⟨_, hr⟩
  | lineComment hc hr => exact ⟨_, hr⟩
  | blockComment hc hr => exact ⟨_, hr⟩
  | unclosed hc => exact ⟨[], .nil⟩

namespace LinePieces

theorem le_column_ofSpans {t : Text} {spans : List Span} (h : Span.Cover t spans)
    (column number : Nat) : ∀ piece ∈ (ofSpans column number spans).1.pieces,
      column ≤ piece.column := by
  intro piece hp
  obtain ⟨front, back, hsplit⟩ := List.append_of_mem hp
  rw [(tiles_ofSpans h column number).column_eq hsplit]
  exact Nat.le_add_right _ _

end LinePieces

theorem Piece.find?_ofHeld (held t : Text) (comment : Option Nat) (more : List Piece) :
    (Piece.ofHeld 0 held none ++ ⟨held.length, t, comment⟩ :: more).find?
      (·.column = held.length) = some ⟨held.length, t, comment⟩ := by
  cases held with
  | nil => rfl
  | cons c rest => simp [Piece.ofHeld]

namespace CommentScanner

variable {style : CommentStyle} {significant : Significant} {count : Nat}
  {current : Option OpenComment}

/-- White space at top level is code, unless it begins a literal. -/
theorem scanHeld_blank (hs : style.Tight) {w : Text} (hw : w.Blank) (hq : ∀ c ∈ w, c ∉ style.quotes)
    (held : Text) (column : Nat) (before : Option CodePoint) (t : Text) :
    scanHeld ⟨style, .topLevel, significant, count, current⟩ held column before (w ++ t) =
      scanHeld ⟨style, .topLevel, significant, count, current⟩ (held ++ w) column
        (w.getLast?.or before) t := by
  induction w generalizing held before with
  | nil => rw [List.append_nil]; rfl
  | cons c w ih =>
      obtain ⟨hc, hw⟩ := List.forall_mem_cons.mp hw
      obtain ⟨hcq, hq⟩ := List.forall_mem_cons.mp hq
      have hscan := hs.scanFrom_blank significant before hc (w ++ t)
      rw [style.modeAfter_blank significant hc hcq] at hscan
      rw [List.cons_append, scanHeld_pushCode held column hscan, ih hw hq, List.append_assoc,
        List.singleton_append, Text.getLast?_cons_or]

/-- A scanner of a style that is in no literal and no comment. -/
structure AtTopLevel (style : CommentStyle) (s : CommentScanner) : Prop where
  style_eq : s.style = style
  mode_eq : s.mode = .topLevel
  current_eq : s.current = none

/-- The opener of the comment that begins at a column of a line. -/
def openedAt? (s : CommentScanner) (line : Text) (column : Nat) : Option Text := do
  let piece ← (s.process line).1.pieces.find? (·.column = column)
  let number ← piece.comment
  let comment ← (s.comments [line])[number - s.count]?
  return comment.opener

/-- Where an opener stands, a comment begins: with the first opener in the style's order. -/
theorem scanHeld_opens (hs : style.Tight) {t o : Text} (ho : style.firstOpener? t = some o)
    (held : Text) (column : Nat) (before : Option CodePoint) :
    ∃ text more comment comments,
      let r := scanHeld ⟨style, .topLevel, significant, count, none⟩ held column before t
      r.1.pieces =
          Piece.ofHeld column held none ++ ⟨column + held.length, text, some count⟩ :: more ∧
        r.1.ended ++ r.2.unclosed = comment :: comments ∧ comment.opener = o := by
  obtain ⟨hmem, hot⟩ := CommentStyle.mem_of_firstOpener? ho
  have hne : t ≠ [] := by
    rintro rfl
    exact (hs o hmem).ne_nil (List.prefix_nil.mp hot)
  rw [hs.firstOpener?_eq] at ho
  -- A line comment takes all of the line; a block may end on it, or stay open.
  cases hl : style.lineOpener? t with
  | some opener =>
      rw [hl, Option.some_or] at ho
      obtain ⟨c, rest, rfl⟩ := List.exists_cons_of_ne_nil hne
      rw [scanHeld_lineComment held column hl]
      exact ⟨c :: rest, [], ⟨opener, [c :: rest], true⟩, [], rfl, rfl, Option.some.inj ho⟩
  | none =>
      rw [hl, Option.none_or] at ho
      obtain ⟨d, hb, hd⟩ := Option.map_eq_some_iff.mp ho
      obtain ⟨after, rfl⟩ := (CommentStyle.blockAt?_opener hb).1
      cases hi : upToCloser? d.closer after with
      | none =>
          obtain ⟨c, rest, hc⟩ := List.exists_cons_of_ne_nil hne
          have hdrop : (c :: rest).drop d.opener.length = after := by rw [← hc, List.drop_left]
          rw [hc] at hl hb ⊢
          rw [scanHeld_unclosed held column hl hb (by rw [hdrop, hi])]
          exact ⟨c :: rest, [], ⟨d.opener, [c :: rest], false⟩, [], rfl, rfl, hd⟩
      | some inside =>
          obtain ⟨tail, rfl⟩ := upToCloser?_prefix hi
          have htext : ¬ (d.opener ++ inside).isEmpty = true :=
            mt List.isEmpty_iff.mp (CommentStyle.block_ne_nil hb hi)
          rw [← List.append_assoc] at hl hb ⊢
          rw [scanHeld_block held column hl hb hi]
          dsimp only
          generalize scanHeld _ [] _ _ tail = r
          refine ⟨d.opener ++ inside, r.1.pieces, ⟨d.opener, [d.opener ++ inside], true⟩,
            r.1.ended ++ r.2.unclosed, ?_, ?_, hd⟩
          · rw [Piece.ofHeld.eq_1 _ (d.opener ++ inside), if_neg htext]
            rfl
          · rw [Comment.heldPart, if_neg htext]
            rfl

variable {s : CommentScanner} {line o : Text}

theorem openedAt?_firstOpener? (hs : style.Tight) (h : AtTopLevel style s)
    (hq : ∀ c ∈ line.indent, c ∉ style.quotes)
    (ho : style.firstOpener? line.stripLeft = some o) :
    s.openedAt? line line.indent.length = some o := by
  obtain ⟨style, mode, significant, count, current⟩ := s
  obtain ⟨rfl, rfl, rfl⟩ := h
  have hscan : process ⟨style, .topLevel, significant, count, none⟩ line =
      scanHeld ⟨style, .topLevel, significant, count, none⟩ line.indent 0
        (line.indent.getLast?.or none) line.stripLeft := by
    calc process ⟨style, .topLevel, significant, count, none⟩ line
        = scanHeld ⟨style, .topLevel, significant, count, none⟩ [] 0 none line :=
          process_outside rfl line
      _ = scanHeld ⟨style, .topLevel, significant, count, none⟩ [] 0 none
            (line.indent ++ line.stripLeft) := by rw [line.indent_append_stripLeft]
      _ = _ := scanHeld_blank hs line.blank_indent hq [] 0 none line.stripLeft
  obtain ⟨text, more, comment, comments, hpieces, hcomments, hopener⟩ :=
    scanHeld_opens hs ho line.indent 0 (line.indent.getLast?.or none)
  rw [openedAt?, comments_cons, comments_nil, hscan, hpieces, hcomments, Nat.zero_add,
    Piece.find?_ofHeld]
  dsimp only [bind, Option.bind, pure]
  rw [Nat.sub_self, List.getElem?_cons_zero, ← hopener]

/-- White space that is a quote begins a literal, and an opener behind it begins no comment. -/
theorem openedAt?_quote (hs : style.Tight) (h : AtTopLevel style s) {q : CodePoint}
    (hq : q ∈ style.quotes) (hblank : q.isBlank = true) (hne : o ≠ []) :
    s.openedAt? (q :: o) 1 = none := by
  obtain ⟨rfl, hmode, hout⟩ := h
  obtain ⟨c, rest, rfl⟩ := List.exists_cons_of_ne_nil hne
  have hliteral : s.style.modeAfter s.significant q = .literal (.quotation q) := by
    rw [CommentStyle.modeAfter, if_pos (List.elem_eq_true_of_mem hq)]
  obtain ⟨spans, hspans⟩ : ∃ spans,
      (s.style.scanFrom s.mode s.significant none 0 (q :: c :: rest)).spans =
        (Span.code [q]).before ((Span.code [c]).before spans) := by
    rw [hmode, hs.scanFrom_blank _ _ hblank, hliteral, ScannedLine.pushCode_eq,
      CommentStyle.scanFrom, ScannedLine.pushCode_eq]
    exact ⟨_, rfl⟩
  obtain ⟨trail, tail, hbefore⟩ := Span.exists_code_before spans
  have hcover := s.style.cover_scanFrom s.mode s.significant none 0 (q :: c :: rest)
  rw [hspans, Span.code_before_code, hbefore] at hcover
  obtain ⟨after, htail⟩ := hcover.tail
  have hpieces : (s.process (q :: c :: rest)).1.pieces =
      ⟨0, q :: c :: trail, none⟩ ::
        (LinePieces.ofSpans (0 + (q :: c :: trail).length) s.count tail).1.pieces := by
    rw [process_outside hout]
    dsimp only [scanCode]
    rw [hspans, Span.code_before_code, hbefore]
    rfl
  have hnone : (s.process (q :: c :: rest)).1.pieces.find? (·.column = 1) = none := by
    rw [hpieces, List.find?_eq_none]
    refine List.forall_mem_cons.mpr ⟨by simp, ?_⟩
    intro piece hp
    have hle := LinePieces.le_column_ofSpans htail _ s.count piece hp
    simp only [decide_eq_true_eq]
    simp only [List.length_cons] at hle
    omega
  rw [openedAt?, hnone]
  rfl

end CommentScanner

namespace CommentStyle

/-- A line begins with an opener, white space apart. -/
def Opens (style : CommentStyle) (line : Text) : Prop := ∃ o ∈ style.openers, o <+: line.stripLeft

/-- Each opener comes before those that it extends. -/
def LongerFirst (style : CommentStyle) : Prop := ∀ o ∈ style.openers, style.firstOpener? o = some o

namespace Tight

variable {style : CommentStyle} (hs : style.Tight)
include hs

theorem exists_openers {line : Text} (h : style.Opens line) :
    ∃ longest first, longestOpener? style.openers line.strip = some longest ∧
      Longest style.openers line.stripLeft (some longest) ∧
      style.firstOpener? line.stripLeft = some first ∧ style.firstOpener? longest = some first := by
  obtain ⟨o, ho, hot⟩ := h
  obtain ⟨longest, hlongest⟩ := exists_longestOpener? ho hot
  obtain ⟨first, hfirst⟩ := exists_firstOpener? ho hot
  refine ⟨longest, first, (hs.longestOpener?_strip line).trans hlongest, ?_, hfirst,
    (firstOpener?_longest hlongest).symm.trans hfirst⟩
  exact longestOpener?_eq_some_iff.mp hlongest

/-- What is known of a line that holds only an opener, behind white space. -/
theorem of_opener {o w : Text} (ho : o ∈ style.openers) (hw : w.Blank) :
    style.Opens (w ++ o) ∧ (w ++ o).indent = w ∧ (w ++ o).stripLeft = o ∧
      longestOpener? style.openers (w ++ o).strip = some o := by
  have htrimmed := (hs o ho).trimmed
  have hleft : (w ++ o).stripLeft = o := by
    rw [Text.stripLeft_blank_append hw, Text.stripLeft_of_head htrimmed.head]
  refine ⟨⟨o, ho, ?_⟩, Text.indent_blank_append hw htrimmed.head, hleft, ?_⟩
  · exact hleft.symm ▸ List.prefix_rfl
  · rw [hs.longestOpener?_strip, hleft]
    exact longestOpener?_self ho

end Tight

/-- Directives are looked for behind the longest opener that a line begins with. Comments begin
with the first one in the style's order, which may be shorter. The two are the same for all lines
exactly if each opener comes before those that it extends and no white space is a quote. -/
theorem openers_agree_iff {style : CommentStyle} (hs : style.Tight) :
    (∀ line, style.Opens line →
      ∃ longest first, longestOpener? style.openers line.strip = some longest ∧
        Longest style.openers line.stripLeft (some longest) ∧
        style.firstOpener? line.stripLeft = some first ∧ first <+: longest ∧
        ((∀ c ∈ line.indent, c ∉ style.quotes) → ∀ s, CommentScanner.AtTopLevel style s →
          s.openedAt? line line.indent.length = some first)) ∧
    ((∀ s, CommentScanner.AtTopLevel style s → ∀ line, style.Opens line →
        s.openedAt? line line.indent.length = longestOpener? style.openers line.strip) ↔
      style.LongerFirst ∧ (style.openers = [] ∨ ∀ q ∈ style.quotes, q.isBlank = false)) := by
  refine ⟨?_, ?_, ?_⟩
  · intro line hline
    obtain ⟨longest, first, hstrip, hlongest, hopen, hfirst⟩ := hs.exists_openers hline
    refine ⟨longest, first, hstrip, hlongest, hopen, (mem_of_firstOpener? hfirst).2, ?_⟩
    intro hq s htop
    exact s.openedAt?_firstOpener? hs htop hq hopen
  · intro hagree
    have htop : CommentScanner.AtTopLevel style { style } := ⟨rfl, rfl, rfl⟩
    refine ⟨?_, ?_⟩
    · intro o ho
      obtain ⟨hopens, hindent, hleft, hlongest⟩ := hs.of_opener ho (List.forall_mem_nil _)
      obtain ⟨first, hfirst⟩ := exists_firstOpener? ho List.prefix_rfl
      have hopened := CommentScanner.openedAt?_firstOpener? hs htop
        (hindent ▸ List.forall_mem_nil _) (hleft.symm ▸ hfirst)
      rw [hagree _ htop _ hopens, hlongest] at hopened
      rw [hfirst, hopened]
    · by_cases hnone : style.openers = []
      · exact Or.inl hnone
      · right
        obtain ⟨o, rest, hrest⟩ := List.exists_cons_of_ne_nil hnone
        have ho : o ∈ style.openers := by
          rw [hrest]
          exact List.mem_cons_self
        intro q hq
        refine Bool.eq_false_iff.mpr fun hblank => ?_
        obtain ⟨hopens, hindent, -, hlongest⟩ :=
          hs.of_opener ho (List.forall_mem_singleton.mpr hblank)
        have hagreed := hagree _ htop _ hopens
        rw [hindent, hlongest] at hagreed
        cases hagreed.symm.trans
          (CommentScanner.openedAt?_quote hs htop hq hblank (hs o ho).ne_nil)
  · rintro ⟨hfirst, hquotes⟩ s htop line hline
    obtain ⟨longest, first, hstrip, hlongest, hopen, hof⟩ := hs.exists_openers hline
    have heq : some longest = some first := (hfirst longest hlongest.1).symm.trans hof
    rw [hstrip, heq]
    refine s.openedAt?_firstOpener? hs htop ?_ hopen
    intro c hc hq
    have hblank := line.blank_indent c hc
    rcases hquotes with hnone | hquotes
    · exact List.ne_nil_of_mem hlongest.1 hnone
    · rw [hquotes c hq] at hblank
      cases hblank

/-- A line comment opener that a block opener extends, and comes before. -/
def longBrackets : CommentStyle :=
  { name := "brackets", lineOpeners := ["--"], blocks := [⟨"--[[", "]]"⟩] }

theorem openers_agree_iff_brackets :
    longBrackets.Tight ∧ CommentScanner.AtTopLevel longBrackets { style := longBrackets } ∧
    longestOpener? longBrackets.openers (Text.strip " --[[ x ]] y") = some "--[[" ∧
    CommentScanner.openedAt? { style := longBrackets } " --[[ x ]] y" 1 = some "--" ∧
    ¬ ∀ s, CommentScanner.AtTopLevel longBrackets s → ∀ line, longBrackets.Opens line →
      s.openedAt? line line.indent.length = longestOpener? longBrackets.openers line.strip := by
  have hs : longBrackets.Tight := by decide +kernel
  have hnot : ¬ longBrackets.LongerFirst := by
    intro h
    have hself := h "--[[" (by decide +kernel)
    revert hself
    decide +kernel
  refine ⟨hs, ⟨rfl, rfl, rfl⟩, by decide +kernel, by decide +kernel, ?_⟩
  intro hagree
  exact hnot ((openers_agree_iff hs).2.mp hagree).1

end CommentStyle

end Prepass
