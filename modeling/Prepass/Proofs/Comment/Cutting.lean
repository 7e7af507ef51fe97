/- Each comment is one stretch of the lines, from its opener to where it ends. -/
import Prepass.Proofs.Comment.Partition
import Prepass.Proofs.Output.Batch
import Prepass.Proofs.Text.Join
namespace Prepass

/-- A text without newlines. -/
def Text.Unbroken (t : Text) : Prop := CodePoint.ofChar '\n' ∉ t

instance Text.decidableUnbroken (t : Text) : Decidable t.Unbroken :=
  inferInstanceAs (Decidable (CodePoint.ofChar '\n' ∉ t))

/-- What can stand behind a line. -/
def Text.AtLineEnd (after : Text) : Prop :=
  after = [] ∨ ∃ more, after = CodePoint.ofChar '\n' :: more

theorem Text.atLineEnd_continued (lines : List Text) : (continued "\n" lines).AtLineEnd := by
  cases lines with
  | nil => exact Or.inl rfl
  | cons line rest => exact Or.inr ⟨_, continued_cons "\n" line rest⟩

/-- Delimiters that a line can hold. -/
structure CommentStyle.Proper (style : CommentStyle) : Prop where
  opener : ∀ t ∈ style.openers, t ≠ [] ∧ t.Unbroken
  closer : ∀ t ∈ style.closers, t ≠ [] ∧ t.Unbroken

/-- A text that ends with the first closer in it. -/
def Text.UpToFirst (closer t : Text) : Prop :=
  closer <:+ t ∧ ∀ before after, t = before ++ (closer ++ after) → after = []

section Closers

variable {closer t inside : Text}

theorem upToFirst_of_upToCloser? (h : upToCloser? closer t = some inside) :
    Text.UpToFirst closer inside := by
  induction t generalizing inside with
  | nil => cases h
  | cons c rest ih =>
      rw [upToCloser?] at h
      split at h
      · cases h
        refine ⟨List.suffix_rfl, ?_⟩
        intro before after he
        have hlen := congrArg List.length he
        simp only [List.length_append] at hlen
        exact List.eq_nil_of_length_eq_zero (by omega)
      · rename_i hnot
        obtain ⟨more, hm, rfl⟩ := Option.map_eq_some_iff.mp h
        obtain ⟨hs, hfirst⟩ := ih hm
        refine ⟨hs.trans (List.suffix_cons c more), ?_⟩
        intro before after he
        cases before with
        | nil =>
            -- An occurrence at the front would have ended the search here.
            have hmore := upToCloser?_prefix hm
            have hfront : closer <+: c :: more := he ▸ List.prefix_append closer after
            have hp : closer <+: c :: rest := hfront.trans ((List.prefix_cons_inj c).mpr hmore)
            exact absurd (List.isPrefixOf_iff_prefix.mpr hp) hnot
        | cons b before => exact hfirst before after (List.cons.inj he).2

theorem not_isInfix_of_upToCloser? (hne : closer ≠ []) (h : upToCloser? closer t = none) :
    ¬ closer <:+: t := by
  induction t with
  | nil => exact fun hi => hne (List.infix_nil.mp hi)
  | cons c rest ih =>
      rw [upToCloser?] at h
      split at h
      · cases h
      · rename_i hnot
        rw [List.infix_cons_iff]
        rintro (hp | hi)
        · exact hnot (List.isPrefixOf_iff_prefix.mpr hp)
        · exact ih (Option.map_eq_none_iff.mp h) hi

/-- What does not hold a character is found on one side of it. -/
theorem append_cons_eq {c : CodePoint} {a b before after : Text} (hc : c ∉ closer)
    (hne : closer ≠ []) (h : a ++ c :: b = before ++ (closer ++ after)) :
    closer <:+: a ∨ ∃ more, b = more ++ (closer ++ after) := by
  rcases List.append_eq_append_iff.mp h with ⟨mid, rfl, hm⟩ | ⟨mid, rfl, hm⟩
  · cases mid with
    | nil =>
        obtain ⟨d, rest, rfl⟩ := List.exists_cons_of_ne_nil hne
        obtain ⟨rfl, -⟩ := List.cons.inj hm
        exact absurd List.mem_cons_self hc
    | cons d mid => exact Or.inr ⟨mid, (List.cons.inj hm).2⟩
  · rcases List.append_eq_append_iff.mp hm with ⟨rest, rfl, -⟩ | ⟨rest, rfl, hr⟩
    · exact Or.inl ⟨before, rest, List.append_assoc _ _ _⟩
    · cases rest with
      | nil =>
          rw [List.append_nil]
          exact Or.inl (List.suffix_append before mid).isInfix
      | cons d rest =>
          obtain ⟨rfl, -⟩ := List.cons.inj hr
          exact absurd (List.mem_append_right mid List.mem_cons_self) hc

end Closers

namespace Comment

/-- A comment as a style has it, and what follows it: up to the end of its line, up to the closer,
or up to the end of all lines. -/
inductive Delimited (style : CommentStyle) (c : Comment) (after : Text) : Prop
  | line : c.opener ∈ style.lineOpeners → c.opener <+: c.text → c.text.Unbroken →
      c.closed = true → after.AtLineEnd → Delimited style c after
  | block (d : BlockDelimiters) (inside : Text) : d ∈ style.blocks →
      c.opener = d.opener → d.opener ∉ style.lineOpeners → c.text = d.opener ++ inside →
      Text.UpToFirst d.closer inside → c.closed = true → Delimited style c after
  | unclosed (d : BlockDelimiters) (inside : Text) : d ∈ style.blocks →
      c.opener = d.opener → d.opener ∉ style.lineOpeners → c.text = d.opener ++ inside →
      ¬ d.closer <:+: inside → c.closed = false → after = [] → Delimited style c after

variable {style : CommentStyle} {c : Comment} {after : Text}

theorem Delimited.ne_nil (hp : style.Proper) (h : c.Delimited style after) : c.text ≠ [] := by
  have hblock {d : BlockDelimiters} {inside : Text} (hd : d ∈ style.blocks)
      (ht : c.text = d.opener ++ inside) : c.text ≠ [] := by
    have ho : d.opener ∈ style.openers := List.mem_append_right _ (List.mem_map_of_mem hd)
    rw [ht]
    exact List.append_ne_nil_of_left_ne_nil (hp.opener _ ho).1 _
  cases h with
  | line ho hpre hu hc ha =>
      have hne := (hp.opener _ (List.mem_append_left _ ho)).1
      exact fun he => hne (List.prefix_nil.mp (he ▸ hpre))
  | block d inside hd ho hl ht hf hc => exact hblock hd ht
  | unclosed d inside hd ho hl ht hn hc ha => exact hblock hd ht

end Comment

namespace Piece

/-- A piece with its place in the lines, given the place where its line begins. -/
def placed (base : Nat) (piece : Piece) : Nat × Piece := (base + piece.column, piece)

/-- The pieces of all lines with their places in the lines joined by newlines. -/
def places (base : Nat) : List Text → List (List Piece) → List (Nat × Piece)
  | line :: lines, row :: rows =>
    row.map (placed base) ++ places (base + line.length + 1) lines rows
  | _, _ => []

/-- The place of the first piece of a comment. -/
def first? (number : Nat) (pieces : List (Nat × Piece)) : Option Nat :=
  (pieces.find? fun e => e.2.comment = some number).map Prod.fst

theorem first?_cons {number : Nat} {first : Piece} (h : first.comment = some number) (pos : Nat)
    (pieces : List (Nat × Piece)) : first? number ((pos, first) :: pieces) = some pos := by
  simp only [first?, List.find?_cons, h, decide_true, Option.map_some]

theorem first?_append {number : Nat} {front : List (Nat × Piece)}
    (h : ∀ e ∈ front, e.2.comment ≠ some number) (pieces : List (Nat × Piece)) :
    first? number (front ++ pieces) = first? number pieces := by
  have hnone : front.find? (fun e => e.2.comment = some number) = none :=
    List.find?_eq_none.mpr fun e he => by simpa using h e he
  rw [first?, List.find?_append, hnone, Option.none_or]
  rfl

end Piece

/-- The text from a position on, with the pieces in it and the comments that they belong to, which
are numbered from `number` on. -/
inductive Cut (style : CommentStyle) : Nat → Nat → Text → List (Nat × Piece) → List Comment → Prop
  | nil (number pos : Nat) : Cut style number pos [] [] []
  | code {number pos : Nat} {text : Text} {pieces : List (Nat × Piece)} {comments : List Comment}
      (gap : Text) (codes : List (Nat × Piece)) : (∀ e ∈ codes, e.2.comment = none) →
      Cut style number (pos + gap.length) text pieces comments →
      Cut style number pos (gap ++ text) (codes ++ pieces) comments
  | comment {number pos : Nat} {text : Text} {pieces : List (Nat × Piece)}
      {comments : List Comment} (c : Comment) (first : Piece) (more : List (Nat × Piece)) :
      c.Delimited style text → first.comment = some number →
      (∀ e ∈ more, e.2.comment = some number) →
      Cut style (number + 1) (pos + c.text.length) text pieces comments →
      Cut style number pos (c.text ++ text) ((pos, first) :: (more ++ pieces)) (c :: comments)

namespace Cut

variable {style : CommentStyle} {number pos : Nat} {text whole : Text}
  {pieces : List (Nat × Piece)} {comments : List Comment}

/-- The pieces of a comment before them have no part in where the next ones begin. -/
theorem first?_next {first : Piece} {more : List (Nat × Piece)} (hf : first.comment = some number)
    (hmore : ∀ e ∈ more, e.2.comment = some number) (n : Nat) :
    Piece.first? (number + (n + 1)) ((pos, first) :: (more ++ pieces)) =
      Piece.first? (number + 1 + n) pieces := by
  have hall : ∀ e ∈ (pos, first) :: more, e.2.comment = some number :=
    List.forall_mem_cons.mpr ⟨hf, hmore⟩
  rw [← List.cons_append, Nat.add_right_comm, Nat.add_assoc]
  apply Piece.first?_append
  intro e he hn
  have hsame := Option.some.inj ((hall e he).symm.trans hn)
  omega

theorem first?_code {codes : List (Nat × Piece)} (hcodes : ∀ e ∈ codes, e.2.comment = none)
    (n : Nat) : Piece.first? n (codes ++ pieces) = Piece.first? n pieces := by
  apply Piece.first?_append
  intro e he hn
  rw [hcodes e he] at hn
  cases hn

theorem drop_of_append {front : Text} (hw : whole.drop pos = front ++ text) :
    whole.drop (pos + front.length) = text := by
  rw [← List.drop_drop, hw, List.drop_left]

/-- Each comment is where its first piece is. -/
theorem located (h : Cut style number pos text pieces comments) (hw : whole.drop pos = text)
    {n : Nat} {c : Comment} (hc : comments[n]? = some c) :
    ∃ start, Piece.first? (number + n) pieces = some start ∧ pos ≤ start ∧
      c.text <+: whole.drop start ∧ c.Delimited style (whole.drop (start + c.text.length)) := by
  induction h generalizing n with
  | nil number pos => cases hc
  | code gap codes hcodes hrest ih =>
      obtain ⟨start, hs, hle, hfound⟩ := ih (drop_of_append hw) hc
      exact ⟨start, (first?_code hcodes _).trans hs, by omega, hfound⟩
  | @comment number pos text pieces comments e first more he hf hmore hrest ih =>
      cases n with
      | zero =>
          obtain rfl := Option.some.inj hc
          refine ⟨pos, Piece.first?_cons hf pos _, Nat.le_refl pos, ?_, ?_⟩
          · rw [hw]
            exact List.prefix_append _ _
          · rw [drop_of_append hw]
            exact he
      | succ n =>
          obtain ⟨start, hs, hle, hfound⟩ := ih (drop_of_append hw) hc
          exact ⟨start, (first?_next hf hmore n).trans hs, by omega, hfound⟩

/-- A comment ends before the later ones begin. -/
theorem ordered (h : Cut style number pos text pieces comments) (hw : whole.drop pos = text)
    {m n start next : Nat} {c e : Comment} (hmn : m < n) (hc : comments[m]? = some c)
    (he : comments[n]? = some e) (hs : Piece.first? (number + m) pieces = some start)
    (hn : Piece.first? (number + n) pieces = some next) : start + c.text.length ≤ next := by
  induction h generalizing m n with
  | nil number pos => cases hc
  | code gap codes hcodes hrest ih =>
      rw [first?_code hcodes] at hs hn
      exact ih (drop_of_append hw) hmn hc he hs hn
  | @comment number pos text pieces comments found first more hd hf hmore hrest ih =>
      obtain ⟨n, rfl⟩ := Nat.exists_eq_succ_of_ne_zero (Nat.ne_zero_of_lt hmn)
      rw [first?_next hf hmore] at hn
      cases m with
      | zero =>
          obtain ⟨found, hfound, hle, -⟩ := hrest.located (drop_of_append hw) he
          have hpos : pos = start := Option.some.inj ((Piece.first?_cons hf pos _).symm.trans hs)
          obtain rfl := Option.some.inj hc
          obtain rfl := Option.some.inj (hfound.symm.trans hn)
          omega
      | succ m =>
          rw [first?_next hf hmore] at hs
          exact ih (drop_of_append hw) (Nat.lt_of_succ_lt_succ hmn) hc he hs hn

/-- Behind a comment that is not closed there is no room for another one. -/
theorem closed (hp : style.Proper) (h : Cut style number pos text pieces comments)
    (hw : whole.drop pos = text) {n : Nat} {c : Comment} (hc : comments[n]? = some c)
    (hn : n + 1 < comments.length) : c.closed = true := by
  obtain ⟨start, hs, -, -, hd⟩ := h.located hw hc
  cases hd with
  | line ho hpre hu hclosed ha => exact hclosed
  | block d inside hd ho hl ht hf hclosed => exact hclosed
  | unclosed d inside hd ho hl ht hnot hclosed hend =>
      have he := List.getElem?_eq_getElem hn
      obtain ⟨next, hnext, -, hpre, hdelimited⟩ := h.located hw he
      have hle := h.ordered hw (Nat.lt_succ_self n) hc he hs hnext
      have hnone : whole.drop next = [] := by
        rw [← Nat.add_sub_of_le hle, ← List.drop_drop, hend, List.drop_nil]
      rw [hnone] at hpre
      exact absurd (List.prefix_nil.mp hpre) (hdelimited.ne_nil hp)

end Cut

namespace OpenComment

/-- The text so far. -/
def text (o : OpenComment) : Text := (o.comment false).text

/-- A block comment that the style has, and that its closer has not ended. -/
structure Pending (style : CommentStyle) (o : OpenComment) : Prop where
  block : o.delimiters ∈ style.blocks
  notLine : o.delimiters.opener ∉ style.lineOpeners
  rest : ∃ inside, o.text = o.delimiters.opener ++ inside ∧ ¬ o.delimiters.closer <:+: inside

variable {style : CommentStyle} {o : OpenComment} {line : Text}

theorem Pending.ne_nil (hp : style.Proper) (h : o.Pending style) : o.parts.reverse ≠ [] := by
  obtain ⟨inside, ht, -⟩ := h.rest
  have ho : o.delimiters.opener ∈ style.openers :=
    List.mem_append_right _ (List.mem_map_of_mem h.block)
  intro he
  rw [text, comment, Comment.text, he] at ht
  exact (hp.opener _ ho).1 (List.append_eq_nil_iff.mp ht.symm).1

theorem Pending.text_addPart (hp : style.Proper) (h : o.Pending style) (closed : Bool) :
    ((o.addPart line).comment closed).text = o.text ++ (CodePoint.ofChar '\n' :: line) := by
  rw [comment, Comment.text, addPart, List.reverse_cons, Text.join_concat (h.ne_nil hp)]
  rfl

theorem Pending.closer (hp : style.Proper) (h : o.Pending style) :
    o.delimiters.closer ≠ [] ∧ o.delimiters.closer.Unbroken :=
  hp.closer _ (List.mem_map_of_mem h.block)

/-- A further line in which the closer does not occur. -/
theorem Pending.stays (hp : style.Proper) (h : o.Pending style)
    (hi : upToCloser? o.delimiters.closer line = none) : (o.addPart line).Pending style := by
  obtain ⟨hne, hu⟩ := h.closer hp
  obtain ⟨inside, ht, hn⟩ := h.rest
  refine ⟨h.block, h.notLine, inside ++ CodePoint.ofChar '\n' :: line, ?_, ?_⟩
  · rw [text, h.text_addPart hp, ht, List.append_assoc]
    rfl
  · rintro ⟨before, after, he⟩
    rw [List.append_assoc] at he
    rcases append_cons_eq hu hne he.symm with hin | ⟨more, hm⟩
    · exact hn hin
    · rw [hm] at hi
      exact not_isInfix_of_upToCloser? hne hi ⟨more, after, List.append_assoc _ _ _⟩

/-- The line on which the closer occurs ends the comment. -/
theorem Pending.delimited {inside after : Text} (hp : style.Proper) (h : o.Pending style)
    (hi : upToCloser? o.delimiters.closer line = some inside) :
    ((o.addPart inside).comment true).Delimited style after := by
  obtain ⟨hne, hu⟩ := h.closer hp
  obtain ⟨held, ht, hn⟩ := h.rest
  obtain ⟨hs, hf⟩ := upToFirst_of_upToCloser? hi
  refine .block o.delimiters (held ++ CodePoint.ofChar '\n' :: inside) h.block rfl h.notLine ?_
    ⟨?_, ?_⟩ rfl
  · rw [h.text_addPart hp, ht, List.append_assoc]
  · exact hs.trans ((List.suffix_cons _ inside).trans (List.suffix_append held _))
  · intro before after he
    rcases append_cons_eq hu hne he with hin | ⟨more, hm⟩
    · exact absurd hin hn
    · exact hf more after hm

end OpenComment

/-- What follows the end of a line, where a comment may be open. It is then cut together with what
there is of that comment. -/
def Resumes (style : CommentStyle) (number pos : Nat) (after : Text) (pieces : List (Nat × Piece))
    (comments : List Comment) : Option OpenComment → Prop
  | none => Cut style number pos after pieces comments
  | some o => o.Pending style → ∀ start first more, start + o.text.length = pos →
      first.comment = some number → (∀ e ∈ more, e.2.comment = some number) →
      Cut style number start (o.text ++ after) ((start, first) :: (more ++ pieces)) comments

namespace LinePieces

theorem ofSpans_code (column number : Nat) (t : Text) (rest : List Span) :
    ofSpans column number (.code t :: rest) =
      let r := ofSpans (column + t.length) number rest
      ({ r.1 with pieces := ⟨column, t, none⟩ :: r.1.pieces }, r.2) := rfl

theorem ofSpans_block (column number : Nat) (d : BlockDelimiters) (t : Text) (rest : List Span) :
    ofSpans column number (.blockComment d t true :: rest) =
      let r := ofSpans (column + t.length) (number + 1) rest
      (⟨⟨column, t, some number⟩ :: r.1.pieces, ⟨d.opener, [t], true⟩ :: r.1.ended⟩, r.2) := rfl

end LinePieces

theorem Comment.text_single (opener t : Text) (closed : Bool) :
    (Comment.mk opener [t] closed).text = t := by
  rw [Comment.text, Text.join, List.intercalate_singleton]

namespace CommentStyle

variable {style : CommentStyle} {t after opener : Text}

theorem mem_of_lineOpener? (h : style.lineOpener? t = some opener) :
    opener ∈ style.lineOpeners ∧ opener <+: t := by
  have hp := List.find?_some h
  exact ⟨List.mem_of_find?_eq_some h, List.isPrefixOf_iff_prefix.mp hp⟩

/-- Where no line comment begins, no block comment begins with what opens a line comment. -/
theorem not_mem_of_lineOpener? (h : style.lineOpener? (t ++ after) = none) :
    t ∉ style.lineOpeners := by
  intro hm
  have hnot := List.find?_eq_none.mp h t hm
  exact hnot (List.isPrefixOf_iff_prefix.mpr (List.prefix_append t after))

end CommentStyle

theorem Text.Unbroken.right {s t : Text} (h : Unbroken (s ++ t)) : t.Unbroken :=
  fun ht => h (List.mem_append_right s ht)

namespace Cut

variable {style : CommentStyle} {number : Nat} {t after : Text} {pieces : List (Nat × Piece)}
  {comments : List Comment}

/-- A comment within a line. -/
theorem single {pos : Nat} {opener : Text}
    (hc : (Comment.mk opener [t] true).Delimited style after) (column : Nat)
    (h : Cut style (number + 1) (pos + t.length) after pieces comments) :
    Cut style number pos (t ++ after) ((pos, ⟨column, t, some number⟩) :: pieces)
      (⟨opener, [t], true⟩ :: comments) := by
  have htext := Comment.text_single opener t true
  rw [← htext] at h
  have hcut := Cut.comment _ ⟨column, t, some number⟩ [] hc rfl nofun h
  rwa [htext] at hcut

theorem add_length_append (base column : Nat) (c t : Text) :
    base + column + (c ++ t).length = base + (column + c.length) + t.length := by
  rw [List.length_append]
  omega

/-- The spans of a line, followed by what comes after the line. -/
theorem of_marked (hp : style.Proper) {spans : List Span} (h : Span.Marked style t spans)
    (ht : t.Unbroken) (ha : after.AtLineEnd) {base column : Nat}
    (hr : Resumes style (number + (LinePieces.ofSpans column number spans).1.ended.length)
      (base + column + t.length) after pieces comments
      (LinePieces.ofSpans column number spans).2) :
    Cut style number (base + column) (t ++ after)
      ((LinePieces.ofSpans column number spans).1.pieces.map (Piece.placed base) ++ pieces)
      ((LinePieces.ofSpans column number spans).1.ended ++ comments) := by
  induction h generalizing column number with
  | nil => exact hr
  | @code c t rest hc hm ih =>
      rw [LinePieces.ofSpans_code] at hr ⊢
      rw [add_length_append] at hr
      have hrest := ih ht.right hr
      rw [← Nat.add_assoc] at hrest
      rw [List.append_assoc]
      exact .code c [(base + column, ⟨column, c, none⟩)] (by simp) hrest
  | @lineComment t opener hne ho =>
      obtain ⟨hmem, hpre⟩ := CommentStyle.mem_of_lineOpener? ho
      have htext := Comment.text_single opener t true
      have hc : (Comment.mk opener [t] true).Delimited style after :=
        .line hmem (htext.symm ▸ hpre) (htext.symm ▸ ht) rfl ha
      exact .single hc column hr
  | @blockComment d inside t rest hl hd hi hm ih =>
      rw [LinePieces.ofSpans_block] at hr ⊢
      rw [add_length_append, List.length_cons, ← Nat.add_assoc, Nat.add_right_comm number] at hr
      have hrest := ih ht.right hr
      rw [← Nat.add_assoc] at hrest
      rw [List.append_assoc] at hl
      rw [List.append_assoc (d.opener ++ inside)]
      have hc : (Comment.mk d.opener [d.opener ++ inside] true).Delimited style (t ++ after) :=
        .block d inside (List.mem_of_find?_eq_some hd) rfl (CommentStyle.not_mem_of_lineOpener? hl)
          (Comment.text_single _ _ _) (upToFirst_of_upToCloser? hi) rfl
      exact .single hc column hrest
  | @unclosed d inside hne hl hd hi =>
      have hblock := List.mem_of_find?_eq_some hd
      have hcloser : d.closer ∈ style.closers := List.mem_map_of_mem hblock
      have hnot := not_isInfix_of_upToCloser? (hp.closer _ hcloser).1 hi
      have htext : OpenComment.text ⟨d, [d.opener ++ inside]⟩ = d.opener ++ inside :=
        Comment.text_single _ _ _
      have hpending : OpenComment.Pending style ⟨d, [d.opener ++ inside]⟩ :=
        ⟨hblock, CommentStyle.not_mem_of_lineOpener? hl, inside, htext, hnot⟩
      -- The first piece of the comment is here; how it ends is for the lines that follow.
      have hcut := hr hpending (base + column) ⟨column, d.opener ++ inside, some number⟩ []
        (by rw [htext]) rfl nofun
      rw [htext] at hcut
      exact hcut

end Cut

namespace CommentScanner

section Step

variable {s : CommentScanner} {o : OpenComment} {t line inside after : Text}
  {pieces : List (Nat × Piece)} {comments : List Comment}

theorem cut_scanCode (hp : s.style.Proper) (ht : t.Unbroken) (ha : after.AtLineEnd)
    {base column : Nat} {before : Option CodePoint}
    (hr : Resumes s.style (s.scanCode column before t).2.count (base + column + t.length) after
      pieces comments (s.scanCode column before t).2.current) :
    Cut s.style s.count (base + column) (t ++ after)
      ((s.scanCode column before t).1.pieces.map (Piece.placed base) ++ pieces)
      ((s.scanCode column before t).1.ended ++ comments) :=
  .of_marked hp (s.style.marked_scanFrom s.mode s.significant before 0 t) ht ha hr

theorem resumes_staying {pos : Nat} (hp : s.style.Proper) (hs : s.current = some o)
    (hi : upToCloser? o.delimiters.closer line = none)
    (hr : Resumes s.style s.count (pos + 1 + line.length) after pieces comments
      (some (o.addPart line))) :
    Resumes s.style s.count pos (CodePoint.ofChar '\n' :: (line ++ after))
      ((s.process line).1.pieces.map (Piece.placed (pos + 1)) ++ pieces)
      ((s.process line).1.ended ++ comments) (some o) := by
  rw [process_staying hs hi]
  intro hpending start first more hstart hf hmore
  have htext : (o.addPart line).text = _ := hpending.text_addPart hp false
  have hlen : start + (o.addPart line).text.length = pos + 1 + line.length := by
    rw [htext, List.length_append, List.length_cons]
    omega
  have hrow : ∀ e ∈ (if line.isEmpty then [] else [Piece.mk 0 line (some s.count)]).map
      (Piece.placed (pos + 1)), e.2.comment = some s.count := by
    split <;> simp [Piece.placed]
  have hcut := hr (hpending.stays hp hi) start first _ hlen hf
    (List.forall_mem_append.mpr ⟨hmore, hrow⟩)
  rw [htext, List.append_assoc, List.append_assoc] at hcut
  exact hcut

theorem resumes_closing {pos : Nat} (hp : s.style.Proper) (hs : s.current = some o)
    (hi : upToCloser? o.delimiters.closer line = some inside) (hline : line.Unbroken)
    (ha : after.AtLineEnd)
    (hr : Resumes s.style (s.process line).2.count (pos + 1 + line.length) after pieces comments
      (s.process line).2.current) :
    Resumes s.style s.count pos (CodePoint.ofChar '\n' :: (line ++ after))
      ((s.process line).1.pieces.map (Piece.placed (pos + 1)) ++ pieces)
      ((s.process line).1.ended ++ comments) (some o) := by
  intro hpending start first more hstart hf hmore
  have hne := upToCloser?_ne_nil (hpending.closer hp).1 hi
  have hsome : inside.isEmpty = false := List.isEmpty_eq_false_iff.mpr hne
  have hended : ((o.addPart inside).comment true).Delimited s.style
      (line.drop inside.length ++ after) := hpending.delimited hp hi
  rw [process_closing hs hi] at hr ⊢
  simp only [hsome, Bool.false_eq_true, if_false] at hr ⊢
  obtain ⟨tail, rfl⟩ := upToCloser?_prefix hi
  rw [List.drop_left] at hr hended ⊢
  rw [List.length_append, ← Nat.add_assoc] at hr
  have htext : ((o.addPart inside).comment true).text = _ := hpending.text_addPart hp true
  have hpos : start + ((o.addPart inside).comment true).text.length = pos + 1 + inside.length := by
    rw [htext, List.length_append, List.length_cons]
    omega
  have hrest := cut_scanCode (s := { s with count := s.count + 1, current := none }) hp
    hline.right ha hr
  rw [← hpos] at hrest
  have hcut := Cut.comment _ first (more ++ [(pos + 1, ⟨0, inside, some s.count⟩)]) hended hf
    (List.forall_mem_append.mpr ⟨hmore, by simp⟩) hrest
  rw [htext, List.append_assoc, List.append_assoc] at hcut
  rw [List.append_assoc]
  exact hcut

/-- A line, with the newline before it, put before what follows it. -/
theorem resumes_process {pos : Nat} (hp : s.style.Proper) (hline : line.Unbroken)
    (ha : after.AtLineEnd)
    (hr : Resumes s.style (s.process line).2.count (pos + 1 + line.length) after pieces comments
      (s.process line).2.current) :
    Resumes s.style s.count pos (CodePoint.ofChar '\n' :: (line ++ after))
      ((s.process line).1.pieces.map (Piece.placed (pos + 1)) ++ pieces)
      ((s.process line).1.ended ++ comments) s.current := by
  cases hs : s.current with
  | none =>
      rw [process_outside hs] at hr ⊢
      exact .code [CodePoint.ofChar '\n'] [] nofun (cut_scanCode hp hline ha hr)
  | some o =>
      cases hi : upToCloser? o.delimiters.closer line with
      | none =>
          rw [process_staying hs hi] at hr
          exact resumes_staying hp hs hi hr
      | some inside => exact resumes_closing hp hs hi hline ha hr

end Step

theorem style_process (s : CommentScanner) (line : Text) : (s.process line).2.style = s.style := by
  cases hs : s.current with
  | none =>
      rw [process_outside hs]
      rfl
  | some o =>
      cases hi : upToCloser? o.delimiters.closer line with
      | none => rw [process_staying hs hi]
      | some inside =>
          rw [process_closing hs hi]
          rfl

/-- From the end of a line on, the scanner cuts the lines that follow. -/
theorem resumes_processAll {s : CommentScanner} (hp : s.style.Proper) {lines : List Text}
    (hl : ∀ line ∈ lines, line.Unbroken) (pos : Nat) :
    Resumes s.style s.count pos (Text.continued "\n" lines)
      (Piece.places (pos + 1) lines ((s.processAll lines).1.map LinePieces.pieces))
      (s.comments lines) s.current := by
  induction lines generalizing s pos with
  | nil =>
      rw [comments_nil, unclosed]
      cases hs : s.current with
      | none => exact .nil s.count pos
      | some o =>
          intro hpending start first more _ hf hmore
          obtain ⟨inside, ht, hn⟩ := hpending.rest
          refine .comment (o.comment false) first more ?_ hf hmore (.nil _ _)
          exact .unclosed o.delimiters inside hpending.block rfl hpending.notLine ht hn rfl rfl
  | cons line rest ih =>
      obtain ⟨hline, hrest⟩ := List.forall_mem_cons.mp hl
      have hstyle := s.style_process line
      have hnext := @ih (s.process line).2 (hstyle ▸ hp) hrest (pos + 1 + line.length)
      rw [hstyle] at hnext
      rw [comments_cons, processAll_cons, Text.continued_cons]
      exact resumes_process hp hline (Text.atLineEnd_continued rest) hnext

end CommentScanner

namespace CommentStyle

/-- Where a comment begins in the lines joined by newlines: the place of its first piece. -/
def start? (style : CommentStyle) (lines : List Text) (number : Nat) : Option Nat :=
  Piece.first? number (Piece.places 0 lines (style.scanLines lines).1)

variable {style : CommentStyle} {lines : List Text}

theorem cut_scanLines (hp : style.Proper) (hl : ∀ line ∈ lines, line.Unbroken) :
    Cut style 0 0 (Text.join "\n" lines) (Piece.places 0 lines (style.scanLines lines).1)
      (style.scanLines lines).2 := by
  cases lines with
  | nil => exact .nil 0 0
  | cons line rest =>
      obtain ⟨hline, hrest⟩ := List.forall_mem_cons.mp hl
      have hnext := CommentScanner.resumes_processAll
        (s := (({ style } : CommentScanner).scanCode 0 none line).2) hp hrest (0 + 0 + line.length)
      have hcomments : (style.scanLines (line :: rest)).2 = _ :=
        CommentScanner.comments_cons { style } line rest
      rw [Text.join_cons, hcomments]
      exact CommentScanner.cut_scanCode (s := { style }) hp hline
        (Text.atLineEnd_continued rest) hnext

/-- The comments of lines are stretches of the lines joined by newlines. Each begins where its first
piece is, with its opener. It runs to the end of the line, or to the first closer, or, if it is the
last one, to the end of all lines. None begins before the one before it has ended. -/
theorem scanLines_cut (hp : style.Proper) (hl : ∀ line ∈ lines, line.Unbroken) :
    let comments := (style.scanLines lines).2
    let whole := Text.join "\n" lines
    (∀ n c, comments[n]? = some c → ∃ start, style.start? lines n = some start ∧
      c.text <+: whole.drop start ∧ c.Delimited style (whole.drop (start + c.text.length)) ∧
      (n + 1 < comments.length → c.closed = true)) ∧
    ∀ m n c e start next, m < n → comments[m]? = some c → comments[n]? = some e →
      style.start? lines m = some start → style.start? lines n = some next →
        start + c.text.length ≤ next := by
  intro comments whole
  have hcut := cut_scanLines hp hl
  have hwhole : whole.drop 0 = whole := rfl
  constructor
  · intro n c hc
    obtain ⟨start, hs, -, hpre, hd⟩ := hcut.located hwhole hc
    rw [Nat.zero_add] at hs
    exact ⟨start, hs, hpre, hd, hcut.closed hp hwhole hc⟩
  · intro m n c e start next hmn hc he hs hn
    rw [← Nat.zero_add m] at hs
    rw [← Nat.zero_add n] at hn
    exact hcut.ordered hwhole hmn hc he hs hn

/-- An opener in a literal, a closer that overlaps its opener, an empty line within a comment, and a
comment that is not closed. -/
def commentedLines : List Text :=
  ["s = '/*'; //x", "a /*/ b", "", "c */ d /*e*/ f", "/* g", ""]

theorem scanLines_cut_commented :
    javascript.Proper ∧ (∀ line ∈ commentedLines, line.Unbroken) ∧
    (javascript.scanLines commentedLines).2.map Comment.text =
      (["//x", "/*/ b\n\nc */", "/*e*/", "/* g\n"] : List Text) ∧
    ∃ c start, (javascript.scanLines commentedLines).2[1]? = some c ∧
      javascript.start? commentedLines 1 = some start ∧
      c.text <+: (Text.join "\n" commentedLines).drop start ∧
      c.Delimited javascript ((Text.join "\n" commentedLines).drop (start + c.text.length)) ∧
      c.closed = true ∧
      ∀ next, javascript.start? commentedLines 2 = some next → start + c.text.length ≤ next := by
  have hp : javascript.Proper := ⟨by decide +kernel, by decide +kernel⟩
  have hl : ∀ line ∈ commentedLines, line.Unbroken := by decide +kernel
  obtain ⟨hcomment, hordered⟩ := scanLines_cut hp hl
  obtain ⟨c, hc⟩ : ∃ c, (javascript.scanLines commentedLines).2[1]? = some c :=
    Option.isSome_iff_exists.mp (by decide +kernel)
  obtain ⟨e, he⟩ : ∃ e, (javascript.scanLines commentedLines).2[2]? = some e :=
    Option.isSome_iff_exists.mp (by decide +kernel)
  obtain ⟨start, hs, hpre, hd, hclosed⟩ := hcomment 1 c hc
  refine ⟨hp, hl, by decide +kernel, c, start, hc, hs, hpre, hd, hclosed (by decide +kernel), ?_⟩
  intro next hn
  exact hordered 1 2 c e start next (by decide) hc he hs hn

end CommentStyle

end Prepass
