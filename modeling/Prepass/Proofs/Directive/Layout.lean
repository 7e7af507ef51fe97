/- A directive reads the same however its line is laid out. -/
import Prepass.Directive
import Prepass.Proofs.Comment.Openers
import Prepass.Proofs.Text.Classes
import Prepass.Proofs.Text.Join
import Prepass.Proofs.Text.Strip
namespace Prepass

theorem CodePoint.isLetter_of_isBlank {c : CodePoint} (h : c.isBlank = true) :
    c.isLetter = false := by
  have hi := isIdentifierChar_of_isBlank h
  simp only [isIdentifierChar, isAlphanumeric, Bool.or_eq_false_iff] at hi
  exact hi.1.1.1.1

namespace Keyword

theorem ofText?_spelling (keyword : Keyword) : ofText? keyword.spelling = some keyword := by
  cases keyword <;> decide +kernel

theorem spelling_ne_nil (keyword : Keyword) : keyword.spelling ≠ [] := by
  cases keyword <;> decide +kernel

theorem isLetter_spelling (keyword : Keyword) : ∀ c ∈ keyword.spelling, c.isLetter = true := by
  cases keyword <;> decide +kernel

end Keyword

/-- Delimiters that are not mistaken for each other, nor for what stands around them. -/
structure CommentStyle.Distinct (style : CommentStyle) : Prop where
  tight : style.Tight
  closer : ∀ e ∈ style.closers, e.Solid ∧ ∀ c ∈ e.head?, c.isLetter = false
  openers : ∀ o ∈ style.openers, ∀ p ∈ style.openers, o <+: p → o = p
  closers : ∀ e ∈ style.closers, ∀ f ∈ style.closers, e <:+ f → e = f

namespace CommentStyle

theorem distinct_of_named? {name : Text} {style : CommentStyle} (h : named? name = some style) :
    style.Distinct := by
  have hm : style ∈ [javascript, stylesheet, markup] := List.mem_of_find?_eq_some h
  have htight : ∀ style ∈ [javascript, stylesheet, markup], style.Tight := by decide +kernel
  have hcloser : ∀ style ∈ [javascript, stylesheet, markup], ∀ e ∈ style.closers,
      e.Solid ∧ ∀ c ∈ e.head?, c.isLetter = false := by
    decide +kernel
  have hopeners : ∀ style ∈ [javascript, stylesheet, markup], ∀ o ∈ style.openers,
      ∀ p ∈ style.openers, o <+: p → o = p := by
    decide +kernel
  have hclosers : ∀ style ∈ [javascript, stylesheet, markup], ∀ e ∈ style.closers,
      ∀ f ∈ style.closers, e <:+ f → e = f := by
    decide +kernel
  exact ⟨htight style hm, hcloser style hm, hopeners style hm, hclosers style hm⟩

namespace Distinct

variable {style : CommentStyle} (h : style.Distinct)
include h

theorem longestOpener?_append {o : Text} (ho : o ∈ style.openers) (rest : Text) :
    CommentStyle.longestOpener? style.openers (o ++ rest) = some o := by
  refine longestOpener?_eq_some_iff.mpr ⟨ho, List.prefix_append o rest, ?_⟩
  intro p hp hpt
  rcases List.prefix_or_prefix_of_prefix hpt (List.prefix_append o rest) with hle | hle
  · exact hle.length_le
  · rw [h.openers o ho p hp hle]

theorem stripCloser_append {e : Text} (he : e ∈ style.closers) (t : Text) :
    Directive.stripCloser style.closers (t ++ e) = t.stripRight := by
  have hfind : style.closers.find? (·.isSuffixOf (t ++ e)) = some e := by
    cases hf : style.closers.find? (·.isSuffixOf (t ++ e)) with
    | none =>
        have hnot := List.find?_eq_none.mp hf e he
        exact absurd (List.isSuffixOf_iff_suffix.mpr (List.suffix_append t e)) hnot
    | some f =>
        have hm := List.mem_of_find?_eq_some hf
        have hs := List.find?_some hf
        rcases List.suffix_or_suffix_of_suffix (List.isSuffixOf_iff_suffix.mp hs)
          (List.suffix_append t e) with hfe | hfe
        · rw [h.closers f hm e he hfe]
        · rw [h.closers e he f hm hfe]
  have hne := (h.closer e he).1.ne_nil
  unfold Directive.stripCloser
  rw [hfind]
  cases e with
  | nil => exact absurd rfl hne
  | cons c more =>
      have hlen : (t ++ c :: more).length - (c :: more).length = t.length := by
        rw [List.length_append, Nat.add_sub_cancel]
      dsimp only
      rw [hlen, List.take_left]

end Distinct

end CommentStyle

namespace Directive

theorem stripCloser_of_not_suffix {closers : List Text} {t : Text}
    (h : ∀ e ∈ closers, ¬ e <:+ t) : stripCloser closers t = t := by
  have hfind : closers.find? (·.isSuffixOf t) = none :=
    List.find?_eq_none.mpr fun e he => mt List.isSuffixOf_iff_suffix.mp (h e he)
  rw [stripCloser, hfind]

/-- What stands around the keyword and the argument of a directive. -/
structure Layout (style : CommentStyle) where
  indent : Text
  opener : Text
  gap : Text
  space : Text
  pad : Text
  closer : Text
  rest : Text
  blank : ∀ part ∈ [indent, gap, space, pad, rest], part.Blank
  opens : opener ∈ style.openers
  closes : closer = [] ∨ closer ∈ style.closers

namespace Layout

variable {style : CommentStyle} {argument : Text}

/-- What follows the keyword. -/
def tail (l : Layout style) (argument : Text) : Text :=
  l.space ++ (argument ++ (l.pad ++ (l.closer ++ l.rest)))

/-- The line of a directive. -/
def write (l : Layout style) (keyword : Keyword) (argument : Text) : Text :=
  l.indent ++ (l.opener ++ (l.gap ++ (CodePoint.ofChar '#' ::
    (keyword.spelling ++ l.tail argument))))

/-- The argument is told apart from the keyword. -/
def Separates (l : Layout style) (argument : Text) : Prop := argument ≠ [] → l.space ≠ []

variable (l : Layout style)

theorem blank_indent : l.indent.Blank := l.blank _ (by simp)

theorem blank_gap : l.gap.Blank := l.blank _ (by simp)

theorem blank_space : l.space.Blank := l.blank _ (by simp)

theorem blank_pad : l.pad.Blank := l.blank _ (by simp)

theorem blank_rest : l.rest.Blank := l.blank _ (by simp)

/-- After the keyword comes white space, unless it is directly followed by a closer. -/
theorem tail_cases (hl : l.Separates argument) :
    (∀ c ∈ (l.tail argument).head?, c.isBlank = true) ∨
      l.closer ∈ style.closers ∧ l.tail argument = l.closer ++ l.rest := by
  unfold tail
  cases hs : l.space with
  | cons c more =>
      left
      rintro _ ⟨⟩
      exact l.blank_space c (hs ▸ List.mem_cons_self)
  | nil =>
      have ha : argument = [] := by
        by_contra hne
        exact hl hne hs
      cases hp : l.pad with
      | cons c more =>
          left
          rw [ha]
          rintro _ ⟨⟩
          exact l.blank_pad c (hp ▸ List.mem_cons_self)
      | nil =>
          rw [ha]
          rcases l.closes with hc | hc
          · left
            rw [hc]
            intro c hm
            exact l.blank_rest c (List.mem_of_mem_head? hm)
          · exact Or.inr ⟨hc, rfl⟩

theorem isLetter_tail (hs : style.Distinct) (hl : l.Separates argument) :
    ∀ c ∈ (l.tail argument).stripRight.head?, c.isLetter = false := by
  intro c hc
  have hhead : c ∈ (l.tail argument).head? := by
    obtain ⟨more, hm⟩ := (l.tail argument).stripRight_isPrefix
    rw [← hm, List.head?_append, Option.mem_def.mp hc]
    rfl
  rcases l.tail_cases hl with hb | ⟨hclose, ht⟩
  · exact CodePoint.isLetter_of_isBlank (hb c hhead)
  · obtain ⟨hsolid, hletter⟩ := hs.closer _ hclose
    rw [ht, List.head?_append_of_ne_nil _ hsolid.ne_nil] at hhead
    exact hletter c hhead

theorem endsKeyword_tail (hs : style.Distinct) (hl : l.Separates argument) :
    endsKeyword style (l.tail argument).stripRight = true := by
  rcases l.tail_cases hl with hb | ⟨hclose, ht⟩
  · cases hr : (l.tail argument).stripRight with
    | nil => rfl
    | cons c more =>
        obtain ⟨after, ha⟩ := (l.tail argument).stripRight_isPrefix
        have hc : c.isBlank = true := by
          apply hb
          rw [← ha, hr]
          rfl
        simp only [endsKeyword, hc, Bool.true_or]
  · obtain ⟨hsolid, -⟩ := hs.closer _ hclose
    rw [ht, Text.stripRight_append_blank _ l.blank_rest,
      Text.stripRight_of_last hsolid.trimmed.last]
    have hany : (style.lineOpeners ++ style.closers).any (·.isPrefixOf l.closer) = true :=
      List.any_eq_true.mpr ⟨l.closer, List.mem_append_right _ hclose,
        List.isPrefixOf_iff_prefix.mpr List.prefix_rfl⟩
    cases hc : l.closer with
    | nil => rfl
    | cons c more => rw [endsKeyword, ← hc, hany, Bool.or_true]

/-- White space and the closer are taken away, and the argument is left. -/
theorem stripCloser_tail (hs : style.Distinct) (ha : argument.Trimmed)
    (hc : ∀ e ∈ style.closers, ¬ e <:+ argument) :
    stripCloser style.closers (l.tail argument).strip = argument := by
  rcases l.closes with hn | he
  · have hblank : (l.pad ++ (l.closer ++ l.rest)).Blank := by
      rw [hn]
      exact List.forall_mem_append.mpr ⟨l.blank_pad, l.blank_rest⟩
    rw [tail, Text.strip_surrounded l.blank_space ha hblank]
    exact stripCloser_of_not_suffix hc
  · have hsolid := (hs.closer _ he).1
    -- Without an argument the white space before it and behind it runs together.
    by_cases hne : argument = []
    · have hblank : (l.space ++ l.pad).Blank :=
        List.forall_mem_append.mpr ⟨l.blank_space, l.blank_pad⟩
      have htail : l.tail argument = (l.space ++ l.pad) ++ (l.closer ++ l.rest) := by
        rw [tail, hne, List.nil_append, List.append_assoc]
      rw [htail, Text.strip_surrounded hblank hsolid.trimmed l.blank_rest, hne]
      exact hs.stripCloser_append he []
    · have htail : l.tail argument =
          l.space ++ ((argument ++ (l.pad ++ l.closer)) ++ l.rest) := by
        simp only [tail, List.append_assoc]
      rw [htail, Text.strip_surrounded l.blank_space
        (ha.append hsolid.trimmed hne hsolid.ne_nil l.pad) l.blank_rest, ← List.append_assoc,
        hs.stripCloser_append he, Text.stripRight_append_blank _ l.blank_pad,
        Text.stripRight_of_last ha.last]

theorem strip_write (hs : style.Distinct) (keyword : Keyword) (argument : Text) :
    (l.write keyword argument).strip =
      l.opener ++ (l.gap ++ (CodePoint.ofChar '#' ::
        (keyword.spelling ++ (l.tail argument).stripRight))) := by
  have hsolid := hs.tight _ l.opens
  have hhead : ∀ t, ∀ c ∈ (l.opener ++ t).head?, c.isBlank = false := by
    intro t
    rw [List.head?_append_of_ne_nil _ hsolid.ne_nil]
    exact hsolid.trimmed.head
  have hlast : ∀ t, ∀ c ∈ (t ++ keyword.spelling).getLast?, c.isBlank = false := by
    intro t c hc
    rw [List.getLast?_append_of_ne_nil _ keyword.spelling_ne_nil] at hc
    have hletter := keyword.isLetter_spelling c (List.mem_of_mem_getLast? hc)
    refine Bool.eq_false_iff.mpr fun hb => ?_
    rw [CodePoint.isLetter_of_isBlank hb] at hletter
    cases hletter
  have hfront : ∀ t : Text,
      l.opener ++ (l.gap ++ (CodePoint.ofChar '#' :: (keyword.spelling ++ t))) =
        ((l.opener ++ (l.gap ++ [CodePoint.ofChar '#'])) ++ keyword.spelling) ++ t := by
    intro t
    simp only [List.append_assoc, List.cons_append, List.nil_append]
  rw [Text.strip, write, Text.stripLeft_blank_append l.blank_indent,
    Text.stripLeft_of_head (hhead _), hfront, Text.stripRight_append (hlast _), ← hfront]

/-- The keyword and the argument of a directive are read back, whatever stands around them. -/
theorem split?_write (hs : style.Distinct) (keyword : Keyword) (ha : argument.Trimmed)
    (hc : ∀ e ∈ style.closers, ¬ e <:+ argument) (hl : l.Separates argument) :
    split? style (l.write keyword argument) = some (keyword, argument) := by
  have hletter := l.isLetter_tail hs hl
  have hword : (keyword.spelling ++ (l.tail argument).stripRight).takeWhile CodePoint.isLetter =
      keyword.spelling := takeWhile_append_stop keyword.isLetter_spelling hletter
  have hafter : (keyword.spelling ++ (l.tail argument).stripRight).dropWhile CodePoint.isLetter =
      (l.tail argument).stripRight := dropWhile_append_stop keyword.isLetter_spelling hletter
  have hgap : (l.gap ++ (CodePoint.ofChar '#' ::
      (keyword.spelling ++ (l.tail argument).stripRight))).stripLeft = CodePoint.ofChar '#' ::
        (keyword.spelling ++ (l.tail argument).stripRight) := by
    rw [Text.stripLeft_blank_append l.blank_gap]
    refine Text.stripLeft_of_head ?_
    rintro _ ⟨⟩
    decide +kernel
  have hargument : stripCloser style.closers (l.tail argument).stripRight.strip = argument := by
    rw [Text.strip_stripRight]
    exact l.stripCloser_tail hs ha hc
  unfold split?
  rw [l.strip_write hs]
  dsimp only
  rw [hs.longestOpener?_append l.opens]
  dsimp only [bind, Option.bind]
  rw [List.drop_left, hgap]
  dsimp only
  rw [hword, keyword.ofText?_spelling, hafter]
  dsimp only
  rw [if_pos ⟨rfl, l.endsKeyword_tail hs hl⟩, hargument]

theorem scan_write (hs : style.Distinct) (file : Text) (line : Nat) (keyword : Keyword)
    (ha : argument.Trimmed) (hc : ∀ e ∈ style.closers, ¬ e <:+ argument)
    (hl : l.Separates argument) :
    scan style file line (l.write keyword argument) =
      (ofArgument style file line keyword argument).map fun read => (some read.1, read.2) := by
  rw [scan, l.split?_write hs keyword ha hc hl]

end Layout

/-- A directive is read from its keyword and its argument alone: which opener it follows, whether a
closer ends it and how much white space stands around them change nothing, and it is never taken
for a line of code. -/
theorem scan_layout {name : Text} {style : CommentStyle}
    (hstyle : CommentStyle.named? name = some style) (file : Text) (line : Nat) (keyword : Keyword)
    {argument : Text} (ha : argument.Trimmed) (hc : ∀ e ∈ style.closers, ¬ e <:+ argument)
    (l m : Layout style) (hl : l.Separates argument) (hm : m.Separates argument) :
    scan style file line (l.write keyword argument) =
        scan style file line (m.write keyword argument) ∧
      scan style file line (l.write keyword argument) =
        (ofArgument style file line keyword argument).map (fun read => (some read.1, read.2)) ∧
      ∀ log, scan style file line (l.write keyword argument) ≠ .ok (none, log) := by
  have hs := CommentStyle.distinct_of_named? hstyle
  have hwrite := l.scan_write hs file line keyword ha hc hl
  refine ⟨hwrite.trans (m.scan_write hs file line keyword ha hc hm).symm, hwrite, ?_⟩
  intro log hnone
  rw [hwrite] at hnone
  cases hread : ofArgument style file line keyword argument with
  | error e =>
      rw [hread] at hnone
      cases hnone
  | ok read =>
      rw [hread] at hnone
      cases hnone

def Layout.closedSample : Layout .javascript :=
  { indent := "\t", opener := "/*", gap := " ", space := " ", pad := [], closer := "*/", rest := " "
    blank := by decide +kernel
    opens := by decide +kernel
    closes := by decide +kernel }

def Layout.openSample : Layout .javascript :=
  { indent := [], opener := "//", gap := [], space := "  ", pad := [], closer := [], rest := []
    blank := by decide +kernel
    opens := by decide +kernel
    closes := by decide +kernel }

/-- An argument that ends in a star, directly before a closer and at the end of a line comment. -/
theorem scan_layout_star :
    Layout.closedSample.write .set "__A = 2 *" = ("\t/* #set __A = 2 **/ " : Text) ∧
    Layout.openSample.write .set "__A = 2 *" = ("//#set  __A = 2 *" : Text) ∧
    scan .javascript "f.js" 3 "\t/* #set __A = 2 **/ " =
      scan .javascript "f.js" 3 "//#set  __A = 2 *" ∧
    scan .javascript "f.js" 3 "\t/* #set __A = 2 **/ " =
      .ok (some ⟨3, .set "__A" (some "2 *")⟩, []) := by
  have hname : CommentStyle.named? "javascript" = some .javascript := by decide +kernel
  have ha : Text.Trimmed "__A = 2 *" := by decide +kernel
  have hc : ∀ e ∈ CommentStyle.javascript.closers, ¬ e <:+ ("__A = 2 *" : Text) := by
    decide +kernel
  have hclosed : Layout.closedSample.write .set "__A = 2 *" =
      ("\t/* #set __A = 2 **/ " : Text) := by
    decide +kernel
  have hopen : Layout.openSample.write .set "__A = 2 *" = ("//#set  __A = 2 *" : Text) := by
    decide +kernel
  have hread : ofArgument .javascript "f.js" 3 .set "__A = 2 *" =
      .ok (⟨3, .set "__A" (some "2 *")⟩, []) := by
    decide +kernel
  obtain ⟨hsame, hscan, -⟩ := scan_layout hname "f.js" 3 .set ha hc Layout.closedSample
    Layout.openSample (fun _ => by decide +kernel) (fun _ => by decide +kernel)
  rw [hclosed] at hsame hscan
  rw [hopen] at hsame
  rw [hread] at hscan
  exact ⟨hclosed, hopen, hsame, hscan⟩

end Directive

end Prepass
