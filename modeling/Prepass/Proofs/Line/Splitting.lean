/- Lines written one after another, and what lines the text then has. -/
import Mathlib.Data.List.Chain
import Prepass.Line
namespace Prepass

def CodePoint.isBreak (c : CodePoint) : Bool := c == '\n' || c == '\r'

/-- A text within a line. -/
def Text.OneLine (t : Text) : Prop := ∀ c ∈ t, c.isBreak = false

instance (t : Text) : Decidable t.OneLine := inferInstanceAs (Decidable (∀ c ∈ t, c.isBreak = false))

namespace Text

theorem OneLine.nil : OneLine [] := fun _ h => absurd h List.not_mem_nil

theorem oneLine_cons {c : CodePoint} {t : Text} :
    OneLine (c :: t) ↔ c.isBreak = false ∧ t.OneLine := List.forall_mem_cons

theorem oneLine_append {s t : Text} : OneLine (s ++ t) ↔ s.OneLine ∧ t.OneLine :=
  List.forall_mem_append

theorem OneLine.subset {s t : Text} (h : t.OneLine) (hs : s ⊆ t) : s.OneLine :=
  fun c hc => h c (hs hc)

theorem oneLine_flatMap {α : Type} {l : List α} {f : α → Text} :
    OneLine (l.flatMap f) ↔ ∀ a ∈ l, (f a).OneLine := by
  constructor
  · intro h a ha c hc
    exact h c (List.mem_flatMap.mpr ⟨a, ha, hc⟩)
  · intro h c hc
    obtain ⟨a, ha, hc⟩ := List.mem_flatMap.mp hc
    exact h a ha c hc

/-- A line break occurs in no text within a line. -/
theorem OneLine.count_eq_zero {t : Text} (h : t.OneLine) {c : CodePoint} (hc : c.isBreak = true) :
    t.count c = 0 := by
  rw [List.count_eq_zero]
  intro hm
  rw [h c hm] at hc
  cases hc

end Text

namespace Line

/-- The text that lines make up. -/
def written (lines : List Line) : Text := lines.flatMap fun line => line.text ++ line.ending

theorem written_cons (line : Line) (rest : List Line) :
    written (line :: rest) = line.text ++ (line.ending ++ written rest) := by
  rw [written, List.flatMap_cons, List.append_assoc, written]

/-- The three ways to end a line. -/
inductive IsEnding : Text → Prop
  | newline : IsEnding "\n"
  | both : IsEnding "\r\n"
  | carriageReturn : IsEnding "\r"

/-- Lines that all end, except that the last one need not. -/
inductive Lined : List Line → Prop
  | nil : Lined []
  | last {t : Text} : t.OneLine → Lined [⟨t, []⟩]
  | cons {t e : Text} {rest : List Line} : t.OneLine → IsEnding e → Lined rest →
      Lined (⟨t, e⟩ :: rest)

/-- A lone return and the newline of an empty line after it would be read as one ending. -/
def Swallows (line next : Line) : Prop := line.ending = "\r" ∧ next.text = [] ∧ next.ending = "\n"

instance (line next : Line) : Decidable (line.Swallows next) :=
  inferInstanceAs (Decidable (_ ∧ _ ∧ _))

/-- The lines that are found where lines have been written. -/
def reread : List Line → List Line
  | [] => []
  | [line] => if line = ⟨[], []⟩ then [] else [line]
  | line :: next :: rest =>
    if line.Swallows next then ⟨line.text, "\r\n"⟩ :: reread rest
    else line :: reread (next :: rest)

/-- The first line begins with a text, or the text is all there is. -/
def prepend (t : Text) : List Line → List Line
  | [] => if t = [] then [] else [⟨t, []⟩]
  | line :: rest => ⟨t ++ line.text, line.ending⟩ :: rest

/-- An ending is read as such unless it is a return and a newline follows. -/
theorem split_ending {e : Text} (he : IsEnding e) {s : Text}
    (hs : e = "\r" → s.head? ≠ some (CodePoint.ofChar '\n')) :
    split (e ++ s) = ⟨[], e⟩ :: split s := by
  cases he with
  | newline =>
      change split (CodePoint.ofChar '\n' :: s) = _
      cases s <;> rfl
  | both => rfl
  | carriageReturn =>
      change split (CodePoint.ofChar '\r' :: s) = _
      cases s with
      | nil => rfl
      | cons d rest =>
          have hd : d ≠ CodePoint.ofChar '\n' := fun he => hs rfl (congrArg some he)
          rw [split, if_neg (by decide), if_pos rfl, if_neg hd]

theorem split_cons {c : CodePoint} (h : c.isBreak = false) (s : Text) :
    split (c :: s) = prepend [c] (split s) := by
  simp only [CodePoint.isBreak, Bool.or_eq_false_iff, beq_eq_false_iff_ne] at h
  cases s with
  | nil => simp [split, prepend, h.1, h.2]
  | cons d rest =>
      rw [split, if_neg h.1, if_neg h.2]
      cases split (d :: rest) with
      | nil => rfl
      | cons line lines => rfl

theorem split_append {t : Text} (h : t.OneLine) (s : Text) :
    split (t ++ s) = prepend t (split s) := by
  induction t with
  | nil => cases hs : split s <;> simp [prepend, hs]
  | cons c t ih =>
      obtain ⟨hc, ht⟩ := Text.oneLine_cons.mp h
      rw [List.cons_append, split_cons hc, ih ht]
      cases split s with
      | nil => by_cases he : t = [] <;> simp [prepend, he]
      | cons line lines => rfl

theorem head?_ne_newline {c : CodePoint} (h : c.isBreak = false) (s : Text) :
    (c :: s).head? ≠ some (CodePoint.ofChar '\n') := by
  rintro ⟨⟩
  revert h
  decide

/-- Lines whose first one is not just a newline do not begin with one. -/
theorem head?_written {line : Line} {rest : List Line} (h : Lined (line :: rest))
    (hn : ¬ (line.text = [] ∧ line.ending = "\n")) :
    (written (line :: rest)).head? ≠ some (CodePoint.ofChar '\n') := by
  rw [written_cons]
  cases h with
  | @last t ht =>
      cases t with
      | nil => nofun
      | cons c t => exact head?_ne_newline (Text.oneLine_cons.mp ht).1 _
  | @cons t e rest ht he hr =>
      cases t with
      | cons c t => exact head?_ne_newline (Text.oneLine_cons.mp ht).1 _
      | nil =>
          cases he with
          | newline => exact absurd ⟨rfl, rfl⟩ hn
          | both | carriageReturn =>
              change some (CodePoint.ofChar '\r') ≠ some (CodePoint.ofChar '\n')
              decide

/-- The first of some lines, which has an ending, and the lines after it. -/
theorem split_written_cons {t e : Text} {rest : List Line} (ht : t.OneLine) (he : IsEnding e)
    (hs : e = "\r" → (written rest).head? ≠ some (CodePoint.ofChar '\n')) :
    split (written (⟨t, e⟩ :: rest)) = ⟨t, e⟩ :: split (written rest) := by
  rw [written_cons, split_append ht, split_ending he hs, prepend, List.append_nil]

/-- Reading lines that have been written gives them back, but for an empty rest at the end and for
newlines that the line before has swallowed. -/
theorem split_written {lines : List Line} (h : Lined lines) :
    split (written lines) = reread lines := by
  fun_induction reread lines with
  | case1 => rfl
  | case2 => rfl
  | case3 line hne =>
      cases h with
      | @last t ht =>
          have hn : t ≠ [] := fun he => hne (by rw [he])
          rw [written_cons, split_append ht]
          exact if_neg hn
      | cons ht he hr => exact split_written_cons ht he fun _ => nofun
  | case4 line next rest hs ih =>
      obtain ⟨t, e⟩ := line
      obtain ⟨t', e'⟩ := next
      obtain ⟨rfl, rfl, rfl⟩ : e = "\r" ∧ t' = [] ∧ e' = "\n" := hs
      cases h with
      | cons ht he hr =>
          cases hr with
          | cons ht' he' hrest =>
              have hw : written (⟨t, "\r"⟩ :: ⟨[], "\n"⟩ :: rest) =
                  written (⟨t, "\r\n"⟩ :: rest) := by
                simp only [written_cons]
                rfl
              rw [hw, split_written_cons ht .both (fun h => absurd h (by decide)), ih hrest]
  | case5 line next rest hs ih =>
      cases h with
      | @cons t e _ ht he hr =>
          rw [split_written_cons ht he, ih hr]
          intro hret
          exact head?_written hr fun hn => hs ⟨hret, hn⟩

theorem lined_prepend {t : Text} (ht : t.OneLine) {lines : List Line} (h : Lined lines) :
    Lined (prepend t lines) := by
  cases h with
  | nil =>
      rw [prepend]
      split
      · exact .nil
      · exact .last ht
  | last hu => exact .last (Text.oneLine_append.mpr ⟨ht, hu⟩)
  | cons hu he hr => exact .cons (Text.oneLine_append.mpr ⟨ht, hu⟩) he hr

theorem written_prepend (t : Text) (lines : List Line) :
    written (prepend t lines) = t ++ written lines := by
  cases lines with
  | nil =>
      rw [prepend]
      split
      · rename_i h
        rw [h]
        rfl
      · rw [written_cons]
        rfl
  | cons line rest => simp only [prepend, written_cons, List.append_assoc]

/-- A text is empty, or an ending and a text, or another character and a text. -/
theorem text_induction {P : Text → Prop} (nil : P [])
    (ending : ∀ {e s : Text}, IsEnding e → (e = "\r" → s.head? ≠ some (CodePoint.ofChar '\n')) →
      P s → P (e ++ s))
    (char : ∀ {c : CodePoint} {s : Text}, c.isBreak = false → P s → P (c :: s)) (s : Text) :
    P s := by
  have other {c : CodePoint} (hn : c ≠ CodePoint.ofChar '\n') (hr : c ≠ CodePoint.ofChar '\r') :
      c.isBreak = false := by simp [CodePoint.isBreak, hn, hr]
  fun_induction split s with
  | case1 => exact nil
  | case2 => exact ending .newline (fun _ => nofun) nil
  | case3 => exact ending .carriageReturn (fun _ => nofun) nil
  | case4 c hn hr => exact char (other hn hr) nil
  | case5 d rest ih => exact ending .newline (fun h => absurd h (by decide)) ih
  | case6 rest _ ih => exact ending .both (fun h => absurd h (by decide)) ih
  | case7 d rest hd _ ih => exact ending .carriageReturn (fun _ he => hd (Option.some.inj he)) ih
  | case8 c d rest hn hr _ ih => exact char (other hn hr) ih
  | case9 c d rest hn hr line lines _ ih => exact char (other hn hr) ih

theorem lined_split (s : Text) : Lined (split s) := by
  induction s using text_induction with
  | nil => exact .nil
  | ending he hs ih =>
      rw [split_ending he hs]
      exact .cons .nil he ih
  | char hc ih =>
      rw [split_cons hc]
      exact lined_prepend (Text.oneLine_cons.mpr ⟨hc, .nil⟩) ih

/-- The lines of a text make up the text. -/
theorem written_split (s : Text) : written (split s) = s := by
  induction s using text_induction with
  | nil => rfl
  | ending he hs ih => rw [split_ending he hs, written_cons, ih, List.nil_append]
  | char hc ih => rw [split_cons hc, written_prepend, ih, List.singleton_append]

theorem reread_split (s : Text) : reread (split s) = split s := by
  rw [← split_written (lined_split s), written_split]

/-- How lines end, those apart that do not. -/
def endings (lines : List Line) : List Text := (lines.map Line.ending).filter (· ≠ [])

theorem endings_cons (line : Line) (rest : List Line) :
    endings (line :: rest) = (if line.ending = [] then [] else [line.ending]) ++ endings rest := by
  by_cases h : line.ending = [] <;> simp [endings, h]

/-- All endings are found again exactly if none is swallowed. -/
theorem endings_reread_iff (lines : List Line) :
    endings (reread lines) = endings lines ↔
      lines.IsChain fun line next => ¬ line.Swallows next := by
  fun_induction reread lines with
  | case1 => simp
  | case2 => simp [endings]
  | case3 line hne => simp
  | case4 line next rest hs ih =>
      obtain ⟨hr, ht, hn⟩ := hs
      constructor
      · intro h
        rw [endings_cons, endings_cons line, hr] at h
        have hne : ("\r\n" : Text) ≠ ("\r" : Text) := by decide
        exact absurd (List.cons.inj h).1 hne
      · intro h
        exact absurd ⟨hr, ht, hn⟩ (List.isChain_cons_cons.mp h).1
  | case5 line next rest hs ih =>
      rw [endings_cons, endings_cons line (next :: rest), List.append_cancel_left_eq, ih,
        List.isChain_cons_cons]
      exact (and_iff_right hs).symm

/-- Lines that are written and read again as they are. -/
structure Canonical (lines : List Line) : Prop where
  lined : Lined lines
  apart : lines.IsChain fun line next => ¬ line.Swallows next
  nonempty : ⟨[], []⟩ ∉ lines

theorem Canonical.reread {lines : List Line} (h : Canonical lines) : reread lines = lines := by
  obtain ⟨-, ha, hn⟩ := h
  fun_induction Line.reread lines with
  | case1 => rfl
  | case2 => exact absurd List.mem_cons_self hn
  | case3 line hne => rfl
  | case4 line next rest hs ih => exact absurd hs (List.isChain_cons_cons.mp ha).1
  | case5 line next rest hs ih =>
      rw [ih (List.isChain_cons_cons.mp ha).2 fun hm => hn (List.mem_cons_of_mem line hm)]

theorem Lined.take {lines : List Line} (h : Lined lines) (n : Nat) : Lined (lines.take n) := by
  induction h generalizing n with
  | nil =>
      rw [List.take_nil]
      exact .nil
  | last ht =>
      cases n with
      | zero => exact .nil
      | succ n =>
          rw [List.take_succ_cons, List.take_nil]
          exact .last ht
  | cons ht he hr ih =>
      cases n with
      | zero => exact .nil
      | succ n => exact .cons ht he (ih n)

theorem Canonical.take {lines : List Line} (h : Canonical lines) (n : Nat) :
    Canonical (lines.take n) :=
  ⟨h.lined.take n, h.apart.take n, fun hm => h.nonempty (List.mem_of_mem_take hm)⟩

theorem canonical_split (s : Text) : Canonical (split s) := by
  refine ⟨lined_split s, ?_, ?_⟩
  · rw [← endings_reread_iff, reread_split]
  · induction s using text_induction with
    | nil => exact List.not_mem_nil
    | ending he hs ih =>
        rw [split_ending he hs, List.mem_cons]
        rintro (h | h)
        · cases he <;> revert h <;> decide
        · exact ih h
    | @char c s hc ih =>
        rw [split_cons hc]
        intro h
        cases hs : split s with
        | nil => simp [hs, prepend] at h
        | cons line rest =>
            rw [hs] at h ih
            rcases List.mem_cons.mp h with h | h
            · cases h
            · exact ih (List.mem_cons_of_mem line h)

theorem Canonical.split_written {lines : List Line} (h : Canonical lines) :
    split (written lines) = lines := by
  rw [Line.split_written h.lined, h.reread]

theorem split_written_take (s : Text) (n : Nat) :
    split (written ((split s).take n)) = (split s).take n :=
  ((canonical_split s).take n).split_written

theorem Lined.oneLine {lines : List Line} (h : Lined lines) :
    ∀ line ∈ lines, line.text.OneLine := by
  induction h with
  | nil => exact List.forall_mem_nil _
  | last ht => exact List.forall_mem_cons.mpr ⟨ht, List.forall_mem_nil _⟩
  | cons ht he hr ih => exact List.forall_mem_cons.mpr ⟨ht, ih⟩

theorem IsEnding.ne_nil {e : Text} (h : IsEnding e) : e ≠ [] := by
  cases h <;> decide

theorem Lined.isEnding_dropLast {lines : List Line} (h : Lined lines) :
    ∀ line ∈ lines.dropLast, IsEnding line.ending := by
  induction h with
  | nil => exact List.forall_mem_nil _
  | last ht => exact List.forall_mem_nil _
  | @cons t e rest ht he hr ih =>
      cases rest with
      | nil => exact List.forall_mem_nil _
      | cons next rest =>
          rw [List.dropLast_cons_cons]
          exact List.forall_mem_cons.mpr ⟨he, ih⟩

theorem Lined.isEnding_getLast? {lines : List Line} (h : Lined lines) :
    ∀ line ∈ lines.getLast?, IsEnding line.ending ∨ line.ending = [] := by
  induction h with
  | nil => nofun
  | last ht =>
      rintro line ⟨⟩
      exact .inr rfl
  | @cons t e rest ht he hr ih =>
      cases rest with
      | nil =>
          rintro line ⟨⟩
          exact .inl he
      | cons next rest =>
          rw [List.getLast?_cons_cons]
          exact ih

theorem lined_of_endings {lines : List Line} (ht : ∀ line ∈ lines, line.text.OneLine)
    (he : ∀ line ∈ lines.dropLast, IsEnding line.ending)
    (hl : ∀ line ∈ lines.getLast?, IsEnding line.ending ∨ line.ending = []) : Lined lines := by
  induction lines with
  | nil => exact .nil
  | cons line rest ih =>
      obtain ⟨hfirst, hrest⟩ := List.forall_mem_cons.mp ht
      cases rest with
      | nil =>
          rcases hl line rfl with hend | hend
          · exact .cons hfirst hend .nil
          · obtain ⟨t, e⟩ := line
            cases hend
            exact .last hfirst
      | cons next rest =>
          rw [List.dropLast_cons_cons] at he
          rw [List.getLast?_cons_cons] at hl
          obtain ⟨hend, hends⟩ := List.forall_mem_cons.mp he
          exact .cons hfirst hend (ih hrest hends hl)

/-- Where only a last line with a text may lack an ending, no line is empty throughout. -/
theorem empty_not_mem {lines : List Line} (he : ∀ line ∈ lines.dropLast, IsEnding line.ending)
    (hl : ∀ line ∈ lines.getLast?, IsEnding line.ending ∨ line.text ≠ [] ∧ line.ending = []) :
    ⟨[], []⟩ ∉ lines := by
  intro hm
  cases hlast : lines.getLast? with
  | none =>
      rw [List.getLast?_eq_none_iff.mp hlast] at hm
      cases hm
  | some last =>
      rw [← List.dropLast_append_getLast? last hlast, List.mem_append, List.mem_singleton] at hm
      rcases hm with hm | rfl
      · exact (he _ hm).ne_nil rfl
      · rcases hl _ hlast with hend | ⟨htext, -⟩
        · exact hend.ne_nil rfl
        · exact htext rfl

theorem canonical_iff {lines : List Line} :
    Canonical lines ↔
      (∀ line ∈ lines, line.text.OneLine) ∧
      (∀ line ∈ lines.dropLast, IsEnding line.ending) ∧
      (∀ line ∈ lines.getLast?, IsEnding line.ending ∨ line.text ≠ [] ∧ line.ending = []) ∧
      lines.IsChain fun line next => ¬ line.Swallows next := by
  constructor
  · intro h
    refine ⟨h.lined.oneLine, h.lined.isEnding_dropLast, ?_, h.apart⟩
    rintro ⟨t, e⟩ hline
    refine (h.lined.isEnding_getLast? _ hline).imp_right fun hend => ⟨?_, hend⟩
    -- A last line with neither a text nor an ending would be the one that does not occur.
    rintro rfl
    cases hend
    exact h.nonempty (List.mem_of_getLast? hline)
  · rintro ⟨ht, he, hl, ha⟩
    refine ⟨lined_of_endings ht he ?_, ha, empty_not_mem he hl⟩
    intro line hline
    exact (hl line hline).imp_right And.right

/-- The lines of a text are the only ones that make up the text, that each hold no break, that all
have an ending, the last one excepted if it has a text, and of which none swallows the next. -/
theorem split_eq_iff (s : Text) (lines : List Line) :
    split s = lines ↔
      written lines = s ∧
      (∀ line ∈ lines, line.text.OneLine) ∧
      (∀ line ∈ lines.dropLast, IsEnding line.ending) ∧
      (∀ line ∈ lines.getLast?, IsEnding line.ending ∨ line.text ≠ [] ∧ line.ending = []) ∧
      lines.IsChain fun line next => ¬ line.Swallows next := by
  constructor
  · rintro rfl
    exact ⟨written_split s, canonical_iff.mp (canonical_split s)⟩
  · rintro ⟨rfl, h⟩
    exact (canonical_iff.mpr h).split_written

example :
    split "a\r\r\n\n\rb" =
      [⟨"a", "\r"⟩, ⟨[], "\r\n"⟩, ⟨[], "\n"⟩, ⟨[], "\r"⟩, ⟨"b", []⟩] := by
  decide

/-- Lines of other texts that end alike. -/
def withTexts (texts : List Text) (lines : List Line) : List Line :=
  List.zipWith (fun t (line : Line) => ⟨t, line.ending⟩) texts lines

theorem Lined.withTexts {lines : List Line} (h : Lined lines) {texts : List Text}
    (ht : ∀ t ∈ texts, t.OneLine) (hl : texts.length = lines.length) :
    Lined (withTexts texts lines) := by
  induction h generalizing texts with
  | nil =>
      cases texts with
      | nil => exact .nil
      | cons t texts => cases hl
  | last hu =>
      cases texts with
      | nil => cases hl
      | cons t texts =>
          cases List.eq_nil_of_length_eq_zero (Nat.succ.inj hl)
          exact .last (ht t List.mem_cons_self)
  | cons hu he hr ih =>
      cases texts with
      | nil => cases hl
      | cons t texts =>
          obtain ⟨hfirst, hrest⟩ := List.forall_mem_cons.mp ht
          exact .cons hfirst he (ih hrest (Nat.succ.inj hl))

theorem map_ending_withTexts {texts : List Text} {lines : List Line}
    (hl : texts.length = lines.length) :
    (withTexts texts lines).map ending = lines.map ending := by
  induction texts generalizing lines with
  | nil =>
      cases lines with
      | nil => rfl
      | cons line lines => cases hl
  | cons t texts ih =>
      cases lines with
      | nil => cases hl
      | cons line lines => exact congrArg (line.ending :: ·) (ih (Nat.succ.inj hl))

/-- Line breaks stand in endings only. -/
theorem Lined.count_written {lines : List Line} (h : Lined lines) {c : CodePoint}
    (hc : c.isBreak = true) : (written lines).count c = (lines.map ending).flatten.count c := by
  induction h with
  | nil => rfl
  | last ht =>
      rw [written_cons, List.count_append, ht.count_eq_zero hc, Nat.zero_add]
      rfl
  | cons ht he hr ih =>
      rw [written_cons, List.count_append, List.count_append, ht.count_eq_zero hc, ih,
        Nat.zero_add, List.map_cons, List.flatten_cons, List.count_append]

theorem count_written_withTexts {texts : List Text} {lines : List Line} (h : Lined lines)
    (ht : ∀ t ∈ texts, t.OneLine) (hl : texts.length = lines.length) {c : CodePoint}
    (hc : c.isBreak = true) : (written (withTexts texts lines)).count c = (written lines).count c := by
  rw [(h.withTexts ht hl).count_written hc, h.count_written hc, map_ending_withTexts hl]

end Line

end Prepass
