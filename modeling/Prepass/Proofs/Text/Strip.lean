/- White space around a text, and what is left without it. -/
import Mathlib.Data.List.DropRight
import Prepass.Proofs.Text.Join
import Prepass.Text.Blank
namespace Prepass.Text

/-- A text of white space only. -/
def Blank (t : Text) : Prop := ∀ c ∈ t, c.isBlank = true

instance decidableBlank (t : Text) : Decidable t.Blank :=
  inferInstanceAs (Decidable (∀ c ∈ t, c.isBlank = true))

/-- A text with no white space at its ends. -/
structure Trimmed (t : Text) : Prop where
  head : ∀ c ∈ t.head?, c.isBlank = false
  last : ∀ c ∈ t.getLast?, c.isBlank = false

/-- A text that is not empty and holds no white space. -/
structure Solid (t : Text) : Prop where
  ne_nil : t ≠ []
  dense : ∀ c ∈ t, c.isBlank = false

instance decidableTrimmed (t : Text) : Decidable t.Trimmed :=
  decidable_of_iff ((∀ c ∈ t.head?, c.isBlank = false) ∧ ∀ c ∈ t.getLast?, c.isBlank = false)
    ⟨fun h => ⟨h.1, h.2⟩, fun h => ⟨h.head, h.last⟩⟩

instance decidableSolid (t : Text) : Decidable t.Solid :=
  decidable_of_iff (t ≠ [] ∧ ∀ c ∈ t, c.isBlank = false)
    ⟨fun h => ⟨h.1, h.2⟩, fun h => ⟨h.ne_nil, h.dense⟩⟩

variable {s t w : Text}

theorem Solid.trimmed (h : t.Solid) : t.Trimmed :=
  ⟨fun c hc => h.dense c (List.mem_of_mem_head? hc),
    fun c hc => h.dense c (List.mem_of_mem_getLast? hc)⟩

theorem Trimmed.append (hs : s.Trimmed) (ht : t.Trimmed) (hne : s ≠ []) (hne' : t ≠ [])
    (between : Text) : (s ++ (between ++ t)).Trimmed := by
  constructor
  · rw [List.head?_append_of_ne_nil _ hne]
    exact hs.head
  · rw [List.getLast?_append_of_ne_nil _ (List.append_ne_nil_of_right_ne_nil between hne'),
      List.getLast?_append_of_ne_nil _ hne']
    exact ht.last

theorem stripRight_eq (t : Text) : stripRight t = t.rdropWhile CodePoint.isBlank := rfl

theorem stripLeft_blank_append (hw : w.Blank) (t : Text) : stripLeft (w ++ t) = stripLeft t :=
  List.dropWhile_append_of_pos hw

theorem stripLeft_of_head (h : ∀ c ∈ t.head?, c.isBlank = false) : stripLeft t = t := by
  cases t with
  | nil => rfl
  | cons c rest => exact List.dropWhile_cons_of_neg (by simp [h c rfl])

/-- The white space that a text begins with. -/
def indent (t : Text) : Text := t.takeWhile CodePoint.isBlank

theorem blank_indent (t : Text) : t.indent.Blank := fun _ => List.mem_takeWhile_imp

theorem indent_append_stripLeft (t : Text) : t.indent ++ stripLeft t = t :=
  List.takeWhile_append_dropWhile

theorem indent_blank_append (hw : w.Blank) (h : ∀ c ∈ t.head?, c.isBlank = false) :
    indent (w ++ t) = w :=
  takeWhile_append_stop hw h

theorem stripRight_append_blank (t : Text) (hw : w.Blank) : stripRight (t ++ w) = stripRight t := by
  rw [stripRight, List.reverse_append]
  apply congrArg List.reverse
  exact List.dropWhile_append_of_pos fun c hc => hw c (List.mem_reverse.mp hc)

theorem stripRight_of_last (ht : ∀ c ∈ t.getLast?, c.isBlank = false) : stripRight t = t := by
  refine List.rdropWhile_eq_self_iff.mpr fun hne => ?_
  simp [ht _ (List.getLast_mem_getLast? hne)]

/-- What stands before a character that is not blank stays. -/
theorem stripRight_append (hs : ∀ c ∈ s.getLast?, c.isBlank = false) (t : Text) :
    stripRight (s ++ t) = s ++ stripRight t := by
  induction t using List.reverseRecOn with
  | nil =>
      have hnil : s ++ [] = s := s.append_nil
      rw [hnil, stripRight_of_last hs]
      exact hnil.symm
  | append_singleton t c ih =>
      rw [← List.append_assoc, stripRight_eq, stripRight_eq, List.rdropWhile_concat,
        List.rdropWhile_concat]
      split
      · exact ih
      · exact List.append_assoc s t [c]

theorem stripRight_isPrefix (t : Text) : stripRight t <+: t := List.rdropWhile_prefix _ t

/-- What holds no white space begins a text with or without the white space at its end. -/
theorem Solid.isPrefix_stripRight (hs : s.Solid) : s <+: stripRight t ↔ s <+: t := by
  constructor
  · intro h
    exact h.trans (stripRight_isPrefix t)
  · rintro ⟨u, rfl⟩
    rw [stripRight_append hs.trimmed.last]
    exact List.prefix_append s _

theorem strip_append_blank (t : Text) (hw : w.Blank) : strip (t ++ w) = strip t := by
  unfold strip stripLeft
  rw [List.dropWhile_append]
  split
  · rename_i hnone
    have hw' : List.dropWhile CodePoint.isBlank w = [] := List.dropWhile_eq_nil_iff.mpr hw
    rw [hw', List.isEmpty_iff.mp hnone]
  · exact stripRight_append_blank _ hw

theorem strip_stripRight (t : Text) : strip (stripRight t) = strip t := by
  have hblank : Blank (t.rtakeWhile CodePoint.isBlank) := fun _ => List.mem_rtakeWhile_imp
  calc strip (stripRight t)
      = strip (stripRight t ++ t.rtakeWhile CodePoint.isBlank) := (strip_append_blank _ hblank).symm
    _ = strip t := congrArg strip List.rdropWhile_append_rtakeWhile

theorem strip_surrounded {w' : Text} (hw : w.Blank) (ht : t.Trimmed) (hw' : w'.Blank) :
    strip (w ++ (t ++ w')) = t := by
  calc strip (w ++ (t ++ w'))
      = strip (t ++ w') := congrArg stripRight (stripLeft_blank_append hw _)
    _ = strip t := strip_append_blank t hw'
    _ = stripRight t := congrArg stripRight (stripLeft_of_head ht.head)
    _ = t := stripRight_of_last ht.last

end Prepass.Text
