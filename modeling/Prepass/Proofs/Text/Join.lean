/- Texts joined by a separator, and split again; and runs of characters, cut off where they end. -/
import Prepass.Text.Basic
namespace Prepass

theorem takeWhile_append_stop {α : Type} {p : α → Bool} {s rest : List α} (hs : ∀ a ∈ s, p a = true)
    (hr : ∀ a ∈ rest.head?, p a = false) : (s ++ rest).takeWhile p = s := by
  have hrest : rest.takeWhile p = [] := by
    cases rest with
    | nil => rfl
    | cons a more => exact List.takeWhile_cons_of_neg (by simp [hr a rfl])
  rw [List.takeWhile_append_of_pos hs, hrest, List.append_nil]

theorem dropWhile_append_stop {α : Type} {p : α → Bool} {s rest : List α} (hs : ∀ a ∈ s, p a = true)
    (hr : ∀ a ∈ rest.head?, p a = false) : (s ++ rest).dropWhile p = rest := by
  rw [List.dropWhile_append_of_pos hs]
  cases rest with
  | nil => rfl
  | cons a more => exact List.dropWhile_cons_of_neg (by simp [hr a rfl])

theorem head?_dropWhile {α : Type} (p : α → Bool) (l : List α) :
    ∀ a ∈ (l.dropWhile p).head?, p a = false := by
  intro a ha
  have hhead := List.head?_dropWhile_not p l
  rwa [Option.mem_def.mp ha] at hhead

namespace Text

theorem splitOn_of_not_mem {sep : CodePoint} {t : Text} (h : sep ∉ t) : splitOn sep t = [t] := by
  induction t with
  | nil => rfl
  | cons c rest ih =>
      have hc : c ≠ sep := fun e => h (e ▸ List.mem_cons_self)
      simp only [splitOn, hc, if_false, ih fun hr => h (List.mem_cons_of_mem _ hr)]

theorem splitOn_append {sep : CodePoint} {t : Text} (h : sep ∉ t) (rest : Text) :
    splitOn sep (t ++ sep :: rest) = t :: splitOn sep rest := by
  induction t with
  | nil => simp only [List.nil_append, splitOn, if_true]
  | cons c t ih =>
      have hc : c ≠ sep := fun e => h (e ▸ List.mem_cons_self)
      simp only [List.cons_append, splitOn, hc, if_false, ih fun hr => h (List.mem_cons_of_mem _ hr)]

theorem join_cons_cons (sep p q : Text) (rest : List Text) :
    join sep (p :: q :: rest) = p ++ (sep ++ join sep (q :: rest)) := by
  simp only [join, List.intercalate_cons_cons, List.append_assoc]

/-- The parts with a separator before each. -/
def continued (sep : Text) (parts : List Text) : Text := parts.flatMap (sep ++ ·)

theorem continued_cons (sep p : Text) (rest : List Text) :
    continued sep (p :: rest) = sep ++ (p ++ continued sep rest) := by
  rw [continued, List.flatMap_cons, List.append_assoc]
  rfl

theorem join_cons (sep p : Text) (rest : List Text) :
    join sep (p :: rest) = p ++ continued sep rest := by
  induction rest generalizing p with
  | nil => simp only [join, List.intercalate_singleton, continued, List.flatMap_nil, List.append_nil]
  | cons q rest ih => rw [join_cons_cons, ih, continued_cons]

theorem join_concat {parts : List Text} (h : parts ≠ []) (sep p : Text) :
    join sep (parts ++ [p]) = join sep parts ++ (sep ++ p) := by
  obtain ⟨q, rest, rfl⟩ := List.exists_cons_of_ne_nil h
  rw [List.cons_append, join_cons, join_cons, continued, List.flatMap_append,
    List.flatMap_singleton, List.append_assoc]
  rfl

theorem splitOn_join {sep : CodePoint} {parts : List Text} (hne : parts ≠ [])
    (h : ∀ p ∈ parts, sep ∉ p) : splitOn sep (join [sep] parts) = parts := by
  induction parts with
  | nil => exact absurd rfl hne
  | cons p rest ih =>
      have hp := h p List.mem_cons_self
      cases rest with
      | nil => simpa only [join, List.intercalate_singleton] using splitOn_of_not_mem hp
      | cons q rest =>
          rw [join_cons_cons, List.singleton_append, splitOn_append hp,
            ih (by simp) fun r hr => h r (List.mem_cons_of_mem _ hr)]

theorem not_mem_join {c : CodePoint} {sep : Text} {parts : List Text} (hs : c ∉ sep)
    (h : ∀ p ∈ parts, c ∉ p) : c ∉ join sep parts := by
  induction parts with
  | nil => simp [join]
  | cons p rest ih =>
      have hp := h p List.mem_cons_self
      cases rest with
      | nil => simpa only [join, List.intercalate_singleton] using hp
      | cons q rest =>
          rw [join_cons_cons, List.mem_append, List.mem_append]
          rintro (hc | hc | hc)
          · exact hp hc
          · exact hs hc
          · exact ih (fun r hr => h r (List.mem_cons_of_mem _ hr)) hc

end Text

end Prepass
