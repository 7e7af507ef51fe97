/- Each column of an output line is mapped to the place that its character comes from. -/
import Prepass.Proofs.Output.Fragment
import Prepass.Proofs.SourceMap.RoundTrip
namespace Prepass

/-- From an output column on, the line comes from a column of its source line. -/
structure Mark where
  generated : Nat
  column : Nat

namespace Mark

/-- The segment of a mark on the line of this index, as it is read back. -/
def decoded (index : Nat) (m : Mark) : DecodedSegment := ⟨m.generated, some (0, index, m.column)⟩

/-- The last mark at an output column or before it. -/
def last? (marks : List Mark) (p : Nat) : Option Mark :=
  (marks.filter fun m => m.generated ≤ p).getLast?

theorem last?_cons_of_some {m n : Mark} {rest : List Mark} {p : Nat}
    (h : last? rest p = some n) : last? (m :: rest) p = some n := by
  unfold last? at h ⊢
  rw [List.filter_cons]
  split
  · cases hr : rest.filter fun m => decide (m.generated ≤ p) with
    | nil =>
        rw [hr] at h
        cases h
    | cons a more => rwa [List.getLast?_cons_cons, ← hr]
  · exact h

theorem last?_cons_of_lt {m : Mark} {rest : List Mark} {p : Nat} (hm : m.generated ≤ p)
    (h : ∀ n ∈ rest, p < n.generated) : last? (m :: rest) p = some m := by
  have hr : rest.filter (fun m => decide (m.generated ≤ p)) = [] := by
    rw [List.filter_eq_nil_iff]
    intro n hn
    simpa using h n hn
  rw [last?, List.filter_cons_of_pos (by simpa using hm), hr]
  rfl

end Mark

/-- What marks say about an output line and its source line. -/
structure Marked (source : Text) (frags : List Fragment) (marks : List Mark) : Prop where
  /-- What was copied or replaced stands at its column of the source line. -/
  sources : ∀ f ∈ frags, f.source <+: source.drop f.column
  empty_iff : marks = [] ↔ Fragment.lineText frags = []
  first : ∀ m ∈ marks.head?, m.generated = 0
  increasing : marks.Pairwise fun m n => m.generated < n.generated ∧ m.column < n.column
  within : ∀ m ∈ marks, m.generated < (Fragment.lineText frags).length ∧ m.column < source.length
  origin : ∀ p < (Fragment.lineText frags).length, ∃ m, Mark.last? marks p = some m ∧
    ((Fragment.allOrigins 0 frags)[p]? = some (.copied (m.column + (p - m.generated))) ∧
        source[m.column + (p - m.generated)]? = (Fragment.lineText frags)[p]? ∨
      (Fragment.allOrigins 0 frags)[p]? = some (.literal m.generated m.column))

namespace Fragment

def starts (g : Nat) : List Fragment → List Mark
  | [] => []
  | f :: rest => ⟨g, f.column⟩ :: starts (g + f.text.length) rest

theorem decoded_marks (g index : Nat) (frags : List Fragment) :
    (marks g index frags).map Segment.decoded = (starts g frags).map (Mark.decoded index) := by
  induction frags generalizing g with
  | nil => rfl
  | cons f rest ih =>
      rw [marks, starts, List.map_cons, List.map_cons, ih]
      rfl

theorem le_generated_of_mem_starts {g : Nat} {frags : List Fragment} {m : Mark}
    (h : m ∈ starts g frags) : g ≤ m.generated := by
  induction frags generalizing g with
  | nil => cases h
  | cons f rest ih =>
      rcases List.mem_cons.mp h with rfl | h
      · exact Nat.le_refl _
      · have := ih h
        omega

theorem generated_lt_of_mem_starts {g : Nat} {frags : List Fragment} {m : Mark}
    (hv : ∀ f ∈ frags, f.text ≠ []) (h : m ∈ starts g frags) :
    m.generated < g + (lineText frags).length := by
  induction frags generalizing g with
  | nil => cases h
  | cons f rest ih =>
      have hf : 0 < f.text.length := List.length_pos_iff.mpr (hv f List.mem_cons_self)
      rw [lineText_cons, List.length_append]
      rcases List.mem_cons.mp h with rfl | h
      · dsimp only
        omega
      · have := ih (fun f hf => hv f (List.mem_cons_of_mem _ hf)) h
        omega

theorem le_column_of_mem_starts {line : Text} {low g : Nat} {frags : List Fragment} {m : Mark}
    (hl : Laid line low frags) (h : m ∈ starts g frags) : low ≤ m.column := by
  induction hl generalizing g with
  | nil => cases h
  | cons hc hs ht hr ih =>
      rcases List.mem_cons.mp h with rfl | h
      · exact hc
      · have := ih h
        omega

theorem column_lt_length {line : Text} {f : Fragment} (hs : f.source <+: line.drop f.column)
    (hne : f.source ≠ []) : f.column < line.length := by
  have hlen := hs.length_le
  have hpos : 0 < f.source.length := List.length_pos_iff.mpr hne
  rw [List.length_drop] at hlen
  omega

theorem column_lt_of_mem_starts {line : Text} {low g : Nat} {frags : List Fragment} {m : Mark}
    (hl : Laid line low frags) (hv : ∀ f ∈ frags, f.text ≠ []) (h : m ∈ starts g frags) :
    m.column < line.length := by
  induction hl generalizing g with
  | nil => cases h
  | cons hc hs ht hr ih =>
      rcases List.mem_cons.mp h with rfl | h
      · exact column_lt_length hs (ht (hv _ List.mem_cons_self))
      · exact ih (fun f hf => hv f (List.mem_cons_of_mem _ hf)) h

theorem pairwise_starts {line : Text} {low : Nat} {frags : List Fragment} (g : Nat)
    (hl : Laid line low frags) (hv : ∀ f ∈ frags, f.text ≠ []) :
    (starts g frags).Pairwise fun m n => m.generated < n.generated ∧ m.column < n.column := by
  induction hl generalizing g with
  | nil => exact .nil
  | @cons low f rest hc hs ht hr ih =>
      have hf := hv f List.mem_cons_self
      have htext : 0 < f.text.length := List.length_pos_iff.mpr hf
      have hsource : 0 < f.source.length := List.length_pos_iff.mpr (ht hf)
      refine .cons ?_ (ih _ fun f hf => hv f (List.mem_cons_of_mem _ hf))
      intro n hn
      have hg := le_generated_of_mem_starts hn
      have hcol := le_column_of_mem_starts hr hn
      dsimp only
      omega

theorem origins_length (g : Nat) (f : Fragment) : (f.origins g).length = f.text.length := by
  cases f with
  | copied column t => simp only [origins, text, List.length_map, List.length_range]
  | literal column reference t => simp only [origins, text, List.length_replicate]

theorem origin_within {source : Text} {f : Fragment} (hs : f.source <+: source.drop f.column)
    (g : Nat) {k : Nat} (hk : k < f.text.length) :
    (f.origins g)[k]? = some (.copied (f.column + k)) ∧ source[f.column + k]? = f.text[k]? ∨
      (f.origins g)[k]? = some (.literal g f.column) := by
  cases f with
  | copied column t =>
      left
      obtain ⟨after, ha⟩ := hs
      change k < t.length at hk
      refine ⟨?_, ?_⟩
      · simp only [origins, List.getElem?_map, List.getElem?_range hk, Option.map_some,
          Fragment.column]
      · rw [← List.getElem?_drop, ← ha]
        exact List.getElem?_append_left hk
  | literal column reference t =>
      right
      exact List.getElem?_replicate_of_lt hk

/-- The mark of the fragment that a column lies in, for a line that is written at column `g`. -/
theorem origin_starts {source : Text} {low : Nat} {frags : List Fragment} (g : Nat)
    (hl : Laid source low frags) {k : Nat} (hk : k < (lineText frags).length) :
    ∃ m, Mark.last? (starts g frags) (g + k) = some m ∧
      ((allOrigins g frags)[k]? = some (.copied (m.column + (g + k - m.generated))) ∧
          source[m.column + (g + k - m.generated)]? = (lineText frags)[k]? ∨
        (allOrigins g frags)[k]? = some (.literal m.generated m.column)) := by
  induction hl generalizing g k with
  | nil => cases hk
  | @cons low f rest hc hs ht hr ih =>
      by_cases hf : k < f.text.length
      · refine ⟨⟨g, f.column⟩, ?_, ?_⟩
        · refine Mark.last?_cons_of_lt (Nat.le_add_right g k) ?_
          intro n hn
          have := le_generated_of_mem_starts hn
          omega
        · rw [allOrigins, lineText_cons, List.getElem?_append_left (by rwa [origins_length]),
            List.getElem?_append_left hf, Nat.add_sub_cancel_left]
          exact origin_within hs g hf
      · have hle : f.text.length ≤ k := Nat.le_of_not_lt hf
        rw [lineText_cons, List.length_append] at hk
        obtain ⟨m, hm, ho⟩ := ih (g + f.text.length)
          (show k - f.text.length < (lineText rest).length by omega)
        have hp : g + f.text.length + (k - f.text.length) = g + k := by omega
        rw [hp] at hm ho
        refine ⟨m, Mark.last?_cons_of_some hm, ?_⟩
        rw [allOrigins, lineText_cons, List.getElem?_append_right (by rwa [origins_length]),
          List.getElem?_append_right hle, origins_length]
        exact ho

theorem Laid.sources {line : Text} {low : Nat} {frags : List Fragment} (h : Laid line low frags) :
    ∀ f ∈ frags, f.source <+: line.drop f.column := by
  induction h with
  | nil => intro f hf; cases hf
  | cons hc hs ht hr ih =>
      intro f hf
      rcases List.mem_cons.mp hf with rfl | hf
      · exact hs
      · exact ih f hf

/-- The beginnings of what can be seen of a line mark it. -/
theorem Laid.marked {line : Text} {frags : List Fragment} (h : Laid line 0 frags) :
    Marked line frags (starts 0 (Fragment.visible frags)) := by
  have hv : ∀ f ∈ Fragment.visible frags, f.text ≠ [] := fun f hf => text_ne_nil_of_mem_visible hf
  refine ⟨h.sources, ?_, ?_, pairwise_starts 0 h.visible hv, ?_, ?_⟩
  · rw [← lineText_visible]
    cases hc : Fragment.visible frags with
    | nil => simp only [starts, lineText, List.flatMap_nil]
    | cons f rest =>
        rw [hc] at hv
        simp only [starts, lineText_cons, List.append_eq_nil_iff, hv f List.mem_cons_self,
          false_and, reduceCtorEq]
  · intro m hm
    cases hc : Fragment.visible frags with
    | nil =>
        rw [hc] at hm
        cases hm
    | cons f rest =>
        rw [hc] at hm
        cases hm
        rfl
  · intro m hm
    have hg := generated_lt_of_mem_starts hv hm
    rw [lineText_visible, Nat.zero_add] at hg
    exact ⟨hg, column_lt_of_mem_starts h.visible hv hm⟩
  · intro p hp
    rw [← lineText_visible] at hp
    have ho := origin_starts 0 h.visible hp
    simpa only [Nat.zero_add, lineText_visible, allOrigins_visible] using ho

end Fragment

end Prepass
