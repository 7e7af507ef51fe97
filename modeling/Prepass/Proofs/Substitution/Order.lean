/- The replacements of a text stand in order, and none of them is empty on either side. -/
import Prepass.Proofs.Outcome
import Prepass.Substitution
namespace Prepass

theorem CodePoint.isIdentifierChar_of_start {c : CodePoint} (h : c.isIdentifierStart = true) :
    c.isIdentifierChar = true := by
  simp only [isIdentifierStart, Bool.or_eq_true] at h
  simp only [isIdentifierChar, isAlphanumeric, Bool.or_eq_true]
  rcases h with (h | h) | h
  · exact Or.inl (Or.inl (Or.inl (Or.inl h)))
  · exact Or.inl (Or.inr h)
  · exact Or.inr h

theorem Text.ofNat_ne_nil (n : Nat) : Text.ofNat n ≠ [] := by
  have h := Nat.length_toDigits_pos (b := 10) (n := n)
  intro he
  rw [List.map_eq_nil_iff.mp he] at h
  exact Nat.lt_irrefl 0 h

theorem Decimal.render_ne_nil (f : Format) (d : Decimal) : d.render f ≠ [] := by
  unfold render
  simp only [ne_eq]
  split
  · split
    · simp [Text.ofString]
    · split
      · simp [Text.ofNat_ne_nil]
      · simp [Text.ofString]
  · split <;> simp [Text.ofString]
    split <;> simp

theorem Binary64.toText_ne_nil (x : Binary64) : x.toText ≠ [] := by
  cases x with
  | nan => simp [toText, Text.ofString]
  | infinite negative => cases negative <;> simp [toText, Text.ofString]
  | finite negative significand shift canonical =>
      simp only [toText]
      split
      · simp [Text.ofString]
      · simp [Decimal.render_ne_nil]

theorem Text.quote_ne_nil (t : Text) : t.quote ≠ [] := by
  simp [quote, Text.ofString]

/-- Every value has a literal of at least one character. -/
theorem Value.literal_ne_nil {v : Value} {t : Text} (h : v.literal = .ok t) : t ≠ [] := by
  cases v with
  | undefined =>
      cases h
      simp [Text.ofString]
  | null =>
      cases h
      simp [Text.ofString]
  | bool b =>
      cases h
      cases b <;> simp [Text.ofString]
  | int n =>
      rw [literal, toText] at h
      · obtain ⟨x, hx, rfl⟩ := map_eq_ok.mp h
        exact x.toText_ne_nil
      all_goals simp
  | num x =>
      cases h
      exact x.toText_ne_nil
  | str u =>
      cases h
      exact u.quote_ne_nil
  | list id form items =>
      rw [literal] at h
      obtain ⟨ts, hts, rfl⟩ := map_eq_ok.mp h
      simp [Text.ofString]
  | dict id entries =>
      rw [literal] at h
      obtain ⟨ts, hts, rfl⟩ := map_eq_ok.mp h
      simp [Text.ofString]
  | foreign id name =>
      cases h
      simp [Text.ofString]

/-- Replacements between two columns, one behind the other. Each takes out at least one character
and puts in at least one. -/
inductive Replacement.Ordered : Nat → Nat → List Replacement → Prop
  | nil {low high : Nat} : low ≤ high → Ordered low high []
  | cons {low high : Nat} {r : Replacement} {rest : List Replacement} : low ≤ r.column →
      0 < r.length → r.text ≠ [] → Ordered (r.column + r.length) high rest →
      Ordered low high (r :: rest)

theorem Replacement.Ordered.mono {low low' high : Nat} {rs : List Replacement}
    (h : Ordered low high rs) (hl : low' ≤ low) : Ordered low' high rs := by
  cases h with
  | nil hh => exact .nil (Nat.le_trans hl hh)
  | cons hc hp ht hr => exact .cons (Nat.le_trans hl hc) hp ht hr

theorem Replacement.Ordered.le {low high : Nat} {rs : List Replacement} (h : Ordered low high rs) :
    low ≤ high := by
  induction h with
  | nil hh => exact hh
  | cons hc hp ht hr ih => omega

namespace Environment

/-- Member accesses are followed within the text. -/
theorem follow_length_le (v : Value) (t : Text) : (follow v t).1 ≤ t.length := by
  fun_induction follow v t with
  | case1 => exact Nat.zero_le _
  | case2 => exact Nat.zero_le _
  | case3 id entries dot rest name h w hw length reached heq ih =>
      rw [heq] at ih
      have hsplit := congrArg List.length
        (List.takeWhile_append_dropWhile (p := CodePoint.isIdentifierChar) (l := rest))
      rw [List.length_append] at hsplit
      simp only [List.length_cons]
      have hn : name.length = (rest.takeWhile CodePoint.isIdentifierChar).length := rfl
      omega
  | case4 => exact Nat.zero_le _

theorem takeWhile_length_pos {c : CodePoint} (rest : Text) (h : c.isIdentifierStart = true) :
    0 < ((c :: rest).takeWhile CodePoint.isIdentifierChar).length := by
  rw [List.takeWhile_cons_of_pos (CodePoint.isIdentifierChar_of_start h), List.length_cons]
  exact Nat.succ_pos _

/-- The replacements found from a column on, when the next `skip` characters are dealt with. -/
theorem ordered_replacementsFrom {env : Environment} {column : Nat} {previous : Option CodePoint}
    {skip : Nat} {t : Text} {rs : List Replacement} (hs : skip ≤ t.length)
    (h : env.replacementsFrom column previous skip t = .ok rs) :
    Replacement.Ordered (column + skip) (column + t.length) rs := by
  induction t generalizing column previous skip rs with
  | nil =>
      cases skip <;> cases h <;> exact .nil (Nat.add_le_add_left hs column)
  | cons c rest ih =>
      have hlen : column + (c :: rest).length = column + 1 + rest.length := by
        rw [List.length_cons]
        omega
      rw [hlen]
      cases skip with
      | succ skip =>
          rw [List.length_cons] at hs
          have hi := ih (Nat.le_of_succ_le_succ hs) h
          rwa [Nat.add_right_comm] at hi
      | zero =>
          have hsplit := congrArg List.length
            (List.takeWhile_append_dropWhile (p := CodePoint.isIdentifierChar) (l := c :: rest))
          rw [List.length_append, List.length_cons] at hsplit
          rw [replacementsFrom] at h
          split at h
          · exact (ih (Nat.zero_le _) h).mono (Nat.le_succ column)
          · rename_i hstart
            have hpos := takeWhile_length_pos rest (by simpa using hstart)
            dsimp only at h
            split at h
            · exact (ih (by omega) h).mono (by omega)
            · have hf := follow_length_le
                (env.get ((c :: rest).takeWhile CodePoint.isIdentifierChar))
                ((c :: rest).dropWhile CodePoint.isIdentifierChar)
              obtain ⟨literal, hl, h⟩ := bind_eq_ok.mp h
              obtain ⟨more, hm, h⟩ := bind_eq_ok.mp h
              cases h
              refine .cons (Nat.le_refl _) (Nat.add_pos_left hpos _) (Value.literal_ne_nil hl) ?_
              exact (ih (by omega) hm).mono (by dsimp only; omega)

theorem ordered_replacements {env : Environment} {t : Text} {rs : List Replacement}
    (h : env.replacements t = .ok rs) : Replacement.Ordered 0 t.length rs := by
  simpa only [Nat.zero_add] using ordered_replacementsFrom (Nat.zero_le t.length) h

end Environment

end Prepass
