/- Literals have no line breaks, whatever their values hold, so substitution adds none. -/
import Prepass.Proofs.Line.Splitting
import Prepass.Proofs.Outcome
import Prepass.Proofs.Text.Join
import Prepass.Substitution
namespace Prepass

namespace Text

theorem isBreak_digitChar : ∀ n < 16, (CodePoint.ofChar (Nat.digitChar n)).isBreak = false := by
  decide

theorem oneLine_toDigits {base : Nat} (hb : 1 < base) (h16 : base ≤ 16) (n : Nat) :
    OneLine ((Nat.toDigits base n).map CodePoint.ofChar) := by
  induction n using Nat.strongRecOn with
  | ind n ih =>
      rw [Nat.toDigits_eq_if hb]
      split
      · exact oneLine_cons.mpr ⟨isBreak_digitChar n (by omega), .nil⟩
      · have hmod : n % base < base := Nat.mod_lt n (by omega)
        rw [List.map_append, oneLine_append]
        refine ⟨ih (n / base) (Nat.div_lt_self (by omega) hb), ?_⟩
        exact oneLine_cons.mpr ⟨isBreak_digitChar _ (by omega), .nil⟩

theorem oneLine_ofNat (n : Nat) : OneLine (ofNat n) := oneLine_toDigits (by decide) (by decide) n

theorem oneLine_replicate {c : CodePoint} (h : c.isBreak = false) (n : Nat) :
    OneLine (List.replicate n c) := by
  intro d hd
  rw [List.eq_of_mem_replicate hd]
  exact h

theorem oneLine_join {sep : Text} (hs : sep.OneLine) {parts : List Text}
    (hp : ∀ part ∈ parts, part.OneLine) : OneLine (join sep parts) := by
  intro c hc
  by_contra hb
  exact not_mem_join (fun h => hb (hs c h)) (fun part hpart h => hb (hp part hpart c h)) hc

/-- Line breaks are among the characters that have an escape. -/
theorem oneLine_escape (c : CodePoint) : OneLine (escape c) := by
  have hu : OneLine ("\\u" ++ hex 4 c.toNat) := by
    rw [hex, oneLine_append, oneLine_append]
    exact ⟨by decide, oneLine_replicate (by decide) _, oneLine_toDigits (by decide) (by decide) _⟩
  have hc (hn : ¬ c = '\n') (hr : ¬ c = '\r') : OneLine [c] :=
    oneLine_cons.mpr ⟨by simp [CodePoint.isBreak, hn, hr], .nil⟩
  unfold escape shortEscape?
  split_ifs with h1 h2 hn hr h5 h6 h7 h8
  all_goals simp only [Option.getD_some, Option.getD_none]
  on_goal 9 => exact hc hn hr
  on_goal 8 => exact hu
  all_goals decide

theorem oneLine_quote (t : Text) : OneLine (quote t) := by
  have hq : OneLine "\"" := by decide
  rw [quote, oneLine_append, oneLine_append, oneLine_flatMap]
  exact ⟨⟨hq, fun c _ => oneLine_escape c⟩, hq⟩

end Text

theorem Decimal.oneLine_render (f : Format) (d : Decimal) : (d.render f).OneLine := by
  have hd := Text.oneLine_ofNat d.coefficient
  have hz (n : Nat) : (zeros n).OneLine := Text.oneLine_replicate (by decide) n
  unfold render
  simp only
  split
  · split
    · simp only [Text.oneLine_append]
      exact ⟨⟨by decide, hz _⟩, hd⟩
    · split
      · simp only [Text.oneLine_append]
        refine ⟨⟨hd, hz _⟩, ?_⟩
        split <;> decide
      · simp only [Text.oneLine_append]
        exact ⟨⟨hd.subset (List.take_subset _ _), by decide⟩, hd.subset (List.drop_subset _ _)⟩
  · simp only [Text.oneLine_append]
    refine ⟨⟨⟨?_, ?_⟩, hz _⟩, Text.oneLine_ofNat _⟩
    · split
      · rename_i first second more he
        rw [he, Text.oneLine_cons] at hd
        exact Text.oneLine_cons.mpr ⟨hd.1, Text.oneLine_cons.mpr ⟨by decide, hd.2⟩⟩
      · exact hd
    · split <;> decide

theorem Binary64.oneLine_toText (x : Binary64) : x.toText.OneLine := by
  cases x with
  | nan => decide
  | infinite negative => cases negative <;> decide
  | finite negative significand shift canonical =>
      simp only [toText]
      split
      · decide
      · rw [Text.oneLine_append]
        refine ⟨?_, Decimal.oneLine_render _ _⟩
        cases negative <;> decide

namespace Value

mutual

theorem oneLine_literal {t : Text} : (v : Value) → v.literal = .ok t → t.OneLine
  | .str u, h => by
      cases h
      exact u.oneLine_quote
  | .list id form items, h => by
      rw [literal] at h
      obtain ⟨ts, hts, rfl⟩ := map_eq_ok.mp h
      rw [Text.oneLine_append, Text.oneLine_append]
      exact ⟨⟨by decide, Text.oneLine_join (by decide) (oneLine_literals items hts)⟩, by decide⟩
  | .dict id entries, h => by
      rw [literal] at h
      obtain ⟨ts, hts, rfl⟩ := map_eq_ok.mp h
      rw [Text.oneLine_append, Text.oneLine_append]
      exact ⟨⟨by decide, Text.oneLine_join (by decide) (oneLine_entryLiterals entries hts)⟩,
        by decide⟩
  | .undefined, h => by
      cases h
      decide
  | .null, h => by
      cases h
      decide
  | .bool b, h => by
      cases h
      cases b <;> decide
  | .int n, h => by
      rw [literal, toText] at h
      · obtain ⟨x, hx, rfl⟩ := map_eq_ok.mp h
        exact x.oneLine_toText
      all_goals simp
  | .num x, h => by
      cases h
      exact x.oneLine_toText
  | .foreign id typeName, h => by
      cases h
      decide

theorem oneLine_literals {ts : List Text} :
    (items : List Value) → literals items = .ok ts → ∀ t ∈ ts, t.OneLine
  | [], h => by
      cases h
      exact List.forall_mem_nil _
  | v :: rest, h => by
      obtain ⟨t, ht, h⟩ := bind_eq_ok.mp h
      obtain ⟨more, hm, h⟩ := bind_eq_ok.mp h
      cases h
      exact List.forall_mem_cons.mpr ⟨oneLine_literal v ht, oneLine_literals rest hm⟩

theorem oneLine_entryLiterals {ts : List Text} :
    (entries : List (Key × Value)) → entryLiterals entries = .ok ts → ∀ t ∈ ts, t.OneLine
  | [], h => by
      cases h
      exact List.forall_mem_nil _
  | (key, v) :: rest, h => by
      obtain ⟨t, ht, h⟩ := bind_eq_ok.mp h
      obtain ⟨more, hm, h⟩ := bind_eq_ok.mp h
      cases h
      refine List.forall_mem_cons.mpr ⟨?_, oneLine_entryLiterals rest hm⟩
      rw [Text.oneLine_append, Text.oneLine_append]
      exact ⟨⟨Text.oneLine_quote _, by decide⟩, oneLine_literal v ht⟩

end

end Value

namespace Replacement

theorem oneLine_applyFrom {column : Nat} {t : Text} {rs : List Replacement} (ht : t.OneLine)
    (hr : ∀ r ∈ rs, r.text.OneLine) : (applyFrom column t rs).OneLine := by
  induction rs generalizing column t with
  | nil => exact ht
  | cons r rest ih =>
      obtain ⟨hfirst, hrest⟩ := List.forall_mem_cons.mp hr
      rw [applyFrom, Text.oneLine_append, Text.oneLine_append]
      refine ⟨⟨ht.subset (List.take_subset _ _), hfirst⟩, ?_⟩
      exact ih (ht.subset (List.drop_subset _ _)) hrest

end Replacement

namespace Environment

theorem oneLine_replacementsFrom {env : Environment} {column : Nat} {previous : Option CodePoint}
    {skip : Nat} {t : Text} {rs : List Replacement}
    (h : env.replacementsFrom column previous skip t = .ok rs) : ∀ r ∈ rs, r.text.OneLine := by
  induction t generalizing column previous skip rs with
  | nil =>
      cases skip <;> cases h <;> exact List.forall_mem_nil _
  | cons c rest ih =>
      cases skip with
      | succ skip => exact ih h
      | zero =>
          rw [replacementsFrom] at h
          split at h
          · exact ih h
          · dsimp only at h
            split at h
            · exact ih h
            · obtain ⟨literal, hl, h⟩ := bind_eq_ok.mp h
              obtain ⟨more, hm, h⟩ := bind_eq_ok.mp h
              cases h
              exact List.forall_mem_cons.mpr ⟨Value.oneLine_literal _ hl, ih hm⟩

theorem oneLine_substitute {env : Environment} {t out : Text} {rs : List Replacement}
    (ht : t.OneLine) (h : env.substitute t = .ok (out, rs)) : out.OneLine := by
  obtain ⟨found, hf, he⟩ := map_eq_ok.mp h
  cases he
  exact Replacement.oneLine_applyFrom ht (oneLine_replacementsFrom hf)

end Environment

end Prepass
