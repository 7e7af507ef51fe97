/- The tokens of a text cover all of it that is not blank, and no token could have been longer. Their
texts with blanks between them have the same tokens again. -/
import Prepass.Proofs.Expression.Lexeme
namespace Prepass

/-- Texts in order with a blank text, not an empty one, between each two. -/
inductive Text.Spaced : List Text → Text → Prop
  | nil : Spaced [] []
  | one {t : Text} : Spaced [t] t
  | cons {t u joined : Text} {more : List Text} (gap : Text) (separates : gap ≠ [])
      (blank : ∀ c ∈ gap, c.isBlank = true) (rest : Spaced (u :: more) joined) :
      Spaced (t :: u :: more) (t ++ (gap ++ joined))

namespace Token

/-- The tokens of a text whose first character stands in the given column. -/
inductive Scanned : Nat → Text → List Token → Prop
  | nil {column : Nat} : Scanned column [] []
  | blank {column : Nat} {c : CodePoint} {rest : Text} {tokens : List Token}
      (blank : c.isBlank = true) (later : Scanned (column + 1) rest tokens) :
      Scanned column (c :: rest) tokens
  | token {column : Nat} (l : Lexeme) {rest : Text} {tokens : List Token}
      (next : Lexeme.next? (l.text ++ rest) = .ok (some l))
      (later : Scanned (column + l.text.length) rest tokens) :
      Scanned column (l.text ++ rest) (⟨l, column⟩ :: tokens)

/-- The place is one of those that the token takes up. -/
def Covers (token : Token) (place : Nat) : Prop :=
  token.column ≤ place ∧ place < token.column + token.text.length

variable {column stop : Nat} {t joined : Text} {tokens : List Token}

theorem scanned_of_scanFrom {skip : Nat} (h : scanFrom column skip t = .ok (tokens, stop)) :
    Scanned (column + skip) (t.drop skip) tokens := by
  induction t generalizing column skip tokens stop with
  | nil =>
      rw [scanFrom] at h
      cases h
      rw [List.drop_nil]
      exact .nil
  | cons c rest ih =>
      cases skip with
      | succ skip =>
          rw [scanFrom] at h
          have hlater := ih h
          rwa [Nat.add_assoc, Nat.add_comm 1] at hlater
      | zero =>
          rw [scanFrom] at h
          split at h
          next hc => exact .blank hc (ih h)
          next hc =>
            split at h
            · cases h
            · cases h
            · rename_i l hnext
              obtain ⟨after, ht, hform, hmaximal⟩ := Lexeme.form_of_next? hnext
              obtain ⟨d, more, hl, hd⟩ := hform.initial
              obtain ⟨⟨later, last⟩, hscan, hresult⟩ := map_eq_ok.mp h
              cases hresult
              have hlater := ih hscan
              rw [hl, List.cons_append, List.cons.injEq] at ht
              rw [hl, List.length_cons, Nat.add_sub_cancel, ht.2, List.drop_left] at hlater
              rw [List.drop_zero, ht.1, ht.2, ← List.cons_append, ← hl]
              refine .token l ?_ ?_
              · rwa [hl, List.cons_append, ← ht.1, ← ht.2]
              · rwa [hl, List.length_cons, Nat.add_comm more.length, ← Nat.add_assoc]

theorem Scanned.scanFrom (h : Scanned column t tokens) :
    ∃ stop, Token.scanFrom column 0 t = .ok (tokens, stop) := by
  induction h with
  | nil => exact ⟨_, rfl⟩
  | blank blank later ih =>
      obtain ⟨stop, hstop⟩ := ih
      exact ⟨stop, by rw [Token.scanFrom, if_pos blank, hstop]⟩
  | token l next later ih =>
      obtain ⟨stop, hstop⟩ := ih
      obtain ⟨rest, ht, hform, hmaximal⟩ := Lexeme.form_of_next? next
      obtain ⟨c, more, hl, hc⟩ := hform.initial
      exact ⟨stop, by rw [scanFrom_next l hl hc next, hstop]; rfl⟩

theorem scan_eq_ok_iff : scan t = .ok tokens ↔ Scanned 0 t tokens := by
  constructor
  · intro h
    obtain ⟨⟨found, stop⟩, hscan, rfl⟩ := map_eq_ok.mp h
    exact scanned_of_scanFrom hscan
  · intro h
    obtain ⟨stop, hscan⟩ := h.scanFrom
    exact map_eq_ok.mpr ⟨_, hscan, rfl⟩

namespace Scanned

theorem form (h : Scanned column t tokens) : ∀ token ∈ tokens, token.toLexeme.Form := by
  induction h with
  | nil => exact List.forall_mem_nil _
  | blank blank later ih => exact ih
  | token l next later ih =>
      obtain ⟨rest, ht, hform, hmaximal⟩ := Lexeme.form_of_next? next
      exact List.forall_mem_cons.mpr ⟨hform, ih⟩

theorem column_le (h : Scanned column t tokens) : ∀ token ∈ tokens, column ≤ token.column := by
  induction h with
  | nil => exact List.forall_mem_nil _
  | blank blank later ih => exact fun token hm => Nat.le_of_succ_le (ih token hm)
  | token l next later ih =>
      refine List.forall_mem_cons.mpr ⟨Nat.le_refl _, fun token hm => ?_⟩
      exact Nat.le_trans (Nat.le_add_right _ _) (ih token hm)

theorem pairwise (h : Scanned column t tokens) :
    tokens.Pairwise fun a b => a.column < b.column ∧ a.column + a.text.length ≤ b.column := by
  induction h with
  | nil => exact .nil
  | blank blank later ih => exact ih
  | token l next later ih =>
      obtain ⟨rest, ht, hform, hmaximal⟩ := Lexeme.form_of_next? next
      obtain ⟨c, more, hl, hc⟩ := hform.initial
      refine .cons (fun token hm => ?_) ih
      have hle := later.column_le token hm
      have hpos := congrArg List.length hl
      rw [List.length_cons] at hpos
      constructor <;> dsimp only <;> omega

/-- Each token stands at its column, and what comes after does not continue it. -/
theorem slice (h : Scanned column t tokens) : ∀ token ∈ tokens, ∃ before after,
    t = before ++ (token.text ++ after) ∧ column + before.length = token.column ∧
      token.toLexeme.Maximal after := by
  induction h with
  | nil => exact List.forall_mem_nil _
  | @blank column c rest tokens blank later ih =>
      intro token hm
      obtain ⟨before, after, hrest, hcolumn, hmaximal⟩ := ih token hm
      refine ⟨c :: before, after, by rw [hrest, List.cons_append], ?_, hmaximal⟩
      rw [← hcolumn, List.length_cons, Nat.add_comm before.length, Nat.add_assoc]
  | @token column l rest tokens next later ih =>
      refine List.forall_mem_cons.mpr ⟨?_, fun token hm => ?_⟩
      · obtain ⟨after, ht, hform, hmaximal⟩ := Lexeme.form_of_next? next
        rw [List.append_cancel_left_eq] at ht
        exact ⟨[], rest, rfl, rfl, ht ▸ hmaximal⟩
      · obtain ⟨before, after, hrest, hcolumn, hmaximal⟩ := ih token hm
        refine ⟨l.text ++ before, after, by rw [hrest, List.append_assoc], ?_, hmaximal⟩
        rw [← hcolumn, List.length_append, Nat.add_assoc]

/-- What no token takes up is blank. -/
theorem isBlank_of_not_covers (h : Scanned column t tokens) {place : Nat} {c : CodePoint}
    (hc : t[place]? = some c) (hplace : ∀ token ∈ tokens, ¬ token.Covers (column + place)) :
    c.isBlank = true := by
  induction h generalizing place with
  | nil => cases hc
  | @blank column d rest tokens blank later ih =>
      cases place with
      | zero =>
          cases hc
          exact blank
      | succ place =>
          refine ih hc ?_
          rwa [Nat.add_assoc, Nat.add_comm 1]
  | @token column l rest tokens next later ih =>
      obtain ⟨hfirst, hlater⟩ := List.forall_mem_cons.mp hplace
      have hle : l.text.length ≤ place :=
        Nat.le_of_not_lt fun hlt => hfirst ⟨Nat.le_add_right _ _, Nat.add_lt_add_left hlt column⟩
      rw [List.getElem?_append_right hle] at hc
      refine ih hc ?_
      rwa [Nat.add_assoc, Nat.add_sub_cancel' hle]

end Scanned

theorem scanned_gap {gap : Text} (hg : ∀ c ∈ gap, c.isBlank = true)
    (h : Scanned (column + gap.length) t tokens) : Scanned column (gap ++ t) tokens := by
  induction gap generalizing column with
  | nil => exact h
  | cons c more ih =>
      obtain ⟨hc, hmore⟩ := List.forall_mem_cons.mp hg
      rw [List.length_cons, Nat.add_comm more.length, ← Nat.add_assoc] at h
      exact .blank hc (ih hmore h)

/-- Lexemes that keep apart from each other are read as they are. -/
theorem exists_scanned_of_spaced {lexemes : List Lexeme} (hl : ∀ l ∈ lexemes, l.Form)
    (h : Text.Spaced (lexemes.map (·.text)) joined) (column : Nat) :
    ∃ again, Scanned column joined again ∧ again.map Token.toLexeme = lexemes := by
  induction lexemes generalizing joined column with
  | nil =>
      cases h
      exact ⟨[], .nil, rfl⟩
  | cons l more ih =>
      obtain ⟨hform, hmore⟩ := List.forall_mem_cons.mp hl
      cases more with
      | nil =>
          cases h
          have hscanned : Scanned column (l.text ++ []) [⟨l, column⟩] :=
            .token l (hform.next? nofun) .nil
          rw [List.append_nil] at hscanned
          exact ⟨_, hscanned, rfl⟩
      | cons next more =>
          cases h with
          | @cons _ _ joined _ gap separates blank rest =>
              obtain ⟨again, hagain, hlexemes⟩ :=
                ih hmore rest (column + l.text.length + gap.length)
              -- The gap keeps the next token from going on with this one.
              have hstarts : Text.StartsBlank (gap ++ joined) := by
                obtain ⟨c, after, rfl⟩ := List.exists_cons_of_ne_nil separates
                intro d hd
                cases hd
                exact blank c List.mem_cons_self
              have hscanned := Scanned.token l (hform.next? hstarts) (scanned_gap blank hagain)
              exact ⟨_, hscanned, by rw [List.map_cons, hlexemes]⟩

/-- The tokens of a text stand in order and apart from each other, each where its column says and
as long as it can be. Only blanks are left, and it does not matter which blanks separate them. -/
theorem scan_covers (h : scan t = .ok tokens) :
    (tokens.Pairwise fun a b => a.column < b.column ∧ a.column + a.text.length ≤ b.column) ∧
      (∀ token ∈ tokens, ∃ before after, t = before ++ (token.text ++ after) ∧
        before.length = token.column ∧ token.toLexeme.Maximal after) ∧
      (∀ place c, t[place]? = some c → (∀ token ∈ tokens, ¬ token.Covers place) →
        c.isBlank = true) ∧
      ∀ joined, Text.Spaced (tokens.map (·.text)) joined → ∃ again, scan joined = .ok again ∧
        again.map Token.toLexeme = tokens.map Token.toLexeme := by
  have hscanned := scan_eq_ok_iff.mp h
  refine ⟨hscanned.pairwise, fun token hm => ?_, fun place c hc hplace => ?_, fun joined hj => ?_⟩
  · obtain ⟨before, after, ht, hcolumn, hmaximal⟩ := hscanned.slice token hm
    exact ⟨before, after, ht, by rw [← hcolumn, Nat.zero_add], hmaximal⟩
  · exact hscanned.isBlank_of_not_covers hc (by simpa only [Nat.zero_add] using hplace)
  · have hform : ∀ l ∈ tokens.map Token.toLexeme, l.Form := by
      intro l hl
      obtain ⟨token, hm, rfl⟩ := List.mem_map.mp hl
      exact hscanned.form token hm
    have htexts : tokens.map (·.text) = (tokens.map Token.toLexeme).map (·.text) :=
      (List.map_map ..).symm
    obtain ⟨again, hagain, hlexemes⟩ := exists_scanned_of_spaced hform (htexts ▸ hj) 0
    exact ⟨again, scan_eq_ok_iff.mpr hagain, hlexemes⟩

/-- The point is no number, since a letter follows its digit. -/
def crowded : Text := "v.0x1F>>>=='it\\'s'"

def crowdedTokens : List Token :=
  [⟨⟨"v", .identifier⟩, 0⟩, ⟨⟨".", .punctuator⟩, 1⟩, ⟨⟨"0x1F", .number (.ofInt 31)⟩, 2⟩,
   ⟨⟨">>>", .operator⟩, 6⟩, ⟨⟨"==", .operator⟩, 9⟩, ⟨⟨"'it\\'s'", .string "it's"⟩, 11⟩]

theorem scan_covers_crowded : scan crowded = .ok crowdedTokens ∧
    ∃ again, scan "v\t.\n0x1F >>> ==  'it\\'s'" = .ok again ∧
      again.map Token.toLexeme = crowdedTokens.map Token.toLexeme := by
  have hscan : scan crowded = .ok crowdedTokens := by decide +kernel
  refine ⟨hscan, (scan_covers hscan).2.2.2 _ ?_⟩
  exact .cons "\t" (by decide) (by decide) (.cons "\n" (by decide) (by decide)
    (.cons " " (by decide) (by decide) (.cons " " (by decide) (by decide)
      (.cons "  " (by decide) (by decide) .one))))

end Token

end Prepass
