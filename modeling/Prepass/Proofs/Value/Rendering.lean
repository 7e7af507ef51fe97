/- Literals of values without numbers: each can be told from what follows it, and two of them are
equal only if their values have the same contents. -/
import Mathlib.Data.List.Forall2
import Prepass.Proofs.Expression.Quoted
import Prepass.Proofs.Outcome
import Prepass.Proofs.Text.Join
namespace Prepass

namespace Text

theorem quote_append_inj {s t x y : Text} (h : s.quote ++ x = t.quote ++ y) : s = t ∧ x = y := by
  have hread := Lexeme.string_quote s x
  rw [h, Lexeme.string_quote] at hread
  have hvalue : t = s := TokenKind.string.inj (Lexeme.mk.inj (Except.ok.inj hread)).2
  subst hvalue
  exact ⟨rfl, List.append_cancel_left h⟩

section Sequences

variable {α β : Type} {written : α → Text → Prop} {f : α → β} {closing : CodePoint}
  {as bs : List α} {ts us : List Text} {x y : Text}

/-- What is written for `a` ends where it ends, whatever follows, and shows `f a`. -/
def Delimits (written : α → Text → Prop) (f : α → β) (a : α) : Prop :=
  ∀ ⦃b t u x y⦄, written a t → written b u → t ++ x = u ++ y → f a = f b ∧ x = y

/-- Parts with a separator before each are cut apart again, up to the closing character. -/
theorem continued_append_inj (hc : closing ≠ ',') (hcut : ∀ a ∈ as, Delimits written f a)
    (ht : List.Forall₂ written as ts) (hu : List.Forall₂ written bs us)
    (h : continued "," ts ++ closing :: x = continued "," us ++ closing :: y) :
    as.map f = bs.map f ∧ x = y := by
  induction ht generalizing bs us with
  | nil =>
      cases hu with
      | nil => exact ⟨rfl, (List.cons.inj h).2⟩
      | cons hb hbs => exact absurd (List.cons.inj h).1 hc
  | cons ha has ih =>
      cases hu with
      | nil => exact absurd (List.cons.inj h).1.symm hc
      | cons hb hbs =>
          obtain ⟨hfirst, hmore⟩ := List.forall_mem_cons.mp hcut
          simp only [continued_cons, List.append_assoc, List.append_cancel_left_eq] at h
          obtain ⟨hab, hrest⟩ := hfirst ha hb h
          obtain ⟨htail, hxy⟩ := ih hmore hbs hrest
          exact ⟨congrArg₂ List.cons hab htail, hxy⟩

/-- Joined parts are cut apart again, if none of them begins with the closing character. -/
theorem join_append_inj (hc : closing ≠ ',')
    (hopen : ∀ a t, written a t → ∃ c more, t = c :: more ∧ c ≠ closing)
    (hcut : ∀ a ∈ as, Delimits written f a) (ht : List.Forall₂ written as ts)
    (hu : List.Forall₂ written bs us)
    (h : join "," ts ++ closing :: x = join "," us ++ closing :: y) :
    as.map f = bs.map f ∧ x = y := by
  cases ht with
  | nil =>
      cases hu with
      | nil => exact ⟨rfl, (List.cons.inj h).2⟩
      | cons hb hbs =>
          obtain ⟨c, more, rfl, hne⟩ := hopen _ _ hb
          rw [join_cons] at h
          exact absurd (List.cons.inj h).1.symm hne
  | cons ha has =>
      cases hu with
      | nil =>
          obtain ⟨c, more, rfl, hne⟩ := hopen _ _ ha
          rw [join_cons] at h
          exact absurd (List.cons.inj h).1 hne
      | cons hb hbs =>
          refine continued_append_inj hc hcut (.cons ha has) (.cons hb hbs) ?_
          rw [join_cons, join_cons] at h
          simp only [continued_cons, List.append_assoc] at h ⊢
          rw [h]

end Sequences

end Text

namespace Value

/-- Values without numbers, and with names as keys. -/
inductive Numberless : Value → Prop
  | undefined : Numberless .undefined
  | null : Numberless .null
  | bool (b : Bool) : Numberless (.bool b)
  | str (t : Text) : Numberless (.str t)
  | list {id : ObjectId} {form : ListForm} {items : List Value}
      (all : ∀ v ∈ items, Numberless v) : Numberless (.list id form items)
  | dict {id : ObjectId} {entries : List (Key × Value)}
      (named : ∀ entry ∈ entries, ∃ t, entry.1 = .name t)
      (all : ∀ entry ∈ entries, Numberless entry.2) : Numberless (.dict id entries)

theorem Numberless.items {id : ObjectId} {form : ListForm} {items : List Value}
    (h : (Value.list id form items).Numberless) : ∀ v ∈ items, v.Numberless := by
  cases h with
  | list all => exact all

theorem Numberless.entries {id : ObjectId} {entries : List (Key × Value)}
    (h : (Value.dict id entries).Numberless) :
    (∀ entry ∈ entries, ∃ t, entry.1 = .name t) ∧ ∀ entry ∈ entries, entry.2.Numberless := by
  cases h with
  | dict named all => exact ⟨named, all⟩

mutual

/-- What a value is made of. Lists, tuples and dictionaries lose what tells equal ones apart. -/
def contents : Value → Value
  | .list _ _ items => .list 0 .list (allContents items)
  | .dict _ entries => .dict 0 (entryContents entries)
  | v => v

def allContents : List Value → List Value
  | [] => []
  | v :: rest => v.contents :: allContents rest

def entryContents : List (Key × Value) → List (Key × Value)
  | [] => []
  | (key, v) :: rest => (key, v.contents) :: entryContents rest

end

theorem allContents_eq (items : List Value) : allContents items = items.map contents := by
  induction items with
  | nil => rfl
  | cons v rest ih => rw [allContents, ih, List.map_cons]

theorem entryContents_eq (entries : List (Key × Value)) :
    entryContents entries = entries.map fun entry => (entry.1, entry.2.contents) := by
  induction entries with
  | nil => rfl
  | cons entry rest ih => rw [entryContents, ih, List.map_cons]

mutual

theorem literal_contents : (v : Value) → v.contents.literal = v.literal
  | .list id form items => by rw [contents, literal, literal, literals_contents items]
  | .dict id entries => by rw [contents, literal, literal, entryLiterals_contents entries]
  | .undefined | .null | .bool _ | .int _ | .num _ | .str _ | .foreign .. => rfl

theorem literals_contents : (items : List Value) → literals (allContents items) = literals items
  | [] => rfl
  | v :: rest => by rw [allContents, literals, literals, literal_contents v, literals_contents rest]

theorem entryLiterals_contents : (entries : List (Key × Value)) →
    entryLiterals (entryContents entries) = entryLiterals entries
  | [] => rfl
  | (key, v) :: rest => by
      rw [entryContents, entryLiterals, entryLiterals, literal_contents v,
        entryLiterals_contents rest]

end

/-- The literal of a value without numbers. -/
structure Written (v : Value) (t : Text) : Prop where
  numberless : v.Numberless
  literal : v.literal = .ok t

/-- The literal of an entry of a dictionary. -/
inductive EntryWritten : Key × Value → Text → Prop
  | entry {name t : Text} {v : Value} (value : v.Written t) :
      EntryWritten (.name name, v) (name.quote ++ ":" ++ t)

theorem written_literals {items : List Value} {ts : List Text} (h : literals items = .ok ts)
    (hn : ∀ v ∈ items, v.Numberless) : List.Forall₂ Written items ts := by
  induction items generalizing ts with
  | nil =>
      cases h
      exact .nil
  | cons v rest ih =>
      obtain ⟨hv, hrest⟩ := List.forall_mem_cons.mp hn
      obtain ⟨t, ht, h⟩ := bind_eq_ok.mp h
      obtain ⟨more, hm, h⟩ := bind_eq_ok.mp h
      cases h
      exact .cons ⟨hv, ht⟩ (ih hm hrest)

theorem written_entryLiterals {entries : List (Key × Value)} {ts : List Text}
    (h : entryLiterals entries = .ok ts) (hk : ∀ entry ∈ entries, ∃ t, entry.1 = .name t)
    (hn : ∀ entry ∈ entries, entry.2.Numberless) : List.Forall₂ EntryWritten entries ts := by
  induction entries generalizing ts with
  | nil =>
      cases h
      exact .nil
  | cons entry rest ih =>
      obtain ⟨⟨name, hname⟩, hkeys⟩ := List.forall_mem_cons.mp hk
      obtain ⟨hv, hrest⟩ := List.forall_mem_cons.mp hn
      obtain ⟨key, v⟩ := entry
      cases hname
      obtain ⟨t, ht, h⟩ := bind_eq_ok.mp h
      obtain ⟨more, hm, h⟩ := bind_eq_ok.mp h
      cases h
      exact .cons (.entry ⟨hv, ht⟩) (ih hm hkeys hrest)

/-- The character that a literal begins with. -/
def initial : Value → CodePoint
  | .undefined => 'u'
  | .null => 'n'
  | .bool true => 't'
  | .bool false => 'f'
  | .list .. => '['
  | .dict .. => '\x7b'
  | _ => '"'

theorem Written.initial {v : Value} {t : Text} (h : v.Written t) :
    ∃ more, t = v.initial :: more := by
  obtain ⟨hn, h⟩ := h
  cases hn with
  | undefined | null | str =>
      cases h
      exact ⟨_, rfl⟩
  | bool b =>
      cases h
      cases b <;> exact ⟨_, rfl⟩
  | list all =>
      obtain ⟨ts, -, rfl⟩ := map_eq_ok.mp h
      exact ⟨_, rfl⟩
  | dict named all =>
      obtain ⟨ts, -, rfl⟩ := map_eq_ok.mp h
      exact ⟨_, rfl⟩

theorem Written.initial_ne {v : Value} {t : Text} (h : v.Written t) :
    ∃ c more, t = c :: more ∧ c ≠ ']' := by
  obtain ⟨more, rfl⟩ := h.initial
  refine ⟨_, more, rfl, ?_⟩
  unfold Value.initial
  split <;> decide

theorem EntryWritten.initial_ne {entry : Key × Value} {t : Text} (h : EntryWritten entry t) :
    ∃ c more, t = c :: more ∧ c ≠ '\x7d' := by
  cases h with
  | entry value => exact ⟨'"', _, rfl, by decide⟩

/-- Values of one form. -/
inductive Paired : Value → Value → Prop
  | undefined : Paired .undefined .undefined
  | null : Paired .null .null
  | bool (b : Bool) : Paired (.bool b) (.bool b)
  | str (t u : Text) : Paired (.str t) (.str u)
  | list (id id' : ObjectId) (form form' : ListForm) (items others : List Value) :
      Paired (.list id form items) (.list id' form' others)
  | dict (id id' : ObjectId) (entries others : List (Key × Value)) :
      Paired (.dict id entries) (.dict id' others)

/-- The first character of a literal tells the form of its value. -/
theorem Numberless.paired {v w : Value} (hv : v.Numberless) (hw : w.Numberless)
    (h : v.initial = w.initial) : Paired v w := by
  cases hv with
  | undefined =>
      cases hw with
      | undefined => exact .undefined
      | bool b => cases b <;> cases h
      | _ => cases h
  | null =>
      cases hw with
      | null => exact .null
      | bool b => cases b <;> cases h
      | _ => cases h
  | bool b =>
      cases hw with
      | bool b' =>
          obtain rfl : b = b' := by
            revert h
            cases b <;> cases b' <;> decide
          exact .bool b
      | _ => cases b <;> cases h
  | str t =>
      cases hw with
      | str u => exact .str t u
      | bool b => cases b <;> cases h
      | _ => cases h
  | list all =>
      cases hw with
      | list all' => exact .list ..
      | bool b => cases b <;> cases h
      | _ => cases h
  | dict named all =>
      cases hw with
      | dict named' all' => exact .dict ..
      | bool b => cases b <;> cases h
      | _ => cases h

theorem Written.paired {v w : Value} {s t x y : Text} (hv : v.Written s) (hw : w.Written t)
    (h : s ++ x = t ++ y) : Paired v w := by
  refine hv.numberless.paired hw.numberless ?_
  obtain ⟨more, rfl⟩ := hv.initial
  obtain ⟨other, rfl⟩ := hw.initial
  exact (List.cons.inj h).1

theorem delimits_entry {entry : Key × Value} (h : Text.Delimits Written contents entry.2) :
    Text.Delimits EntryWritten (fun entry => (entry.1, entry.2.contents)) entry := by
  intro other s t x y hs ht he
  cases hs with
  | entry first =>
      cases ht with
      | entry second =>
          simp only [List.append_assoc] at he
          obtain ⟨rfl, hrest⟩ := Text.quote_append_inj he
          obtain ⟨hc, hxy⟩ := h first second (List.append_cancel_left hrest)
          exact ⟨congrArg _ hc, hxy⟩

/-- A literal ends where it ends, whatever follows, and shows the contents of its value. -/
theorem Numberless.delimits {v : Value} (h : v.Numberless) : Text.Delimits Written contents v := by
  induction h with
  | undefined | null | bool =>
      intro w s t x y hs ht he
      cases hs.paired ht he
      cases hs.literal
      cases ht.literal
      exact ⟨rfl, List.append_cancel_left he⟩
  | str u =>
      intro w s t x y hs ht he
      cases hs.paired ht he with
      | str u u' =>
          cases hs.literal
          cases ht.literal
          obtain ⟨rfl, hxy⟩ := Text.quote_append_inj he
          exact ⟨rfl, hxy⟩
  | @list id form items all ih =>
      intro w s t x y hs ht he
      cases hs.paired ht he with
      | list id id' form form' items others =>
          have all' := ht.numberless.items
          obtain ⟨ts, hts, rfl⟩ := map_eq_ok.mp hs.literal
          obtain ⟨us, hus, rfl⟩ := map_eq_ok.mp ht.literal
          simp only [List.append_assoc] at he
          obtain ⟨hc, hxy⟩ := Text.join_append_inj (by decide) (fun _ _ => Written.initial_ne) ih
            (written_literals hts all) (written_literals hus all') (List.append_cancel_left he)
          rw [contents, contents, allContents_eq, allContents_eq, hc]
          exact ⟨rfl, hxy⟩
  | @dict id entries named all ih =>
      intro w s t x y hs ht he
      cases hs.paired ht he with
      | dict id id' entries others =>
          obtain ⟨named', all'⟩ := ht.numberless.entries
          obtain ⟨ts, hts, rfl⟩ := map_eq_ok.mp hs.literal
          obtain ⟨us, hus, rfl⟩ := map_eq_ok.mp ht.literal
          simp only [List.append_assoc] at he
          obtain ⟨hc, hxy⟩ := Text.join_append_inj (by decide) (fun _ _ => EntryWritten.initial_ne)
            (fun entry hmem => delimits_entry (ih entry hmem))
            (written_entryLiterals hts named all) (written_entryLiterals hus named' all')
            (List.append_cancel_left he)
          rw [contents, contents, entryContents_eq, entryContents_eq, hc]
          exact ⟨rfl, hxy⟩

theorem literals_ok {items : List Value} (h : ∀ v ∈ items, ∃ t, v.literal = .ok t) :
    ∃ ts, literals items = .ok ts := by
  induction items with
  | nil => exact ⟨[], rfl⟩
  | cons v rest ih =>
      obtain ⟨⟨t, ht⟩, hrest⟩ := List.forall_mem_cons.mp h
      obtain ⟨ts, hts⟩ := ih hrest
      exact ⟨t :: ts, bind_eq_ok.mpr ⟨t, ht, bind_eq_ok.mpr ⟨ts, hts, rfl⟩⟩⟩

theorem entryLiterals_ok {entries : List (Key × Value)}
    (h : ∀ entry ∈ entries, ∃ t, entry.2.literal = .ok t) :
    ∃ ts, entryLiterals entries = .ok ts := by
  induction entries with
  | nil => exact ⟨[], rfl⟩
  | cons entry rest ih =>
      obtain ⟨⟨t, ht⟩, hrest⟩ := List.forall_mem_cons.mp h
      obtain ⟨ts, hts⟩ := ih hrest
      exact ⟨_ :: ts, bind_eq_ok.mpr ⟨t, ht, bind_eq_ok.mpr ⟨ts, hts, rfl⟩⟩⟩

theorem Numberless.literal_ok {v : Value} (h : v.Numberless) : ∃ t, v.literal = .ok t := by
  induction h with
  | undefined | null | bool | str => exact ⟨_, rfl⟩
  | list all ih =>
      obtain ⟨ts, hts⟩ := literals_ok ih
      exact ⟨_, map_eq_ok.mpr ⟨ts, hts, rfl⟩⟩
  | dict named all ih =>
      obtain ⟨ts, hts⟩ := entryLiterals_ok ih
      exact ⟨_, map_eq_ok.mpr ⟨ts, hts, rfl⟩⟩

/-- Every value without numbers has a literal, and two such values have the same one only if they
have the same contents. -/
theorem literal_eq_iff {v w : Value} (hv : v.Numberless) (hw : w.Numberless) :
    ∃ s t, v.literal = .ok s ∧ w.literal = .ok t ∧ (s = t ↔ v.contents = w.contents) := by
  obtain ⟨s, hs⟩ := hv.literal_ok
  obtain ⟨t, ht⟩ := hw.literal_ok
  refine ⟨s, t, hs, ht, ?_, ?_⟩
  · rintro rfl
    exact (hv.delimits ⟨hv, hs⟩ ⟨hw, ht⟩ (rfl : s ++ [] = s ++ [])).1
  · intro h
    rw [← literal_contents, h, literal_contents, ht] at hs
    exact (Except.ok.inj hs).symm

/-- Two lists that only the escape of a quote keeps apart: one of two empty texts, and one of a
single text that is a comma between quotes. -/
def emptyTexts : Value := .list 0 .list [.str [], .str []]

def quotedComma : Value := .list 1 .tuple [.str "\",\""]

theorem literal_eq_iff_quotes : emptyTexts.Numberless ∧ quotedComma.Numberless ∧
    emptyTexts.literal = .ok "[\"\",\"\"]" ∧ quotedComma.literal = .ok "[\"\\\",\\\"\"]" ∧
    emptyTexts.contents ≠ quotedComma.contents := by
  have hv : emptyTexts.Numberless := .list (by simp [Numberless.str])
  have hw : quotedComma.Numberless := .list (by simp [Numberless.str])
  have hs : emptyTexts.literal = .ok "[\"\",\"\"]" := by decide
  have ht : quotedComma.literal = .ok "[\"\\\",\\\"\"]" := by decide
  refine ⟨hv, hw, hs, ht, ?_⟩
  obtain ⟨s, t, hs', ht', hiff⟩ := literal_eq_iff hv hw
  cases hs.symm.trans hs'
  cases ht.symm.trans ht'
  exact mt hiff.mpr (by decide)

end Value

end Prepass
