/- What setting and removing a variable does to the others. -/
import Prepass.Environment
namespace Prepass

namespace Table

variable {κ α : Type} [DecidableEq κ] {key other : κ}

theorem find?_cons (entry : κ × α) (rest : Table κ α) (key : κ) :
    find? (entry :: rest) key = if entry.1 = key then some entry.2 else rest.find? key := by
  by_cases h : entry.1 = key <;> simp [find?, h]

theorem contains_eq (table : Table κ α) (key : κ) : table.contains key = (table.find? key).isSome := by
  induction table with
  | nil => rfl
  | cons entry rest ih =>
      rw [find?_cons, contains, List.any_cons]
      by_cases h : entry.1 = key
      · simp [h]
      · simpa [h, contains] using ih

theorem mem_of_find? {table : Table κ α} {a : α} (h : table.find? key = some a) :
    (key, a) ∈ table := by
  induction table with
  | nil => cases h
  | cons entry rest ih =>
      rw [find?_cons] at h
      split at h
      · rename_i he
        cases h
        cases he
        exact List.mem_cons_self
      · exact List.mem_cons_of_mem entry (ih h)

theorem insert_cons (entry : κ × α) (rest : Table κ α) (key : κ) (a : α) :
    insert (entry :: rest) key a =
      if entry.1 = key then (key, a) :: rest else entry :: rest.insert key a := rfl

theorem erase_cons (entry : κ × α) (rest : Table κ α) (key : κ) :
    erase (entry :: rest) key =
      if entry.1 = key then rest.erase key else entry :: rest.erase key := by
  by_cases h : entry.1 = key <;> simp [erase, h]

theorem find?_insert_self (table : Table κ α) (key : κ) (a : α) :
    (table.insert key a).find? key = some a := by
  induction table with
  | nil => simp [insert, find?_cons]
  | cons entry rest ih =>
      rw [insert_cons]
      split
      · rw [find?_cons, if_pos rfl]
      · rename_i h
        rw [find?_cons, if_neg h, ih]

theorem find?_insert_of_ne (h : other ≠ key) (table : Table κ α) (a : α) :
    (table.insert key a).find? other = table.find? other := by
  induction table with
  | nil => simp [insert, find?_cons, h.symm]
  | cons entry rest ih =>
      rw [insert_cons]
      split
      · rename_i he
        rw [find?_cons, find?_cons, if_neg h.symm, if_neg (he ▸ h.symm)]
      · rw [find?_cons, find?_cons, ih]

theorem find?_erase_self (table : Table κ α) (key : κ) : (table.erase key).find? key = none := by
  induction table with
  | nil => rfl
  | cons entry rest ih =>
      rw [erase_cons]
      split
      · exact ih
      · rename_i h
        rw [find?_cons, if_neg h, ih]

theorem find?_erase_of_ne (h : other ≠ key) (table : Table κ α) :
    (table.erase key).find? other = table.find? other := by
  induction table with
  | nil => rfl
  | cons entry rest ih =>
      rw [erase_cons, find?_cons]
      split
      · rename_i he
        rw [ih, if_neg (he ▸ h.symm)]
      · rw [find?_cons, ih]

/-- What is set does not matter to a table without it. -/
theorem erase_insert_self (table : Table κ α) (key : κ) (a : α) :
    (table.insert key a).erase key = table.erase key := by
  induction table with
  | nil => simp [insert, erase]
  | cons entry rest ih =>
      rw [insert_cons]
      split
      · rename_i h
        rw [erase_cons, erase_cons, if_pos rfl, if_pos h]
      · rename_i h
        rw [erase_cons, erase_cons, if_neg h, if_neg h, ih]

theorem erase_insert_of_ne (h : other ≠ key) (table : Table κ α) (a : α) :
    (table.insert key a).erase other = (table.erase other).insert key a := by
  induction table with
  | nil => simp [insert, erase, h.symm]
  | cons entry rest ih =>
      by_cases he : entry.1 = key
      · have ho : ¬ entry.1 = other := he ▸ h.symm
        rw [insert_cons, if_pos he, erase_cons, erase_cons, if_neg h.symm, if_neg ho, insert_cons,
          if_pos he]
      · rw [insert_cons, if_neg he, erase_cons, erase_cons]
        split
        · exact ih
        · rw [insert_cons, if_neg he, ih]

theorem erase_comm (table : Table κ α) (key other : κ) :
    (table.erase key).erase other = (table.erase other).erase key := by
  simp only [erase, List.filter_filter]
  congr 1
  funext entry
  exact Bool.and_comm _ _

theorem mem_insert {table : Table κ α} {a : α} {entry : κ × α} (h : entry ∈ table.insert key a) :
    entry = (key, a) ∨ entry ∈ table := by
  induction table with
  | nil => exact Or.inl (List.mem_singleton.mp h)
  | cons first rest ih =>
      rw [insert_cons] at h
      split at h
      · rcases List.mem_cons.mp h with he | hr
        · exact Or.inl he
        · exact Or.inr (List.mem_cons_of_mem first hr)
      · rcases List.mem_cons.mp h with he | hr
        · exact Or.inr (he ▸ List.mem_cons_self)
        · exact (ih hr).imp_right (List.mem_cons_of_mem first)

theorem mem_foldl_insert {pairs : List (κ × α)} {table : Table κ α} {entry : κ × α}
    (h : entry ∈ pairs.foldl (fun table pair => table.insert pair.1 pair.2) table) :
    entry ∈ table ∨ entry ∈ pairs := by
  induction pairs generalizing table with
  | nil => exact Or.inl h
  | cons pair rest ih =>
      rcases ih h with hi | hr
      · rcases mem_insert hi with rfl | ht
        · exact Or.inr List.mem_cons_self
        · exact Or.inl ht
      · exact Or.inr (List.mem_cons_of_mem pair hr)

theorem mem_ofPairs {pairs : List (κ × α)} {entry : κ × α} (h : entry ∈ ofPairs pairs) :
    entry ∈ pairs := by
  rcases mem_foldl_insert h with hn | hp
  · cases hn
  · exact hp

end Table

namespace Environment

/-- What a variable holds, none where it is not set. -/
def value? (env : Environment) (name : Text) : Option Value := env.bindings.find? name

theorem get_eq (env : Environment) (name : Text) :
    env.get name = (env.value? name).getD .undefined := rfl

theorem has_eq (env : Environment) (name : Text) : env.has name = (env.value? name).isSome :=
  env.bindings.contains_eq name

/-- Setting leaves the other variables and the built-in one alone. -/
theorem value?_set {env : Environment} {name other : Text} (h : name = other → other = builtIn)
    (v : Value) : (env.set name v).1.value? other = env.value? other := by
  unfold set
  split
  · rfl
  · rename_i hb
    have hne : other ≠ name := by
      rintro rfl
      exact hb (h rfl)
    exact Table.find?_insert_of_ne hne env.bindings v

theorem value?_unset {env : Environment} {name other : Text} (h : name = other → other = builtIn) :
    (env.unset name).1.value? other = env.value? other := by
  unfold unset
  split
  · rfl
  · rename_i hb
    have hne : other ≠ name := by
      rintro rfl
      exact hb (h rfl)
    exact Table.find?_erase_of_ne hne env.bindings

end Environment

end Prepass
