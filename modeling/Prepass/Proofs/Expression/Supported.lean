/- Expressions over values that a variable can hold have such values themselves. -/
import Prepass.Proofs.Environment.Bindings
import Prepass.Proofs.Expression.Parsed
namespace Prepass

namespace Value

def Supported (v : Value) : Prop := v.isSupported = true

theorem supported_of_mem {items : List Value} (h : allSupported items = true) :
    ∀ v ∈ items, v.Supported := by
  induction items with
  | nil => exact List.forall_mem_nil _
  | cons v rest ih =>
      rw [allSupported, Bool.and_eq_true] at h
      exact List.forall_mem_cons.mpr ⟨h.1, ih h.2⟩

theorem supported_of_mem_entries {entries : List (Key × Value)}
    (h : entriesSupported entries = true) : ∀ entry ∈ entries, entry.2.Supported := by
  induction entries with
  | nil => exact List.forall_mem_nil _
  | cons entry rest ih =>
      obtain ⟨key, v⟩ := entry
      cases key with
      | name t =>
          rw [entriesSupported, Bool.and_eq_true] at h
          exact List.forall_mem_cons.mpr ⟨h.1, ih h.2⟩
      | number n => cases h

theorem unary_supported (op : UnaryOperator) (v : Value) : Yields Supported (unary op v) := by
  cases op with
  | negate => exact .map fun x => rfl
  | plus => exact .map fun x => rfl
  | not => exact .map fun b => rfl
  | complement => exact .map fun n => rfl
  | unknown spelling => exact .error _

theorem arithmetic_supported (op : Arithmetic) (v w : Value) :
    Yields Supported (arithmetic op v w) := by
  intro found h
  obtain ⟨v', -, h⟩ := bind_eq_ok.mp h
  obtain ⟨w', -, h⟩ := bind_eq_ok.mp h
  split at h
  · obtain ⟨s, -, h⟩ := bind_eq_ok.mp h
    obtain ⟨t, -, h⟩ := bind_eq_ok.mp h
    cases h
    rfl
  · obtain ⟨⟨x, y⟩, -, h⟩ := bind_eq_ok.mp h
    cases h
    rfl

theorem binary_supported (op : BinaryOperator) (v w : Value) : Yields Supported (binary op v w) := by
  cases op with
  | equality op => exact .map fun b => rfl
  | relation op => exact .map fun b => rfl
  | arithmetic op => exact arithmetic_supported op v w
  | bitwise op => exact .map fun x => rfl
  | logical op => exact .error _
  | unknown spelling => exact .error _

theorem item_supported {items : List Value} (h : ∀ v ∈ items, v.Supported) (name : Text) :
    Yields Supported (item items name) := by
  unfold item
  split
  · exact .ok rfl
  · refine .map fun position => ?_
    cases position with
    | none => rfl
    | some i =>
        simp only [List.getD_eq_getElem?_getD]
        cases hi : items[i]? with
        | none => rfl
        | some v => exact h v (List.mem_of_getElem? hi)

/-- A member of a supported value is a part of it, a length, or nothing. -/
theorem member_supported {v : Value} (h : v.Supported) (key : Value) :
    Yields Supported (v.member key) := by
  intro found hf
  obtain ⟨name, -, hf⟩ := bind_eq_ok.mp hf
  cases v with
  | undefined => cases hf
  | null => cases hf
  | bool b =>
      cases hf
      rfl
  | int n =>
      cases hf
      rfl
  | num x =>
      cases hf
      rfl
  | str t =>
      refine item_supported ?_ name found hf
      intro v hv
      obtain ⟨c, -, rfl⟩ := List.mem_map.mp hv
      rfl
  | list id form items => exact item_supported (supported_of_mem h) name found hf
  | dict id entries =>
      cases hf
      cases hl : lookup? name entries with
      | none => rfl
      | some w =>
          obtain ⟨entry, he, rfl⟩ := Option.map_eq_some_iff.mp hl
          exact supported_of_mem_entries h entry (List.mem_of_find?_eq_some he)
  | foreign id typeName => cases h

end Value

namespace Environment

/-- Variables are named as they should be and hold what they can. -/
def WellFormed (env : Environment) : Prop :=
  ∀ entry ∈ env.bindings, entry.1.isVariableName = true ∧ entry.2.Supported

namespace WellFormed

variable {env : Environment}

theorem get (h : env.WellFormed) (name : Text) : (env.get name).Supported := by
  rw [get_eq, value?]
  cases hv : env.bindings.find? name with
  | none => rfl
  | some v => exact (h _ (Table.mem_of_find? hv)).2

theorem insert (h : env.WellFormed) {name : Text} {v : Value} (hn : name.isVariableName = true)
    (hv : v.Supported) : WellFormed ⟨env.bindings.insert name v⟩ := by
  intro entry he
  rcases Table.mem_insert he with rfl | he
  · exact ⟨hn, hv⟩
  · exact h entry he

theorem set (h : env.WellFormed) {name : Text} {v : Value} (hn : name.isVariableName = true)
    (hv : v.Supported) : (env.set name v).1.WellFormed := by
  unfold Environment.set
  split
  · exact h
  · exact h.insert hn hv

theorem unset (h : env.WellFormed) (name : Text) : (env.unset name).1.WellFormed := by
  unfold Environment.unset
  split
  · exact h
  · exact fun entry he => h entry (List.mem_filter.mp he).1

theorem seed (h : env.WellFormed) {v : Value} (hv : v.Supported) : (env.seed v).WellFormed :=
  h.insert (by decide) hv

end WellFormed

end Environment

namespace Expr

theorem Parsed.eval_supported {named : Text → Prop} {env : Environment} {tree : Expr}
    (h : Parsed named tree) (he : env.WellFormed) : Yields Value.Supported (tree.eval env) := by
  induction h with
  | literal supported => exact .ok supported
  | @name name found =>
      rw [eval]
      split
      · exact .ok (he.get name)
      · exact .error _
  | member holder index iht ihk =>
      rw [eval]
      exact iht.bind fun v hv => ihk.bind fun k hk => Value.member_supported hv k
  | @unary op operand known only ih =>
      rw [eval]
      exact ih.bind fun v hv => Value.unary_supported op v
  | @binary op lhs rhs known first second ihl ihr =>
      cases op with
      | logical op =>
          rw [eval]
          -- The value is that of an operand.
          refine ihl.bind fun v hv => Yields.bind (Q := fun _ => True) (fun _ _ => trivial) ?_
          intro b _
          split
          · exact .ok hv
          · exact ihr
      | _ =>
          rw [eval]
          · exact ihl.bind fun v hv => ihr.bind fun w hw => Value.binary_supported _ v w
          · simp
  | conditional tested first second ihc iht ihf =>
      rw [eval]
      refine ihc.bind fun v hv => Yields.bind (Q := fun _ => True) (fun _ _ => trivial) ?_
      intro b _
      split
      · exact iht
      · exact ihf

theorem evalText_supported {env : Environment} (he : env.WellFormed) (text : Text) :
    Yields Value.Supported (evalText env text) := by
  intro v hv
  obtain ⟨tree, ht, hv⟩ := bind_eq_ok.mp hv
  exact (parsed_of_ofText ht).eval_supported he v hv

end Expr

end Prepass
