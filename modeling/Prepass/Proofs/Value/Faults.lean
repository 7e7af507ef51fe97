/- How the operations on values can fail: over integers that no number is near to, texts that spell
such an integer, and names of digits that can be no position. -/
import Mathlib.Data.List.TakeWhile
import Prepass.Expression.Tree
import Prepass.Proofs.Binary64.Limit
namespace Prepass

namespace Fault

/-- A fault that is no problem of the file. -/
def Internal (fault : Fault) : Prop := ∀ d, fault ≠ .reported d

/-- A number is too large, and for a reason. -/
def TooLarge (reason : Prop) (fault : Fault) : Prop := fault = .numberTooLarge ∧ reason

variable {reason other : Prop}

theorem TooLarge.imp {fault : Fault} (h : fault.TooLarge reason) (hi : reason → other) :
    fault.TooLarge other := ⟨h.1, hi h.2⟩

end Fault

open Fault (TooLarge)

theorem FailsOnly.because {α : Type} {reason other : Prop} {x : Except Fault α}
    (h : FailsOnly (TooLarge reason) x) (hi : reason → other) : FailsOnly (TooLarge other) x :=
  h.mono fun _ hf => hf.imp hi

theorem Binary64.bounded?_fails (x : Binary64) : FailsOnly (Eq .numberTooLarge) x.bounded? := by
  cases x with
  | infinite negative => exact .error rfl
  | _ => exact .ok _

theorem Binary64.ofInt?_fails (n : Int) : FailsOnly (TooLarge (Far n)) (ofInt? n) := by
  intro fault hf
  exact ⟨((ofInt n).bounded?_fails fault hf).symm, ofInt?_far n fault hf⟩

namespace Text

/-- The text means an integer that is too far away. -/
def SpellsFar (t : Text) : Prop :=
  ∃ base digits n, announcedBase? (strip t) = some (base, digits) ∧
    readInteger? base digits = some n ∧ Binary64.Far n

theorem toNumber_fails (t : Text) : FailsOnly (TooLarge t.SpellsFar) t.toNumber := by
  unfold toNumber
  dsimp only
  split
  · exact .ok _
  split
  · exact .ok _
  split
  · exact .ok _
  split
  · rename_i base digits ha
    split
    · rename_i n hn
      exact (Binary64.ofInt?_fails n).because fun hf => ⟨base, digits, n, ha, hn, hf⟩
    · exact .ok _
  · exact .ok _

/-- Digits that can be no position: one of them is not decimal, or they are more than are read. -/
def MalformedIndex (name : Text) : Prop :=
  (∀ c ∈ name, c.isDigit = true) ∧
    ((∃ c ∈ name, c.isDecimal = false) ∨ decimalLimit < name.length)

theorem leadingDecimals_le (t : Text) : t.leadingDecimals ≤ t.length :=
  (List.takeWhile_sublist _).length_le

theorem leadingDecimals_of_decimal {t : Text} (h : ∀ c ∈ t, c.isDecimal = true) :
    t.leadingDecimals = t.length := by
  rw [leadingDecimals, List.takeWhile_eq_self_iff.mpr h]

theorem mapM_decimalValue?_eq_none {name : Text} :
    name.mapM CodePoint.decimalValue? = none ↔ ∃ c ∈ name, c.isDecimal = false := by
  induction name with
  | nil => simp
  | cons c rest ih =>
      simp only [List.mapM_cons, List.mem_cons, exists_eq_or_imp]
      rw [← ih, CodePoint.isDecimal]
      cases c.decimalValue? with
      | none => simp
      | some n => cases rest.mapM CodePoint.decimalValue? <;> simp

theorem index?_fails (name : Text) :
    FailsOnly (fun fault => fault = .malformedIndex name ∧ name.MalformedIndex) (index? name) := by
  unfold index?
  split
  · exact .ok _
  · rename_i hd
    have hdigits : name ≠ [] ∧ ∀ c ∈ name, c.isDigit = true := by simpa using hd
    split
    · rename_i hlimit
      exact .error ⟨rfl, hdigits.2, .inr (Nat.lt_of_lt_of_le hlimit name.leadingDecimals_le)⟩
    · split
      · exact .ok _
      · rename_i hm
        exact .error ⟨rfl, hdigits.2, .inl (mapM_decimalValue?_eq_none.mp hm)⟩

/-- Such names are always refused. -/
theorem index?_of_malformed {name : Text} (h : name.MalformedIndex) :
    index? name = .error (.malformedIndex name) := by
  obtain ⟨hdigits, hwhy⟩ := h
  have hne : name ≠ [] := by
    rintro rfl
    simp at hwhy
  have hcondition : ¬ (name.isEmpty || !name.all CodePoint.isDigit) = true := by
    simpa using ⟨hne, hdigits⟩
  rw [index?, if_neg hcondition]
  by_cases hlimit : decimalLimit < name.leadingDecimals
  · rw [if_pos hlimit]
  · rw [if_neg hlimit]
    have hother : ∃ c ∈ name, c.isDecimal = false := by
      obtain hother | hlong := hwhy
      · exact hother
      · by_contra hnone
        have hdecimal : ∀ c ∈ name, c.isDecimal = true := by simpa using hnone
        rw [leadingDecimals_of_decimal hdecimal] at hlimit
        exact hlimit hlong
    rw [mapM_decimalValue?_eq_none.mpr hother]

end Text

namespace Value

/-- Somewhere in the value is an integer that is too far away. -/
inductive HoldsFar : Value → Prop where
  | int {n : Int} (far : Binary64.Far n) : HoldsFar (.int n)
  | item {id : ObjectId} {form : ListForm} {items : List Value} {v : Value} (among : v ∈ items)
      (holds : HoldsFar v) : HoldsFar (.list id form items)
  | entry {id : ObjectId} {entries : List (Key × Value)} {key : Key} {v : Value}
      (among : (key, v) ∈ entries) (holds : HoldsFar v) : HoldsFar (.dict id entries)

/-- The value has no number: it holds an integer that is too far away, or its text spells one. -/
inductive Strays : Value → Prop where
  | holds {v : Value} (far : HoldsFar v) : Strays v
  | text {t : Text} (spells : t.SpellsFar) : Strays (.str t)
  | joined {id : ObjectId} {form : ListForm} {items : List Value} {t : Text}
      (text : (Value.list id form items).toText = .ok t) (spells : t.SpellsFar) :
      Strays (.list id form items)

theorem truthy_fails (v : Value) : FailsOnly (TooLarge v.HoldsFar) v.truthy := by
  cases v with
  | int n =>
      rw [truthy]
      split
      · exact .ok _
      · exact ((Binary64.ofInt?_fails n).because .int).map
  | _ => exact .ok _

mutual

theorem toText_fails : (v : Value) → FailsOnly (TooLarge v.HoldsFar) v.toText
  | .int n => ((Binary64.ofInt?_fails n).because .int).map
  | .list id form items => by
      rw [toText]
      exact ((itemTexts_fails items).because fun ⟨_, hm, hv⟩ => .item hm hv).map
  | .undefined | .null | .bool _ | .num _ | .str _ | .dict .. | .foreign .. => .ok _

theorem itemTexts_fails :
    (items : List Value) → FailsOnly (TooLarge (∃ v ∈ items, v.HoldsFar)) (itemTexts items)
  | [] => .ok []
  | .undefined :: rest | .null :: rest =>
      ((itemTexts_fails rest).because fun ⟨v, hm, hv⟩ => ⟨v, .tail _ hm, hv⟩).map
  | .bool _ :: rest | .int _ :: rest | .num _ :: rest | .str _ :: rest | .list .. :: rest
  | .dict .. :: rest | .foreign .. :: rest =>
      ((toText_fails _).because fun hv => ⟨_, .head rest, hv⟩).bind fun _ =>
        ((itemTexts_fails rest).because fun ⟨v, hm, hv⟩ => ⟨v, .tail _ hm, hv⟩).bind fun _ => .ok _

end

mutual

theorem literal_fails : (v : Value) → FailsOnly (TooLarge v.HoldsFar) v.literal
  | .list _ _ items => ((literals_fails items).because fun ⟨_, hm, hv⟩ => .item hm hv).map
  | .dict _ entries => ((entryLiterals_fails entries).because fun ⟨_, hm, hv⟩ => .entry hm hv).map
  | .undefined | .null | .bool _ | .int _ | .num _ | .foreign .. => toText_fails _
  | .str _ => .ok _

theorem literals_fails :
    (items : List Value) → FailsOnly (TooLarge (∃ v ∈ items, v.HoldsFar)) (literals items)
  | [] => .ok []
  | v :: rest =>
      (v.literal_fails.because fun hv => ⟨v, .head rest, hv⟩).bind fun _ =>
        ((literals_fails rest).because fun ⟨w, hm, hw⟩ => ⟨w, .tail v hm, hw⟩).bind fun _ => .ok _

theorem entryLiterals_fails :
    (entries : List (Key × Value)) →
      FailsOnly (TooLarge (∃ entry ∈ entries, entry.2.HoldsFar)) (entryLiterals entries)
  | [] => .ok []
  | (key, v) :: rest =>
      (v.literal_fails.because fun hv => ⟨(key, v), .head rest, hv⟩).bind fun _ =>
        ((entryLiterals_fails rest).because fun ⟨w, hm, hw⟩ => ⟨w, .tail _ hm, hw⟩).bind
          fun _ => .ok _

end

theorem toNumber_fails (v : Value) : FailsOnly (TooLarge v.Strays) v.toNumber := by
  cases v with
  | int n => exact (Binary64.ofInt?_fails n).because fun hf => .holds (.int hf)
  | str t => exact t.toNumber_fails.because .text
  | list id form items =>
      refine FailsOnly.bind_of_ok ((toText_fails _).because .holds) ?_
      intro t ht
      exact t.toNumber_fails.because (.joined ht)
  | _ => exact .ok _

/-- What the text of an object spells is a matter of the object. -/
theorem strays_of_toText {v : Value} {t : Text} (hk : v.kind = .object) (ht : v.toText = .ok t)
    (h : (Value.str t).Strays) : v.Strays := by
  have hs : t.SpellsFar := by
    cases h with
    | holds far => cases far
    | text spells => exact spells
  have hobject : ¬ Text.SpellsFar "[object Object]" := by
    rintro ⟨base, digits, n, ha, -⟩
    have hn : Text.announcedBase? (Text.strip "[object Object]") = none := by decide +kernel
    rw [hn] at ha
    cases ha
  cases v with
  | list id form items => exact .joined ht hs
  | dict id entries | foreign id typeName =>
      cases ht
      exact absurd hs hobject
  | _ => cases hk

theorem toPrimitive_fails (v : Value) : FailsOnly (TooLarge v.Strays) v.toPrimitive := by
  unfold toPrimitive
  split
  · exact (v.toText_fails.because .holds).map
  · exact .ok v

theorem strays_of_toPrimitive {v primitive : Value} (hp : v.toPrimitive = .ok primitive)
    (h : primitive.Strays) : v.Strays := by
  unfold toPrimitive at hp
  split at hp
  · rename_i hk
    obtain ⟨t, ht, rfl⟩ := map_eq_ok.mp hp
    exact strays_of_toText hk ht h
  · cases hp
    exact h

/-- Both operands are converted, whatever is then made of them. -/
theorem toNumbers_fails {α : Type} (v w : Value) (f : Binary64 → Binary64 → α) :
    FailsOnly (TooLarge (v.Strays ∨ w.Strays)) (do
      let x ← v.toNumber
      let y ← w.toNumber
      return f x y) :=
  (v.toNumber_fails.because .inl).bind fun x => (w.toNumber_fails.because .inr).bind fun y =>
    .ok (f x y)

/-- An operation on the primitive forms fails over the operands themselves. -/
theorem toPrimitives_fails {α : Type} {v w : Value} {f : Value → Value → Except Fault α}
    (h : ∀ v' w', FailsOnly (TooLarge (v'.Strays ∨ w'.Strays)) (f v' w')) :
    FailsOnly (TooLarge (v.Strays ∨ w.Strays)) (do
      let v' ← v.toPrimitive
      let w' ← w.toPrimitive
      f v' w') := by
  refine (v.toPrimitive_fails.because .inl).bind_of_ok fun v' hv => ?_
  refine (w.toPrimitive_fails.because .inr).bind_of_ok fun w' hw => ?_
  exact (h v' w').because fun hs => hs.imp (strays_of_toPrimitive hv) (strays_of_toPrimitive hw)

theorem strictEquals_fails (v w : Value) :
    FailsOnly (TooLarge (v.Strays ∨ w.Strays)) (v.strictEquals w) := by
  unfold strictEquals
  split
  · exact .ok _
  · exact .ok _
  · exact .ok _
  · exact .ok _
  · split
    · exact toNumbers_fails _ _ _
    · exact .ok _

theorem not_strays_num (x : Binary64) : ¬ (Value.num x).Strays := by
  rintro ⟨far⟩
  cases far

theorem looseEquals_fails (v w : Value) :
    FailsOnly (TooLarge (v.Strays ∨ w.Strays)) (v.looseEquals w) := by
  fun_induction looseEquals v w with
  | case1 v w hk => exact v.strictEquals_fails w
  | case2 v w hk hn => exact .ok _
  | case3 v w hk hn hb ih =>
      refine (v.toNumber_fails.because .inl).bind fun x => (ih x).because fun hs => ?_
      exact Or.inr (hs.resolve_left (not_strays_num x))
  | case4 v w hk hn hb hb' ih =>
      refine (w.toNumber_fails.because .inr).bind fun y => (ih y).because fun hs => ?_
      exact Or.inl (hs.resolve_right (not_strays_num y))
  | case5 v w hk hn hb hb' ho ih =>
      refine (v.toText_fails.because fun hf => .inl (.holds hf)).bind_of_ok fun s hs => ?_
      exact (ih s).because fun hor => hor.imp_left (strays_of_toText ho hs)
  | case6 v w hk hn hb hb' ho ho' ih =>
      refine (w.toText_fails.because fun hf => .inr (.holds hf)).bind_of_ok fun t ht => ?_
      exact (ih t).because fun hor => hor.imp_right (strays_of_toText ho' ht)
  | case7 v w hk hn hb hb' ho ho' => exact v.toNumbers_fails w Binary64.equals

theorem comparands_fails (v w : Value) :
    FailsOnly (TooLarge (v.Strays ∨ w.Strays)) (v.comparands w) := by
  apply toPrimitives_fails
  intro v' w'
  split
  · exact .ok _
  · exact toNumbers_fails _ _ _

theorem numbers_fails (v w : Value) : FailsOnly (TooLarge (v.Strays ∨ w.Strays)) (v.numbers w) :=
  toPrimitives_fails fun v' w' => v'.toNumbers_fails w' _

theorem arithmetic_fails (op : Arithmetic) (v w : Value) :
    FailsOnly (TooLarge (v.Strays ∨ w.Strays)) (arithmetic op v w) := by
  apply toPrimitives_fails
  intro v' w'
  split
  · refine (v'.toText_fails.because fun hf => .inl (.holds hf)).bind fun s => ?_
    exact (w'.toText_fails.because fun hf => .inr (.holds hf)).bind fun t => .ok _
  · exact (v'.numbers_fails w').bind fun xy => .ok _

theorem bitwise_fails (op : Bitwise) (v w : Value) :
    FailsOnly (TooLarge (v.Strays ∨ w.Strays)) (bitwise op v w) :=
  (w.toNumber_fails.because .inr).map.bind fun _ =>
    (v.toNumber_fails.because .inl).map.bind fun _ => .ok _

theorem equality_fails (op : Equality) (v w : Value) :
    FailsOnly (TooLarge (v.Strays ∨ w.Strays)) (equality op v w) := by
  cases op with
  | loose => exact v.looseEquals_fails w
  | looseNot => exact (v.looseEquals_fails w).map
  | strict => exact v.strictEquals_fails w
  | strictNot => exact (v.strictEquals_fails w).map

theorem unary_fails {op : UnaryOperator} (known : ∀ t, op ≠ .unknown t) (v : Value) :
    FailsOnly (TooLarge v.Strays) (unary op v) := by
  cases op with
  | negate => exact v.toNumber_fails.map
  | plus => exact v.toNumber_fails.map
  | not => exact (v.truthy_fails.because .holds).map
  | complement => exact v.toNumber_fails.map.map.map
  | unknown spelling => exact absurd rfl (known spelling)

theorem binary_fails {op : BinaryOperator} (known : ∀ t, op ≠ .unknown t)
    (strict : ∀ l, op ≠ .logical l) (v w : Value) :
    FailsOnly (TooLarge (v.Strays ∨ w.Strays)) (binary op v w) := by
  cases op with
  | equality op => exact (equality_fails op v w).map
  | relation op => exact (v.comparands_fails w).map.map
  | arithmetic op => exact arithmetic_fails op v w
  | bitwise op => exact (bitwise_fails op v w).map
  | logical op => exact absurd rfl (strict op)
  | unknown spelling => exact absurd rfl (known spelling)

def hasItems : Value → Bool
  | .str _ | .list .. => true
  | _ => false

/-- Why a value does not give the member under a key. -/
inductive MemberFault (v key : Value) : Fault → Prop where
  | tooLarge (far : key.HoldsFar) : MemberFault v key .numberTooLarge
  | index {name : Text} (holder : v.hasItems = true) (text : key.toText = .ok name)
      (malformed : name.MalformedIndex) : MemberFault v key (.malformedIndex name)
  | nothing (holder name : Text) : MemberFault v key (.reported (.memberOfNothing holder name))

theorem item_fails (items : List Value) (name : Text) :
    FailsOnly (fun fault => fault = .malformedIndex name ∧ name.MalformedIndex)
      (item items name) := by
  unfold item
  split
  · exact .ok _
  · exact (Text.index?_fails name).map

theorem member_fails (v key : Value) : FailsOnly (MemberFault v key) (v.member key) := by
  have among {items : List Value} {name : Text} (hv : v.hasItems = true)
      (ht : key.toText = .ok name) : FailsOnly (MemberFault v key) (item items name) :=
    (item_fails items name).mono fun _ ⟨he, hm⟩ => he ▸ .index hv ht hm
  refine (key.toText_fails.mono fun _ ⟨he, hf⟩ => he ▸ .tooLarge hf).bind_of_ok fun name ht => ?_
  cases v with
  | undefined => exact .error (.nothing _ name)
  | null => exact .error (.nothing _ name)
  | str t => exact among rfl ht
  | list id form items => exact among rfl ht
  | _ => exact .ok _

/-- No value with items takes a malformed index for one that it does not have. -/
theorem member_of_malformed {v key : Value} {name : Text} (hv : v.hasItems = true)
    (ht : key.toText = .ok name) (h : name.MalformedIndex) :
    v.member key = .error (.malformedIndex name) := by
  have hlength : name ≠ Text.ofString "length" := by
    rintro rfl
    exact absurd h.1 (by decide)
  have hitem (items : List Value) : item items name = .error (.malformedIndex name) := by
    rw [item, if_neg hlength, Text.index?_of_malformed h]
    rfl
  rw [member, ht]
  cases v with
  | str t => exact hitem _
  | list id form items => exact hitem items
  | _ => cases hv

end Value

end Prepass
