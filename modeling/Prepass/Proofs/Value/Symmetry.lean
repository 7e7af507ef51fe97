/- Equality and order do not depend on which operand comes first. -/
import Prepass.Proofs.Value.Faults
namespace Prepass

theorem Binary64.equals_comm (x y : Binary64) : x.equals y = y.equals x := by
  unfold equals
  cases x.units? with
  | none => cases y.units? <;> rfl
  | some a =>
      cases y.units? with
      | none => rfl
      | some b => exact decide_eq_decide.mpr eq_comm

/-- The relation that holds when the operands change places. -/
def Relation.converse : Relation → Relation
  | .lt => .gt
  | .le => .ge
  | .gt => .lt
  | .ge => .le

def Value.Comparands.swap : Comparands → Comparands
  | .texts s t => .texts t s
  | .numbers x y => .numbers y x

theorem Relation.holds_converse (op : Relation) (operands : Value.Comparands) :
    op.converse.holds operands.swap = op.holds operands := by
  cases op <;> cases operands <;> rfl

namespace Value

variable {v w v' w' : Value}

/-- Both operands are converted, and a failure of either is the same. -/
theorem toNumbers_comm {α : Type} (v w : Value) (f : Binary64 → Binary64 → Except Fault α) :
    (v.toNumber >>= fun x => w.toNumber >>= fun y => f x y) =
      w.toNumber >>= fun y => v.toNumber >>= fun x => f x y :=
  FailsOnly.bind_comm (v.toNumber_fails.mono fun _ h => h.1)
    (w.toNumber_fails.mono fun _ h => h.1) f

theorem toPrimitives_comm {α : Type} (v w : Value) (f : Value → Value → Except Fault α) :
    (v.toPrimitive >>= fun v' => w.toPrimitive >>= fun w' => f v' w') =
      w.toPrimitive >>= fun w' => v.toPrimitive >>= fun v' => f v' w' :=
  FailsOnly.bind_comm (v.toPrimitive_fails.mono fun _ h => h.1)
    (w.toPrimitive_fails.mono fun _ h => h.1) f

theorem comparands_swap (v w : Value) : w.comparands v = (v.comparands w).map Comparands.swap := by
  unfold comparands
  rw [toPrimitives_comm, map_bind]
  refine bind_congr_ok fun v' _ => ?_
  rw [map_bind]
  refine bind_congr_ok fun w' _ => ?_
  split
  · rfl
  · rename_i hn
    split
    · exact absurd rfl (hn _ _ rfl)
    · rw [toNumbers_comm, map_bind]
      refine bind_congr_ok fun x _ => ?_
      rw [map_bind]
      rfl

theorem compare_converse (op : Relation) (v w : Value) :
    compare op.converse w v = compare op v w := by
  rw [compare, comparands_swap, compare]
  cases v.comparands w with
  | error fault => rfl
  | ok operands => exact congrArg Except.ok (op.holds_converse operands)

theorem numbersEqual_comm (v w : Value) :
    (do
      let x ← v.toNumber
      let y ← w.toNumber
      return x.equals y : Except Fault Bool) = do
      let y ← w.toNumber
      let x ← v.toNumber
      return y.equals x := by
  rw [toNumbers_comm]
  simp only [Binary64.equals_comm]

theorem strictEquals_comm (v w : Value) : strictEquals v w = strictEquals w v := by
  unfold strictEquals
  split
  · rfl
  · rfl
  · exact congrArg Except.ok (decide_eq_decide.mpr eq_comm)
  · exact congrArg Except.ok (decide_eq_decide.mpr eq_comm)
  · rename_i hundefined hnull hbool hstr
    generalize hfound : ite (v.kind = .number ∧ w.kind = .number) _ _ = found
    split
    · exact (hundefined rfl rfl).elim
    · exact (hnull rfl rfl).elim
    · exact (hbool _ _ rfl rfl).elim
    · exact (hstr _ _ rfl rfl).elim
    · rw [← hfound]
      by_cases hn : v.kind = .number ∧ w.kind = .number
      · rw [if_pos hn, if_pos hn.symm]
        exact v.numbersEqual_comm w
      · rw [if_neg hn, if_neg fun h => hn h.symm]
        apply congrArg Except.ok
        cases v.identity? <;> cases w.identity? <;> simp [eq_comm]

/-- What one round of loose equality gives: two operands for the next one, or the answer. -/
inductive Round where
  | next (v w : Value)
  | answer (equal : Bool)

def Round.swap : Round → Round
  | .next v w => .next w v
  | .answer equal => .answer equal

/-- One round of loose equality. It converts one operand, unless it finds the answer. -/
def looseRound (v w : Value) : Except Fault Round :=
  if v.kind = w.kind then (strictEquals v w).map .answer
  else if v.kind = .undefined ∨ v.kind = .null ∨ w.kind = .undefined ∨ w.kind = .null then
    .ok (.answer ((v.kind = .undefined ∨ v.kind = .null) ∧ (w.kind = .undefined ∨ w.kind = .null)))
  else if v.kind = .boolean then v.toNumber.map fun x => .next (.num x) w
  else if w.kind = .boolean then w.toNumber.map fun y => .next v (.num y)
  else if v.kind = .object then v.toText.map fun s => .next (.str s) w
  else if w.kind = .object then w.toText.map fun t => .next v (.str t)
  else do
    let x ← v.toNumber
    let y ← w.toNumber
    return .answer (x.equals y)

/-- The answer of loose equality if so many rounds find it. -/
def looseWithin : Nat → Value → Value → Except Fault (Option Bool)
  | 0, _, _ => .ok none
  | rounds + 1, v, w => do
    match ← looseRound v w with
    | .next v w => looseWithin rounds v w
    | .answer equal => return some equal

theorem looseEquals_round (v w : Value) :
    looseEquals v w = looseRound v w >>= fun
      | .next v w => looseEquals v w
      | .answer equal => .ok equal := by
  rw [looseEquals, looseRound]
  split
  · cases strictEquals v w <;> rfl
  split
  · rfl
  split
  · cases v.toNumber <;> rfl
  split
  · cases w.toNumber <;> rfl
  split
  · cases v.toText <;> rfl
  split
  · cases w.toText <;> rfl
  · cases v.toNumber with
    | error fault => rfl
    | ok x => cases w.toNumber <;> rfl

/-- A round that does not find the answer has used up a conversion. -/
theorem coercions_lt (h : looseRound v w = .ok (.next v' w')) :
    v'.coercions + w'.coercions < v.coercions + w.coercions := by
  have hone (u : Value) (hu : u.kind = .boolean ∨ u.kind = .object) : u.coercions = 1 := if_pos hu
  have hnum (x : Binary64) : (num x).coercions = 0 := rfl
  have hstr (t : Text) : (str t).coercions = 0 := rfl
  unfold looseRound at h
  split at h
  · obtain ⟨equal, -, he⟩ := map_eq_ok.mp h
    cases he
  split at h
  · cases h
  split at h
  · obtain ⟨x, -, ⟨⟩⟩ := map_eq_ok.mp h
    rw [hone v (.inl ‹_›), hnum]
    omega
  split at h
  · obtain ⟨y, -, ⟨⟩⟩ := map_eq_ok.mp h
    rw [hone w (.inl ‹_›), hnum]
    omega
  split at h
  · obtain ⟨s, -, ⟨⟩⟩ := map_eq_ok.mp h
    rw [hone v (.inr ‹_›), hstr]
    omega
  split at h
  · obtain ⟨t, -, ⟨⟩⟩ := map_eq_ok.mp h
    rw [hone w (.inr ‹_›), hstr]
    omega
  · obtain ⟨x, -, h⟩ := bind_eq_ok.mp h
    obtain ⟨y, -, h⟩ := bind_eq_ok.mp h
    cases h

/-- Each round treats the operands alike. -/
theorem looseRound_swap (v w : Value) : looseRound w v = (looseRound v w).map Round.swap := by
  unfold looseRound
  by_cases hk : v.kind = w.kind
  · rw [if_pos hk, if_pos hk.symm, strictEquals_comm]
    cases strictEquals v w <;> rfl
  rw [if_neg hk, if_neg (Ne.symm hk)]
  have habsent : (w.kind = .undefined ∨ w.kind = .null ∨ v.kind = .undefined ∨ v.kind = .null) ↔
      v.kind = .undefined ∨ v.kind = .null ∨ w.kind = .undefined ∨ w.kind = .null := by
    rw [← or_assoc, or_comm, or_assoc]
  by_cases ha : v.kind = .undefined ∨ v.kind = .null ∨ w.kind = .undefined ∨ w.kind = .null
  · rw [if_pos ha, if_pos (habsent.mpr ha)]
    exact congrArg (fun equal => Except.ok (Round.answer equal)) (decide_eq_decide.mpr and_comm)
  rw [if_neg ha, if_neg (mt habsent.mp ha)]
  by_cases hv : v.kind = .boolean
  · have hw : w.kind ≠ .boolean := fun h => hk (hv.trans h.symm)
    rw [if_neg hw, if_pos hv, if_pos hv]
    cases v.toNumber <;> rfl
  rw [if_neg hv, if_neg hv]
  by_cases hw : w.kind = .boolean
  · rw [if_pos hw, if_pos hw]
    cases w.toNumber <;> rfl
  rw [if_neg hw, if_neg hw]
  by_cases hv : v.kind = .object
  · have hw : w.kind ≠ .object := fun h => hk (hv.trans h.symm)
    rw [if_neg hw, if_pos hv, if_pos hv]
    cases v.toText <;> rfl
  rw [if_neg hv, if_neg hv]
  by_cases hw : w.kind = .object
  · rw [if_pos hw, if_pos hw]
    cases w.toText <;> rfl
  rw [if_neg hw, if_neg hw, toNumbers_comm, map_bind]
  refine bind_congr_ok fun x _ => ?_
  rw [map_bind]
  refine bind_congr_ok fun y _ => ?_
  rw [Binary64.equals_comm]
  rfl

theorem looseWithin_swap (rounds : Nat) (v w : Value) :
    looseWithin rounds w v = looseWithin rounds v w := by
  induction rounds generalizing v w with
  | zero => rfl
  | succ rounds ih =>
      rw [looseWithin, looseWithin, looseRound_swap]
      cases looseRound v w with
      | error fault => rfl
      | ok round =>
          cases round with
          | next v' w' => exact ih v' w'
          | answer equal => rfl

/-- Rounds come to an end: each one that goes on leaves fewer conversions to be made. -/
theorem looseWithin_eq {rounds : Nat} (v w : Value) (h : v.coercions + w.coercions < rounds) :
    looseWithin rounds v w = (looseEquals v w).map some := by
  induction rounds generalizing v w with
  | zero => cases h
  | succ rounds ih =>
      rw [looseWithin, looseEquals_round]
      cases hr : looseRound v w with
      | error fault => rfl
      | ok round =>
          cases round with
          | next v' w' =>
              have hlt := coercions_lt hr
              exact ih v' w' (by omega)
          | answer equal => rfl

theorem coercions_le_one (v : Value) : v.coercions ≤ 1 := by
  unfold coercions
  split <;> omega

theorem looseWithin_three (v w : Value) : looseWithin 3 v w = (looseEquals v w).map some := by
  have hv := v.coercions_le_one
  have hw := w.coercions_le_one
  exact looseWithin_eq v w (by omega)

theorem looseEquals_comm (v w : Value) : looseEquals v w = looseEquals w v := by
  have h : (looseEquals v w).map some = (looseEquals w v).map some := by
    rw [← looseWithin_three, ← looseWithin_three, looseWithin_swap]
  cases hv : looseEquals w v with
  | error fault => exact error_of_map_eq h hv
  | ok equal =>
      rw [hv] at h
      obtain ⟨found, hf, he⟩ := map_eq_ok.mp h
      rw [hf, Option.some.inj he]

theorem kind_of_strictEquals (h : strictEquals v w = .ok true) : v.kind = w.kind := by
  unfold strictEquals at h
  split at h
  · rfl
  · rfl
  · rfl
  · rfl
  · split at h
    · rename_i hn
      exact hn.1.trans hn.2.symm
    · have hi := Except.ok.inj h
      simp only [Bool.and_eq_true, decide_eq_true_eq] at hi
      obtain ⟨hs, he⟩ := hi
      have hobject {u : Value} (hu : u.identity?.isSome = true) : u.kind = .object := by
        cases u with
        | list id form items | dict id entries | foreign id typeName => rfl
        | undefined | null | bool b | int n | num x | str t => cases hu
      exact (hobject hs).trans (hobject (he ▸ hs)).symm

theorem looseEquals_of_strictEquals (h : strictEquals v w = .ok true) :
    looseEquals v w = .ok true := by
  rw [looseEquals, if_pos (kind_of_strictEquals h), h]

theorem absent_iff (v : Value) :
    v.kind = .undefined ∨ v.kind = .null ↔ v = .null ∨ v = .undefined := by
  cases v <;> simp [kind]

theorem looseEquals_absent (hv : v = .null ∨ v = .undefined) (w : Value) :
    ∃ equal, looseEquals v w = .ok equal ∧ (equal = true ↔ w = .null ∨ w = .undefined) := by
  have hkind := v.absent_iff.mpr hv
  by_cases hk : v.kind = w.kind
  · have hw : w = .null ∨ w = .undefined := w.absent_iff.mp (hk ▸ hkind)
    refine ⟨true, looseEquals_of_strictEquals ?_, iff_of_true rfl hw⟩
    rcases hv with rfl | rfl
    · rcases hw with rfl | rfl
      · rfl
      · cases hk
    · rcases hw with rfl | rfl
      · cases hk
      · rfl
  · rw [looseEquals, if_neg hk, if_pos (or_assoc.mp (.inl hkind))]
    refine ⟨_, rfl, ?_⟩
    rw [decide_eq_true_iff, and_iff_right hkind, w.absent_iff]

/-- Equality and order take their operands in either place, and fail alike if they fail: `<` is `>`
and `<=` is `>=` of the operands in the other order. Loose equality has its answer in three rounds,
and holds where strict equality does. What is absent equals what is absent and nothing else. -/
theorem comparisons_swap (v w : Value) :
    looseWithin 3 v w = (looseEquals v w).map some ∧
      strictEquals v w = strictEquals w v ∧ looseEquals v w = looseEquals w v ∧
      compare .lt v w = compare .gt w v ∧ compare .le v w = compare .ge w v ∧
      (strictEquals v w = .ok true → looseEquals v w = .ok true) ∧
      (v = .null ∨ v = .undefined → ∃ equal, looseEquals v w = .ok equal ∧
        (equal = true ↔ w = .null ∨ w = .undefined)) :=
  ⟨looseWithin_three v w, strictEquals_comm v w, looseEquals_comm v w,
    (compare_converse .lt v w).symm, (compare_converse .le v w).symm, looseEquals_of_strictEquals,
    fun hv => looseEquals_absent hv w⟩

end Value

end Prepass
