/- Which directives open and close a block, and the blocks that a run of lines leaves open. -/
import Prepass.Proofs.Run.Step
import Prepass.Proofs.Run.Structured
namespace Prepass

namespace Directive

theorem action?_of_scan {style : CommentStyle} {file : Text} {number : Nat} {text : Text}
    {d : Directive} {log : Log} (h : scan style file number text = .ok (some d, log)) :
    action? style text = some d.action ∧ d.line = number := by
  unfold scan at h
  split at h
  · cases h
  · rename_i keyword argument hs
    obtain ⟨⟨found, said⟩, ho, he⟩ := map_eq_ok.mp h
    cases he
    obtain ⟨other, hother⟩ := ofArgument_action ho [] 0
    obtain ⟨same, hsame⟩ := ofArgument_action ho file number
    rw [ho] at hsame
    constructor
    · simp only [action?, scan, hs, hother]
      rfl
    · have hd : d = ⟨number, d.action⟩ := congrArg Prod.fst (Except.ok.inj hsame)
      exact congrArg Directive.line hd

def opens (style : CommentStyle) (line : Line) : Bool :=
  match action? style line.text with
  | some (.opening _) => true
  | _ => false

def closes (style : CommentStyle) (line : Line) : Bool :=
  match action? style line.text with
  | some .closing => true
  | _ => false

theorem closes_of_opens {style : CommentStyle} {line : Line} (h : opens style line = true) :
    closes style line = false := by
  unfold opens at h
  unfold closes
  split at h
  · rename_i condition ha
    rw [ha]
  · cases h

theorem outcome_eq_ok {file : Text} {blocks next : BlockStack} {env after : Environment}
    {d : Directive} {log : Log} (h : d.outcome file blocks env = .ok (next, after, log)) :
    blocks.process env file d = .ok next ∧
      (if next.active then d.execute env file else .ok (env, [])) = .ok (after, log) := by
  obtain ⟨found, hp, h⟩ := bind_eq_ok.mp h
  obtain ⟨made, hm, h⟩ := map_eq_ok.mp h
  cases h
  exact ⟨hp, hm⟩

end Directive

/-- A directive moves a step on as it says; any other line leaves blocks and variables alone. -/
theorem Run.step_eq_ok {style : CommentStyle} {file : Text} {run next : Run} {number : Nat}
    {line : Line} (h : run.step style file number line = .ok next) :
    match Directive.action? style line.text with
    | some action => ∃ log, Directive.outcome file run.blocks run.environment ⟨number, action⟩ =
        .ok (next.blocks, next.environment, log)
    | none => next.blocks = run.blocks ∧ next.environment = run.environment := by
  rw [step_eq] at h
  split at h
  · cases h
  · rename_i d log hs
    obtain ⟨ha, hn⟩ := Directive.action?_of_scan hs
    rw [directive_eq] at h
    obtain ⟨⟨blocks, environment, said⟩, ho, rfl⟩ := map_eq_ok.mp h
    simp only [ha]
    rw [← hn]
    exact ⟨said, mapError_eq_ok.mp ho⟩
  · rename_i log hs
    have ha : Directive.action? style line.text = none := by
      cases ha : Directive.action? style line.text with
      | none => rfl
      | some action =>
          rw [Directive.scan_of_action? ha] at hs
          cases hs
    simp only [ha]
    split at h
    · obtain ⟨output, -, rfl⟩ := map_eq_ok.mp h
      exact ⟨rfl, rfl⟩
    · cases h
      exact ⟨rfl, rfl⟩

namespace BlockStack

/-- The lines on which the open blocks begin, innermost first. -/
def lines (stack : BlockStack) : List Nat := stack.map Frame.line

theorem lines_process {env : Environment} {file : Text} {stack next : BlockStack} {d : Directive}
    (h : stack.process env file d = .ok next) :
    next.lines = match d.action with
      | .opening _ => d.line :: stack.lines
      | .closing => stack.lines.tail
      | _ => stack.lines := by
  obtain ⟨number, action⟩ := d
  cases action with
  | opening condition =>
      rw [process_opening] at h
      obtain ⟨held, -, rfl⟩ := map_eq_ok.mp h
      rfl
  | elseIf expression =>
      cases stack with
      | nil => cases h
      | cons frame rest =>
          cases hf : frame.seenElse with
          | true => simp [process, branching, hf, bind, Except.bind] at h
          | false =>
              rw [process_elseIf hf] at h
              obtain ⟨held, -, rfl⟩ := map_eq_ok.mp h
              rfl
  | otherwise =>
      cases stack with
      | nil => cases h
      | cons frame rest =>
          cases hf : frame.seenElse with
          | true => simp [process, branching, hf, bind, Except.bind] at h
          | false =>
              rw [process_otherwise hf] at h
              cases h
              rfl
  | closing =>
      cases stack with
      | nil => cases h
      | cons frame rest =>
          cases h
          rfl
  | set name expression | unset name | error message =>
      cases h
      rfl

end BlockStack

theorem Run.lines_step {style : CommentStyle} {file : Text} {run next : Run} {number : Nat}
    {line : Line} (h : run.step style file number line = .ok next) :
    next.blocks.lines =
      if Directive.opens style line then number :: run.blocks.lines
      else if Directive.closes style line then run.blocks.lines.tail
      else run.blocks.lines := by
  have hs := step_eq_ok h
  unfold Directive.opens Directive.closes
  cases ha : Directive.action? style line.text with
  | none =>
      rw [ha] at hs
      rw [hs.1]
      rfl
  | some action =>
      rw [ha] at hs
      obtain ⟨log, ho⟩ := hs
      rw [BlockStack.lines_process (Directive.outcome_eq_ok ho).1]
      cases action <;> rfl

namespace Line

/-- How many directives close a block that none of the lines opens. -/
def surplus (style : CommentStyle) : List Line → Nat
  | [] => 0
  | line :: rest =>
    if Directive.opens style line then surplus style rest - 1
    else if Directive.closes style line then surplus style rest + 1
    else surplus style rest

/-- The lines, numbered from `number` on, that open a block which none of them closes. The last
one comes first. -/
def unmatched (style : CommentStyle) (number : Nat) : List Line → List Nat
  | [] => []
  | line :: rest =>
    unmatched style (number + 1) rest ++
      if Directive.opens style line ∧ surplus style rest = 0 then [number] else []

end Line

/-- The blocks that are open in the end are those that no line closed. -/
theorem Run.lines_steps {style : CommentStyle} {file : Text} {run final : Run} {number : Nat}
    {lines : List Line} (h : run.steps style file number lines = .ok final) :
    final.blocks.lines =
      Line.unmatched style number lines ++ run.blocks.lines.drop (Line.surplus style lines) := by
  induction lines generalizing run number with
  | nil =>
      cases h
      rfl
  | cons line rest ih =>
      obtain ⟨next, hn, h⟩ := bind_eq_ok.mp h
      rw [ih h, lines_step hn, Line.unmatched, Line.surplus, List.append_assoc]
      congr 1
      cases ho : Directive.opens style line with
      | true =>
          cases hs : Line.surplus style rest with
          | zero => rfl
          | succ surplus => rfl
      | false =>
          cases hc : Directive.closes style line with
          | true => exact List.drop_tail
          | false => rfl

namespace Line

variable {style : CommentStyle}

/-- A line opens a block that is not closed: however far one reads on, the directives after it have
not closed more blocks than they have opened. -/
def Unmatched (style : CommentStyle) (lines : List Line) (i : Nat) : Prop :=
  (∃ line, lines[i]? = some line ∧ Directive.opens style line = true) ∧
    ∀ j, ((lines.drop (i + 1)).take j).countP (Directive.closes style) ≤
      ((lines.drop (i + 1)).take j).countP (Directive.opens style)

theorem surplus_le_iff (lines : List Line) (d : Nat) :
    surplus style lines ≤ d ↔ ∀ j, (lines.take j).countP (Directive.closes style) ≤
      (lines.take j).countP (Directive.opens style) + d := by
  induction lines generalizing d with
  | nil => simp [surplus]
  | cons line rest ih =>
      have hcons : (∀ j, ((line :: rest).take j).countP (Directive.closes style) ≤
            ((line :: rest).take j).countP (Directive.opens style) + d) ↔
          ∀ j, (rest.take j).countP (Directive.closes style) +
            (if Directive.closes style line then 1 else 0) ≤
              (rest.take j).countP (Directive.opens style) +
                (if Directive.opens style line then 1 else 0) + d := by
        constructor
        · intro h j
          have hj := h (j + 1)
          rwa [List.take_succ_cons, List.countP_cons, List.countP_cons] at hj
        · intro h j
          cases j with
          | zero => exact Nat.zero_le _
          | succ j =>
              rw [List.take_succ_cons, List.countP_cons, List.countP_cons]
              exact h j
      rw [hcons, surplus]
      cases ho : Directive.opens style line with
      | true =>
          simp only [Directive.closes_of_opens ho, if_true, Bool.false_eq_true, if_false]
          rw [Nat.sub_le_iff_le_add, ih]
          exact forall_congr' fun j => by omega
      | false =>
          cases hc : Directive.closes style line with
          | true =>
              simp only [if_true, Bool.false_eq_true, if_false]
              cases d with
              | zero =>
                  constructor
                  · intro h
                    cases h
                  · intro h
                    exact absurd (h 0) (by simp)
              | succ d =>
                  rw [Nat.add_le_add_iff_right, ih]
                  exact forall_congr' fun j => by omega
          | false =>
              simp only [Bool.false_eq_true, if_false]
              exact ih d

theorem unmatched_zero_iff {line : Line} {rest : List Line} :
    Unmatched style (line :: rest) 0 ↔
      Directive.opens style line = true ∧ surplus style rest = 0 := by
  rw [← Nat.le_zero, surplus_le_iff]
  constructor
  · rintro ⟨⟨found, hf, ho⟩, h⟩
    cases hf
    exact ⟨ho, h⟩
  · rintro ⟨ho, h⟩
    exact ⟨⟨line, rfl, ho⟩, h⟩

theorem mem_unmatched_iff {number k : Nat} {lines : List Line} :
    k ∈ unmatched style number lines ↔ ∃ i, k = number + i ∧ Unmatched style lines i := by
  induction lines generalizing number with
  | nil =>
      constructor
      · intro h
        cases h
      · rintro ⟨i, -, ⟨line, hl, -⟩, -⟩
        cases hl
  | cons line rest ih =>
      rw [unmatched, List.mem_append, ih]
      constructor
      · rintro (⟨i, rfl, hu⟩ | h)
        · exact ⟨i + 1, by omega, hu⟩
        · split at h
          · rename_i hu
            exact ⟨0, List.mem_singleton.mp h, unmatched_zero_iff.mpr hu⟩
          · cases h
      · rintro ⟨i, rfl, hu⟩
        cases i with
        | zero =>
            rw [if_pos (unmatched_zero_iff.mp hu)]
            exact Or.inr List.mem_cons_self
        | succ i => exact Or.inl ⟨i, by omega, hu⟩

theorem pairwise_unmatched (style : CommentStyle) (number : Nat) (lines : List Line) :
    (unmatched style number lines).Pairwise fun k l => l < k := by
  induction lines generalizing number with
  | nil => exact .nil
  | cons line rest ih =>
      rw [unmatched, List.pairwise_append]
      refine ⟨ih (number + 1), ?_, ?_⟩
      · split
        · exact List.pairwise_singleton _ _
        · exact .nil
      · intro k hk l hl
        obtain ⟨i, rfl, -⟩ := mem_unmatched_iff.mp hk
        split at hl
        · rw [List.mem_singleton.mp hl]
          omega
        · cases hl

end Line

end Prepass
