/- How expressions can fail. What they report names no place, and what they do not report comes of a
value or a number that is out of range, or of a malformed index. -/
import Prepass.Proofs.Expression.Parsed
import Prepass.Proofs.Value.Faults
namespace Prepass

open Fault (TooLarge)

namespace Fault

/-- What stops an expression: it is reported to be wrong or to have no value, at a place that is
still unknown, or something strays. -/
inductive Explained (strays : Fault → Prop) : Fault → Prop where
  | reported {d : Diagnostic} (file : d.file = none) (line : d.line = none)
      (kind : d.kind = .expressionSyntax ∨ d.kind = .expressionRuntime) : Explained strays (.reported d)
  | strays {fault : Fault} (cause : strays fault) : Explained strays fault

variable {strays : Fault → Prop} {fault : Fault}

theorem Explained.imp {other : Fault → Prop} (h : Explained strays fault)
    (hi : strays fault → other fault) : Explained other fault := by
  cases h with
  | reported file line kind => exact .reported file line kind
  | strays cause => exact .strays (hi cause)

end Fault

open Fault (Explained)

namespace Text

/-- Somewhere in the text begins a number with a base mark that is too far away. -/
def WritesFar (t : Text) : Prop :=
  ∃ number base after, number <:+ t ∧ announcedBase? number = some (base, after) ∧
    Binary64.Far (digitsValue base (after.takeWhile (CodePoint.isAsciiDigit base)))

theorem WritesFar.cons {t : Text} (h : t.WritesFar) (c : CodePoint) : WritesFar (c :: t) := by
  obtain ⟨number, base, after, hn, hb, hf⟩ := h
  exact ⟨number, base, after, hn.trans (List.suffix_cons c t), hb, hf⟩

/-- If a number is too large, it is written in the text. -/
def Excuses (t : Text) (stop : LexStop) : Prop := stop.error = .numberTooLarge → t.WritesFar

end Text

namespace Lexeme

theorem finishNumber_fails (t : Text) (length : Nat) (x : Binary64) :
    FailsOnly t.Excuses (finishNumber t length x) := by
  unfold finishNumber
  split
  · exact .error nofun
  · exact .ok _

theorem number_fails (t : Text) : FailsOnly t.Excuses (number t) := by
  unfold number
  split
  · rename_i base after hb
    dsimp only
    split
    · exact .error nofun
    · split
      · rename_i fault hf
        refine .error fun _ => ⟨t, base, after, List.suffix_rfl, hb, ?_⟩
        exact Binary64.ofInt?_far _ fault hf
      · exact finishNumber_fails t _ _
  · split
    · exact .error nofun
    · exact finishNumber_fails t _ _

theorem quotedFrom_fails (whole : Text) (quote : CodePoint) (offset : Nat) (t : Text) :
    FailsOnly whole.Excuses (quotedFrom quote offset t) := by
  fun_induction quotedFrom quote offset t with
  | case2 => exact .ok _
  | case3 offset c rest hq hb ih => exact ih.map
  | case5 offset c hq hb a b rest d hd ih => exact ih.map
  | case8 offset c hq hb a b a' b' rest d hd hu ih => exact ih.map
  | case11 offset c hq hb e rest hx hu ih => exact ih.map
  | case1 | case4 | case6 | case7 | case9 | case10 => exact .error nofun

theorem string_fails (t : Text) : FailsOnly t.Excuses (string t) := by
  unfold string
  split
  · split
    · exact (quotedFrom_fails _ _ _ _).map
    · exact .error nofun
  · exact .error nofun

theorem identifier_fails (t : Text) : FailsOnly t.Excuses (identifier t) := by
  unfold identifier
  split
  · exact .ok _
  · exact .error nofun

theorem symbol_fails (symbols : List Text) (kind : TokenKind) (t : Text) :
    FailsOnly t.Excuses (symbol symbols kind t) := by
  unfold symbol
  split
  · exact .ok _
  · exact .error nofun

/-- The search for a reader ends in failure only over a number that is too large. -/
theorem firstOf_fails {t : Text} {readers : List (Text → Except LexStop Lexeme)}
    (h : ∀ read ∈ readers, FailsOnly t.Excuses (read t)) :
    FailsOnly (fun _ => t.WritesFar) (firstOf t readers) := by
  induction readers with
  | nil => exact .ok none
  | cons read more ih =>
      obtain ⟨hread, hmore⟩ := List.forall_mem_cons.mp h
      rw [firstOf]
      split
      · exact .ok _
      · rename_i stop hs
        split
        · rename_i hl
          exact .error (hread stop hs hl)
        · exact ih hmore

theorem next?_fails (t : Text) : FailsOnly (fun _ => t.WritesFar) (next? t) := by
  apply firstOf_fails
  intro read hm
  simp only [List.mem_cons, List.not_mem_nil, or_false] at hm
  rcases hm with rfl | rfl | rfl | rfl | rfl
  · exact number_fails t
  · exact string_fails t
  · exact identifier_fails t
  · exact symbol_fails _ _ t
  · exact symbol_fails _ _ t

end Lexeme

theorem Token.scanFrom_fails (column skip : Nat) (t : Text) :
    FailsOnly t.Excuses (scanFrom column skip t) := by
  induction t generalizing column skip with
  | nil => cases skip <;> exact .ok _
  | cons c rest ih =>
      have step (skip : Nat) : FailsOnly (Text.Excuses (c :: rest)) (scanFrom (column + 1) skip rest) :=
        (ih (column + 1) skip).mono fun stop he hl => (he hl).cons c
      cases skip with
      | succ skip => exact step skip
      | zero =>
          rw [scanFrom]
          split
          · exact step 0
          · split
            · rename_i stop hs
              exact .error fun _ => Lexeme.next?_fails _ stop hs
            · exact .error (by rintro ⟨⟩)
            · exact (step _).map

namespace Expr

/-- An expression and all that it is made of. -/
def parts : Expr → List Expr
  | .literal v => [.literal v]
  | .variable name => [.variable name]
  | .member target key => .member target key :: (target.parts ++ key.parts)
  | .unary op operand => .unary op operand :: operand.parts
  | .binary op lhs rhs => .binary op lhs rhs :: (lhs.parts ++ rhs.parts)
  | .conditional condition whenTrue whenFalse =>
    .conditional condition whenTrue whenFalse ::
      (condition.parts ++ (whenTrue.parts ++ whenFalse.parts))
  | .hole => [.hole]

theorem mem_parts_self (tree : Expr) : tree ∈ tree.parts := by
  cases tree <;> exact List.mem_cons_self

/-- What the evaluation of an expression can fail over without a report: the value of a part that
has no number, or a member of a part that is asked for by a malformed index. -/
inductive Strays (env : Environment) (tree : Expr) : Fault → Prop where
  | tooLarge {part : Expr} {v : Value} (among : part ∈ tree.parts) (value : part.eval env = .ok v)
      (strays : v.Strays) : Strays env tree .numberTooLarge
  | index {target key : Expr} {v k : Value} {name : Text}
      (among : .member target key ∈ tree.parts) (held : target.eval env = .ok v)
      (asked : key.eval env = .ok k) (holder : v.hasItems = true) (text : k.toText = .ok name)
      (malformed : name.MalformedIndex) : Strays env tree (.malformedIndex name)

variable {env : Environment} {part tree : Expr} {fault : Fault}

theorem Strays.internal (h : tree.Strays env fault) : fault.Internal := by
  cases h <;> nofun

theorem Strays.mono (hp : part.parts ⊆ tree.parts) (h : part.Strays env fault) :
    tree.Strays env fault := by
  cases h with
  | tooLarge among value strays => exact .tooLarge (hp among) value strays
  | index among held asked holder text malformed =>
      exact .index (hp among) held asked holder text malformed

theorem explained_of_value {v : Value} (hp : part.parts ⊆ tree.parts) (hv : part.eval env = .ok v)
    (h : fault.TooLarge v.Strays) : Explained (tree.Strays env) fault := by
  obtain ⟨rfl, hs⟩ := h
  exact .strays (.tooLarge (hp part.mem_parts_self) hv hs)

theorem explained_of_part (hp : part.parts ⊆ tree.parts)
    (h : FailsOnly (Explained (part.Strays env)) (part.eval env)) :
    FailsOnly (Explained (tree.Strays env)) (part.eval env) :=
  h.mono fun _ hs => hs.imp (Strays.mono hp)

theorem Parsed.eval_fails {named : Text → Prop} {tree : Expr} (h : Parsed named tree)
    (env : Environment) : FailsOnly (Explained (tree.Strays env)) (tree.eval env) := by
  induction h with
  | literal supported => exact .ok _
  | name found =>
      rw [eval]
      split
      · exact .ok _
      · exact .error (.reported rfl rfl (Or.inr rfl))
  | @member target key holder index iht ihk =>
      have ht : target.parts ⊆ (Expr.member target key).parts := by
        intro part hp
        simp [parts, hp]
      have hk : key.parts ⊆ (Expr.member target key).parts := by
        intro part hp
        simp [parts, hp]
      rw [eval]
      refine (explained_of_part ht iht).bind_of_ok fun v hv => ?_
      refine (explained_of_part hk ihk).bind_of_ok fun k hkey => ?_
      refine (v.member_fails k).mono fun fault hf => ?_
      cases hf with
      | tooLarge far => exact explained_of_value hk hkey ⟨rfl, .holds far⟩
      | index holder text malformed =>
          exact .strays (.index (mem_parts_self _) hv hkey holder text malformed)
      | nothing holder name => exact .reported rfl rfl (Or.inr rfl)
  | @unary op operand known only ih =>
      have hp : operand.parts ⊆ (Expr.unary op operand).parts := List.subset_cons_self _ _
      rw [eval]
      refine (explained_of_part hp ih).bind_of_ok fun v hv => ?_
      exact (Value.unary_fails known v).mono fun fault hf => explained_of_value hp hv hf
  | @binary op lhs rhs known first second ihl ihr =>
      have hl : lhs.parts ⊆ (Expr.binary op lhs rhs).parts := by
        intro part hp
        simp [parts, hp]
      have hr : rhs.parts ⊆ (Expr.binary op lhs rhs).parts := by
        intro part hp
        simp [parts, hp]
      have strict (hop : ∀ l, op ≠ .logical l) :
          FailsOnly (Explained ((Expr.binary op lhs rhs).Strays env)) (do
            let v ← lhs.eval env
            let w ← rhs.eval env
            Value.binary op v w) := by
        refine (explained_of_part hl ihl).bind_of_ok fun v hv => ?_
        refine (explained_of_part hr ihr).bind_of_ok fun w hw => ?_
        refine (Value.binary_fails known hop v w).mono fun fault hf => ?_
        rcases hf with ⟨he, hs | hs⟩
        · exact explained_of_value hl hv ⟨he, hs⟩
        · exact explained_of_value hr hw ⟨he, hs⟩
      cases op with
      | logical op =>
          rw [eval]
          refine (explained_of_part hl ihl).bind_of_ok fun v hv => ?_
          refine (v.truthy_fails.mono fun fault hf => explained_of_value hl hv (hf.imp .holds)).bind ?_
          intro b
          split
          · exact .ok _
          · exact explained_of_part hr ihr
      | _ =>
          rw [eval]
          · exact strict nofun
          · simp
  | @conditional condition whenTrue whenFalse tested first second ihc iht ihf =>
      have hc : condition.parts ⊆ (Expr.conditional condition whenTrue whenFalse).parts := by
        intro part hp
        simp [parts, hp]
      have ht : whenTrue.parts ⊆ (Expr.conditional condition whenTrue whenFalse).parts := by
        intro part hp
        simp [parts, hp]
      have hf : whenFalse.parts ⊆ (Expr.conditional condition whenTrue whenFalse).parts := by
        intro part hp
        simp [parts, hp]
      rw [eval]
      refine (explained_of_part hc ihc).bind_of_ok fun v hv => ?_
      refine (v.truthy_fails.mono fun fault hf => explained_of_value hc hv (hf.imp .holds)).bind ?_
      intro b
      split
      · exact explained_of_part ht iht
      · exact explained_of_part hf ihf

theorem ofText_fails (text : Text) :
    FailsOnly (Explained (TooLarge text.WritesFar)) (ofText text) := by
  unfold ofText
  split
  · rename_i offset hs
    exact .error (.strays ⟨rfl, (Token.scanFrom_fails 0 0 text).map _ hs rfl⟩)
  · exact .error (.reported rfl rfl (Or.inl rfl))
  · split
    · exact .error (.reported rfl rfl (Or.inl rfl))
    · exact .ok _

end Expr

/-- What the evaluation of a text can fail over without a report: a number in it, or what its
expression strays over. -/
inductive Text.Strays (env : Environment) (text : Text) : Fault → Prop where
  | number (far : text.WritesFar) : Strays env text .numberTooLarge
  | value {tree : Expr} {fault : Fault} (read : Expr.ofText text = .ok tree)
      (strays : tree.Strays env fault) : Strays env text fault

theorem Text.Strays.internal {env : Environment} {text : Text} {fault : Fault}
    (h : text.Strays env fault) : fault.Internal := by
  cases h with
  | number far => nofun
  | value read strays => exact strays.internal

namespace Expr

theorem evalText_fails (env : Environment) (text : Text) :
    FailsOnly (Explained (text.Strays env)) (evalText env text) := by
  refine ((ofText_fails text).mono fun fault hs => hs.imp ?_).bind_of_ok fun tree ht => ?_
  · rintro ⟨rfl, hf⟩
    exact .number hf
  · exact ((parsed_of_ofText ht).eval_fails env).mono fun fault hs => hs.imp (.value ht)

theorem evalCondition_fails (env : Environment) (text : Text) :
    FailsOnly (Explained (text.Strays env)) (evalCondition env text) := by
  refine (evalText_fails env text).bind_of_ok fun v hv => v.truthy_fails.mono fun fault hf => ?_
  obtain ⟨tree, ht, hv⟩ := bind_eq_ok.mp hv
  exact (explained_of_value (List.Subset.refl tree.parts) hv (hf.imp .holds)).imp (.value ht)

end Expr

end Prepass
