/- A variable with member names behind it: what substitution puts in for it is the literal of what
it evaluates to as an expression. -/
import Prepass.Proofs.Expression.Reader
import Prepass.Proofs.Expression.Scan
import Prepass.Proofs.Substitution.References
namespace Prepass

namespace Text

/-- Member accesses, as they stand behind a name. -/
def accesses (path : List Text) : Text := path.flatMap fun name => CodePoint.ofChar '.' :: name

theorem accesses_cons (name : Text) (path : List Text) :
    accesses (name :: path) = CodePoint.ofChar '.' :: (name ++ accesses path) :=
  List.flatMap_cons

/-- A name ends where accesses begin. -/
theorem accesses_head? (path : List Text) :
    ∀ c ∈ (accesses path).head?, c.isIdentifierChar = false := by
  cases path with
  | nil => nofun
  | cons name more =>
      intro c hc
      rw [accesses_cons] at hc
      cases hc
      decide

theorem IsIdentifier.ne_nil {t : Text} (h : t.IsIdentifier) : t ≠ [] := by
  rintro rfl
  obtain ⟨c, hc, -⟩ := h.starts
  cases hc

theorem IsIdentifier.run {t : Text} (h : t.IsIdentifier) (path : List Text) :
    Run t (accesses path) :=
  ⟨h.ne_nil, h.all, accesses_head? path⟩

end Text

theorem CodePoint.isIdentifierChar_of_isVariableStart {c : CodePoint}
    (h : c.isVariableStart = true) : c.isIdentifierChar = true := by
  have hall : ∀ n < 0x5B, (ofNat? n).all
      (fun d => !d.isVariableStart || d.isIdentifierChar) = true := by
    decide +kernel
  have hlt : c.toNat < 0x5B := by
    simp only [isVariableStart, Bool.or_eq_true, Bool.and_eq_true, decide_eq_true_eq] at h
    omega
  have hc := hall c.toNat hlt
  rw [ofNat?_toNat] at hc
  simpa [h] using hc

theorem Text.isIdentifier_of_isVariableName {name : Text} (h : name.isVariableName = true) :
    name.IsIdentifier := by
  match name with
  | [] | [_] | [_, _] => cases h
  | a :: b :: c :: rest =>
      refine ⟨⟨a, rfl, Environment.isIdentifierStart_of_isVariableName h⟩, ?_⟩
      simp only [isVariableName, Bool.and_eq_true, beq_iff_eq, List.all_eq_true,
        Bool.or_eq_true] at h
      obtain ⟨⟨⟨rfl, rfl⟩, hc⟩, hrest⟩ := h
      simp only [List.forall_mem_cons]
      refine ⟨by decide, by decide, CodePoint.isIdentifierChar_of_isVariableStart hc, ?_⟩
      intro d hd
      rcases hrest d hd with hd | rfl
      · exact CodePoint.isIdentifierChar_of_isVariableStart hd
      · decide

/-- Names lead from one dictionary to the next and at last to a value. -/
inductive Value.Contains : Value → List Text → Value → Prop
  | here (v : Value) : Contains v [] v
  | entry {id : ObjectId} {entries : List (Key × Value)} {name : Text} {w reached : Value}
      {path : List Text} (found : lookup? name entries = some w) (more : Contains w path reached) :
      Contains (.dict id entries) (name :: path) reached

namespace Expr

/-- The tree of member accesses to a target. -/
def accesses (target : Expr) (path : List Text) : Expr :=
  path.foldl (fun tree name => .member tree (.literal (.str name))) target

theorem eval_accesses {env : Environment} {v reached : Value} {path : List Text}
    (h : v.Contains path reached) {target : Expr} (ht : target.eval env = .ok v) :
    (target.accesses path).eval env = .ok reached := by
  induction h generalizing target with
  | here v => exact ht
  | @entry id entries name w reached path found more ih =>
      have hmember : (Value.dict id entries).member (.str name) = .ok w := by
        show Except.ok ((Value.lookup? name entries).getD .undefined) = _
        rw [found]
        rfl
      have hfirst : (Expr.member target (.literal (.str name))).eval env = .ok w := by
        rw [eval, ht, eval]
        exact hmember
      exact ih hfirst

/-- Accesses are read as tokens, and these as accesses to whatever comes before them. -/
theorem exists_scanned_accesses {path : List Text} (hp : ∀ name ∈ path, name.IsIdentifier)
    (column : Nat) : ∃ tokens, Token.Scanned column (Text.accesses path) tokens ∧
      ∀ least target, readMembers least target tokens = .ok (target.accesses path, []) := by
  induction path generalizing column with
  | nil => exact ⟨[], .nil, fun least target => rfl⟩
  | cons name path ih =>
      obtain ⟨hname, hpath⟩ := List.forall_mem_cons.mp hp
      obtain ⟨tokens, hscanned, hread⟩ := ih hpath (column + 1 + name.length)
      have hidentifier := Lexeme.next?_identifier hname (Text.accesses_head? path)
      have hpoint := Lexeme.next?_point hname (Text.accesses path)
      refine ⟨⟨⟨".", .punctuator⟩, column⟩ :: ⟨⟨name, .identifier⟩, column + 1⟩ :: tokens, ?_, ?_⟩
      · rw [Text.accesses_cons]
        exact .token ⟨".", .punctuator⟩ hpoint (.token ⟨name, .identifier⟩ hidentifier hscanned)
      · intro least target
        rw [readMembers_dot rfl rfl, hread]
        rfl

theorem ofText_accesses {name : Text} {path : List Text} (hn : name.isVariableName = true)
    (hp : ∀ name ∈ path, name.IsIdentifier) :
    ofText (name ++ Text.accesses path) = .ok ((Expr.variable name).accesses path) := by
  have hidentifier := Text.isIdentifier_of_isVariableName hn
  have hnext := Lexeme.next?_identifier hidentifier (Text.accesses_head? path)
  obtain ⟨tokens, hscanned, hread⟩ := exists_scanned_accesses hp (0 + name.length)
  have hscan : Token.scan (name ++ Text.accesses path) = .ok (⟨⟨name, .identifier⟩, 0⟩ :: tokens) :=
    Token.scan_eq_ok_iff.mpr (.token ⟨name, .identifier⟩ hnext hscanned)
  -- Only the first name of a chain could be a keyword; the others are members.
  have hunknown : ∀ v, (name, v) ∉ keywords := by
    intro v hv
    have hkeywords : ∀ entry ∈ keywords, entry.1.isVariableName = false := by decide
    cases hn.symm.trans (hkeywords _ hv)
  have hterminal : Terminal ⟨⟨name, .identifier⟩, 0⟩ (.variable name) := .name rfl hunknown
  have htree : readExpression 0 (⟨⟨name, .identifier⟩, 0⟩ :: tokens) =
      .ok ((Expr.variable name).accesses path, []) := by
    rw [readExpression_terminal hterminal, hread]
  have htokens : ofTokens (⟨⟨name, .identifier⟩, 0⟩ :: tokens) =
      .ok ((Expr.variable name).accesses path) := by
    rw [readExpression] at htree
    rw [ofTokens, htree]
    rfl
  simp only [ofText, hscan, htokens]

theorem evalText_accesses {env : Environment} {name : Text} {path : List Text} {reached : Value}
    (hn : name.isVariableName = true) (hp : ∀ name ∈ path, name.IsIdentifier)
    (h : (env.get name).Contains path reached) :
    evalText env (name ++ Text.accesses path) = .ok reached := by
  have hvariable : (Expr.variable name).eval env = .ok (env.get name) := by
    rw [eval, if_pos hn]
  rw [evalText, ofText_accesses hn hp]
  exact eval_accesses h hvariable

end Expr

namespace Environment

theorem follow_accesses {v reached : Value} {path : List Text} (h : v.Contains path reached)
    (hp : ∀ name ∈ path, name.IsIdentifier) :
    follow v (Text.accesses path) = ((Text.accesses path).length, reached) := by
  induction h with
  | here v =>
      show follow v [] = (0, v)
      cases v <;> rw [follow] <;> intros <;> contradiction
  | @entry id entries name w reached path found more ih =>
      obtain ⟨hname, hpath⟩ := List.forall_mem_cons.mp hp
      have hrun := hname.run path
      have hfollows : ¬ (CodePoint.ofChar '.' ≠ '.' ∨ name.isEmpty = true) := by
        simp [hrun.ne_nil]
      rw [Text.accesses_cons, follow]
      simp only [hrun.takeWhile, hrun.dropWhile, if_neg hfollows, found, ih hpath]
      rw [List.length_cons, List.length_append, Nat.add_comm 1, Nat.add_right_comm]

theorem replacementsFrom_skip (env : Environment) (column : Nat) (previous : Option CodePoint)
    {skip : Nat} {t : Text} (h : t.length ≤ skip) :
    env.replacementsFrom column previous skip t = .ok [] := by
  induction t generalizing column previous skip with
  | nil => rw [replacementsFrom]
  | cons c rest ih =>
      cases skip with
      | zero => cases h
      | succ skip =>
          rw [replacementsFrom]
          exact ih _ _ (Nat.le_of_succ_le_succ h)

/-- A reference that takes up the whole text is its only replacement. -/
theorem replacements_accesses {env : Environment} {name written : Text} {path : List Text}
    {reached : Value} (hn : name.isVariableName = true) (hset : env.has name = true)
    (hp : ∀ name ∈ path, name.IsIdentifier) (h : (env.get name).Contains path reached)
    (hw : reached.literal = .ok written) :
    env.replacements (name ++ Text.accesses path) =
      .ok [⟨0, (name ++ Text.accesses path).length, written⟩] := by
  have hidentifier := Text.isIdentifier_of_isVariableName hn
  have hrun := hidentifier.run path
  obtain ⟨c, hc, hstart⟩ := hidentifier.starts
  obtain ⟨more, rfl⟩ := List.head?_eq_some_iff.mp hc
  have hlast := env.replacementsFrom_skip (0 + 1) (some c) (t := more ++ Text.accesses path)
    (Nat.le_of_eq (List.length_append))
  have htake := hrun.takeWhile
  have hdrop := hrun.dropWhile
  rw [List.cons_append] at htake hdrop ⊢
  rw [replacements, replacementsFrom, htake, hdrop, if_neg (by simp [hstart])]
  dsimp only
  rw [if_neg (by simp [isContinuation, hn, hset]), follow_accesses h hp, List.length_cons,
    Nat.add_right_comm, Nat.add_sub_cancel, hlast, hw, List.length_cons, List.length_append]
  rfl

/-- Where dictionaries lead from a variable along identifiers to a value with a literal, evaluation
finds the value, and substitution replaces the whole text by the literal of what evaluation finds. -/
theorem substitute_accesses {env : Environment} {name written : Text} {path : List Text}
    {reached : Value} (hn : name.isVariableName = true) (hset : env.has name = true)
    (hp : ∀ name ∈ path, name.IsIdentifier) (h : (env.get name).Contains path reached)
    (hw : reached.literal = .ok written) :
    Expr.evalText env (name ++ Text.accesses path) = .ok reached ∧
      env.substitute (name ++ Text.accesses path) =
        .ok (written, [⟨0, (name ++ Text.accesses path).length, written⟩]) := by
  refine ⟨Expr.evalText_accesses hn hp h, ?_⟩
  rw [substitute, replacements_accesses hn hset hp h hw]
  simp [Except.map, Replacement.applyFrom]

/-- Its names could be taken for a keyword, a number and the length of a text. -/
def misleading : Environment :=
  ⟨[("__V0", .dict 0 [(.name "true", .dict 1 [(.name "e5", .dict 2 [(.name "length", .str "a")])])])]⟩

theorem substitute_accesses_misleading :
    let text : Text := "__V0" ++ Text.accesses ["true", "e5", "length"]
    text = "__V0.true.e5.length" ∧ Expr.evalText misleading text = .ok (.str "a") ∧
      misleading.substitute text = .ok ("\"a\"", [⟨0, text.length, "\"a\""⟩]) := by
  have hp : ∀ name ∈ (["true", "e5", "length"] : List Text), name.IsIdentifier := by
    have hall : ∀ name ∈ (["true", "e5", "length"] : List Text),
        name.head?.any CodePoint.isIdentifierStart = true ∧
          ∀ c ∈ name, c.isIdentifierChar = true := by
      decide
    intro name hm
    obtain ⟨hstart, hchars⟩ := hall name hm
    exact ⟨(Option.any_eq_true _ _).mp hstart, hchars⟩
  have h : (misleading.get "__V0").Contains ["true", "e5", "length"] (.str "a") :=
    .entry rfl (.entry rfl (.entry rfl (.here _)))
  have hw : (Value.str "a").literal = .ok "\"a\"" := by decide
  have hn : Text.isVariableName "__V0" = true := by decide
  have hset : misleading.has "__V0" = true := by decide
  exact ⟨by decide, substitute_accesses hn hset hp h hw⟩

end Environment

end Prepass
