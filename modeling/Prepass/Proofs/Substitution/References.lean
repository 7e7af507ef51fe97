/- The replacements in a text are those of its standalone references, each with the member accesses
that lead on from it. -/
import Prepass.Proofs.Substitution.OneLine
import Prepass.Proofs.Substitution.Order
namespace Prepass

namespace Text

/-- An identifier, or the rest of one, that goes on as far as it can. -/
structure Run (name after : Text) : Prop where
  ne_nil : name ≠ []
  all : ∀ c ∈ name, c.isIdentifierChar = true
  ends : ∀ c ∈ after.head?, c.isIdentifierChar = false

theorem Run.takeWhile {name after : Text} (h : Run name after) :
    (name ++ after).takeWhile CodePoint.isIdentifierChar = name :=
  takeWhile_append_stop h.all h.ends

theorem Run.dropWhile {name after : Text} (h : Run name after) :
    (name ++ after).dropWhile CodePoint.isIdentifierChar = after :=
  dropWhile_append_stop h.all h.ends

theorem run_takeWhile {t : Text} (h : t.takeWhile CodePoint.isIdentifierChar ≠ []) :
    Run (t.takeWhile CodePoint.isIdentifierChar) (t.dropWhile CodePoint.isIdentifierChar) :=
  ⟨h, List.all_eq_true.mp List.all_takeWhile, head?_dropWhile _ t⟩

end Text

namespace Environment

/-- A standalone reference: a whole identifier behind `before` that is no member name, and that
names a variable which is set. -/
structure Refers (env : Environment) (before name after : Text) : Prop where
  run : Text.Run name after
  starts : ∀ c ∈ before.getLast?, c.isIdentifierChar = false ∧ c ≠ '.'
  named : name.isVariableName = true
  set : env.has name = true

/-- Accesses by `.name` that lead from a value through dictionaries to another value. -/
inductive Accesses : Value → Text → Text → Value → Prop
  | none (v : Value) (after : Text) : Accesses v [] after v
  | member {id : ObjectId} {entries : List (Key × Value)} {w reached : Value}
      {name more after : Text} : Text.Run name (more ++ after) →
      Value.lookup? name entries = some w → Accesses w more after reached →
      Accesses (.dict id entries) (CodePoint.ofChar '.' :: (name ++ more)) after reached

/-- As much of the text is read as accesses as can be. -/
structure Leads (v : Value) (accesses after : Text) (reached : Value) : Prop where
  leads : Accesses v accesses after reached
  longest : ∀ other rest w, other ++ rest = accesses ++ after → Accesses v other rest w →
    other.length ≤ accesses.length

theorem Accesses.length_le {v reached : Value} {accesses after : Text}
    (h : Accesses v accesses after reached) :
    accesses.length ≤ (follow v (accesses ++ after)).1 := by
  induction h with
  | none v after => exact Nat.zero_le _
  | @member id entries w reached name more after hrun hl hmore ih =>
      have hname : ¬ (CodePoint.ofChar '.' ≠ '.' ∨ name.isEmpty = true) := by
        simp [hrun.ne_nil]
      rw [List.cons_append, List.append_assoc, follow]
      simp only [hrun.takeWhile, hrun.dropWhile, if_neg hname, hl, List.length_cons,
        List.length_append]
      omega

theorem exists_accesses (v : Value) (t : Text) : ∃ accesses after, t = accesses ++ after ∧
    accesses.length = (follow v t).1 ∧ Accesses v accesses after (follow v t).2 := by
  fun_induction follow v t with
  | case1 id entries dot rest name hn => exact ⟨[], dot :: rest, rfl, rfl, .none _ _⟩
  | case2 id entries dot rest name hn hl => exact ⟨[], dot :: rest, rfl, rfl, .none _ _⟩
  | case3 id entries dot rest name hn w hl length reached hf ih =>
      obtain ⟨more, after, hrest, hlength, haccess⟩ := ih
      rw [hf] at hlength haccess
      obtain ⟨hdot, hname⟩ := not_or.mp hn
      obtain rfl := not_not.mp hdot
      have hrun : Text.Run name (more ++ after) := by
        rw [← hrest]
        exact Text.run_takeWhile (mt List.isEmpty_iff.mpr hname)
      refine ⟨_, after, ?_, ?_, .member hrun hl haccess⟩
      · rw [List.cons_append, List.append_assoc, ← hrest, List.takeWhile_append_dropWhile]
      · rw [List.length_cons, List.length_append, hlength]
        omega
  | case4 => exact ⟨[], _, rfl, rfl, .none _ _⟩

theorem follow_leads (v : Value) (t : Text) : ∃ accesses after, t = accesses ++ after ∧
    accesses.length = (follow v t).1 ∧ Leads v accesses after (follow v t).2 := by
  obtain ⟨accesses, after, ht, hlength, haccess⟩ := exists_accesses v t
  refine ⟨accesses, after, ht, hlength, haccess, ?_⟩
  intro other rest w he hother
  have hle := hother.length_le
  rwa [he, ← ht, ← hlength] at hle

/-- Characters that identifiers and member accesses are made of. -/
def Linked (t : Text) : Prop := ∀ c ∈ t, c.isIdentifierChar = true ∨ c = '.'

theorem Accesses.linked {v reached : Value} {accesses after : Text}
    (h : Accesses v accesses after reached) : Linked accesses := by
  induction h with
  | none v after => exact List.forall_mem_nil _
  | member hrun hl hmore ih =>
      refine List.forall_mem_cons.mpr ⟨Or.inr rfl, List.forall_mem_append.mpr ⟨?_, ih⟩⟩
      exact fun c hc => Or.inl (hrun.all c hc)

theorem Refers.linked {env : Environment} {before name accesses after : Text} {v : Value}
    (h : env.Refers before name (accesses ++ after)) (hl : Leads (env.get name) accesses after v) :
    Linked (name ++ accesses) :=
  List.forall_mem_append.mpr ⟨fun c hc => Or.inl (h.run.all c hc), hl.leads.linked⟩

theorem oneLine_of_linked {t : Text} (h : Linked t) : t.OneLine := by
  have hbreak (c : CodePoint) (hc : c.isBreak = true) : c.isIdentifierChar = false ∧ c ≠ '.' := by
    simp only [CodePoint.isBreak, Bool.or_eq_true, beq_iff_eq] at hc
    rcases hc with rfl | rfl <;> decide
  intro c hc
  by_contra hb
  obtain ⟨hi, hd⟩ := hbreak c (by simpa using hb)
  rcases h c hc with hl | hl
  · rw [hi] at hl
    cases hl
  · exact hd hl

/-- Behind such a character no reference begins. -/
theorem Refers.not_linked {env : Environment} {before part name after : Text} (hp : part ≠ [])
    (hl : Linked part) : ¬ env.Refers (before ++ part) name after := by
  intro h
  have hlast := List.getLast?_eq_some_getLast hp
  obtain ⟨hi, hd⟩ := h.starts (part.getLast hp) (by rw [List.getLast?_append, hlast]; rfl)
  rcases hl _ (List.getLast_mem hp) with hc | hc
  · rw [hc] at hi
    cases hi
  · exact hd hc

/-- How the text behind `before` is rewritten: no reference is passed over, and each replacement is
made of one. -/
inductive Rewritten (env : Environment) : Text → Text → List Replacement → Text → Prop
  | nil (before : Text) : Rewritten env before [] [] []
  | pass {before rest out : Text} {c : CodePoint} {rs : List Replacement} :
      (∀ name after, c :: rest = name ++ after → ¬ env.Refers before name after) →
      Rewritten env (before ++ [c]) rest rs out →
      Rewritten env before (c :: rest) rs (c :: out)
  | replace {before name accesses after text out : Text} {v : Value} {rs : List Replacement} :
      env.Refers before name (accesses ++ after) → Leads (env.get name) accesses after v →
      v.literal = .ok text → Rewritten env (before ++ (name ++ accesses)) after rs out →
      Rewritten env before (name ++ accesses ++ after)
        (⟨before.length, (name ++ accesses).length, text⟩ :: rs) (text ++ out)

/-- From a place where no reference begins, an identifier is passed over as a whole. -/
theorem Rewritten.pass_linked {env : Environment} {before part rest out : Text}
    {rs : List Replacement} (hl : Linked part)
    (hn : ∀ name after, part ++ rest = name ++ after → ¬ env.Refers before name after)
    (h : Rewritten env (before ++ part) rest rs out) :
    Rewritten env before (part ++ rest) rs (part ++ out) := by
  induction part generalizing before with
  | nil => rwa [List.append_nil] at h
  | cons c more ih =>
      obtain ⟨hc, hmore⟩ := List.forall_mem_cons.mp hl
      refine .pass hn (ih hmore ?_ ?_)
      · intro name after _
        exact Refers.not_linked (List.cons_ne_nil c []) (List.forall_mem_singleton.mpr hc)
      · rwa [List.append_assoc]

theorem isContinuation_eq_false_iff {previous : Option CodePoint} :
    isContinuation previous = false ↔
      ∀ c ∈ previous, c.isIdentifierChar = false ∧ c ≠ '.' := by
  cases previous with
  | none => simp [isContinuation]
  | some d => simp [isContinuation, and_comm]

/-- A reference is read as the identifier that the text begins with. -/
theorem Refers.eq_takeWhile {env : Environment} {before name after t : Text}
    (h : env.Refers before name after) (ht : t = name ++ after) :
    name = t.takeWhile CodePoint.isIdentifierChar := by
  rw [ht, h.run.takeWhile]

theorem isIdentifierStart_of_isVariableName {c : CodePoint} {t : Text}
    (h : Text.isVariableName (c :: t) = true) : c.isIdentifierStart = true := by
  match t with
  | [] | [_] => cases h
  | _ :: _ :: _ =>
      simp only [Text.isVariableName, Bool.and_eq_true, beq_iff_eq] at h
      obtain ⟨⟨⟨rfl, -⟩, -⟩, -⟩ := h
      decide

/-- A reference begins as an identifier does. -/
theorem Refers.isIdentifierStart {env : Environment} {before name after rest : Text}
    {c : CodePoint} (h : env.Refers before name after) (ht : c :: rest = name ++ after) :
    c.isIdentifierStart = true := by
  obtain ⟨d, more, rfl⟩ := List.exists_cons_of_ne_nil h.run.ne_nil
  obtain ⟨rfl, -⟩ := List.cons.inj ht
  exact isIdentifierStart_of_isVariableName h.named

/-- What the scan finds behind the characters that are dealt with. -/
theorem rewritten_replacementsFrom {env : Environment} {before : Text} {skip : Nat} {t : Text}
    {rs : List Replacement} (hs : skip ≤ t.length)
    (h : env.replacementsFrom before.length before.getLast? skip t = .ok rs) :
    ∃ out, Rewritten env (before ++ t.take skip) (t.drop skip) rs out := by
  induction t generalizing before skip rs with
  | nil =>
      rw [List.take_nil, List.drop_nil]
      cases skip <;> cases h <;> exact ⟨[], .nil _⟩
  | cons c rest ih =>
      have step {part after : Text} {rs : List Replacement} (hrest : rest = part ++ after)
          (h : env.replacementsFrom (before.length + 1) (some c) part.length rest = .ok rs) :
          ∃ out, Rewritten env (before ++ c :: part) after rs out := by
        have hnext := @ih (before ++ [c]) part.length rs (by simp [hrest])
          (by rwa [List.length_append, List.getLast?_concat])
        rwa [hrest, List.take_left, List.drop_left, List.append_assoc] at hnext
      cases skip with
      | succ skip =>
          have hlength : (rest.take skip).length = skip :=
            List.length_take_of_le (Nat.le_of_succ_le_succ hs)
          exact step (List.take_append_drop skip rest).symm (by rwa [hlength])
      | zero =>
          rw [List.take_zero, List.append_nil, List.drop_zero]
          rw [replacementsFrom] at h
          split at h
          · rename_i hstart
            obtain ⟨out, hout⟩ := step (List.nil_append rest).symm h
            refine ⟨c :: out, .pass ?_ hout⟩
            intro name after ht hr
            simp [hr.isIdentifierStart ht] at hstart
          · rename_i hstart
            have hstart : c.isIdentifierStart = true := by simpa using hstart
            have hc := CodePoint.isIdentifierChar_of_start hstart
            have hrun := Text.run_takeWhile (t := c :: rest)
              (List.ne_nil_of_length_pos (takeWhile_length_pos rest hstart))
            have hrest := (List.takeWhile_append_dropWhile (p := CodePoint.isIdentifierChar)
              (l := rest)).symm
            rw [List.takeWhile_cons_of_pos hc, List.dropWhile_cons_of_pos hc] at h hrun
            generalize rest.takeWhile CodePoint.isIdentifierChar = more at h hrun hrest
            generalize rest.dropWhile CodePoint.isIdentifierChar = after at h hrun hrest
            have hname {name tail : Text} (ht : c :: rest = name ++ tail)
                (hr : env.Refers before name tail) : name = c :: more := by
              rw [hr.eq_takeWhile ht, hrest, ← List.cons_append, hrun.takeWhile]
            dsimp only at h
            split at h
            · rename_i hno
              obtain ⟨out, hout⟩ := step hrest h
              refine ⟨c :: more ++ out, ?_⟩
              rw [hrest]
              refine Rewritten.pass_linked (fun d hd => Or.inl (hrun.all d hd)) ?_ hout
              intro name tail ht hr
              have heq := hname (by rwa [hrest]) hr
              have hleft := isContinuation_eq_false_iff.mpr hr.starts
              have hset := hr.set
              have hvariable := hr.named
              rw [heq] at hset hvariable
              simp [hleft, hset, hvariable] at hno
            · rename_i hyes
              obtain ⟨text, hl, h⟩ := bind_eq_ok.mp h
              obtain ⟨found, hm, h⟩ := bind_eq_ok.mp h
              cases h
              obtain ⟨accesses, tail, rfl, hlength, hleads⟩ :=
                follow_leads (env.get (c :: more)) after
              rw [← hlength, List.length_cons, Nat.add_right_comm, Nat.add_sub_cancel,
                ← List.length_append] at hm
              obtain ⟨out, hout⟩ := step (hrest.trans (List.append_assoc _ _ _).symm) hm
              simp only [Bool.or_eq_true, not_or, Bool.not_eq_true, Bool.not_eq_false'] at hyes
              obtain ⟨⟨hleft, hvariable⟩, hset⟩ := hyes
              have hr : env.Refers before (c :: more) (accesses ++ tail) :=
                ⟨hrun, isContinuation_eq_false_iff.mp hleft, hvariable, hset⟩
              refine ⟨text ++ out, ?_⟩
              rw [hrest, ← List.append_assoc, ← hlength, ← List.length_append]
              exact .replace hr hleads hl hout

theorem Rewritten.le_column {env : Environment} {before t out : Text} {rs : List Replacement}
    (h : Rewritten env before t rs out) : ∀ r ∈ rs, before.length ≤ r.column := by
  induction h with
  | nil before => exact List.forall_mem_nil _
  | pass hn hrest ih =>
      intro r hr
      have hle := ih r hr
      rw [List.length_append] at hle
      omega
  | replace hr hleads hl hrest ih =>
      refine List.forall_mem_cons.mpr ⟨Nat.le_refl _, ?_⟩
      intro r hr
      have hle := ih r hr
      rw [List.length_append] at hle
      omega

theorem applyFrom_cons {column : Nat} {c : CodePoint} {t : Text} {rs : List Replacement}
    (h : ∀ r ∈ rs, column + 1 ≤ r.column) :
    Replacement.applyFrom column (c :: t) rs = c :: Replacement.applyFrom (column + 1) t rs := by
  cases rs with
  | nil => rfl
  | cons r rest =>
      have hr := h r List.mem_cons_self
      obtain ⟨n, hn⟩ := Nat.exists_eq_add_of_le hr
      have hcolumn : r.column - column = n + 1 := by omega
      have hnext : r.column - (column + 1) = n := by omega
      have hend : r.column + r.length - column = (n + r.length) + 1 := by omega
      have hafter : r.column + r.length - (column + 1) = n + r.length := by omega
      simp only [Replacement.applyFrom, hcolumn, hnext, hend, hafter, List.take_succ_cons,
        List.drop_succ_cons, List.cons_append]

theorem Rewritten.applyFrom {env : Environment} {before t out : Text} {rs : List Replacement}
    (h : Rewritten env before t rs out) :
    Replacement.applyFrom before.length t rs = out := by
  induction h with
  | nil before => rfl
  | pass hn hrest ih =>
      have hle := hrest.le_column
      rw [List.length_append] at hle ih
      rw [applyFrom_cons hle]
      exact congrArg _ ih
  | replace hr hleads hl hrest ih =>
      rw [List.length_append] at ih
      rw [Replacement.applyFrom, Nat.sub_self, List.take_zero, Nat.add_sub_cancel_left,
        List.drop_left, ih, List.nil_append]

end Environment

namespace Replacement

/-- A text that begins at a column, and the same text with each range put in for what it gives way
to. -/
inductive Made : Nat → Text → List Replacement → Text → Prop
  | rest (column : Nat) (t : Text) : Made column t [] t
  | range {column : Nat} {gap old t out : Text} {r : Replacement} {rs : List Replacement} :
      r.column = column + gap.length → r.length = old.length →
      Made (r.column + r.length) t rs out →
      Made column (gap ++ (old ++ t)) (r :: rs) (gap ++ (r.text ++ out))

theorem Made.cons {column : Nat} {t out : Text} {rs : List Replacement}
    (h : Made (column + 1) t rs out) (c : CodePoint) : Made column (c :: t) rs (c :: out) := by
  cases h with
  | rest => exact .rest column (c :: t)
  | @range _ gap old t out r rs hcolumn hlength hrest =>
      have hgap : r.column = column + (c :: gap).length := by
        rw [hcolumn, List.length_cons]
        omega
      exact .range hgap hlength hrest

theorem Ordered.pairwise {low high : Nat} {rs : List Replacement} (h : Ordered low high rs) :
    rs.Pairwise fun r s => r.column < s.column ∧ r.column + r.length ≤ s.column := by
  have above {low high : Nat} {rs : List Replacement} (h : Ordered low high rs) :
      ∀ r ∈ rs, low ≤ r.column := by
    induction h with
    | nil hle => exact List.forall_mem_nil _
    | cons hc hp ht hr ih =>
        refine List.forall_mem_cons.mpr ⟨hc, ?_⟩
        intro r hmem
        have hle := ih r hmem
        omega
  induction h with
  | nil hle => exact .nil
  | cons hc hp ht hr ih =>
      refine .cons ?_ ih
      intro s hs
      have hle := above hr s hs
      omega

end Replacement

namespace Environment

/-- A standalone reference begins at a position. -/
def RefersAt (env : Environment) (t : Text) (p : Nat) : Prop :=
  ∃ before name after, t = before ++ (name ++ after) ∧ before.length = p ∧
    env.Refers before name after

/-- A replacement covers a reference and the accesses that lead on from it. It puts in the literal
of the value that they lead to. -/
def Replaces (env : Environment) (t : Text) (r : Replacement) : Prop :=
  ∃ before name accesses after v, t = before ++ (name ++ accesses ++ after) ∧
    before.length = r.column ∧ env.Refers before name (accesses ++ after) ∧
    Leads (env.get name) accesses after v ∧ (name ++ accesses).length = r.length ∧
    v.literal = .ok r.text

namespace Rewritten

variable {env : Environment} {before t out : Text} {rs : List Replacement}

theorem made (h : Rewritten env before t rs out) : Replacement.Made before.length t rs out := by
  induction h with
  | nil before => exact .rest before.length []
  | pass hn hrest ih =>
      rw [List.length_append] at ih
      exact ih.cons _
  | @replace before name accesses after text out v rs hr hleads hl hrest ih =>
      rw [List.length_append] at ih
      have hmade : Replacement.Made before.length ([] ++ (name ++ accesses ++ after))
          (⟨before.length, (name ++ accesses).length, text⟩ :: rs) ([] ++ (text ++ out)) :=
        .range rfl rfl ih
      exact hmade

theorem replaces (h : Rewritten env before t rs out) :
    ∀ r ∈ rs, env.Replaces (before ++ t) r := by
  induction h with
  | nil before => exact List.forall_mem_nil _
  | @pass before rest out c rs hn hrest ih =>
      rwa [List.append_assoc] at ih
  | @replace before name accesses after text out v rs hr hleads hl hrest ih =>
      rw [List.append_assoc] at ih
      exact List.forall_mem_cons.mpr
        ⟨⟨before, name, accesses, after, v, rfl, rfl, hr, hleads, rfl, hl⟩, ih⟩

/-- No reference is left out. -/
theorem complete (h : Rewritten env before t rs out) {part name after : Text}
    (ht : t = part ++ (name ++ after)) (hr : env.Refers (before ++ part) name after) :
    ∃ r ∈ rs, r.column = before.length + part.length := by
  induction h generalizing part with
  | nil before =>
      have hname := (List.append_eq_nil_iff.mp (List.append_eq_nil_iff.mp ht.symm).2).1
      exact absurd hname hr.run.ne_nil
  | @pass before rest out c rs hn hrest ih =>
      cases part with
      | nil =>
          rw [List.append_nil] at hr
          exact absurd hr (hn name after ht)
      | cons d part =>
          obtain ⟨rfl, hrest⟩ := List.cons.inj ht
          obtain ⟨r, hmem, hcolumn⟩ := ih hrest (by rwa [List.append_assoc])
          refine ⟨r, hmem, hcolumn.trans ?_⟩
          rw [List.length_append, List.length_singleton, List.length_cons]
          omega
  | @replace before found accesses rest text out v rs hfound hleads hl hrest ih =>
      by_cases hp : part = []
      · subst hp
        exact ⟨_, List.mem_cons_self, rfl⟩
      have hlinked := hfound.linked hleads
      rcases List.append_eq_append_iff.mp ht with ⟨mid, rfl, hm⟩ | ⟨mid, hmid, -⟩
      · obtain ⟨r, hmem, hcolumn⟩ := ih hm (by rwa [List.append_assoc])
        refine ⟨r, List.mem_cons_of_mem _ hmem, hcolumn.trans ?_⟩
        simp only [List.length_append, Nat.add_assoc]
      · -- Within a replaced range, what stands before a place is part of a name or a point.
        have hpart : Linked part := fun c hc => hlinked c (hmid ▸ List.mem_append_left mid hc)
        exact absurd hr (Refers.not_linked hp hpart)

theorem breaks (h : Rewritten env before t rs out) :
    out.filter CodePoint.isBreak = t.filter CodePoint.isBreak := by
  have none {u : Text} (hu : u.OneLine) : u.filter CodePoint.isBreak = [] :=
    List.filter_eq_nil_iff.mpr fun c hc => by simp [hu c hc]
  induction h with
  | nil before => rfl
  | pass hn hrest ih => rw [List.filter_cons, List.filter_cons, ih]
  | @replace before found accesses rest text out v rs hr hleads hl hrest ih =>
      rw [List.filter_append, List.filter_append, none (v.oneLine_literal hl),
        none (oneLine_of_linked (hr.linked hleads)), ih]

end Rewritten

theorem rewritten_substitute {env : Environment} {t out : Text} {rs : List Replacement}
    (h : env.substitute t = .ok (out, rs)) : Rewritten env [] t rs out := by
  obtain ⟨found, hf, he⟩ := map_eq_ok.mp h
  cases he
  obtain ⟨out, hout⟩ := @rewritten_replacementsFrom env [] 0 t rs (Nat.zero_le _) hf
  rw [List.take_zero, List.append_nil, List.drop_zero] at hout
  exact hout.applyFrom ▸ hout

/-- Substitution replaces the standalone references of a text and nothing else. The replacements
stand in order and apart from each other, and the outcome is the text with their ranges replaced. A
replacement begins where a standalone reference does. It covers the longest run of accesses into
dictionaries behind the name and puts in the literal of the value reached. Line breaks stay as they
are. -/
theorem substitute_references {env : Environment} {t out : Text} {rs : List Replacement}
    (h : env.substitute t = .ok (out, rs)) :
    (rs.Pairwise fun r s => r.column < s.column ∧ r.column + r.length ≤ s.column) ∧
    Replacement.Made 0 t rs out ∧ (∀ p, (∃ r ∈ rs, r.column = p) ↔ env.RefersAt t p) ∧
    (∀ r ∈ rs, env.Replaces t r) ∧
    out.filter CodePoint.isBreak = t.filter CodePoint.isBreak := by
  have hout := rewritten_substitute h
  have hreplaces := hout.replaces
  obtain ⟨found, hf, he⟩ := map_eq_ok.mp h
  cases he
  refine ⟨(ordered_replacements hf).pairwise, hout.made, ?_, hreplaces, hout.breaks⟩
  intro p
  constructor
  · rintro ⟨r, hr, rfl⟩
    obtain ⟨before, name, accesses, after, v, ht, hcolumn, hrefers, -⟩ := hreplaces r hr
    exact ⟨before, name, accesses ++ after, ht.trans (by rw [List.append_assoc name]), hcolumn,
      hrefers⟩
  · rintro ⟨before, name, after, ht, rfl, hrefers⟩
    obtain ⟨r, hmem, hcolumn⟩ := hout.complete ht hrefers
    exact ⟨r, hmem, hcolumn.trans (Nat.zero_add _)⟩

/-- A dictionary in a dictionary, and a text that names it as a member, as the end of a longer
identifier, and with more accesses than lead anywhere. -/
def nested : Environment :=
  ⟨[("__A", .dict 0 [(.name "b", .dict 1 [(.name "c", .str "\n")])]), ("__B", .bool true)]⟩

def nestedText : Text := "x.__A 1__A __A.b.c.d\n__B.__B"

theorem substitute_references_nested :
    let rs : List Replacement := [⟨11, 7, "\"\\n\""⟩, ⟨21, 3, "true"⟩]
    let out : Text := "x.__A 1__A \"\\n\".d\ntrue.__B"
    nested.substitute nestedText = .ok (out, rs) ∧ Replacement.Made 0 nestedText rs out ∧
      nested.RefersAt nestedText 11 ∧ nested.RefersAt nestedText 21 ∧
      ¬ nested.RefersAt nestedText 2 ∧ ¬ nested.RefersAt nestedText 7 ∧
      nested.Replaces nestedText ⟨11, 7, "\"\\n\""⟩ := by
  intro rs out
  have h : nested.substitute nestedText = .ok (out, rs) := by decide +kernel
  obtain ⟨-, hmade, hrefers, hreplaces, -⟩ := substitute_references h
  refine ⟨h, hmade, ?_, ?_, ?_, ?_, hreplaces _ List.mem_cons_self⟩
  · exact (hrefers 11).mp (by decide +kernel)
  · exact (hrefers 21).mp (by decide +kernel)
  · exact fun hr => absurd ((hrefers 2).mpr hr) (by decide +kernel)
  · exact fun hr => absurd ((hrefers 7).mpr hr) (by decide +kernel)

end Environment

end Prepass
