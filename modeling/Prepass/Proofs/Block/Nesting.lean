/- The nesting of blocks, seen from keywords and lines only: a grammar, and the reading of it. -/
import Mathlib.Data.List.Basic
import Prepass.Block
import Prepass.Proofs.Outcome
namespace Prepass

namespace Keyword

def isOpening : Keyword → Bool
  | .ifHolds | .ifSet | .ifNotSet => true
  | _ => false

/-- Whether a directive is about blocks. -/
def isConditional : Keyword → Bool
  | .set | .unset | .error => false
  | _ => true

/-- Sequences of whole blocks. A block has a first branch, any number of further ones and at most
one last branch for all other cases. -/
inductive Balanced : List Keyword → Prop
  | nil : Balanced []
  | block {before body : List Keyword} {opening : Keyword} {elseIfs : List (List Keyword)}
      {last : Option (List Keyword)} : Balanced before → opening.isOpening = true → Balanced body →
      (∀ branch ∈ elseIfs, Balanced branch) → (∀ branch ∈ last, Balanced branch) →
      Balanced (before ++ opening :: (body ++ (elseIfs.flatMap (.elseIf :: ·) ++
        (last.toList.flatMap (.otherwise :: ·) ++ [.endIf]))))

/-- The branches of a block up to its last one. -/
def Branches (s : List Keyword) : Prop :=
  ∃ (body : List Keyword) (elseIfs : List (List Keyword)), Balanced body ∧
    (∀ branch ∈ elseIfs, Balanced branch) ∧ s = body ++ elseIfs.flatMap (.elseIf :: ·)

theorem Balanced.append {s t : List Keyword} (hs : Balanced s) (ht : Balanced t) :
    Balanced (s ++ t) := by
  induction ht with
  | nil => rwa [List.append_nil]
  | block hbefore ho hbody helse hlast ih =>
      rw [← List.append_assoc]
      exact .block ih ho hbody helse hlast

namespace Branches

variable {s t : List Keyword}

theorem of_balanced (h : Balanced s) : Branches s :=
  ⟨s, [], h, List.forall_mem_nil _, (List.append_nil s).symm⟩

theorem elseIf (h : Branches s) : Branches (s ++ [.elseIf]) := by
  obtain ⟨body, elseIfs, hb, he, rfl⟩ := h
  refine ⟨body, elseIfs ++ [[]], hb, ?_, ?_⟩
  · exact List.forall_mem_append.mpr ⟨he, List.forall_mem_singleton.mpr .nil⟩
  · rw [List.flatMap_append, List.append_assoc]
    rfl

/-- What is balanced adds to the branch that it follows. -/
theorem append (hs : Branches s) (ht : Balanced t) : Branches (s ++ t) := by
  obtain ⟨body, elseIfs, hb, he, rfl⟩ := hs
  rcases List.eq_nil_or_concat' elseIfs with rfl | ⟨init, branch, rfl⟩
  · rw [List.flatMap_nil, List.append_nil]
    exact of_balanced (hb.append ht)
  · obtain ⟨hinit, hbranch⟩ := List.forall_mem_append.mp he
    refine ⟨body, init ++ [branch ++ t], hb, ?_, ?_⟩
    · have hmore := (List.forall_mem_singleton.mp hbranch).append ht
      exact List.forall_mem_append.mpr ⟨hinit, List.forall_mem_singleton.mpr hmore⟩
    · simp only [List.flatMap_append, List.flatMap_cons, List.flatMap_nil, List.append_nil,
        List.append_assoc, List.cons_append]

/-- Branches are closed to a block, with or without a last one. -/
theorem block {opening : Keyword} (last : Option (List Keyword)) (hs : Branches s)
    (ho : opening.isOpening = true) (hl : ∀ branch ∈ last, Balanced branch) :
    Balanced (opening :: (s ++ (last.toList.flatMap (.otherwise :: ·) ++ [.endIf]))) := by
  obtain ⟨body, elseIfs, hb, he, rfl⟩ := hs
  rw [List.append_assoc]
  exact .block .nil ho hb he hl

end Branches

end Keyword

/-- What is seen of a directive without looking at its condition. -/
structure BlockMark where
  keyword : Keyword
  line : Nat
deriving DecidableEq

def Directive.blockMark (d : Directive) : BlockMark := ⟨d.action.keyword, d.line⟩

namespace BlockMark

def keywords (marks : List BlockMark) : List Keyword := marks.map keyword

/-- The marks of those directives that are about blocks. -/
def conditional (directives : List Directive) : List BlockMark :=
  (directives.map Directive.blockMark).filter (·.keyword.isConditional)

end BlockMark

/-- A block that has not been closed, by what matters to its nesting. -/
structure OpenBlock where
  line : Nat
  seenElse : Bool
deriving DecidableEq

/-- A sequence that breaks off, and the blocks that it leaves open, innermost first. -/
inductive Unfinished : List BlockMark → List OpenBlock → Prop
  | balanced {marks : List BlockMark} : Keyword.Balanced (BlockMark.keywords marks) →
      Unfinished marks []
  | branch {outer body : List BlockMark} {m : BlockMark} {opened : List OpenBlock} :
      Unfinished outer opened → m.keyword.isOpening = true →
      Keyword.Branches (BlockMark.keywords body) →
      Unfinished (outer ++ m :: body) (⟨m.line, false⟩ :: opened)
  | lastBranch {outer body last : List BlockMark} {m other : BlockMark} {opened : List OpenBlock} :
      Unfinished outer opened → m.keyword.isOpening = true →
      Keyword.Branches (BlockMark.keywords body) → other.keyword = .otherwise →
      Keyword.Balanced (BlockMark.keywords last) →
      Unfinished (outer ++ m :: (body ++ other :: last)) (⟨m.line, true⟩ :: opened)

/-- What is wrong with a sequence: its first directive that cannot stand where it does, or else the
blocks that it leaves open. -/
inductive Rejected (file : Text) : List BlockMark → Diagnostic → Prop
  | noOpenBlock {done rest : List BlockMark} {m : BlockMark} : Unfinished done [] →
      m.keyword = .elseIf ∨ m.keyword = .otherwise ∨ m.keyword = .endIf →
      Rejected file (done ++ m :: rest) (.noOpenBlock m.keyword file m.line)
  | afterElse {done rest : List BlockMark} {m : BlockMark} {opened : List OpenBlock} {line : Nat} :
      Unfinished done (⟨line, true⟩ :: opened) → m.keyword = .elseIf ∨ m.keyword = .otherwise →
      Rejected file (done ++ m :: rest) (.afterElse m.keyword line file m.line)
  | unclosed {marks : List BlockMark} {innermost : OpenBlock} {opened : List OpenBlock} :
      Unfinished marks (innermost :: opened) →
      Rejected file marks (.unclosedBlocks ((innermost :: opened).reverse.map OpenBlock.line)
        innermost.line file)

namespace Unfinished

variable {marks more : List BlockMark} {opened : List OpenBlock}

theorem nil : Unfinished [] [] := balanced .nil

/-- Whole blocks do not change what is open. -/
theorem append (h : Unfinished marks opened) (hm : Keyword.Balanced (BlockMark.keywords more)) :
    Unfinished (marks ++ more) opened := by
  cases h with
  | balanced hb =>
      apply balanced
      rw [BlockMark.keywords, List.map_append]
      exact hb.append hm
  | branch ho hopen hb =>
      rw [List.append_assoc, List.cons_append]
      apply branch ho hopen
      rw [BlockMark.keywords, List.map_append]
      exact hb.append hm
  | lastBranch ho hopen hb hother hl =>
      rw [List.append_assoc, List.cons_append, List.append_assoc, List.cons_append]
      apply lastBranch ho hopen hb hother
      rw [BlockMark.keywords, List.map_append]
      exact hl.append hm

theorem opening {m : BlockMark} (h : Unfinished marks opened) (hm : m.keyword.isOpening = true) :
    Unfinished (marks ++ [m]) (⟨m.line, false⟩ :: opened) :=
  branch h hm (.of_balanced .nil)

theorem elseIf {m : BlockMark} {line : Nat} (h : Unfinished marks (⟨line, false⟩ :: opened))
    (hm : m.keyword = .elseIf) : Unfinished (marks ++ [m]) (⟨line, false⟩ :: opened) := by
  cases h with
  | branch ho hopen hb =>
      rw [List.append_assoc, List.cons_append]
      apply branch ho hopen
      rw [BlockMark.keywords, List.map_append, List.map_singleton, hm]
      exact hb.elseIf

theorem otherwise {m : BlockMark} {line : Nat} (h : Unfinished marks (⟨line, false⟩ :: opened))
    (hm : m.keyword = .otherwise) : Unfinished (marks ++ [m]) (⟨line, true⟩ :: opened) := by
  cases h with
  | branch ho hopen hb =>
      rw [List.append_assoc, List.cons_append]
      exact lastBranch ho hopen hb hm .nil

theorem closing {m : BlockMark} {b : OpenBlock} (h : Unfinished marks (b :: opened))
    (hm : m.keyword = .endIf) : Unfinished (marks ++ [m]) opened := by
  cases h with
  | @branch outer body first _ ho hopen hb =>
      rw [List.append_assoc, List.cons_append]
      apply ho.append
      rw [BlockMark.keywords, List.map_cons, List.map_append, List.map_singleton, hm]
      exact hb.block none hopen nofun
  | @lastBranch outer body last first other _ ho hopen hb hother hl =>
      rw [List.append_assoc, List.cons_append, List.append_assoc, List.cons_append]
      apply ho.append
      have hblock := hb.block (some (BlockMark.keywords last)) hopen (by rintro branch ⟨⟩; exact hl)
      simpa [BlockMark.keywords, hm, hother] using hblock

end Unfinished

namespace OpenBlock

/-- The open blocks after a directive. -/
def advance (file : Text) (opened : List OpenBlock) (m : BlockMark) :
    Except Fault (List OpenBlock) :=
  match m.keyword, opened with
  | .ifHolds, _ | .ifSet, _ | .ifNotSet, _ => .ok (⟨m.line, false⟩ :: opened)
  | .elseIf, [] | .otherwise, [] | .endIf, [] =>
    .error (.reported (.noOpenBlock m.keyword file m.line))
  | .elseIf, b :: rest =>
    if b.seenElse then .error (.reported (.afterElse .elseIf b.line file m.line))
    else .ok (b :: rest)
  | .otherwise, b :: rest =>
    if b.seenElse then .error (.reported (.afterElse .otherwise b.line file m.line))
    else .ok (⟨b.line, true⟩ :: rest)
  | .endIf, _ :: rest => .ok rest
  | .set, _ | .unset, _ | .error, _ => .ok opened

variable {file : Text} {opened : List OpenBlock}

theorem advance_opening {m : BlockMark} (hm : m.keyword.isOpening = true) :
    advance file opened m = .ok (⟨m.line, false⟩ :: opened) := by
  obtain ⟨keyword, line⟩ := m
  cases keyword with
  | ifHolds | ifSet | ifNotSet => rfl
  | _ => cases hm

theorem advance_elseIf {m : BlockMark} (hm : m.keyword = .elseIf) (line : Nat) :
    advance file (⟨line, false⟩ :: opened) m = .ok (⟨line, false⟩ :: opened) := by
  simp [advance, hm]

theorem advance_otherwise {m : BlockMark} (hm : m.keyword = .otherwise) (line : Nat) :
    advance file (⟨line, false⟩ :: opened) m = .ok (⟨line, true⟩ :: opened) := by
  simp [advance, hm]

theorem advance_closing {m : BlockMark} (hm : m.keyword = .endIf) (b : OpenBlock) :
    advance file (b :: opened) m = .ok opened := by
  simp [advance, hm]

/-- Keywords that leave the blocks as they find them. -/
def Returns (file : Text) (s : List Keyword) : Prop :=
  ∀ marks, BlockMark.keywords marks = s → ∀ opened, marks.foldlM (advance file) opened = .ok opened

theorem returns_elseIfs {elseIfs : List (List Keyword)}
    (h : ∀ branch ∈ elseIfs, Returns file branch) {marks : List BlockMark}
    (hm : BlockMark.keywords marks = elseIfs.flatMap (.elseIf :: ·)) (line : Nat) :
    marks.foldlM (advance file) (⟨line, false⟩ :: opened) = .ok (⟨line, false⟩ :: opened) := by
  induction elseIfs generalizing marks with
  | nil =>
      rw [List.map_eq_nil_iff.mp hm]
      rfl
  | cons branch rest ih =>
      obtain ⟨hfirst, hrest⟩ := List.forall_mem_cons.mp h
      obtain ⟨first, others, rfl, hf, ho⟩ := List.map_eq_append_iff.mp hm
      obtain ⟨m, body, rfl, hk, hb⟩ := List.map_eq_cons_iff.mp hf
      rw [List.cons_append, foldlM_cons_of_ok (advance_elseIf hk line),
        foldlM_append_of_ok (hfirst body hb _)]
      exact ih hrest ho

theorem returns_last {last : Option (List Keyword)} (h : ∀ branch ∈ last, Returns file branch)
    {marks : List BlockMark}
    (hm : BlockMark.keywords marks = last.toList.flatMap (.otherwise :: ·) ++ [.endIf])
    (line : Nat) : marks.foldlM (advance file) (⟨line, false⟩ :: opened) = .ok opened := by
  obtain ⟨branches, closing, rfl, hb, hc⟩ := List.map_eq_append_iff.mp hm
  obtain ⟨e, rest, rfl, he, hr⟩ := List.map_eq_cons_iff.mp hc
  obtain rfl := List.map_eq_nil_iff.mp hr
  cases last with
  | none =>
      rw [List.map_eq_nil_iff.mp hb]
      exact foldlM_cons_of_ok (advance_closing he _) []
  | some branch =>
      rw [Option.toList_some, List.flatMap_singleton] at hb
      obtain ⟨m, body, rfl, hk, hbody⟩ := List.map_eq_cons_iff.mp hb
      rw [List.cons_append, foldlM_cons_of_ok (advance_otherwise hk line),
        foldlM_append_of_ok (h branch rfl body hbody _)]
      exact foldlM_cons_of_ok (advance_closing he _) []

theorem returns_of_balanced {s : List Keyword} (h : Keyword.Balanced s) : Returns file s := by
  induction h with
  | nil =>
      intro marks hm opened
      rw [List.map_eq_nil_iff.mp hm]
      rfl
  | block _ ho _ _ _ ihbefore ihbody ihelse ihlast =>
      intro marks hm opened
      obtain ⟨before, after, rfl, hbefore, hafter⟩ := List.map_eq_append_iff.mp hm
      obtain ⟨m, inner, rfl, rfl, hinner⟩ := List.map_eq_cons_iff.mp hafter
      obtain ⟨body, branches, rfl, hbody, hbranches⟩ := List.map_eq_append_iff.mp hinner
      obtain ⟨elseIfs, last, rfl, helse, hlast⟩ := List.map_eq_append_iff.mp hbranches
      rw [foldlM_append_of_ok (ihbefore before hbefore _), foldlM_cons_of_ok (advance_opening ho),
        foldlM_append_of_ok (ihbody body hbody _),
        foldlM_append_of_ok (returns_elseIfs ihelse helse m.line)]
      exact returns_last ihlast hlast m.line

theorem returns_branches {s : List Keyword} (h : Keyword.Branches s) {marks : List BlockMark}
    (hm : BlockMark.keywords marks = s) (line : Nat) :
    marks.foldlM (advance file) (⟨line, false⟩ :: opened) = .ok (⟨line, false⟩ :: opened) := by
  obtain ⟨body, elseIfs, hb, he, rfl⟩ := h
  obtain ⟨first, branches, rfl, hf, hbranches⟩ := List.map_eq_append_iff.mp hm
  rw [foldlM_append_of_ok (returns_of_balanced hb first hf _)]
  exact returns_elseIfs (fun branch hm => returns_of_balanced (he branch hm)) hbranches line

theorem advance_of_unfinished {marks : List BlockMark} (h : Unfinished marks opened) :
    marks.foldlM (advance file) [] = .ok opened := by
  induction h with
  | balanced hb => exact returns_of_balanced hb _ rfl []
  | branch _ ho hb ih =>
      rw [foldlM_append_of_ok ih, foldlM_cons_of_ok (advance_opening ho)]
      exact returns_branches hb rfl _
  | lastBranch _ ho hb hother hl ih =>
      rw [foldlM_append_of_ok ih, foldlM_cons_of_ok (advance_opening ho),
        foldlM_append_of_ok (returns_branches hb rfl _),
        foldlM_cons_of_ok (advance_otherwise hother _)]
      exact returns_of_balanced hl _ rfl _

/-- One more directive that can stand where it does. -/
theorem unfinished_advance {marks : List BlockMark} {m : BlockMark} {next : List OpenBlock}
    (h : Unfinished marks opened) (hc : m.keyword.isConditional = true)
    (ha : advance file opened m = .ok next) : Unfinished (marks ++ [m]) next := by
  cases hk : m.keyword with
  | ifHolds | ifSet | ifNotSet =>
      have ho : m.keyword.isOpening = true := by rw [hk]; rfl
      rw [advance_opening ho] at ha
      cases ha
      exact h.opening ho
  | elseIf =>
      cases opened with
      | nil => simp [advance, hk] at ha
      | cons b rest =>
          obtain ⟨line, _ | _⟩ := b
          · rw [advance_elseIf hk] at ha
            cases ha
            exact h.elseIf hk
          · simp [advance, hk] at ha
  | otherwise =>
      cases opened with
      | nil => simp [advance, hk] at ha
      | cons b rest =>
          obtain ⟨line, _ | _⟩ := b
          · rw [advance_otherwise hk] at ha
            cases ha
            exact h.otherwise hk
          · simp [advance, hk] at ha
  | endIf =>
      cases opened with
      | nil => simp [advance, hk] at ha
      | cons b rest =>
          rw [advance_closing hk] at ha
          cases ha
          exact h.closing hk
  | set | unset | error =>
      rw [hk] at hc
      cases hc

/-- A directive that cannot stand where it does. -/
theorem rejected_advance {marks rest : List BlockMark} {m : BlockMark} {fault : Fault}
    (h : Unfinished marks opened) (ha : advance file opened m = .error fault) :
    ∃ d, fault = .reported d ∧ Rejected file (marks ++ m :: rest) d := by
  obtain ⟨keyword, number⟩ := m
  cases keyword with
  | ifHolds | ifSet | ifNotSet | set | unset | error => cases ha
  | elseIf =>
      cases opened with
      | nil =>
          cases ha
          exact ⟨_, rfl, .noOpenBlock h (Or.inl rfl)⟩
      | cons b outer =>
          obtain ⟨line, _ | _⟩ := b
          · cases ha
          · cases ha
            exact ⟨_, rfl, .afterElse h (Or.inl rfl)⟩
  | otherwise =>
      cases opened with
      | nil =>
          cases ha
          exact ⟨_, rfl, .noOpenBlock h (Or.inr (Or.inl rfl))⟩
      | cons b outer =>
          obtain ⟨line, _ | _⟩ := b
          · cases ha
          · cases ha
            exact ⟨_, rfl, .afterElse h (Or.inr rfl)⟩
  | endIf =>
      cases opened with
      | nil =>
          cases ha
          exact ⟨_, rfl, .noOpenBlock h (Or.inr (Or.inr rfl))⟩
      | cons b outer => cases ha

/-- At the end no block may be open. -/
def close (file : Text) : List OpenBlock → Except Fault Unit
  | [] => .ok ()
  | b :: rest =>
    .error (.reported (.unclosedBlocks ((b :: rest).reverse.map line) b.line file))

/-- What a sequence of directives is found to be. -/
def verdict (file : Text) (marks : List BlockMark) : Except Fault Unit :=
  marks.foldlM (advance file) [] >>= close file

theorem verdict_of_rejected {marks : List BlockMark} {d : Diagnostic} (h : Rejected file marks d) :
    verdict file marks = .error (.reported d) := by
  unfold verdict
  cases h with
  | noOpenBlock hd hm =>
      rw [foldlM_append_of_ok (advance_of_unfinished hd), List.foldlM_cons]
      rcases hm with hm | hm | hm
      all_goals
        simp only [advance, hm]
        rfl
  | afterElse hd hm =>
      rw [foldlM_append_of_ok (advance_of_unfinished hd), List.foldlM_cons]
      rcases hm with hm | hm
      all_goals
        simp only [advance, hm, if_true]
        rfl
  | unclosed hd =>
      rw [advance_of_unfinished hd]
      rfl

/-- Any sequence is balanced or rejected. The induction is on what is still to come. -/
theorem balanced_or_rejected (file : Text) {done rest : List BlockMark}
    (hd : Unfinished done opened) (hc : ∀ m ∈ rest, m.keyword.isConditional = true) :
    Keyword.Balanced (BlockMark.keywords (done ++ rest)) ∨ ∃ d, Rejected file (done ++ rest) d := by
  induction rest generalizing done opened with
  | nil =>
      rw [List.append_nil]
      cases opened with
      | nil =>
          cases hd with
          | balanced hb => exact Or.inl hb
      | cons b outer => exact Or.inr ⟨_, .unclosed hd⟩
  | cons m rest ih =>
      obtain ⟨hm, hrest⟩ := List.forall_mem_cons.mp hc
      cases ha : advance file opened m with
      | error fault =>
          obtain ⟨d, -, hr⟩ := rejected_advance hd ha
          exact Or.inr ⟨d, hr⟩
      | ok next =>
          rw [List.append_cons]
          exact ih (unfinished_advance hd hm ha) hrest

theorem verdict_of_balanced {marks : List BlockMark}
    (h : Keyword.Balanced (BlockMark.keywords marks)) : verdict file marks = .ok () := by
  rw [verdict, advance_of_unfinished (.balanced h)]
  rfl

theorem verdict_eq_ok_iff {marks : List BlockMark}
    (hc : ∀ m ∈ marks, m.keyword.isConditional = true) :
    verdict file marks = .ok () ↔ Keyword.Balanced (BlockMark.keywords marks) := by
  refine ⟨?_, verdict_of_balanced⟩
  intro h
  rcases balanced_or_rejected file Unfinished.nil hc with hb | ⟨d, hr⟩
  · exact hb
  · rw [List.nil_append] at hr
    rw [verdict_of_rejected hr] at h
    cases h

theorem verdict_eq_error_iff {marks : List BlockMark}
    (hc : ∀ m ∈ marks, m.keyword.isConditional = true) {fault : Fault} :
    verdict file marks = .error fault ↔ ∃ d, fault = .reported d ∧ Rejected file marks d := by
  constructor
  · intro h
    rcases balanced_or_rejected file Unfinished.nil hc with hb | ⟨d, hr⟩
    · rw [List.nil_append] at hb
      rw [verdict_of_balanced hb] at h
      cases h
    · rw [List.nil_append] at hr
      rw [verdict_of_rejected hr] at h
      exact ⟨d, (Except.error.inj h).symm, hr⟩
  · rintro ⟨d, rfl, hr⟩
    exact verdict_of_rejected hr

/-- Directives that are not about blocks may be left out. -/
theorem advance_filter (marks : List BlockMark) (opened : List OpenBlock) :
    (marks.filter (·.keyword.isConditional)).foldlM (advance file) opened =
      marks.foldlM (advance file) opened := by
  induction marks generalizing opened with
  | nil => rfl
  | cons m rest ih =>
      cases hc : m.keyword.isConditional with
      | true =>
          rw [List.filter_cons, if_pos hc, List.foldlM_cons, List.foldlM_cons]
          exact bind_congr_ok fun next _ => ih next
      | false =>
          have hidle : advance file opened m = .ok opened := by
            obtain ⟨keyword, line⟩ := m
            cases keyword with
            | set | unset | error => rfl
            | _ => cases hc
          rw [List.filter_cons, hc, foldlM_cons_of_ok hidle]
          exact ih opened

end OpenBlock

end Prepass
