/- What stands in a literal has no part in what is found around it. -/
import Mathlib.Algebra.GroupWithZero.Nat
import Prepass.Proofs.Comment.Cutting
namespace Prepass

namespace Text

/-- What can stand before a closing delimiter: the delimiter occurs only behind a backslash, and
each backslash has a character behind it. -/
inductive Enclosed (close : CodePoint) : Text → Prop
  | nil : Enclosed close []
  | plain {c : CodePoint} {rest : Text} : c ≠ '\\' → c ≠ close → Enclosed close rest →
      Enclosed close (c :: rest)
  | escape (c : CodePoint) {rest : Text} : Enclosed close rest →
      Enclosed close (CodePoint.ofChar '\\' :: c :: rest)

/-- What can stand between the slashes of a regular expression: each class is closed, and a slash
outside of classes occurs only behind a backslash. -/
inductive Expression : Text → Prop
  | nil : Expression []
  | plain {c : CodePoint} {rest : Text} : c ≠ '\\' → c ≠ '[' → c ≠ '/' → Expression rest →
      Expression (c :: rest)
  | escape (c : CodePoint) {rest : Text} : Expression rest →
      Expression (CodePoint.ofChar '\\' :: c :: rest)
  | charClass {inside rest : Text} : Enclosed ']' inside → Expression rest →
      Expression (CodePoint.ofChar '[' :: (inside ++ CodePoint.ofChar ']' :: rest))

/-- A body between two delimiters. -/
def delimited (delimiter : CodePoint) (body : Text) : Text := delimiter :: (body ++ [delimiter])

theorem delimited_ne_nil (delimiter : CodePoint) (body : Text) : delimited delimiter body ≠ [] :=
  List.cons_ne_nil _ _

theorem length_delimited (delimiter : CodePoint) (body : Text) :
    (delimited delimiter body).length = body.length + 2 := by
  rw [delimited, List.length_cons, List.length_append, List.length_singleton]

/-- What stands before a place whose line begins with a character. -/
theorem getLast?_cons_or (c : CodePoint) (t : Text) (before : Option CodePoint) :
    (c :: t).getLast?.or before = t.getLast?.or (some c) := by
  rw [List.getLast?_cons]
  cases t.getLast? <;> rfl

end Text

/-- The literals of a style by their delimiters and bodies. Whether a slash begins one depends on
the code before it. -/
inductive CommentStyle.Literal (style : CommentStyle) (significant : Significant) :
    CodePoint → Text → Prop
  | quoted {quote : CodePoint} {body : Text} : quote ∈ style.quotes → Text.Enclosed quote body →
      Literal style significant quote body
  | regex {body : Text} : style.regexLiterals = true → significant.regexAllowed = true →
      body ≠ [] → (∀ c ∈ body.head?, c ≠ '/' ∧ c ≠ '*') → Text.Expression body →
      Literal style significant '/' body

/-- Code put before a scanned rest. -/
def ScannedLine.pushText (t : Text) (s : ScannedLine) : ScannedLine := t.foldr pushCode s

namespace CommentStyle

section Bodies

variable {style : CommentStyle} {significant : Significant}

/-- In a literal the character before does not matter. -/
theorem scanFrom_literal_before (inside : LiteralMode) (before : Option CodePoint) (t : Text) :
    style.scanFrom (.literal inside) significant before 0 t =
      style.scanFrom (.literal inside) significant none 0 t := by
  cases t <;> rfl

theorem scanFrom_escape (inside : LiteralMode) (before : Option CodePoint) (c : CodePoint)
    (t : Text) :
    style.scanFrom (.literal inside) significant before 0 (CodePoint.ofChar '\\' :: c :: t) =
      (style.scanFrom (.literal inside) significant none 0 t).pushText
        [CodePoint.ofChar '\\', c] := by
  rw [← scanFrom_literal_before inside (some c)]
  cases inside <;> rfl

/-- A character that leads from one literal mode to another, and that is not the slash which ends an
expression. -/
theorem scanFrom_next {inside next : LiteralMode} {c : CodePoint}
    (hc : inside.next c = .literal next) (hs : ¬ (inside = .regex ∧ c = '/'))
    (before : Option CodePoint) (t : Text) :
    style.scanFrom (.literal inside) significant before 0 (c :: t) =
      (style.scanFrom (.literal next) significant none 0 t).pushText [c] := by
  rw [← scanFrom_literal_before next (some c), scanFrom, hc, if_neg hs]
  rfl

theorem scanFrom_enclosed {inside : LiteralMode} {close : CodePoint} {body : Text}
    (hstay : ∀ c : CodePoint, c ≠ '\\' → c ≠ close → inside.next c = .literal inside)
    (hs : inside ≠ .regex) (hb : Text.Enclosed close body) (before : Option CodePoint) (t : Text) :
    style.scanFrom (.literal inside) significant before 0 (body ++ t) =
      (style.scanFrom (.literal inside) significant none 0 t).pushText body := by
  induction hb generalizing before with
  | nil => exact scanFrom_literal_before inside before t
  | @plain c rest hc hq hb ih =>
      rw [List.cons_append, scanFrom_next (hstay c hc hq) (fun h => hs h.1), ih]
      rfl
  | @escape c rest hb ih =>
      rw [List.cons_append, List.cons_append, scanFrom_escape, ih]
      rfl

theorem scanFrom_expression {body : Text} (hb : Text.Expression body) (before : Option CodePoint)
    (t : Text) :
    style.scanFrom (.literal .regex) significant before 0 (body ++ t) =
      (style.scanFrom (.literal .regex) significant none 0 t).pushText body := by
  induction hb generalizing before with
  | nil => exact scanFrom_literal_before .regex before t
  | @plain c rest hc hopen hslash hb ih =>
      have hnext : LiteralMode.regex.next c = .literal .regex := by
        simp only [LiteralMode.next, hc, hopen, hslash, if_false]
      rw [List.cons_append, scanFrom_next hnext (fun h => hslash h.2), ih]
      rfl
  | @escape c rest hb ih =>
      rw [List.cons_append, List.cons_append, scanFrom_escape, ih]
      rfl
  | @charClass inside rest hin hb ih =>
      have hstay (c : CodePoint) (hc : c ≠ '\\') (hclose : c ≠ ']') :
          LiteralMode.regexClass.next c = .literal .regexClass := by
        simp only [LiteralMode.next, hc, hclose, if_false]
      have hopen : LiteralMode.regex.next '[' = .literal .regexClass := by decide
      have hclose : LiteralMode.regexClass.next ']' = .literal .regex := by decide
      rw [List.cons_append, List.append_assoc, List.cons_append, scanFrom_next hopen (by decide),
        scanFrom_enclosed hstay (by decide) hin, scanFrom_next hclose (by decide), ih]
      simp only [ScannedLine.pushText, List.foldr_cons, List.foldr_append, List.foldr_nil]

end Bodies

/-- A character that delimits: it neither escapes nor belongs to words or blanks. -/
structure Mark (c : CodePoint) : Prop where
  notBackslash : c ≠ '\\'
  notBlank : c.isBlank = false
  notWord : c.isIdentifierChar = false

/-- Comments that begin with a slash and one more character, and quotes that are no slashes. -/
structure Slashed (style : CommentStyle) : Prop where
  line : style.lineOpeners = [Text.ofString "//"]
  block : style.blocks = [⟨"/*", "*/"⟩]
  quotes : ∀ q ∈ style.quotes, (q ≠ '/' ∧ q ≠ '*') ∧ Mark q

theorem mark_quote : ∀ q ∈ javascript.quotes, (q ≠ '/' ∧ q ≠ '*') ∧ Mark q := by
  have h : ∀ q ∈ javascript.quotes, (q ≠ '/' ∧ q ≠ '*') ∧ q ≠ '\\' ∧ q.isBlank = false ∧
      q.isIdentifierChar = false := by decide
  intro q hq
  obtain ⟨hs, hb, hblank, hword⟩ := h q hq
  exact ⟨hs, hb, hblank, hword⟩

theorem slashed_javascript : javascript.Slashed := ⟨rfl, rfl, mark_quote⟩

theorem slashed_stylesheet : stylesheet.Slashed :=
  ⟨rfl, rfl, fun q hq => mark_quote q (List.mem_append_left [CodePoint.ofChar '\x60'] hq)⟩

section Openers

variable {style : CommentStyle}

/-- Two characters decide whether a comment begins. -/
theorem Slashed.lineOpener?_congr (h : style.Slashed) (c d : CodePoint) (t u : Text) :
    style.lineOpener? (c :: d :: t) = style.lineOpener? (c :: d :: u) := by
  rw [lineOpener?, lineOpener?, h.line]
  rfl

theorem Slashed.blockAt?_congr (h : style.Slashed) (c d : CodePoint) (t u : Text) :
    style.blockAt? (c :: d :: t) = style.blockAt? (c :: d :: u) := by
  rw [blockAt?, blockAt?, h.block]
  rfl

theorem eq_of_begins {a b c : CodePoint} {t : Text} (h : [a, b] <+: c :: t) :
    c = a ∧ t.head? = some b := by
  obtain ⟨rfl, u, rfl⟩ := List.cons_prefix_cons.mp h
  exact ⟨rfl, rfl⟩

/-- Where a comment begins there is a slash, and behind it a slash or an asterisk. -/
theorem Slashed.no_opener (h : style.Slashed) {c : CodePoint} {t : Text}
    (hc : c = '/' → ∀ d ∈ t.head?, d ≠ '/' ∧ d ≠ '*') :
    style.lineOpener? (c :: t) = none ∧ style.blockAt? (c :: t) = none := by
  constructor
  · rw [lineOpener?, h.line, List.find?_eq_none]
    intro opener ho hp
    obtain rfl := List.mem_singleton.mp ho
    obtain ⟨rfl, hd⟩ := eq_of_begins (List.isPrefixOf_iff_prefix.mp hp)
    exact (hc rfl _ hd).1 rfl
  · rw [blockAt?, h.block, List.find?_eq_none]
    intro delimiters hd hp
    obtain rfl := List.mem_singleton.mp hd
    obtain ⟨-, hp⟩ := Bool.and_eq_true_iff.mp hp
    obtain ⟨rfl, hd⟩ := eq_of_begins (List.isPrefixOf_iff_prefix.mp hp)
    exact (hc rfl _ hd).2 rfl

end Openers

section Delimiters

variable {style : CommentStyle} {significant : Significant} {d : CodePoint} {body : Text}

theorem Slashed.delimiter (h : style.Slashed) (hl : style.Literal significant d body) : Mark d := by
  cases hl with
  | quoted hq hb => exact (h.quotes d hq).2
  | regex hr ha hne hh hb => exact ⟨by decide, by decide, by decide⟩

/-- Behind an opening delimiter the code before it is forgotten. -/
theorem Mark.push (h : Mark d) (before : Option CodePoint) :
    significant.push before d = ⟨some d, []⟩ := by
  simp only [Significant.push, h.notBlank, h.notWord, Bool.false_eq_true, if_false]

theorem scanFrom_close {inside : LiteralMode} (hc : inside.next d = .topLevel)
    (before : Option CodePoint) (t : Text) :
    style.scanFrom (.literal inside) ⟨some d, []⟩ before 0 (d :: t) =
      (style.scanFrom .topLevel ⟨some d, []⟩ (some d) 0 t).pushText [d] := by
  have hsame : (if inside = .regex ∧ d = '/' then (⟨some '/', []⟩ : Significant)
      else ⟨some d, []⟩) = ⟨some d, []⟩ := by
    split
    · rename_i hr
      rw [hr.2]
    · rfl
  rw [scanFrom, hsame, hc]
  rfl

/-- The body of a literal and its closing delimiter. -/
theorem Slashed.scanFrom_body (h : style.Slashed) (hl : style.Literal significant d body)
    (before : Option CodePoint) (t : Text) :
    style.scanFrom (style.modeAfter significant d) ⟨some d, []⟩ before 0 (body ++ d :: t) =
      (style.scanFrom .topLevel ⟨some d, []⟩ (some d) 0 t).pushText (body ++ [d]) := by
  have hmark := h.delimiter hl
  rw [ScannedLine.pushText, List.foldr_append]
  cases hl with
  | quoted hq hb =>
      have hmode : style.modeAfter significant d = .literal (.quotation d) := by
        rw [modeAfter, if_pos (List.contains_iff_mem.mpr hq)]
      have hstay (c : CodePoint) (hc : c ≠ '\\') (hclose : c ≠ d) :
          (LiteralMode.quotation d).next c = .literal (.quotation d) := by
        simp only [LiteralMode.next, hc, hclose, if_false]
      have hnext : (LiteralMode.quotation d).next d = .topLevel := by
        simp only [LiteralMode.next, hmark.notBackslash, if_false, if_true]
      rw [hmode, scanFrom_enclosed hstay nofun hb, scanFrom_close hnext]
      rfl
  | regex hr ha hne hh hb =>
      have hquote : CodePoint.ofChar '/' ∉ style.quotes := fun hq => (h.quotes _ hq).1.1 rfl
      have hmode : style.modeAfter significant '/' = .literal .regex := by
        simp only [modeAfter, List.contains_iff_mem, hquote, if_false, hr, ha, and_self, if_true]
      rw [hmode, scanFrom_expression hb, scanFrom_close (by decide)]
      rfl

/-- A literal is code, and behind it the scan goes on as if it had no body. -/
theorem Slashed.scanFrom_delimited (h : style.Slashed) (hl : style.Literal significant d body)
    (before : Option CodePoint) (t : Text) :
    style.scanFrom .topLevel significant before 0 (Text.delimited d body ++ t) =
      (style.scanFrom .topLevel ⟨some d, []⟩ (some d) 0 t).pushText (Text.delimited d body) := by
  have hnone : style.lineOpener? (d :: (body ++ d :: t)) = none ∧
      style.blockAt? (d :: (body ++ d :: t)) = none := by
    apply h.no_opener
    intro hd
    cases hl with
    | quoted hq hb => exact absurd hd (h.quotes d hq).1.1
    | regex hr ha hne hh hb =>
        obtain ⟨c, rest, rfl⟩ := List.exists_cons_of_ne_nil hne
        exact hh
  rw [Text.delimited, List.cons_append, List.append_assoc, List.singleton_append]
  simp only [scanFrom, hnone]
  rw [(h.delimiter hl).push, h.scanFrom_body hl]
  rfl

end Delimiters

end CommentStyle

namespace Span

/-- A span before others; code that meets code makes one span with it. -/
def before : Span → List Span → List Span
  | .code t, .code u :: rest => .code (t ++ u) :: rest
  | span, rest => span :: rest

/-- Behind such a span the scanner is in no comment. -/
def Ended : Span → Prop
  | .code _ => True
  | .lineComment .. => False
  | .blockComment _ _ closed => closed = true

theorem code_before_code (t u : Text) (spans : List Span) :
    (Span.code t).before ((Span.code u).before spans) = (Span.code (t ++ u)).before spans := by
  rcases spans with _ | ⟨_ | _ | _, rest⟩
  all_goals simp only [before, List.append_assoc]

theorem foldr_code_before (t : Text) (front spans : List Span) :
    ((Span.code t).before front).foldr before spans =
      (Span.code t).before (front.foldr before spans) := by
  rcases front with _ | ⟨_ | _ | _, rest⟩
  · rfl
  · exact (code_before_code t _ _).symm
  · rfl
  · rfl

end Span

namespace ScannedLine

theorem pushCode_eq (c : CodePoint) (s : ScannedLine) :
    s.pushCode c = { s with spans := (Span.code [c]).before s.spans } := by
  obtain ⟨_ | ⟨_ | _ | _, rest⟩, mode, significant⟩ := s <;> rfl

theorem significant_pushCode (c : CodePoint) (s : ScannedLine) :
    (s.pushCode c).significant = s.significant := by
  rw [pushCode_eq]

theorem pushText_eq {t : Text} (h : t ≠ []) (s : ScannedLine) :
    s.pushText t = { s with spans := (Span.code t).before s.spans } := by
  induction t with
  | nil => exact absurd rfl h
  | cons c rest ih =>
      cases rest with
      | nil => exact pushCode_eq c s
      | cons d rest =>
          have hrest := ih (List.cons_ne_nil d rest)
          rw [pushText] at hrest
          rw [pushText, List.foldr_cons, hrest, pushCode_eq]
          exact congrArg (ScannedLine.mk · s.mode s.significant) (Span.code_before_code _ _ _)

/-- A scanned stretch of a line before what is scanned behind it. -/
def followedBy (s next : ScannedLine) : ScannedLine :=
  { next with spans := s.spans.foldr Span.before next.spans }

theorem followedBy_pushCode (c : CodePoint) (s next : ScannedLine) :
    (s.pushCode c).followedBy next = (s.followedBy next).pushCode c := by
  rw [pushCode_eq, pushCode_eq, followedBy, Span.foldr_code_before]
  rfl

/-- The scan has left all literals and all comments. -/
structure AtTopLevel (s : ScannedLine) : Prop where
  mode : s.mode = .topLevel
  ended : ∀ span ∈ s.spans, span.Ended

theorem AtTopLevel.of_pushCode {c : CodePoint} {s : ScannedLine}
    (h : (s.pushCode c).AtTopLevel) : s.AtTopLevel := by
  rw [pushCode_eq] at h
  refine ⟨h.mode, ?_⟩
  have hended : ∀ span ∈ (Span.code [c]).before s.spans, span.Ended := h.ended
  rcases hs : s.spans with _ | ⟨_ | _ | _, rest⟩
  · exact List.forall_mem_nil _
  all_goals rw [hs] at hended
  · exact List.forall_mem_cons.mpr ⟨trivial, (List.forall_mem_cons.mp hended).2⟩
  · exact (List.forall_mem_cons.mp hended).2
  · exact (List.forall_mem_cons.mp hended).2

end ScannedLine

theorem ScannedLine.AtTopLevel.of_pushComment {span : Span} {s : ScannedLine}
    (h : (s.pushComment span).AtTopLevel) : s.AtTopLevel :=
  ⟨h.mode, (List.forall_mem_cons.mp h.ended).2⟩

/-- A closer that is found before a place is found there too if more follows. -/
theorem upToCloser?_append {closer p inside : Text} (h : upToCloser? closer p = some inside)
    (t : Text) : upToCloser? closer (p ++ t) = some inside := by
  induction p generalizing inside with
  | nil => cases h
  | cons c rest ih =>
      rw [List.cons_append, upToCloser?]
      rw [upToCloser?] at h
      split at h
      · rename_i hc
        have hp : closer <+: c :: (rest ++ t) :=
          (List.isPrefixOf_iff_prefix.mp hc).trans (List.prefix_append (c :: rest) t)
        rw [if_pos (List.isPrefixOf_iff_prefix.mpr hp)]
        exact h
      · rename_i hc
        obtain ⟨more, hm, rfl⟩ := Option.map_eq_some_iff.mp h
        -- The closer fits into `rest`, so it begins here only if it does so without `t`.
        have hprefix := upToCloser?_prefix hm
        have hlength : closer.length ≤ (c :: rest).length := calc
          closer.length ≤ more.length := (upToFirst_of_upToCloser? hm).1.length_le
          _ ≤ rest.length := hprefix.length_le
          _ ≤ (c :: rest).length := Nat.le_succ _
        have hnot : ¬ closer.isPrefixOf (c :: (rest ++ t)) = true := by
          intro hp
          have hp := List.isPrefixOf_iff_prefix.mp hp
          exact hc (List.isPrefixOf_iff_prefix.mpr
            (List.prefix_of_prefix_length_le hp (List.prefix_append (c :: rest) t) hlength))
        rw [if_neg hnot, ih hm]
        rfl

namespace CommentStyle

section Append

variable {style : CommentStyle}

theorem Slashed.openers_append (h : style.Slashed) {c : CodePoint} {p t : Text}
    (ht : p = [] → c = '/' → ∀ d ∈ t.head?, d ≠ '/' ∧ d ≠ '*') :
    style.lineOpener? (c :: (p ++ t)) = style.lineOpener? (c :: p) ∧
      style.blockAt? (c :: (p ++ t)) = style.blockAt? (c :: p) := by
  cases p with
  | nil =>
      obtain ⟨hline, hblock⟩ := h.no_opener (ht rfl)
      obtain ⟨hnone, hnever⟩ := @Slashed.no_opener style h c [] nofun
      exact ⟨hline.trans hnone.symm, hblock.trans hnever.symm⟩
  | cons d rest => exact ⟨h.lineOpener?_congr c d _ _, h.blockAt?_congr c d _ _⟩

/-- A slash that is code does not stand where an operand is expected. -/
theorem Slashed.not_regexAllowed_slash (h : style.Slashed) (significant : Significant)
    (before : Option CodePoint) :
    (style.scanFrom .topLevel significant before 0
      [CodePoint.ofChar '/']).significant.regexAllowed = false := by
  have hmark : Mark '/' := ⟨by decide, by decide, by decide⟩
  have hnone := @Slashed.no_opener style h (CodePoint.ofChar '/') [] nofun
  simp only [scanFrom, hnone, ScannedLine.pushCode_eq, hmark.push]
  decide

/-- The scan of a line goes on behind a part of it as after a line that is that part alone, unless
what follows the part makes its last character the beginning of a comment. -/
theorem Slashed.scanFrom_append (h : style.Slashed) {mode : ScanMode}
    {significant : Significant} {before : Option CodePoint} {skip : Nat} {p t : Text}
    (hs : skip ≤ p.length) (hp : (style.scanFrom mode significant before skip p).AtTopLevel)
    (ht : (∀ c ∈ t.head?, c ≠ '/' ∧ c ≠ '*') ∨
      (style.scanFrom mode significant before skip p).significant.regexAllowed = true) :
    style.scanFrom mode significant before skip (p ++ t) =
      (style.scanFrom mode significant before skip p).followedBy
        (style.scanFrom .topLevel (style.scanFrom mode significant before skip p).significant
          (p.getLast?.or before) 0 t) := by
  induction p generalizing mode significant before skip with
  | nil =>
      obtain rfl : skip = 0 := Nat.le_zero.mp hs
      obtain rfl : mode = .topLevel := hp.mode
      rfl
  | cons c p ih =>
      rw [List.cons_append, Text.getLast?_cons_or]
      have code {mode : ScanMode} {significant : Significant}
          (hp : ((style.scanFrom mode significant (some c) 0 p).pushCode c).AtTopLevel)
          (ht : (∀ d ∈ t.head?, d ≠ '/' ∧ d ≠ '*') ∨ ((style.scanFrom mode significant (some c) 0
            p).pushCode c).significant.regexAllowed = true) :
          (style.scanFrom mode significant (some c) 0 (p ++ t)).pushCode c =
            ((style.scanFrom mode significant (some c) 0 p).pushCode c).followedBy
              (style.scanFrom .topLevel ((style.scanFrom mode significant (some c) 0
                p).pushCode c).significant (p.getLast?.or (some c)) 0 t) := by
        rw [ScannedLine.significant_pushCode] at ht ⊢
        rw [ScannedLine.followedBy_pushCode, ih (Nat.zero_le _) hp.of_pushCode ht]
      cases skip with
      | succ skip => exact ih (Nat.le_of_succ_le_succ hs) hp ht
      | zero =>
          cases mode with
          | escaping inside => exact code hp ht
          | literal inside => exact code hp ht
          | topLevel =>
              have hseam : p = [] → c = '/' → ∀ d ∈ t.head?, d ≠ '/' ∧ d ≠ '*' := by
                rintro rfl rfl
                rw [h.not_regexAllowed_slash] at ht
                exact ht.resolve_right nofun
              obtain ⟨hline, hblock⟩ := h.openers_append hseam
              simp only [scanFrom, hline, hblock] at hp ht ⊢
              cases hl : style.lineOpener? (c :: p) with
              | some opener =>
                  rw [hl] at hp
                  exact (hp.ended _ List.mem_cons_self).elim
              | none =>
                  simp only [hl] at hp ht ⊢
                  cases hb : style.blockAt? (c :: p) with
                  | none =>
                      simp only [hb] at hp ht ⊢
                      exact code hp ht
                  | some delimiters =>
                      obtain ⟨⟨tail, htail⟩, -⟩ := blockAt?_opener hb
                      have hdrop : (c :: p).drop delimiters.opener.length = tail := by
                        rw [← htail, List.drop_left]
                      have hmore : (c :: (p ++ t)).drop delimiters.opener.length = tail ++ t := by
                        rw [← List.cons_append, ← htail, List.append_assoc, List.drop_left]
                      simp only [hb, hdrop, hmore] at hp ht ⊢
                      cases hi : upToCloser? delimiters.closer tail with
                      | none =>
                          rw [hi] at hp
                          cases hp.ended _ List.mem_cons_self
                      | some inside =>
                          have hlength : (delimiters.opener ++ inside).length - 1 ≤ p.length := by
                            have hprefix := upToCloser?_prefix hi
                            have hle := hprefix.length_le
                            have he := congrArg List.length htail
                            rw [List.length_append, List.length_cons] at he
                            rw [List.length_append]
                            omega
                          simp only [hi, upToCloser?_append hi] at hp ht ⊢
                          rw [ih hlength hp.of_pushComment ht]
                          rfl

/-- The scan of a line that has a literal behind a part which leaves the scanner at top level. -/
theorem Slashed.scanFrom_around (h : style.Slashed) {mode : ScanMode} {significant : Significant}
    {before : Option CodePoint} {p t : Text} {d : CodePoint} {body : Text}
    (hp : (style.scanFrom mode significant before 0 p).AtTopLevel)
    (hl : style.Literal (style.scanFrom mode significant before 0 p).significant d body) :
    style.scanFrom mode significant before 0 (p ++ (Text.delimited d body ++ t)) =
      (style.scanFrom mode significant before 0 p).followedBy
        ((style.scanFrom .topLevel ⟨some d, []⟩ (some d) 0 t).pushText
          (Text.delimited d body)) := by
  rw [h.scanFrom_append (Nat.zero_le _) hp, h.scanFrom_delimited hl]
  cases hl with
  | quoted hq hb =>
      refine Or.inl ?_
      rintro c ⟨⟩
      exact (h.quotes _ hq).1
  | regex hr ha hne hh hb => exact Or.inr ha

end Append

end CommentStyle

namespace Span

/-- Where code meets the spans behind it. -/
theorem exists_code_before (spans : List Span) :
    ∃ trail tail, ∀ t, (Span.code t).before spans = .code (t ++ trail) :: tail := by
  rcases spans with _ | ⟨u | _ | _, rest⟩
  · exact ⟨[], [], fun t => by rw [List.append_nil]; rfl⟩
  · exact ⟨u, rest, fun t => rfl⟩
  · exact ⟨[], _, fun t => by rw [List.append_nil]; rfl⟩
  · exact ⟨[], _, fun t => by rw [List.append_nil]; rfl⟩

/-- The length of what spans cover. -/
def width (spans : List Span) : Nat := (spans.map fun span => span.text.length).sum

theorem width_cons (span : Span) (spans : List Span) :
    width (span :: spans) = span.text.length + width spans := by
  rw [width, List.map_cons, List.sum_cons]
  rfl

theorem Cover.width {t : Text} {spans : List Span} (h : Cover t spans) :
    width spans = t.length := by
  induction h with
  | nil => rfl
  | code hc hr ih | lineComment hc hr ih | blockComment hc hr ih =>
      rw [width_cons, ih, List.length_append]
      rfl
  | unclosed hne => exact Nat.add_zero _

/-- Where spans meet code behind them. -/
theorem exists_before_code {spans : List Span} (hs : ∀ span ∈ spans, span.Ended) :
    ∃ front lead, (∀ span ∈ front, span.Ended) ∧ width front + lead.length = width spans ∧
      ∀ t tail, spans.foldr before (.code t :: tail) = front ++ .code (lead ++ t) :: tail := by
  induction spans with
  | nil => exact ⟨[], [], hs, rfl, fun t tail => rfl⟩
  | cons span rest ih =>
      obtain ⟨hspan, hrest⟩ := List.forall_mem_cons.mp hs
      obtain ⟨front, lead, hended, hwidth, hfold⟩ := ih hrest
      simp only [List.foldr_cons, hfold, width_cons, ← hwidth]
      match span, front with
      | .lineComment _ _, _ => cases hspan
      | .blockComment d u closed, front =>
          refine ⟨.blockComment d u closed :: front, lead, List.forall_mem_cons.mpr ⟨hspan, hended⟩,
            ?_, fun t tail => rfl⟩
          rw [width_cons, Nat.add_assoc]
      | .code u, [] =>
          refine ⟨[], u ++ lead, hended, ?_, fun t tail => by rw [List.append_assoc]; rfl⟩
          rw [List.length_append, Nat.add_left_comm]
          rfl
      | .code u, .code v :: more =>
          refine ⟨.code (u ++ v) :: more, lead,
            List.forall_mem_cons.mpr ⟨trivial, (List.forall_mem_cons.mp hended).2⟩, ?_,
            fun t tail => rfl⟩
          simp only [width_cons, text, List.length_append]
          omega
      | .code u, .lineComment _ _ :: more => cases hended _ List.mem_cons_self
      | .code u, .blockComment d v closed :: more =>
          refine ⟨.code u :: .blockComment d v closed :: more, lead,
            List.forall_mem_cons.mpr ⟨trivial, hended⟩, ?_, fun t tail => rfl⟩
          rw [width_cons, Nat.add_assoc]

end Span

/-- The same piece some columns further on. -/
def Piece.moved (columns : Nat) (piece : Piece) : Piece :=
  { piece with column := piece.column + columns }

namespace LinePieces

theorem ofSpans_moved (columns column number : Nat) (spans : List Span) :
    ofSpans (column + columns) number spans =
      ({ (ofSpans column number spans).1 with
          pieces := (ofSpans column number spans).1.pieces.map (Piece.moved columns) },
        (ofSpans column number spans).2) := by
  induction spans generalizing column number with
  | nil => rfl
  | cons span rest ih =>
      match span with
      | .code t | .lineComment _ t | .blockComment _ t true =>
          simp only [ofSpans, Nat.add_right_comm column columns, ih]
          rfl
      | .blockComment _ t false => rfl

/-- The pieces of spans behind others of which none is left open. -/
theorem ofSpans_append {front : List Span} (hf : ∀ span ∈ front, span.Ended) (rest : List Span)
    (column number : Nat) :
    ofSpans column number (front ++ rest) =
      let first := (ofSpans column number front).1
      let r := ofSpans (column + Span.width front) (number + first.ended.length) rest
      (⟨first.pieces ++ r.1.pieces, first.ended ++ r.1.ended⟩, r.2) := by
  induction front generalizing column number with
  | nil => rfl
  | cons span more ih =>
      obtain ⟨hspan, hmore⟩ := List.forall_mem_cons.mp hf
      match span with
      | .code t =>
          simp only [List.cons_append, ofSpans, ih hmore, Span.width_cons, Span.text,
            Nat.add_assoc]
      | .blockComment d t true =>
          simp only [List.cons_append, ofSpans, ih hmore, Span.width_cons, Span.text,
            List.length_cons, Nat.add_assoc, Nat.add_comm 1]
      | .lineComment _ _ | .blockComment _ _ false => cases hspan

/-- The length of a literal's body is all that the pieces behind the literal depend on. -/
theorem ofSpans_delimited (column number : Nat) (lead trail : Text) (d : CodePoint) (body : Text)
    (tail : List Span) :
    ofSpans column number (.code (lead ++ (Text.delimited d body ++ trail)) :: tail) =
      let r := ofSpans (column + (lead.length + 2 + trail.length)) number tail
      (⟨⟨column, lead ++ Text.delimited d body ++ trail, none⟩ ::
          r.1.pieces.map (Piece.moved body.length), r.1.ended⟩, r.2) := by
  have hlength : column + (lead ++ (Text.delimited d body ++ trail)).length =
      column + (lead.length + 2 + trail.length) + body.length := by
    rw [List.length_append, List.length_append, Text.length_delimited]
    omega
  rw [ofSpans_code, hlength, ofSpans_moved, List.append_assoc]

end LinePieces

/-- A line but for the body of a literal in it: the pieces before the one with the literal, where
that piece begins and what it holds around the literal, the pieces behind it as they stand if the
body is empty, and the comments and the scanner that come of the line. -/
structure LineAround where
  front : List Piece
  column : Nat
  lead : Text
  trail : Text
  back : List Piece
  ended : List Comment
  next : CommentScanner

/-- What a line gives with a body put in: the columns behind the literal move by its length. -/
def LineAround.withBody (around : LineAround) (d : CodePoint) (body : Text) :
    LinePieces × CommentScanner :=
  (⟨around.front ++
      ⟨around.column, around.lead ++ Text.delimited d body ++ around.trail, none⟩ ::
        around.back.map (Piece.moved body.length),
    around.ended⟩, around.next)

namespace CommentScanner

/-- What is scanned as code of the beginning of a line; nothing while an open comment goes on. -/
def codeScan? (s : CommentScanner) (p : Text) : Option ScannedLine :=
  match s.current with
  | none => some (s.style.scanFrom s.mode s.significant none 0 p)
  | some o => (upToCloser? o.delimiters.closer p).map fun inside =>
    s.style.scanFrom s.mode s.significant inside.getLast? 0 (p.drop inside.length)

theorem scanCode_around {s : CommentScanner} (hs : s.style.Slashed) {before : Option CodePoint}
    {p : Text} (hp : (s.style.scanFrom s.mode s.significant before 0 p).AtTopLevel)
    (column : Nat) (d : CodePoint) (t : Text) :
    ∃ around : LineAround, around.column + around.lead.length = column + p.length ∧
      ∀ body, s.style.Literal (s.style.scanFrom s.mode s.significant before 0 p).significant d
        body → s.scanCode column before (p ++ (Text.delimited d body ++ t)) =
          around.withBody d body := by
  let rest := s.style.scanFrom .topLevel ⟨some d, []⟩ (some d) 0 t
  obtain ⟨trail, tail, htail⟩ := Span.exists_code_before rest.spans
  obtain ⟨front, lead, hended, hwidth, hfront⟩ := Span.exists_before_code hp.ended
  have hcover := (s.style.cover_scanFrom s.mode s.significant before 0 p).width
  rw [List.drop_zero, ← hwidth] at hcover
  let first := (LinePieces.ofSpans column s.count front).1
  let start := column + Span.width front
  -- Where the pieces behind the literal begin if its body is empty.
  let r := LinePieces.ofSpans (start + (lead.length + 2 + trail.length))
    (s.count + first.ended.length) tail
  refine ⟨⟨first.pieces, start, lead, trail, r.1.pieces, first.ended ++ r.1.ended,
    { s with
      mode := s.style.modeAtNewline rest.mode
      significant := rest.significant
      count := s.count + (first.ended ++ r.1.ended).length
      current := r.2 }⟩, ?_, ?_⟩
  · rw [← hcover]
    exact Nat.add_assoc _ _ _
  · intro body hl
    have hspans : s.style.scanFrom s.mode s.significant before 0
        (p ++ (Text.delimited d body ++ t)) =
          { rest with
            spans := front ++ .code (lead ++ (Text.delimited d body ++ trail)) :: tail } := by
      rw [hs.scanFrom_around hp hl, ScannedLine.pushText_eq (Text.delimited_ne_nil d body),
        ScannedLine.followedBy, htail, hfront]
    have hpieces : LinePieces.ofSpans column s.count
        (front ++ .code (lead ++ (Text.delimited d body ++ trail)) :: tail) =
          (⟨first.pieces ++ ⟨start, lead ++ Text.delimited d body ++ trail, none⟩ ::
              r.1.pieces.map (Piece.moved body.length), first.ended ++ r.1.ended⟩, r.2) := by
      rw [LinePieces.ofSpans_append hended]
      dsimp only
      rw [LinePieces.ofSpans_delimited]
    rw [scanCode, hspans, hpieces]
    rfl

/-- Whatever state the scanner is in, if the beginning of a line leaves it at top level, a literal
that follows lies in one piece of code. The pieces and comments around it and the state after the
line are the same for all bodies that the literal can have; only the columns behind it move. -/
theorem process_around {s : CommentScanner}
    (hs : s.style = CommentStyle.javascript ∨ s.style = CommentStyle.stylesheet) {p : Text}
    {scanned : ScannedLine} (hp : s.codeScan? p = some scanned) (ht : scanned.AtTopLevel)
    (d : CodePoint) (t : Text) :
    ∃ around : LineAround, around.column + around.lead.length = p.length ∧
      ∀ body, s.style.Literal scanned.significant d body →
        s.process (p ++ Text.delimited d body ++ t) = around.withBody d body := by
  have hslashed : s.style.Slashed := by
    rcases hs with hs | hs
    · exact hs ▸ CommentStyle.slashed_javascript
    · exact hs ▸ CommentStyle.slashed_stylesheet
  cases hc : s.current with
  | none =>
      simp only [codeScan?, hc, Option.some.injEq] at hp
      subst hp
      obtain ⟨around, hcolumn, haround⟩ := scanCode_around hslashed ht 0 d t
      refine ⟨around, hcolumn.trans (Nat.zero_add _), ?_⟩
      intro body hl
      rw [process_outside hc, List.append_assoc]
      exact haround body hl
  | some o =>
      simp only [codeScan?, hc] at hp
      obtain ⟨inside, hi, rfl⟩ := Option.map_eq_some_iff.mp hp
      obtain ⟨after, rfl⟩ := upToCloser?_prefix hi
      rw [List.drop_left] at ht ⊢
      obtain ⟨around, hcolumn, haround⟩ := @scanCode_around
        { s with count := s.count + 1, current := none } hslashed _ _ ht inside.length d t
      let closing : OpenComment × List Piece :=
        if inside.isEmpty then (o, []) else (o.addPart inside, [⟨0, inside, some s.count⟩])
      refine ⟨{ around with
        front := closing.2 ++ around.front
        ended := closing.1.comment true :: around.ended }, ?_, ?_⟩
      · rw [List.length_append]
        exact hcolumn
      · intro body hl
        have hclose := upToCloser?_append hi (Text.delimited d body ++ t)
        rw [List.append_assoc] at hclose
        rw [List.append_assoc, List.append_assoc, process_closing hc hclose]
        dsimp only
        rw [List.drop_left, haround body hl]
        simp only [LineAround.withBody, List.append_assoc]
        rfl

/-- A scanner in a comment that the next line ends. -/
def inComment : CommentScanner :=
  { style := CommentStyle.javascript, current := some ⟨⟨"/*", "*/"⟩, ["/* a"]⟩ }

theorem process_around_expression :
    let p : Text := "b */ x = "
    let body : Text := [CodePoint.ofChar '[', CodePoint.ofChar '/', CodePoint.ofChar '*',
      CodePoint.ofChar ']']
    let other : Text := [CodePoint.ofChar '\\', CodePoint.ofChar '/', CodePoint.ofChar '"']
    ∃ scanned, inComment.codeScan? p = some scanned ∧ scanned.AtTopLevel ∧
      inComment.style.Literal scanned.significant '/' body ∧
      inComment.style.Literal scanned.significant '/' other ∧
      ∃ around : LineAround, around.column + around.lead.length = p.length ∧
        inComment.process (p ++ Text.delimited '/' body ++ " /* c") = around.withBody '/' body ∧
        inComment.process (p ++ Text.delimited '/' other ++ " /* c") =
          around.withBody '/' other := by
  intro p body other
  let scanned : ScannedLine := ⟨[.code " x = "], .topLevel, ⟨some '=', []⟩⟩
  have hp : inComment.codeScan? p = some scanned := by rfl
  have ht : scanned.AtTopLevel := ⟨rfl, List.forall_mem_singleton.mpr trivial⟩
  have hallowed : scanned.significant.regexAllowed = true := by decide
  have hclass : Text.Enclosed ']' [CodePoint.ofChar '/', CodePoint.ofChar '*'] :=
    .plain (by decide) (by decide) (.plain (by decide) (by decide) .nil)
  have hbody : inComment.style.Literal scanned.significant '/' body :=
    .regex rfl hallowed (List.cons_ne_nil _ _) (by decide) (.charClass hclass .nil)
  have hother : inComment.style.Literal scanned.significant '/' other :=
    .regex rfl hallowed (List.cons_ne_nil _ _) (by decide)
      (.escape '/' (.plain (by decide) (by decide) (by decide) .nil))
  obtain ⟨around, hcolumn, haround⟩ := process_around (Or.inl rfl) hp ht '/' " /* c"
  exact ⟨scanned, hp, ht, hbody, hother, around, hcolumn, haround body hbody,
    haround other hother⟩

end CommentScanner

end Prepass
