/- Lines split into code and comments. -/
import Prepass.Comment.Style
import Prepass.Text.Blank
import Prepass.Text.Digit
namespace Prepass

/-- A comment, one part for each of its lines. -/
structure Comment where
  opener : Text
  parts : List Text
  closed : Bool
deriving DecidableEq

namespace Comment

def text (c : Comment) : Text := Text.join "\n" c.parts

/-- What follows the opener and the blanks after it. -/
def body (c : Comment) : Text := Text.stripLeft (c.text.drop c.opener.length)

end Comment

/-- A run of code, or of one comment, within a line. The comment is given by its number. -/
structure Piece where
  column : Nat
  text : Text
  comment : Option Nat := none
deriving DecidableEq

/-- Literals in which comment openers mean nothing. -/
inductive LiteralMode where
  | quotation (quote : CodePoint)
  | regex
  | regexClass
deriving DecidableEq

/-- Where the scanner stands in code. -/
inductive ScanMode where
  | topLevel
  | literal (inside : LiteralMode)
  /-- After a backslash in a literal. -/
  | escaping (inside : LiteralMode)
deriving DecidableEq

/-- The last code characters, which decide whether a slash divides or begins a literal. -/
structure Significant where
  previous : Option CodePoint := none
  /-- The word that `previous` ends, last character first. -/
  word : Text := []
deriving DecidableEq

namespace Significant

/-- Words after which an operand is expected. -/
def operandWords : List Text :=
  ["await", "case", "delete", "do", "else", "in", "instanceof", "new", "of", "return", "throw",
   "typeof", "void", "yield"].map Text.ofString

/-- Characters after which an operand is expected. -/
def operandPreceders : Text := "(,=:[!&|?\x7b\x7d;+-*%<>~^"

def regexAllowed (s : Significant) : Bool :=
  match s.previous with
  | none => true
  | some c =>
    if c.isIdentifierChar then operandWords.contains s.word.reverse else operandPreceders.contains c

/-- Takes note of a code character and of the character before it on the line. -/
def push (s : Significant) (before : Option CodePoint) (c : CodePoint) : Significant :=
  if c.isBlank then s
  else
    { previous := some c
      word :=
        if c.isIdentifierChar then
          if before.any CodePoint.isIdentifierChar then c :: s.word else [c]
        else [] }

end Significant

/-- A run of characters of a line. -/
inductive Span where
  | code (text : Text)
  | lineComment (opener text : Text)
  | blockComment (delimiters : BlockDelimiters) (text : Text) (closed : Bool)
deriving DecidableEq

namespace CommentStyle

def lineOpener? (style : CommentStyle) (t : Text) : Option Text :=
  style.lineOpeners.find? (·.isPrefixOf t)

/-- The block comment that begins here. A pair of two empty delimiters, inside which a scan would
never come to an end, is passed over. -/
def blockAt? (style : CommentStyle) (t : Text) : Option BlockDelimiters :=
  style.blocks.find? fun d => !(d.opener.isEmpty && d.closer.isEmpty) && d.opener.isPrefixOf t

end CommentStyle

/-- The characters up to and with the first closer. It has to begin before the end of the line. -/
def upToCloser? (closer : Text) : Text → Option Text
  | [] => none
  | c :: rest =>
    if closer.isPrefixOf (c :: rest) then some closer
    else (upToCloser? closer rest).map (c :: ·)

/-- What scanning a line gives: its spans, and the state at its end. -/
structure ScannedLine where
  spans : List Span
  mode : ScanMode
  significant : Significant

namespace ScannedLine

def pushCode (c : CodePoint) (s : ScannedLine) : ScannedLine :=
  match s.spans with
  | .code t :: rest => { s with spans := .code (c :: t) :: rest }
  | spans => { s with spans := .code [c] :: spans }

def pushComment (span : Span) (s : ScannedLine) : ScannedLine :=
  { s with spans := span :: s.spans }

end ScannedLine

/-- The mode after a character of a literal. -/
def LiteralMode.next (inside : LiteralMode) (c : CodePoint) : ScanMode :=
  if c = '\\' then .escaping inside
  else match inside with
    | .quotation quote => if c = quote then .topLevel else .literal inside
    | .regex =>
      if c = '[' then .literal .regexClass else if c = '/' then .topLevel else .literal .regex
    | .regexClass => if c = ']' then .literal .regex else .literal .regexClass

/-- The mode after a code character that begins no comment. -/
def CommentStyle.modeAfter (style : CommentStyle) (significant : Significant) (c : CodePoint) :
    ScanMode :=
  if style.quotes.contains c then .literal (.quotation c)
  else if c = '/' ∧ style.regexLiterals ∧ significant.regexAllowed then .literal .regex
  else .topLevel

/-- Scans the rest of a line outside a block comment. The first `skip` characters belong to a
comment that has been dealt with. -/
def CommentStyle.scanFrom (style : CommentStyle) (mode : ScanMode) (significant : Significant)
    (before : Option CodePoint) : Nat → Text → ScannedLine
  | _, [] => ⟨[], mode, significant⟩
  | skip + 1, c :: rest => style.scanFrom mode significant (some c) skip rest
  | 0, c :: rest =>
    match mode with
    | .escaping inside =>
      (style.scanFrom (.literal inside) significant (some c) 0 rest).pushCode c
    | .literal inside =>
      let significant :=
        if inside = .regex ∧ c = '/' then { previous := some '/', word := [] } else significant
      (style.scanFrom (inside.next c) significant (some c) 0 rest).pushCode c
    | .topLevel =>
      match style.lineOpener? (c :: rest) with
      | some opener => ⟨[.lineComment opener (c :: rest)], .topLevel, significant⟩
      | none =>
        match style.blockAt? (c :: rest) with
        | some delimiters =>
          match upToCloser? delimiters.closer ((c :: rest).drop delimiters.opener.length) with
          | some inside =>
            let text := delimiters.opener ++ inside
            (style.scanFrom .topLevel significant (some c) (text.length - 1) rest).pushComment
              (.blockComment delimiters text true)
          | none => ⟨[.blockComment delimiters (c :: rest) false], .topLevel, significant⟩
        | none =>
          (style.scanFrom (style.modeAfter significant c) (significant.push before c) (some c) 0
            rest).pushCode c

/-- The mode with which the next line begins: only literals of multi-line quotes go on. -/
def CommentStyle.modeAtNewline (style : CommentStyle) : ScanMode → ScanMode
  | .literal (.quotation quote) | .escaping (.quotation quote) =>
    if style.multilineQuotes.contains quote then .literal (.quotation quote) else .topLevel
  | _ => .topLevel

/-- A block comment that goes on in the next line. -/
structure OpenComment where
  delimiters : BlockDelimiters
  /-- The parts so far, last one first. -/
  parts : List Text
deriving DecidableEq

namespace OpenComment

def comment (o : OpenComment) (closed : Bool) : Comment := ⟨o.delimiters.opener, o.parts.reverse, closed⟩

def addPart (o : OpenComment) (part : Text) : OpenComment := { o with parts := part :: o.parts }

end OpenComment

/-- The state of scanning between two lines. -/
structure CommentScanner where
  style : CommentStyle
  mode : ScanMode := .topLevel
  significant : Significant := {}
  /-- How many comments have ended; the next one to end has this number. -/
  count : Nat := 0
  current : Option OpenComment := none
deriving DecidableEq

/-- What a line holds: its pieces, and the comments that end on it. -/
structure LinePieces where
  pieces : List Piece := []
  ended : List Comment := []
deriving DecidableEq

namespace LinePieces

/-- The pieces of spans that begin at a column. The comments among them are numbered from `number`
on. Beside them the block comment that stays open. -/
def ofSpans (column number : Nat) : List Span → LinePieces × Option OpenComment
  | [] => ({}, none)
  | .code t :: rest =>
    let (line, current) := ofSpans (column + t.length) number rest
    ({ line with pieces := ⟨column, t, none⟩ :: line.pieces }, current)
  | .lineComment opener t :: rest =>
    let (line, current) := ofSpans (column + t.length) (number + 1) rest
    (⟨⟨column, t, some number⟩ :: line.pieces, ⟨opener, [t], true⟩ :: line.ended⟩, current)
  | .blockComment delimiters t true :: rest =>
    let (line, current) := ofSpans (column + t.length) (number + 1) rest
    (⟨⟨column, t, some number⟩ :: line.pieces, ⟨delimiters.opener, [t], true⟩ :: line.ended⟩, current)
  | .blockComment delimiters t false :: _ =>
    ({ pieces := [⟨column, t, some number⟩] }, some ⟨delimiters, [t]⟩)

end LinePieces

namespace CommentScanner

/-- Scans from a column on, outside a block comment. -/
def scanCode (s : CommentScanner) (column : Nat) (before : Option CodePoint) (t : Text) :
    LinePieces × CommentScanner :=
  let scanned := s.style.scanFrom s.mode s.significant before 0 t
  let (line, current) := LinePieces.ofSpans column s.count scanned.spans
  (line, { s with
    mode := s.style.modeAtNewline scanned.mode
    significant := scanned.significant
    count := s.count + line.ended.length
    current })

/-- Splits a line into its pieces. -/
def process (s : CommentScanner) (line : Text) : LinePieces × CommentScanner :=
  match s.current with
  | none => s.scanCode 0 none line
  | some o =>
    match upToCloser? o.delimiters.closer line with
    | none =>
      ({ pieces := if line.isEmpty then [] else [⟨0, line, some s.count⟩] },
        { s with current := some (o.addPart line) })
    | some inside =>
      let (o, first) : OpenComment × List Piece :=
        if inside.isEmpty then (o, []) else (o.addPart inside, [⟨0, inside, some s.count⟩])
      let (rest, s) := { s with count := s.count + 1, current := none }.scanCode inside.length
        inside.getLast? (line.drop inside.length)
      (⟨first ++ rest.pieces, o.comment true :: rest.ended⟩, s)

/-- Splits line after line. -/
def processAll (s : CommentScanner) : List Text → List LinePieces × CommentScanner
  | [] => ([], s)
  | line :: rest =>
    let (pieces, s) := s.process line
    let (more, s) := s.processAll rest
    (pieces :: more, s)

/-- The comment that is open, as far as it goes. -/
def unclosed (s : CommentScanner) : List Comment := (s.current.map (·.comment false)).toList

end CommentScanner

/-- The lines split into pieces, and all their comments in the order of their numbers. -/
def CommentStyle.scanLines (style : CommentStyle) (lines : List Text) :
    List (List Piece) × List Comment :=
  let (scanned, s) := ({ style } : CommentScanner).processAll lines
  (scanned.map LinePieces.pieces, scanned.flatMap LinePieces.ended ++ s.unclosed)

end Prepass
