/- Output lines, one for each input line. -/
import Prepass.Comment.Filter
import Prepass.Line
import Prepass.SourceMap.Mappings
import Prepass.Substitution
namespace Prepass

/-- A piece of a line with its final text. -/
structure Rendered where
  piece : Piece
  text : Text
  replacements : List Replacement := []

/-- A line that waits for its comments to end; blank lines have no content. -/
structure PendingLine where
  number : Nat
  ending : Text
  content : Option (List Rendered)

structure OutputLine where
  text : Text
  ending : Text
  segments : List Segment
deriving DecidableEq

namespace Rendered

/-- Code gets its variables substituted; comments stay as they are. -/
def ofPiece (env : Environment) (piece : Piece) : Except Fault Rendered :=
  match piece.comment with
  | some _ => .ok ⟨piece, piece.text, []⟩
  | none => (env.substitute piece.text).map fun (text, replacements) => ⟨piece, text, replacements⟩

/-- The segments of the replacements in a piece that is written at column `generated` plus
`shift`. Each marks the literal and what follows it. -/
def editSegments (generated line column shift : Int) : List Replacement → List Segment
  | [] => []
  | r :: rest =>
    let start := generated + r.column + shift
    let shift := shift + (r.text.length - r.length)
    ⟨start, line, column + r.column⟩ ::
      ⟨start + r.text.length, line, column + r.column + r.length⟩ ::
      editSegments generated line column shift rest

def segments (generated : Nat) (line : Int) (r : Rendered) : List Segment :=
  ⟨generated, line, r.piece.column⟩ ::
    editSegments generated line r.piece.column 0 r.replacements

/-- The segments of pieces that are written one after another. -/
def allSegments (generated : Nat) (line : Int) : List Rendered → List Segment
  | [] => []
  | r :: rest => r.segments generated line ++ allSegments (generated + r.text.length) line rest

end Rendered

namespace Segment

/-- Of segments at one generated column only the last counts. -/
def dropRepeated : List Segment → List Segment
  | [] => []
  | [s] => [s]
  | s :: next :: rest =>
    if s.generated = next.generated then dropRepeated (next :: rest)
    else s :: dropRepeated (next :: rest)

/-- Segments that begin at or after the end of the line are dropped. -/
def tidy (width : Nat) (segments : List Segment) : List Segment :=
  dropRepeated (segments.filter (·.generated < width))

end Segment

namespace PendingLine

/-- The output line of those pieces that are kept. -/
def render (keep : Piece → Bool) (line : PendingLine) : OutputLine :=
  let kept := (line.content.getD []).filter fun r => keep r.piece
  let text := kept.flatMap Rendered.text
  ⟨text, line.ending, Segment.tidy text.length (Rendered.allSegments 0 (line.number - 1) kept)⟩

end PendingLine

/-- Comments by their numbers, of which the first is `base`. -/
structure CommentNumbering where
  base : Nat
  comments : Array Comment

namespace CommentNumbering

def find? (numbering : CommentNumbering) (number : Nat) : Option Comment :=
  if number < numbering.base then none else numbering.comments[number - numbering.base]?

end CommentNumbering

/-- Code is kept, and so is a comment that has not ended; others are up to the filter. -/
def CommentFilter.keepsPiece (f : CommentFilter) (ended : CommentNumbering) (piece : Piece) : Bool :=
  match piece.comment.bind ended.find? with
  | none => true
  | some comment => f.keeps comment

/-- Output under construction. Lines wait while a comment is open, so that it can be judged as a
whole; variables are substituted at once. -/
structure Output where
  filter : CommentFilter
  scanner : CommentScanner
  /-- Last one first. -/
  emitted : List OutputLine := []
  /-- Last one first. -/
  pending : List PendingLine := []
  /-- The comments that ended since the last line was emitted, last one first. -/
  ended : List Comment := []

namespace Output

def start (style : CommentStyle) (filter : CommentFilter) : Output :=
  { filter, scanner := { style } }

def numbering (out : Output) : CommentNumbering :=
  ⟨out.scanner.count - out.ended.length, out.ended.reverse.toArray⟩

/-- Emits all lines that wait. -/
def flush (out : Output) : Output :=
  let keep := out.filter.keepsPiece out.numbering
  { out with
    emitted := out.pending.map (PendingLine.render keep) ++ out.emitted
    pending := []
    ended := [] }

def add (out : Output) (line : PendingLine) : Output :=
  let out := { out with pending := line :: out.pending }
  if out.scanner.current.isNone then out.flush else out

/-- Adds an active line of code. -/
def code (out : Output) (env : Environment) (number : Nat) (line : Line) : Except Fault Output := do
  let (scanned, scanner) := out.scanner.process line.text
  let content ← scanned.pieces.mapM (Rendered.ofPiece env)
  return { out with scanner, ended := scanned.ended.reverse ++ out.ended }.add
    ⟨number, line.ending, some content⟩

/-- Adds an empty line in place of a directive or of inactive code. -/
def blank (out : Output) (number : Nat) (line : Line) : Output :=
  out.add ⟨number, line.ending, none⟩

/-- All lines; what still waits is emitted as it is. -/
def lines (out : Output) : List OutputLine := out.flush.emitted.reverse

end Output

end Prepass
