/- The mappings of a source map: where each part of an output line comes from. -/
import Prepass.SourceMap.Vlq
namespace Prepass

/-- From a generated column on, the output comes from a place of the source. All count from zero. -/
structure Segment where
  generated : Int
  line : Int
  column : Int
deriving DecidableEq

/-- A segment that was read back; one without an origin only ends the one before it. -/
structure DecodedSegment where
  generated : Int
  /-- Source, line and column. -/
  origin : Option (Int × Int × Int)
deriving DecidableEq

namespace Mappings

/-- The place that the next segment is given relative to. -/
structure Cursor where
  source : Int := 0
  line : Int := 0
  column : Int := 0

def encodeSegment (generated : Int) (cursor : Cursor) (s : Segment) : Text :=
  Vlq.encode (s.generated - generated) ++ Vlq.encode 0 ++ Vlq.encode (s.line - cursor.line) ++
    Vlq.encode (s.column - cursor.column)

/-- The segments of a line, and the place of the last one. -/
def encodeLine (generated : Int) (cursor : Cursor) : List Segment → List Text × Cursor
  | [] => ([], cursor)
  | s :: rest =>
    let (more, last) := encodeLine s.generated { cursor with line := s.line, column := s.column } rest
    (encodeSegment generated cursor s :: more, last)

def encodeLines (cursor : Cursor) : List (List Segment) → List Text
  | [] => []
  | segments :: rest =>
    let (texts, cursor) := encodeLine 0 cursor segments
    Text.join "," texts :: encodeLines cursor rest

def encode (lines : List (List Segment)) : Text := Text.join ";" (encodeLines {} lines)

/-- The segments of a line from their texts, and the place of the last one. -/
def decodeLine (generated : Int) (cursor : Cursor) :
    List Text → Except Vlq.DecodeError (List DecodedSegment × Cursor)
  | [] => .ok ([], cursor)
  | [] :: rest => decodeLine generated cursor rest
  | t :: rest => do
    match ← Vlq.decode t with
    | step :: source :: line :: column :: _ =>
      let cursor : Cursor :=
        ⟨cursor.source + source, cursor.line + line, cursor.column + column⟩
      let (more, last) ← decodeLine (generated + step) cursor rest
      return (⟨generated + step, some (cursor.source, cursor.line, cursor.column)⟩ :: more, last)
    | step :: _ =>
      let (more, last) ← decodeLine (generated + step) cursor rest
      return (⟨generated + step, none⟩ :: more, last)
    | [] => decodeLine generated cursor rest

def decodeLines (cursor : Cursor) : List Text → Except Vlq.DecodeError (List (List DecodedSegment))
  | [] => .ok []
  | line :: rest => do
    let (segments, cursor) ← decodeLine 0 cursor (Text.splitOn ',' line)
    let more ← decodeLines cursor rest
    return segments :: more

def decode (mappings : Text) : Except Vlq.DecodeError (List (List DecodedSegment)) :=
  decodeLines {} (Text.splitOn ';' mappings)

end Mappings

end Prepass
