/- Version 3 source maps of a single source, and their written forms. -/
import Prepass.SourceMap.Mappings
import Prepass.Text.Quoted
namespace Prepass

structure SourceMap where
  file : Text
  /-- The text of the source, if it is included. -/
  content : Option Text
  mappings : Text
deriving DecidableEq

namespace SourceMap

def ofLines (file : Text) (content : Option Text) (lines : List (List Segment)) : SourceMap :=
  ⟨file, content, Mappings.encode lines⟩

/-- The map as a JSON document in ASCII characters. -/
def toJson (map : SourceMap) : Text :=
  "\x7b\"version\": 3, \"file\": " ++ Text.quoteAscii map.file ++
    ", \"sources\": [" ++ Text.quoteAscii map.file ++
    "], \"sourcesContent\": [" ++ (map.content.map Text.quoteAscii).getD "null" ++
    "], \"names\": [], \"mappings\": " ++ Text.quoteAscii map.mappings ++ "\x7d"

/-- Groups of three octets as four digits of the base64 alphabet, with padding at the end. -/
def base64 : List Nat → Text
  | [] => []
  | [a] => [Vlq.digit (a / 4), Vlq.digit (a % 4 * 16), '=', '=']
  | [a, b] => [Vlq.digit (a / 4), Vlq.digit (a % 4 * 16 + b / 16), Vlq.digit (b % 16 * 4), '=']
  | a :: b :: c :: rest =>
    Vlq.digit (a / 4) :: Vlq.digit (a % 4 * 16 + b / 16) :: Vlq.digit (b % 16 * 4 + c / 64) ::
      Vlq.digit (c % 64) :: base64 rest

/-- The map as a data URI. The document is ASCII, so its code points are its octets. -/
def toUrl (map : SourceMap) : Text :=
  "data:application/json;charset=utf-8;base64," ++ base64 (map.toJson.map CodePoint.toNat)

end SourceMap

end Prepass
