/- Lines and their endings. -/
import Prepass.Text.Basic
namespace Prepass

structure Line where
  text : Text
  /-- A newline, a carriage return, or both; the last line may have none. -/
  ending : Text
deriving DecidableEq

namespace Line

/-- The lines of a text. -/
def split : Text → List Line
  | [] => []
  | [c] =>
    if c = '\n' then [⟨[], "\n"⟩] else if c = '\r' then [⟨[], "\r"⟩] else [⟨[c], []⟩]
  | c :: d :: rest =>
    if c = '\n' then ⟨[], "\n"⟩ :: split (d :: rest)
    else if c = '\r' then
      if d = '\n' then ⟨[], "\r\n"⟩ :: split rest else ⟨[], "\r"⟩ :: split (d :: rest)
    else match split (d :: rest) with
      | [] => [⟨[c], []⟩]
      | line :: lines => ⟨c :: line.text, line.ending⟩ :: lines

end Line

end Prepass
