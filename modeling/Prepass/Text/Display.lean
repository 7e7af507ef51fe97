/- Texts as they are shown to a developer: in single quotes, with unprintable characters escaped. -/
import Prepass.Text.Quoted
import Prepass.Text.Unprintable
namespace Prepass.Text

def displayEscape (quote c : CodePoint) : Text :=
  if c = quote ∨ c = '\\' then ['\\', c]
  else if c = '\n' then "\\n"
  else if c = '\r' then "\\r"
  else if c = '\t' then "\\t"
  else if !c.isUnprintable then [c]
  else if c.toNat < 0x100 then "\\x" ++ hex 2 c.toNat
  else if c.toNat < 0x10000 then "\\u" ++ hex 4 c.toNat
  else "\\U" ++ hex 8 c.toNat

/-- Double quotes are used for a text that holds a single quote and no double quote. -/
def display (t : Text) : Text :=
  let quote : CodePoint :=
    if t.contains (CodePoint.ofChar '\'') && !t.contains (CodePoint.ofChar '"') then '"' else '\''
  quote :: t.flatMap (displayEscape quote) ++ [quote]

end Prepass.Text
