/- How comments are written in a family of files. -/
import Prepass.Text.Basic
namespace Prepass

/-- What begins and ends a comment that may span lines. -/
structure BlockDelimiters where
  opener : Text
  closer : Text
deriving DecidableEq

structure CommentStyle where
  name : Text
  /-- Openers of comments that run to the end of their line. -/
  lineOpeners : List Text := []
  blocks : List BlockDelimiters := []
  /-- Characters that begin and end a string literal. -/
  quotes : List CodePoint := []
  /-- Quotes of literals that may span lines. -/
  multilineQuotes : List CodePoint := []
  /-- Whether a slash in operand position begins a regular expression literal. -/
  regexLiterals : Bool := false
deriving DecidableEq

namespace CommentStyle

def openers (style : CommentStyle) : List Text :=
  style.lineOpeners ++ style.blocks.map BlockDelimiters.opener

def closers (style : CommentStyle) : List Text := style.blocks.map BlockDelimiters.closer

def javascript : CommentStyle :=
  { name := "javascript"
    lineOpeners := ["//"]
    blocks := [⟨"/*", "*/"⟩]
    quotes := ['\'', '"', '\x60']
    multilineQuotes := ['\x60']
    regexLiterals := true }

def stylesheet : CommentStyle :=
  { name := "stylesheet", lineOpeners := ["//"], blocks := [⟨"/*", "*/"⟩], quotes := ['\'', '"'] }

def markup : CommentStyle := { name := "markup", blocks := [⟨"<!--", "-->"⟩] }

/-- The styles that can be asked for by name. -/
def named? (name : Text) : Option CommentStyle :=
  [javascript, stylesheet, markup].find? (·.name = name)

/-- The longest of the openers that a text begins with, the earliest of several equally long. -/
def longestOpener? (openers : List Text) (t : Text) : Option Text :=
  openers.foldl
    (fun best opener =>
      if opener.isPrefixOf t && best.all (List.length · < opener.length) then some opener else best)
    none

end CommentStyle

end Prepass
