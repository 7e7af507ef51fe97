/- Which comments are kept. -/
import Prepass.Comment.Scanner
import Prepass.Pattern
import Prepass.Text.Display
namespace Prepass

/-- A rule that keeps comments. -/
inductive Selector where
  /-- The name of a well-known pattern, or a tag with which a comment begins. -/
  | text (t : Text)
  /-- Whatever can be searched for in a comment. -/
  | pattern (found : Text → Bool)
  /-- Something that cannot select. -/
  | other

/-- What may be asked for about comments. -/
inductive Selection where
  | default
  | flag (keep : Bool)
  | one (selector : Selector)
  | several (selectors : List Selector)

inductive SelectionError where
  | notASelection
  | notASelector
deriving DecidableEq

def SelectionError.message : SelectionError → Text
  | .notASelection => "'comments' must be a bool, a string, a pattern or a list."
  | .notASelector => "Each comment selector must be a string or a pattern."

structure CommentFilter where
  keepAll : Bool := false
  /-- Each tells whether it is found in a text. -/
  patterns : List (Text → Bool) := []
  tags : List Text := []

namespace Pattern

/-- The opener of a line comment or of a block comment, at the start of the text. -/
def opener : Pattern := seqOf [.start, exactly '/', anyOf "/*"]

def blanks : Pattern := .run 0 [.blank]

def words (texts : List String) : Pattern := oneOf (texts.map fun (s : String) => text s)

/-- The patterns that are known by name. -/
def wellKnown : List (Text × Pattern) :=
  [("license", seqOf [text "@license", .boundary]),
   ("some", oneOf [seqOf [words ["@license", "@preserve", "@cc_on"], .boundary],
      seqOf [opener, exactly '!']]),
   ("eslint", seqOf [opener, blanks, words ["eslint", "global", "exported"], .boundary]),
   ("flow", seqOf [opener, blanks,
      words ["@flow", "$FlowFixMe", "$FlowIssue", "$FlowIgnore"]]),
   ("istanbul", seqOf [opener, blanks, text "istanbul", .char [.blank]]),
   ("jshint", seqOf [opener, blanks, words ["jshint", "globals", "exported"], .char [.blank]]),
   ("jscs", seqOf [opener, blanks, text "jscs:", anyOf "ed"]),
   ("ts", seqOf [opener, blanks, text "@ts-"]),
   ("ts3s", seqOf [.start, text "///", blanks, exactly '<', words ["reference", "amd-"]]),
   ("srcmaps", seqOf [opener, anyOf "#@", blanks,
      words ["sourceURL=", "sourceMappingURL="]])]

def wellKnown? (name : Text) : Option Pattern :=
  (wellKnown.find? (·.1 = name)).map Prod.snd

end Pattern

/-- A pattern selects the comments in which it is found. -/
instance : Coe Pattern (Text → Bool) := ⟨Pattern.search⟩

namespace CommentFilter

def add (f : CommentFilter) : Selector → Except SelectionError CommentFilter
  | .pattern found => .ok { f with patterns := f.patterns ++ [found] }
  | .other => .error .notASelector
  | .text t =>
    if t = Text.ofString "all" then .ok { f with keepAll := true }
    else if t = Text.ofString "none" then .ok f
    else match Pattern.wellKnown? t with
      | some p => .ok { f with patterns := f.patterns ++ [↑p] }
      | none => .ok { f with tags := f.tags ++ [t] }

/-- By default the comments that tools ask to be kept are kept. -/
def ofSelection : Selection → Except SelectionError CommentFilter
  | .default => add {} (.text "some")
  | .flag keep => .ok { keepAll := keep }
  | .one .other => .error .notASelection
  | .one selector => add {} selector
  | .several selectors => selectors.foldlM add {}

/-- Patterns are searched for in the whole comment; a tag has to begin its body. -/
def keeps (f : CommentFilter) (c : Comment) : Bool :=
  f.keepAll || f.patterns.any (· c.text) || f.tags.any (·.isPrefixOf c.body)

/-- A filter without patterns as it is shown to a developer. -/
def display (f : CommentFilter) : Text :=
  "CommentFilter(keep_all=" ++ (if f.keepAll then ("True" : Text) else "False") ++
    ",patterns=[],tags=[" ++ Text.join ", " (f.tags.map Text.display) ++ "])"

end CommentFilter

end Prepass
