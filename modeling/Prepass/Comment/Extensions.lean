/- Comment styles by file extension. -/
import Prepass.Comment.Style
import Prepass.Table
import Prepass.Text.Lowercase
namespace Prepass

/-- A file extension as it was given: a text, or something else that shows as a text. -/
inductive ExtensionLabel where
  | text (t : Text)
  | other (shown : Text)
deriving DecidableEq

def ExtensionLabel.shown : ExtensionLabel → Text
  | .text t | .other t => t

inductive StyleChoice where
  | named (name : Text)
  | given (style : CommentStyle)
  | other

/-- Which extensions are asked for. -/
inductive ExtensionRequest where
  | default
  /-- Extensions whose style is known. -/
  | known (labels : List ExtensionLabel)
  | mapping (entries : List (ExtensionLabel × StyleChoice))
  | other

inductive ExtensionError where
  | notARequest
  | notText
  | unknownStyle (name : Text)
  | notAStyle (label : Text)
  | unknownExtension (extension : Text)
deriving DecidableEq

def ExtensionError.message : ExtensionError → Text
  | .notARequest => "'extensions' must be a list or a mapping."
  | .notText => "Each extension must be a string."
  | .unknownStyle name => "Unknown comment syntax: '" ++ name ++ "'."
  | .notAStyle label => "Syntax for '" ++ label ++ "' must be a CommentSyntax or a name."
  | .unknownExtension extension =>
    "No comment syntax known for '" ++ extension ++ "'; pass a mapping to 'extensions' instead."

/-- The styles of the accepted extensions. -/
abbrev ExtensionTable := Table Text CommentStyle

namespace ExtensionTable

def byDefault : ExtensionTable :=
  ["js", "mjs", "cjs", "jsx", "es6", "ts", "tsx"].map fun (extension : String) =>
    (extension, .javascript)

/-- Every extension whose style is known. -/
def wellKnown : ExtensionTable :=
  byDefault ++
    (["css", "scss", "less"].map fun (extension : String) =>
      ((extension : Text), CommentStyle.stylesheet)) ++
    ["html", "htm", "xml", "svg", "vue"].map fun (extension : String) =>
      ((extension : Text), CommentStyle.markup)

/-- Extensions are compared in lowercase and without leading points. -/
def normalize (extension : Text) : Text :=
  Text.lower (extension.dropWhile (· = CodePoint.ofChar '.'))

def labelText : ExtensionLabel → Except ExtensionError Text
  | .text t => .ok (normalize t)
  | .other _ => .error .notText

def addKnown (table : ExtensionTable) (label : ExtensionLabel) :
    Except ExtensionError ExtensionTable := do
  let extension ← labelText label
  match wellKnown.find? extension with
  | some style => return table.insert extension style
  | none => throw (.unknownExtension extension)

def addMapped (table : ExtensionTable) (entry : ExtensionLabel × StyleChoice) :
    Except ExtensionError ExtensionTable := do
  let style ← match entry.2 with
    | .given style => pure style
    | .named name =>
      match CommentStyle.named? name with
      | some style => pure style
      | none => throw (.unknownStyle name)
    | .other => throw (.notAStyle entry.1.shown)
  let extension ← labelText entry.1
  return table.insert extension style

def ofRequest : ExtensionRequest → Except ExtensionError ExtensionTable
  | .default => .ok byDefault
  | .known labels => labels.foldlM addKnown byDefault
  | .mapping entries => (Table.ofPairs entries).foldlM addMapped byDefault
  | .other => .error .notARequest

end ExtensionTable

end Prepass
