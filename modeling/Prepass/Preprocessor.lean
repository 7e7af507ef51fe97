/- The preprocessing of one file after another. -/
import Prepass.Block
import Prepass.Output
import Prepass.Path
import Prepass.SourceMap.Document
namespace Prepass

/-- An argument whose type is only known when it is used. -/
inductive Argument where
  | text (t : Text)
  | other (typeName : Text)

/-- The variables to begin with. -/
inductive ValuesOption where
  | bindings (pairs : List (Option Text × Value))
  | other

inductive RootOption where
  /-- The working directory. -/
  | default
  | path (t : Text)
  | other

structure Options where
  values : ValuesOption := .bindings []
  comments : Selection := .default
  extensions : ExtensionRequest := .default
  root : RootOption := .default
  /-- None if something other than a truth value is given. -/
  sourceMaps : Option Bool := some true
  /-- The working directory, as the segments below the top. -/
  directory : List Text := []

/-- Why options are refused. -/
inductive OptionError where
  | values (e : BindingError)
  | comments (e : SelectionError)
  | extensions (e : ExtensionError)
  | rootNotPath
  | sourceMapsNotBool

def OptionError.message : OptionError → Text
  | .values e => e.message
  | .comments e => e.message
  | .extensions e => e.message
  | .rootNotPath => "'root' must be PathLike."
  | .sourceMapsNotBool => "'sourcemap' must be a bool."

structure Preprocessor where
  /-- Shared by all files: what one file sets, the next one sees. -/
  environment : Environment
  filter : CommentFilter
  extensions : ExtensionTable
  /-- The directory that file names are made relative to. -/
  root : List Text
  sourceMaps : Bool
  /-- The working directory, from which relative file names lead. -/
  directory : List Text

structure TransformResult where
  code : Text
  map : Option SourceMap
deriving DecidableEq

/-- The outcome of a transformation, with what it changed and said. -/
structure Transformed where
  result : Except Fault TransformResult
  environment : Environment
  log : Log

namespace Diagnostic

/-- An `#error` directive was reached. -/
def user (message file : Text) (line : Nat) : Diagnostic :=
  { kind := .user
    text := if message.isEmpty then "#error directive reached" else message
    file := some file
    line := some line }

end Diagnostic

/-- Does what an active directive says; those about blocks do nothing here. -/
def Directive.execute (env : Environment) (file : Text) (d : Directive) :
    Except Fault (Environment × Log) :=
  match d.action with
  | .set name none => .ok (env.set name .undefined)
  | .set name (some expression) =>
    match Expr.evalText env expression with
    | .ok v => .ok (env.set name v)
    | .error fault => .error (fault.locate (some file) (some d.line))
  | .unset name => .ok (env.unset name)
  | .error message => .error (.reported (.user message file d.line))
  | .opening _ | .elseIf _ | .otherwise | .closing => .ok (env, [])

/-- The state between two lines of a file. -/
structure Run where
  environment : Environment
  blocks : BlockStack := []
  output : Output
  /-- Last entry first. -/
  log : Log := []

/-- A fault, and what was changed and said before it. -/
structure Halt where
  fault : Fault
  environment : Environment
  /-- Last entry first. -/
  log : Log

namespace Run

def halt (run : Run) (fault : Fault) : Halt := ⟨fault, run.environment, run.log⟩

/-- A directive leaves a blank line, then changes the blocks, and is then executed if active. -/
def directive (file : Text) (run : Run) (number : Nat) (line : Line) (d : Directive) :
    Except Halt Run := do
  let blocks ← (run.blocks.process run.environment file d).mapError run.halt
  let output := run.output.blank number line
  if blocks.active then
    let (environment, log) ← (d.execute run.environment file).mapError run.halt
    return { environment, blocks, output, log := log.reverse ++ run.log }
  else return { run with blocks, output }

/-- Takes one more line. -/
def step (style : CommentStyle) (file : Text) (run : Run) (number : Nat) (line : Line) :
    Except Halt Run := do
  let (directive?, log) ←
    (Directive.scan style file number line.text).mapError fun d => run.halt (.reported d)
  let run := { run with log := log.reverse ++ run.log }
  match directive? with
  | some d => run.directive file number line d
  | none =>
    if run.blocks.active then
      let output ← (run.output.code run.environment number line).mapError run.halt
      return { run with output }
    else return { run with output := run.output.blank number line }

/-- Takes the rest of the lines, which are numbered from `number` on. -/
def steps (style : CommentStyle) (file : Text) (run : Run) (number : Nat) :
    List Line → Except Halt Run
  | [] => .ok run
  | line :: rest => do
    let run ← run.step style file number line
    run.steps style file (number + 1) rest

/-- Takes all lines; no block may be left open. -/
def whole (style : CommentStyle) (file : Text) (run : Run) (lines : List Line) :
    Except Halt Run := do
  let run ← run.steps style file 1 lines
  (run.blocks.close file).mapError fun d => run.halt (.reported d)
  return run

end Run

namespace Preprocessor

def resolveRoot (directory : List Text) : RootOption → Except OptionError (List Text)
  | .default => .ok directory
  | .path t => .ok (Path.resolve directory t)
  | .other => .error .rootNotPath

/-- Options are checked in a fixed order; the first one that is wrong is reported. -/
def ofOptions (options : Options) : Except OptionError Preprocessor := do
  let environment ← match options.values with
    | .bindings pairs => (Environment.ofBindings pairs).mapError OptionError.values
    | .other => throw (.values .notAMapping)
  let filter ← (CommentFilter.ofSelection options.comments).mapError OptionError.comments
  let extensions ←
    (ExtensionTable.ofRequest options.extensions).mapError OptionError.extensions
  let root ← resolveRoot options.directory options.root
  match options.sourceMaps with
  | some sourceMaps =>
    return { environment, filter, extensions, root, sourceMaps, directory := options.directory }
  | none => throw .sourceMapsNotBool

/-- Whether files with the extension of this one are processed. -/
def accepts (p : Preprocessor) (file : Text) : Bool := p.extensions.contains (Path.extension file)

/-- Files of unknown extensions are taken for JavaScript. -/
def commentStyle (p : Preprocessor) (file : Text) : CommentStyle :=
  (p.extensions.find? (Path.extension file)).getD .javascript

/-- The path of a file relative to the root directory. -/
def relativePath (p : Preprocessor) (file : Text) : Text :=
  Path.relative p.root (Path.resolve p.directory file)

/-- The result of a file whose lines have all been taken. -/
def finish (p : Preprocessor) (file source : Text) (run : Run) : TransformResult :=
  let lines := run.output.lines
  { code := lines.flatMap fun line => line.text ++ line.ending
    map :=
      if p.sourceMaps then
        some (.ofLines file (some source) (lines.map OutputLine.segments))
      else none }

/-- Preprocesses the text of one file. -/
def transform (p : Preprocessor) (file source : Text) : Transformed :=
  let environment := p.environment.seed (.str (p.relativePath file))
  let style := p.commentStyle file
  let run : Run := { environment, output := .start style p.filter }
  match run.whole style file (Line.split source) with
  | .ok run => ⟨.ok (p.finish file source run), run.environment, run.log.reverse⟩
  | .error halt =>
    ⟨.error (halt.fault.locate (some file) none), halt.environment, halt.log.reverse⟩

end Preprocessor

/-- Why arguments are refused before any work. -/
inductive ArgumentError where
  | sourceNotText
  | notAPath (typeName : Text)

def ArgumentError.message : ArgumentError → Text
  | .sourceNotText => "'source' must be a string."
  | .notAPath typeName => "expected str, bytes or os.PathLike object, not " ++ typeName

/-- A file name has to be a text. -/
def Argument.path : Argument → Except ArgumentError Text
  | .text file => .ok file
  | .other typeName => .error (.notAPath typeName)

/-- A file name and a source that have to be texts. The source is looked at first. -/
def Argument.texts (file source : Argument) : Except ArgumentError (Text × Text) :=
  match source with
  | .other _ => .error .sourceNotText
  | .text source => file.path.map fun file => (file, source)

end Prepass
