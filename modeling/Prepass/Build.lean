/- The preprocessing of a sequence of files. -/
import Prepass.Preprocessor
namespace Prepass

/-- What became of the files. Later files of a name replace earlier ones. -/
structure Build where
  results : Table Text TransformResult := []
  errors : Table Text Diagnostic := []

/-- A build, or the fault that ended it, with what was changed and said. -/
structure Built where
  result : Except Fault Build
  environment : Environment
  log : Log

namespace Build

def isOk (b : Build) : Bool := b.errors.isEmpty

end Build

namespace Preprocessor

/-- Transforms the accepted files in order, each with the environment that the one before it left.
With `keepGoing`, problems of a file are recorded and logged, and the next file follows. -/
def buildFrom (p : Preprocessor) (keepGoing : Bool) (build : Build) (log : Log) :
    List (Text × Text) → Built
  | [] => ⟨.ok build, p.environment, log⟩
  | (file, source) :: rest =>
    if !p.accepts file then buildFrom p keepGoing build log rest
    else
      let t := p.transform file source
      let p := { p with environment := t.environment }
      let log := log ++ t.log
      match t.result with
      | .ok result =>
        buildFrom p keepGoing { build with results := build.results.insert file result } log rest
      | .error (.reported d) =>
        if keepGoing then
          buildFrom p keepGoing { build with errors := build.errors.insert file d }
            (log ++ [⟨.error, d.message⟩]) rest
        else ⟨.error (.reported d), p.environment, log⟩
      | .error fault => ⟨.error fault, p.environment, log⟩

def build (p : Preprocessor) (keepGoing : Bool) (files : List (Text × Text)) : Built :=
  p.buildFrom keepGoing {} [] files

end Preprocessor

end Prepass
