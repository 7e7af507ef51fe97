/- Paths of files, as far as extensions and relative names need them. -/
import Prepass.Comment.Extensions
namespace Prepass.Path

/-- The segments of a path, without those that mean nothing. -/
def segments (path : Text) : List Text :=
  (Text.splitOn '/' path).filter fun s => !s.isEmpty && s ≠ [CodePoint.ofChar '.']

def parent : Text := ".."

def isAbsolute (path : Text) : Bool := path.head? = some (CodePoint.ofChar '/')

/-- Where a path leads from a directory, as the segments below the top. -/
def resolve (directory : List Text) (path : Text) : List Text :=
  (segments path).foldl (fun above s => if s = parent then above.dropLast else above ++ [s])
    (if isAbsolute path then [] else directory)

/-- The beginning that two paths share, left out. -/
def dropShared : List Text → List Text → List Text × List Text
  | a :: as, b :: bs => if a = b then dropShared as bs else (a :: as, b :: bs)
  | as, bs => (as, bs)

/-- The way from a directory to a file. -/
def relative (directory file : List Text) : Text :=
  let (up, down) := dropShared directory file
  match up.map (fun _ => parent) ++ down with
  | [] => "."
  | way => Text.join "/" way

/-- What follows the last point of the last segment, in lowercase. A point at the beginning or at
the end of the segment does not count. -/
def extension (path : Text) : Text :=
  let name := (segments path).getLastD []
  let tail := (name.reverse.takeWhile (· ≠ CodePoint.ofChar '.')).reverse
  if tail.isEmpty || name.length ≤ tail.length + 1 then [] else Text.lower tail

end Prepass.Path
