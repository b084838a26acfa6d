import ImportRedirect.Files.Path
import ImportRedirect.Text.Quoted

/-!
Why operations on files fail.
-/

namespace ImportRedirect

inductive FileProblem where
  | notFound
  | alreadyExists
  | notDirectory
  | isDirectory
  /-- A failure of another kind, with its number and its wording. -/
  | other (number : Nat) (reason : String)
  deriving DecidableEq, Repr

namespace FileProblem

def number : FileProblem → Nat
  | .notFound => 2
  | .alreadyExists => 17
  | .notDirectory => 20
  | .isDirectory => 21
  | .other number _ => number

def reason : FileProblem → String
  | .notFound => "No such file or directory"
  | .alreadyExists => "File exists"
  | .notDirectory => "Not a directory"
  | .isDirectory => "Is a directory"
  | .other _ reason => reason

end FileProblem

/-- A failed operation: what stood in the way, and the path it was asked of. -/
structure FileError where
  problem : FileProblem
  path : Path
  deriving DecidableEq, Repr

def FileError.message (error : FileError) : String :=
  s!"[Errno {error.problem.number}] {error.problem.reason}: {Text.Quoted.quote error.path.text}"

end ImportRedirect
