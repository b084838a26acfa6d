import ImportRedirect.Host
import ImportRedirect.Text.Case
import ImportRedirect.Text.Lines
import ImportRedirect.Text.Utf8

/-!
Source files: which files of a directory are scripts, in which order they are handled, and how the
text of one is read.
-/

namespace ImportRedirect.Sources

def precedes : List String → List String → Bool
  | [], _ => true
  | _ :: _, [] => false
  | a :: v, b :: w => a < b || (a == b && precedes v w)

/-- Whether the file with these names below a directory is a source. What lies in installed packages
is none. -/
def isSource (extensions : List String) (names : List String) : Bool :=
  extensions.contains (Text.lower (Path.suffix ⟨"", names⟩)) && !names.contains "node_modules"

def select (extensions : List String) (files : List (List String)) : List (List String) :=
  (files.filter (isSource extensions)).mergeSort precedes

def collect {m : Type → Type} [Monad m] [Host m] (directory : Path) (extensions : List String) :
    m (List (List String)) := do
  return select extensions (← Host.filesBelow directory)

def pathOf (directory : Path) (names : List String) : Path := directory.join ⟨"", names⟩

def decode (content : List UInt8) : Except Text.Utf8.DecodeError String :=
  (Text.Utf8.decode content).map Text.unifyLines

def read {m : Type → Type} [Monad m] [Host m] (path : Path) : m (Except String String) := do
  match ← Host.read path with
  | .error problem => return .error (FileError.message ⟨problem, path⟩)
  | .ok content =>
    match decode content with
    | .error error => return .error error.message
    | .ok text => return .ok text

end ImportRedirect.Sources
