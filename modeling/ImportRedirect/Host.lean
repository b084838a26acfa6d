import ImportRedirect.Console
import ImportRedirect.Files.Problem

/-!
What commands need of the machine they run on: files, and a place to show things.
-/

namespace ImportRedirect

inductive EntryKind where
  | file
  | directory
  deriving DecidableEq, Repr

class Host (m : Type → Type) where
  workingDirectory : m Path
  kind? : Path → m (Option EntryKind)
  read : Path → m (Except FileProblem (List UInt8))
  write : Path → List UInt8 → m (Except FileProblem Unit)
  makeDirectory : Path → m (Except FileProblem Unit)
  filesBelow : Path → m (List (List String))
  put : Output → m Unit

namespace Host

variable {m : Type → Type} [Monad m] [Host m]

instance {ε : Type} : Host (ExceptT ε m) where
  workingDirectory := ExceptT.lift workingDirectory
  kind? path := ExceptT.lift (kind? path)
  read path := ExceptT.lift (read path)
  write path content := ExceptT.lift (write path content)
  makeDirectory path := ExceptT.lift (makeDirectory path)
  filesBelow path := ExceptT.lift (filesBelow path)
  put output := ExceptT.lift (put output)

def log (level : Level) (message : String) : m Unit := put (.log ⟨level, message⟩)

def note (text : String) : m Unit := put (.note text)

def makeDirectoryOnce (path : Path) : m (Except FileError Unit) := do
  match ← makeDirectory path with
  | .ok () => return .ok ()
  | .error problem =>
    if (← kind? path) == some .directory then return .ok () else return .error ⟨problem, path⟩

/-- Makes the directory with these names, the last one first, and the directories it lies in. -/
def makeDirectoriesAt (root : String) : List String → m (Except FileError Unit)
  | [] => makeDirectoryOnce ⟨root, []⟩
  | last :: above => do
    let path : Path := ⟨root, (last :: above).reverse⟩
    match ← makeDirectory path with
    | .ok () => return .ok ()
    | .error .notFound =>
      match ← makeDirectoriesAt root above with
      | .ok () => makeDirectoryOnce path
      | .error error => return .error error
    | .error problem =>
      if (← kind? path) == some .directory then return .ok () else return .error ⟨problem, path⟩

/-- Makes a directory and the directories it lies in, unless they exist. -/
def makeDirectories (path : Path) : m (Except FileError Unit) :=
  makeDirectoriesAt path.root path.parts.reverse

def save (path : Path) (content : List UInt8) : m (Except FileError Unit) := do
  match ← makeDirectories path.parent with
  | .error error => return .error error
  | .ok () =>
    match ← write path content with
    | .ok () => return .ok ()
    | .error problem => return .error ⟨problem, path⟩

end Host

end ImportRedirect
