import ImportRedirect.Files.Disk
import ImportRedirect.Host

/-!
A host that is a value: a disk, the working directory, and all that was shown so far.
-/

namespace ImportRedirect

structure World where
  disk : Disk
  workingDirectory : Path
  shown : List Output

abbrev Session : Type → Type := StateM World

namespace World

def absolute (world : World) (path : Path) : Path := world.workingDirectory.join path

def at? (world : World) (path : Path) : Option Entry := world.disk.at? (world.absolute path)

def kind? (world : World) (path : Path) : Option EntryKind :=
  (world.at? path).map fun
    | .file _ => .file
    | .directory => .directory

def read (world : World) (path : Path) : Except FileProblem (List UInt8) :=
  world.disk.read (world.absolute path)

/-- The world with a changed disk; a change that fails leaves it as it was. -/
def change (world : World) (result : Except FileProblem Disk) : Except FileProblem Unit × World :=
  match result with
  | .ok disk => (.ok (), { world with disk })
  | .error problem => (.error problem, world)

def write (world : World) (path : Path) (content : List UInt8) : Except FileProblem Unit × World :=
  world.change (world.disk.write (world.absolute path) content)

def makeDirectory (world : World) (path : Path) : Except FileProblem Unit × World :=
  world.change (world.disk.makeDirectory (world.absolute path))

def filesBelow (world : World) (path : Path) : List (List String) :=
  world.disk.filesBelow (world.absolute path)

def put (world : World) (output : Output) : World := { world with shown := world.shown ++ [output] }

end World

instance : Host Session where
  workingDirectory := fun world => (world.workingDirectory, world)
  kind? path := fun world => (world.kind? path, world)
  read path := fun world => (world.read path, world)
  write path content := fun world => world.write path content
  makeDirectory path := fun world => world.makeDirectory path
  filesBelow path := fun world => (world.filesBelow path, world)
  put output := fun world => ((), world.put output)

end ImportRedirect
