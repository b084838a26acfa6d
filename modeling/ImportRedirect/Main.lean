import ImportRedirect.Command.Run

/-!
The program on a real machine. Results go to the standard output, everything else to the standard
error output.
-/

namespace ImportRedirect.Machine

def problemOf (error : IO.Error) : FileProblem :=
  match error with
  | .noFileOrDirectory .. => .notFound
  | .alreadyExists .. => .alreadyExists
  | .inappropriateType _ 20 _ => .notDirectory
  | .inappropriateType _ 21 _ => .isDirectory
  | .permissionDenied _ number reason => .other number.toNat reason
  | _ => .other 5 "Input/output error"

def attempt {α : Type} (action : IO α) : IO (Except FileProblem α) := do
  match ← action.toBaseIO with
  | .ok result => return .ok result
  | .error error => return .error (problemOf error)

def kind? (path : Path) : IO (Option EntryKind) := do
  match ← attempt (do return (← (← IO.FS.realPath ⟨path.text⟩).metadata).type) with
  | .ok .file => return some .file
  | .ok .dir => return some .directory
  | _ => return none

/-- The files below a directory. Links to directories are not followed. -/
partial def filesBelow (path : Path) (names : List String) : IO (List (List String)) := do
  let here := path.join ⟨"", names⟩
  match ← attempt (do (← IO.FS.realPath ⟨here.text⟩).readDir) with
  | .error _ => return []
  | .ok entries =>
    let mut found := []
    for entry in entries do
      let names := names ++ [entry.fileName]
      match ← attempt entry.path.symlinkMetadata with
      | .ok metadata =>
        if metadata.type == .dir then found := found ++ (← filesBelow path names)
        else if (← kind? (path.join ⟨"", names⟩)) == some .file then found := found ++ [names]
      | .error _ => pure ()
    return found

def put (output : Output) : IO Unit := do
  match output with
  | .result text => (← IO.getStdout).putStr text
  | .log line => IO.eprintln (line.level.name ++ " " ++ Markup.strip line.text)
  | .note text => IO.eprintln (Markup.strip text)
  | .misuse text => IO.eprintln text
  | .table table =>
    IO.eprintln table.title
    for row in table.columns :: table.rows do
      IO.eprintln (" | ".intercalate row)

instance : Host IO where
  workingDirectory := do return Path.parse (← IO.currentDir).toString
  kind? := kind?
  read path := do return (← attempt (IO.FS.readBinFile ⟨path.text⟩)).map (·.toList)
  write path content := attempt (IO.FS.writeBinFile ⟨path.text⟩ ⟨content.toArray⟩)
  makeDirectory path := attempt (IO.FS.createDir ⟨path.text⟩)
  filesBelow path := filesBelow path []
  put := put

end ImportRedirect.Machine

open ImportRedirect in
def main (arguments : List String) : IO UInt32 := do
  match ← (Command.run arguments : ExceptT Fault IO Nat).run with
  | .ok code => return code.toUInt32
  | .error fault =>
    IO.eprintln fault.message
    return 1
