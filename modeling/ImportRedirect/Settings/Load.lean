import ImportRedirect.Host
import ImportRedirect.Settings
import ImportRedirect.Toml.Document

/-!
Settings as a command finds them: those of the nearest project file, overridden by arguments.
-/

namespace ImportRedirect

structure Overrides where
  excludes : List String
  replacementModule : Option String
  surfacePath : Option Path
  deriving DecidableEq, Repr

namespace Settings

def projectFile : String := "pyproject.toml"

/-- Whether settings of a project have an entry. Settings should be a table; in a text or a list the
key itself is looked for. -/
def hasEntry (entries : Value) (key : String) : Except Fault Bool :=
  match entries with
  | .obj fields => .ok (Value.lookup key fields).isSome
  | .arr items => .ok (items.contains (.str key))
  | .str text => .ok ((text.splitOn key).length != 1)
  | _ => .error .wrongKind

def find? (entries : Value) (key : String) : Except Fault (Option Value) := do
  if ← hasEntry entries key then return some (← entries.field key) else return none

def plainKeys : List String :=
  ["legacy_modules", "dotted_prefixes", "single_file_extensions", "require_callee", "extensions"]

def plainFields (entries : Value) : List String → Except Fault (List (String × Value))
  | [] => .ok []
  | key :: keys => do
    let found ← find? entries key
    let rest ← plainFields entries keys
    return (found.map fun value => (key, value)).toList ++ rest

/-- The replacement module: an argument that has characters comes first. -/
def replacementField (entries : Value) (overrides : Overrides) :
    Except Fault (List (String × Value)) := do
  let replacement ← match overrides.replacementModule.filter (· != "") with
    | some name => pure (Value.str name)
    | none => entries.get "replacement_module"
  return if replacement.isPresent then [("replacement_module", replacement)] else []

def excludesField (entries : Value) (overrides : Overrides) :
    Except Fault (List (String × Value)) := do
  let excluded ← (← entries.getD "excludes" (.arr [])).parts
  return [("excludes", .arr (Value.distinct (excluded ++ overrides.excludes.map .str)))]

/-- The path of the snapshot. In a project file it starts from the project's directory. -/
def surfaceField (entries : Value) (directory : Path) (overrides : Overrides) :
    Except Fault (List (String × Value)) := do
  let path ← match overrides.surfacePath with
    | some path => pure (some path)
    | none =>
      match ← find? entries "surface_path" with
      | none => pure none
      | some (.str text) => pure (some (Path.resolve directory (Path.parse text)))
      | some _ => throw .wrongKind
  return (path.map fun path => ("surface_path", Value.str path.text)).toList

/-- The settings that the entries of a project in `directory` and the arguments make. -/
def ofEntries (entries : Value) (directory : Path) (overrides : Overrides) :
    Except Fault Settings := do
  let plain ← plainFields entries plainKeys
  let replacement ← replacementField entries overrides
  let excludes ← excludesField entries overrides
  let surface ← surfaceField entries directory overrides
  ofFields (plain ++ replacement ++ excludes ++ surface)

/-- The entries that a project file with this content holds. What is no such document has none. -/
def entriesOf (content : List UInt8) : Except Fault Value :=
  match Text.Utf8.decode content with
  | .error error => .error (.undecodable error)
  | .ok text =>
    match Toml.parse? text with
    | none => .ok (.obj [])
    | some table => do
      let tools ← (Value.obj table).getD "tool" (.obj [])
      tools.getD "es_switcheroo" (.obj [])

variable {m : Type → Type} [Monad m] [Host m]

def findProject? : List Path → m (Option Path)
  | [] => return none
  | directory :: rest => do
    if (← Host.kind? (directory.join ⟨"", [projectFile]⟩)) == some .file then return some directory
    else findProject? rest

def findEntries (start : Path) : ExceptT Fault m (Value × Path) := do
  match ← findProject? start.ancestors with
  | none => return (.obj [], start)
  | some directory =>
    match ← Host.read (directory.join ⟨"", [projectFile]⟩) with
    | .error _ => return (.obj [], start)
    | .ok content => return (← ofExcept (entriesOf content), directory)

/-- The settings for work in a directory; without one, in the working directory. -/
def load (overrides : Overrides) (directory : Option Path) : ExceptT Fault m Settings := do
  let workingDirectory ← Host.workingDirectory
  let start := Path.resolve workingDirectory (directory.getD workingDirectory)
  let (entries, project) ← findEntries start
  ofExcept (ofEntries entries project overrides)

end Settings

end ImportRedirect
