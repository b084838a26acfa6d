import ImportRedirect.Audit
import ImportRedirect.Command.Invocation
import ImportRedirect.Command.Surroundings
import ImportRedirect.Text.Percent
import ImportRedirect.Value.Printer

/-!
The audit of a script or of all scripts in a directory: a report for the reader or for programs.
Nothing is written to files.
-/

namespace ImportRedirect.Command

structure Finding where
  function : String
  covered : Bool
  module : Option String
  deriving DecidableEq, Repr

namespace Finding

def ofEntry? (entry : AuditEntry) : Option Finding :=
  match entry.function with
  | .str function => some ⟨function, entry.covered, entry.module⟩
  | _ => none

def put (findings : List Finding) (finding : Finding) : List Finding :=
  if findings.any (·.function == finding.function) then
    findings.map fun other => if other.function == finding.function then finding else other
  else findings ++ [finding]

def moduleText (finding : Finding) : String := finding.module.getD ""

def precedes (a b : Finding) : Bool := a.function ≤ b.function

def precedesByModule (a b : Finding) : Bool :=
  a.moduleText < b.moduleText || (a.moduleText == b.moduleText && a.precedes b)

def toValue (finding : Finding) : Value :=
  .obj [("function", .str finding.function), ("covered", .bool finding.covered),
    ("module", .ofOption finding.module)]

end Finding

def findingsIn (settings : Settings) (surface : Surface) (text : String) :
    Except Fault (List Finding) := do
  let program ← Script.program text
  let (outcome, entries) := audit ⟨⟨settings, surface⟩, Usage.scan, text⟩ program []
  outcome
  return entries.filterMap Finding.ofEntry?

variable {m : Type → Type} [Monad m] [Host m]

/-- Adds what a script uses. A script that cannot be read or has no meaning is told and left out. -/
def auditFile (settings : Settings) (surface : Surface) (findings : List Finding) (path : Path) :
    ExceptT Fault m (List Finding) := do
  let skip := fun (reason : String) => do
    Host.log .error s!"Failed to parse {path.name}: {reason}"
    return findings
  match ← Sources.read path with
  | .error reason => skip reason
  | .ok text =>
    match findingsIn settings surface text with
    | .ok found => return found.foldl Finding.put findings
    | .error fault@(.badSyntax _) => skip fault.message
    | .error fault => throw fault

def findingsText (findings : List Finding) : String :=
  (Value.arr ((findings.mergeSort Finding.precedes).map Finding.toValue)).pretty 0 ++ "\n"

def showFindings (input : Path) (findings : List Finding) : m Unit := do
  let missing := findings.filter (!·.covered)
  let covered := findings.length - missing.length
  if !missing.isEmpty then
    let rows := (missing.mergeSort Finding.precedesByModule).map fun finding =>
      [finding.moduleText, finding.function]
    Host.put (.table ⟨"❌ Functions Not Covered by the Replacement", ["Module", "Function"], rows⟩)
    Host.note "\n"
  Host.note s!"[bold]Audit Summary for {input.name}[/bold]"
  Host.note s!"Functions Found: {findings.length}"
  Host.note s!"Covered:         [green]{covered}[/green]"
  Host.note s!"Not Covered:     [red]{missing.length}[/red]"
  let percent := Text.Percent.text covered findings.length
  Host.note s!"Coverage:        [blue]{percent}%[/blue]"

/-- The sources that a path leads to: the file itself, or those in the directory. -/
def sourcesAt (kind : EntryKind) (input : Path) (extensions : List String) : m (List Path) := do
  match kind with
  | .file => return [input]
  | .directory =>
    return (← Sources.collect input extensions).map (Sources.pathOf input)

/-- Audits what is asked for. The exit code tells whether every function is covered. -/
def runAudit (request : AuditRequest) : ExceptT Fault m Nat := do
  match ← Host.kind? request.input with
  | none =>
    Host.log .error s!"Path not found: {request.input.text}"
    return 1
  | some kind =>
    let settings ← settingsAround request.overrides request.input
    match ← withSurface settings with
    | none => return 1
    | some surface =>
      let sources ← sourcesAt kind request.input settings.extensions
      if !request.isJson then
        Host.log .info
          s!"Auditing {sources.length} files against {surface.size} covered functions..."
      let findings ← sources.foldlM (auditFile settings surface) []
      if request.isJson then Host.put (.result (findingsText findings))
      else showFindings request.input findings
      return if findings.all (·.covered) then 0 else 1

end ImportRedirect.Command
