import ImportRedirect.Command.Invocation
import ImportRedirect.Command.Surroundings
import ImportRedirect.Value.Printer

/-!
The conversion of a script or of all scripts in a directory. Scripts are handled one after the
other, and one that fails does not keep the others from being handled.
-/

namespace ImportRedirect.Command

structure Job where
  source : Path
  target : Option Path
  trace : Option Path
  deriving DecidableEq, Repr

structure JobResult where
  errors : List String
  diagnostics : List Diagnostic
  deriving DecidableEq, Repr

namespace JobResult

def failed (error : String) : JobResult := ⟨[error], []⟩

def success (result : JobResult) : Bool := result.errors.isEmpty

def isClean (result : JobResult) : Bool := result.success && result.diagnostics.isEmpty

def status (result : JobResult) : String := if result.success then "⚠️ Kept" else "❌ Failed"

def issues (result : JobResult) : String :=
  let told := if result.success then result.diagnostics.map (·.message) else result.errors
  "; ".intercalate told

end JobResult

variable {m : Type → Type} [Monad m] [Host m]

def saveTrace (path : Path) (trace : Trace) : m Unit := do
  match ← Host.save path (traceContent trace) with
  | .ok () => Host.log .info s!"Trace saved to [path]{path.text}[/path]"
  | .error error => Host.log .error s!"Failed to write trace: {error.message}"

/-- Writes a converted script, or shows it when it has no target. -/
def deliver (job : Job) (conversion : Conversion) : m JobResult := do
  match job.target with
  | none =>
    Host.put (.result conversion.code)
    return ⟨[], conversion.diagnostics⟩
  | some target =>
    match ← Host.save target (Text.Utf8.encode conversion.code) with
    | .error error =>
      Host.log .error s!"Failed to write {target.text}: {error.message}"
      return .failed error.message
    | .ok () =>
      Host.log .success s!"Rewrote: [path]{job.source.text}[/path] -> [path]{target.text}[/path]"
      return ⟨[], conversion.diagnostics⟩

def convertText (engine : Engine) (job : Job) (text : String) : ExceptT Fault m JobResult := do
  let conversion ← ofExcept (engine.convert text)
  conversion.log.forM fun line => Host.put (.log line)
  match job.trace with
  | some path => saveTrace path conversion.trace
  | none => pure ()
  if conversion.success then deliver job conversion
  else
    let errors := "; ".intercalate conversion.errors
    Host.log .error s!"Failed to convert {job.source.text}: {errors}"
    return ⟨conversion.errors, []⟩

def convertFile (engine : Engine) (job : Job) : ExceptT Fault m JobResult := do
  match ← Sources.read job.source with
  | .ok text => convertText engine job text
  | .error reason =>
    Host.log .error s!"Failed to read {job.source.text}: {reason}"
    return .failed reason

def report (results : List (String × JobResult)) : m Unit := do
  let flagged := results.filter fun (_, result) => !result.isClean
  let clean := results.length - flagged.length
  if flagged.isEmpty then
    Host.log .success s!"Batch Complete: {clean}/{results.length} files processed without warnings."
  else
    let rows := flagged.map fun (name, result) => [name, result.status, result.issues]
    Host.put (.table ⟨"Rewrite Report", ["File", "Status", "Issues"], rows⟩)
    Host.note s!"\n[bold]Summary:[/bold] {clean} Clean, {flagged.length} with Issues."

def tracePath (target : Path) : Path := target.withSuffix (target.suffix ++ ".trace.json")

def jobFor (input output : Path) (isTraced : Bool) (names : List String) : Job :=
  let target := Sources.pathOf output names
  ⟨Sources.pathOf input names, some target, if isTraced then some (tracePath target) else none⟩

/-- Converts the sources in a directory, each to the place in the output where it lay in the input.
-/
def convertDirectory (engine : Engine) (request : ConvertRequest) : ExceptT Fault m Nat := do
  match request.output with
  | none =>
    Host.log .error "Directory conversion requires --out destination directory."
    return 1
  | some output =>
    let sources ← Sources.collect request.input engine.settings.extensions
    if sources.isEmpty then
      Host.log .warning s!"No source files found in {request.input.text}"
      return 0
    else
      Host.log .info s!"Processing {sources.length} files from {request.input.text}..."
      let results ← sources.mapM fun names => do
        let job := jobFor request.input output request.trace.isSome names
        let result ← convertFile engine job
        return (Path.text ⟨"", names⟩, result)
      report results
      return 0

def convertSingle (engine : Engine) (request : ConvertRequest) : ExceptT Fault m Nat := do
  let result ← convertFile engine ⟨request.input, request.output, request.trace⟩
  if result.success then
    report [(request.input.name, result)]
    return 0
  else return 1

def runConvert (request : ConvertRequest) : ExceptT Fault m Nat := do
  match ← Host.kind? request.input with
  | none =>
    Host.log .error s!"Input not found: {request.input.text}"
    return 1
  | some kind =>
    let settings ← settingsAround request.overrides request.input
    match ← withSurface settings with
    | none => return 1
    | some surface =>
      let engine : Engine := ⟨settings, surface, Usage.scan⟩
      match kind with
      | .file => convertSingle engine request
      | .directory => convertDirectory engine request

end ImportRedirect.Command
