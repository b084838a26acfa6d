import ImportRedirect.Command.Audit
import ImportRedirect.Command.Convert

/-!
Running the program: from its arguments to its exit code.
-/

namespace ImportRedirect.Command

variable {m : Type → Type} [Monad m] [Host m]

def runSurface (overrides : Overrides) : ExceptT Fault m Nat := do
  let settings ← Settings.load overrides none
  match ← withSurface settings with
  | none => return 1
  | some surface =>
    let names := surface.names.mergeSort fun a b => decide (a ≤ b)
    Host.put (.result (String.join (names.map (· ++ "\n"))))
    let module := surface.module.getD "None"
    Host.note s!"[bold]{surface.size}[/bold] functions covered by [code]{module}[/code]"
    return 0

def runInvocation : Invocation → ExceptT Fault m Nat
  | .convert request => runConvert request
  | .audit request => runAudit request
  | .surface overrides => runSurface overrides

def helpText (program : String) : String :=
  s!"usage: {program} [options]\n" ++
  "  convert path [--out PATH] [--replacement MODULE] [--json-trace PATH]\n" ++
  "  audit path [--json]\n" ++
  "  surface\n" ++
  "Every command takes --exclude NAME [NAME ...] and --surface PATH.\n"

def showStop : Stop → m Nat
  | .help program => do
    Host.put (.result (helpText program))
    return 0
  | .version => do
    Host.put (.result s!"{programName} {version}\n")
    return 0
  | .misuse program misuse => do
    Host.put (.misuse s!"{program}: error: {misuse.message}")
    return 2

def run (words : List String) : ExceptT Fault m Nat := do
  match Invocation.ofArguments words with
  | .ok invocation => runInvocation invocation
  | .error stop => showStop stop

end ImportRedirect.Command
