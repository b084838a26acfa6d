import ImportRedirect.Command.Arguments
import ImportRedirect.Settings.Load

/-!
What the program can be asked to do, and the arguments that ask for it.
-/

namespace ImportRedirect.Command

structure ConvertRequest where
  input : Path
  /-- Where the converted scripts go; one script may be shown instead. -/
  output : Option Path
  /-- Where the trace goes; for a directory, that there is one for each script. -/
  trace : Option Path
  overrides : Overrides

structure AuditRequest where
  input : Path
  isJson : Bool
  overrides : Overrides

inductive Invocation where
  | convert (request : ConvertRequest)
  | audit (request : AuditRequest)
  | surface (overrides : Overrides)

def programName : String := "es_switcheroo"

def version : String := "0.1.0"

def helpSwitch : Switch := ⟨["-h", "--help"], .help⟩

def surfaceSwitches : List Switch := [⟨["--exclude"], .many⟩, ⟨["--surface"], .one⟩]

def grammar : Grammar where
  program := programName
  switches := [helpSwitch, ⟨["--version"], .version⟩]
  operand := some (.command "command" ["convert", "audit", "surface"])

def convertGrammar : Grammar where
  program := programName ++ " convert"
  switches :=
    [helpSwitch, ⟨["--out"], .one⟩, ⟨["--replacement"], .one⟩, ⟨["--json-trace"], .one⟩] ++
      surfaceSwitches
  operand := some (.word "path")

def auditGrammar : Grammar where
  program := programName ++ " audit"
  switches := [helpSwitch, ⟨["--json"], .flag⟩] ++ surfaceSwitches
  operand := some (.word "path")

def surfaceGrammar : Grammar where
  program := programName ++ " surface"
  switches := helpSwitch :: surfaceSwitches
  operand := none

namespace Reading

def path? (reading : Reading) (name : String) : Option Path :=
  (reading.argument? name).map Path.parse

def overrides (reading : Reading) : Overrides where
  excludes := (reading.arguments? "--exclude").getD []
  replacementModule := reading.argument? "--replacement"
  surfacePath := reading.path? "--surface"

def input (reading : Reading) : Path := Path.parse ((reading.operand.map (·.1)).getD "")

def convertRequest (reading : Reading) : ConvertRequest where
  input := reading.input
  output := reading.path? "--out"
  trace := reading.path? "--json-trace"
  overrides := reading.overrides

def auditRequest (reading : Reading) : AuditRequest where
  input := reading.input
  isJson := (reading.arguments? "--json").isSome
  overrides := reading.overrides

end Reading

namespace Invocation

def ofCommand (name : String) (words : List String) : Except Stop (Invocation × List String) :=
  let read := fun (grammar : Grammar) (make : Reading → Invocation) => do
    let reading ← grammar.read words
    return (make reading, reading.extras)
  match name with
  | "convert" => read convertGrammar fun reading => .convert reading.convertRequest
  | "audit" => read auditGrammar fun reading => .audit reading.auditRequest
  | _ => read surfaceGrammar fun reading => .surface reading.overrides

/-- What the arguments ask for. Words that stand for nothing are refused in the end. -/
def ofArguments (words : List String) : Except Stop Invocation := do
  let reading ← grammar.read words
  let (name, rest) := reading.operand.getD ("", [])
  let (invocation, extras) ← ofCommand name rest
  match reading.extras ++ extras with
  | [] => return invocation
  | extras => throw (.misuse programName (.unrecognized extras))

end Invocation

end ImportRedirect.Command
