import ImportRedirect.Pass

/-!
The audit of scripts: every function that they use of a legacy module, and whether it is covered.
-/

namespace ImportRedirect

/-- A function that is used, whether it is covered, and the module it was used from last. -/
structure AuditEntry where
  function : Value
  covered : Bool
  module : Option String
  deriving DecidableEq, Repr

abbrev AuditReport : Type := List AuditEntry

namespace AuditReport

def put (entry : AuditEntry) : AuditReport → AuditReport
  | [] => [entry]
  | first :: rest =>
    if first.function.same entry.function then { entry with function := first.function } :: rest
    else first :: put entry rest

end AuditReport

/-- Work on a report. What was added before a fault stays. -/
abbrev Auditing (α : Type) : Type := ExceptT Fault (StateM AuditReport) α

namespace Auditing

def attempt {α : Type} (result : Except Fault α) : Auditing α := ExceptT.mk (pure result)

/-- Notes the use of a function; an absent name is none. -/
def note (redirector : Redirector) (module : Option String) (name : Value) : Auditing Unit := do
  if name.isPresent then
    let covered ← attempt (redirector.surface.coversValue name)
    modify (AuditReport.put ⟨name, covered, module⟩)

def noteUses (redirector : Redirector) (module : Option String) (binding : Value) :
    Auditing Unit := do
  let used := (← attempt (redirector.evidence redirector.text binding)).getD []
  used.forM fun name => note redirector module (.str name)

def noteSpecifier (redirector : Redirector) (module : Option String) (specifier : Value) :
    Auditing Unit := do
  let type ← attempt (specifier.get "type")
  if type == namedSpecifier then
    note redirector module (← attempt (Node.importedNameD specifier))
  else if type == defaultSpecifier then
    let localName ← attempt (specifier.field "local" >>= (·.field "name"))
    noteUses redirector module localName
  else pure ()

def noteStatement (redirector : Redirector) (node : Value) : Auditing Unit := do
  let c ← attempt (redirector.classifier.classify node)
  match c.shape with
  | .unrecognized => pure ()
  | .namedImport | .combinedImport =>
    (← attempt (node.field "specifiers" >>= Value.parts)).forM
      (noteSpecifier redirector c.module)
  | .defaultImport | .requireModule => noteUses redirector c.module c.binding
  | .deepPathImport | .dottedPackageImport | .deepPathRequire | .dottedPackageRequire =>
    note redirector c.module (.ofOption c.function)

def noteProgram (redirector : Redirector) (program : Value) : Auditing Unit := do
  let body ← attempt (program.getD "body" (.arr []) >>= Value.parts)
  body.forM (noteStatement redirector)

end Auditing

/-- The report with a program added to it, and the fault that stopped the audit. -/
def audit (redirector : Redirector) (program : Value) (report : AuditReport) :
    Except Fault Unit × AuditReport :=
  (Auditing.noteProgram redirector program).run report

end ImportRedirect
