import ImportRedirect.Log
import ImportRedirect.Value.Access

/-!
Warnings about a binding that could not be redirected, naming the functions that stood in the way.
-/

namespace ImportRedirect

structure Diagnostic where
  binding : String
  module : String
  functions : List String
  deriving DecidableEq, Repr

namespace Diagnostic

def message (diagnostic : Diagnostic) : String :=
  let plural := if 1 < diagnostic.functions.length then "s" else ""
  let functions := ", ".intercalate diagnostic.functions
  s!"Unsupported {diagnostic.module} function{plural}: {functions}"

def warning (diagnostic : Diagnostic) : LogLine :=
  ⟨.warning, s!"{diagnostic.message} (binding '{diagnostic.binding}')"⟩

/-- Puts a name at its place among sorted names, unless it is there. -/
def insertName (name : String) : List String → List String
  | [] => [name]
  | first :: rest =>
    if name < first then name :: first :: rest
    else if name == first then first :: rest
    else first :: insertName name rest

def sortNames (names : List String) : List String := names.foldr insertName []

/-- Only texts are ordered among texts and numbers among numbers. -/
def areOrdered (members : List Value) : Bool :=
  members.length ≤ 1 || members.all Value.isText || members.all (·.numeral.isSome)

def text? : Value → Option String
  | .str text => some text
  | _ => none

def textIssues (place : List Place) : Value → List Issue
  | .str _ => []
  | _ => [⟨place, .text⟩]

/-- A diagnostic from loosely typed parts. The functions must form a set that can be sorted; after
that every part must be text. -/
def ofValues (binding module functions : Value) : Except Fault Diagnostic := do
  let members := Value.distinct (← (← functions.parts).mapM Value.asMember)
  if !areOrdered members then throw .wrongKind
  let issues := textIssues [.field "binding"] binding ++ textIssues [.field "module"] module ++
    (members.zipIdx.flatMap fun (member, index) =>
      textIssues [.field "functions", .item index] member)
  match binding, module, issues with
  | .str binding, .str module, [] =>
    return ⟨binding, module, sortNames (members.filterMap text?)⟩
  | _, _, _ => throw (.invalid issues)

end Diagnostic

end ImportRedirect
