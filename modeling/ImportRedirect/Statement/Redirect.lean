import ImportRedirect.Diagnostic
import ImportRedirect.Statement.Classify
import ImportRedirect.Trace
import ImportRedirect.Usage

/-!
Redirecting one statement. A binding of the whole module moves only when everything used of it is
covered; a list of names moves name by name, which may split the statement in two; a single function
moves when it is covered.
-/

namespace ImportRedirect

inductive Outcome where
  | advance
  /-- The same place holds a simpler statement now. -/
  | reprocess
  /-- The statement put after this one is final too. -/
  | skipInserted
  deriving DecidableEq, Repr

def Outcome.name : Outcome → String
  | .advance => "advance"
  | .reprocess => "reprocess"
  | .skipInserted => "skip_inserted"

/-- A statement while it is handled: the node at its place, the one put after it, and what there is
to report. There may be no node at the place asked for, which matters only once the node is looked
at. -/
structure Site where
  node : Option Value
  inserted : Option Value
  redirected : Nat
  split : Nat
  diagnostics : List Diagnostic
  happenings : List Happening

def Site.of (node : Option Value) : Site := ⟨node, none, 0, 0, [], []⟩

/-- Work on a site. What was done before a fault stays done. -/
abbrev Handling (α : Type) : Type := ExceptT Fault (StateM Site) α

namespace Handling

def attempt {α : Type} (result : Except Fault α) : Handling α := ExceptT.mk (pure result)

def node : Handling Value := do
  match (← get).node with
  | some node => pure node
  | none => throw .outOfRange

def place (node : Value) : Handling Unit := modify fun site => { site with node := some node }

def placeAfter (node : Value) : Handling Unit :=
  modify fun site => { site with inserted := some node }

def change (spot : List Place) (how : Value → Except Fault Value) : Handling Unit := do
  place (← attempt ((← node).modifyAt how spot))

def record (happening : Happening) : Handling Unit :=
  modify fun site => { site with happenings := site.happenings ++ [happening] }

def countRedirected : Handling Unit :=
  modify fun site => { site with redirected := site.redirected + 1 }

def countSplit : Handling Unit := modify fun site => { site with split := site.split + 1 }

def warn (diagnostic : Diagnostic) : Handling Unit := do
  modify fun site => { site with diagnostics := site.diagnostics ++ [diagnostic] }
  record (.warned diagnostic.message)

end Handling

/-- What a statement is redirected with: the classifier, the evidence, and the text it is drawn
from. -/
structure Redirector where
  classifier : Classifier
  evidence : Evidence
  text : String

namespace Redirector

open Handling

def replacement (redirector : Redirector) : String :=
  redirector.classifier.settings.replacementModule

def surface (redirector : Redirector) : Surface := redirector.classifier.surface

def keep (c : Classification) (reason : String) : Handling Outcome := do
  record (.inspected (c.module.getD "") "kept" reason)
  pure .advance

def redirected (redirector : Redirector) (c : Classification) : Handling Outcome := do
  countRedirected
  record (.redirected c.shape.name (c.module.getD "") redirector.replacement)
  pure .advance

def retarget (redirector : Redirector) (spot : List Place) : Handling Unit :=
  change spot (Node.setText · redirector.replacement)

def sourcePlace : List Place := [.field "source"]

def firstSpecifier : List Place := [.field "specifiers", .item 0]

def firstDeclarator : List Place := [.field "declarations", .item 0]

def firstArgument : List Place := firstDeclarator ++ [.field "init", .field "arguments", .item 0]

def splitCombined (c : Classification) : Handling Outcome := do
  let whole ← node
  let specifiers ← attempt (whole.field "specifiers" >>= Value.parts)
  let types ← attempt (specifiers.mapM (·.get "type"))
  let tagged := specifiers.zip types
  let kept := (tagged.filter (·.2 != defaultSpecifier)).map (·.1)
  let moved := (tagged.filter (·.2 == defaultSpecifier)).map (·.1)
  place (← attempt (whole.setField "specifiers" (.arr kept)))
  placeAfter (← attempt (whole.setField "specifiers" (.arr moved)))
  countSplit
  let names ← attempt (kept.mapM Node.importedNameD)
  record (.split c.shape.name names [.str "default"])
  pure .reprocess

/-- Redirects a binding of the whole module when everything used of it is covered. -/
def redirectBinding (redirector : Redirector) (c : Classification) : Handling Outcome := do
  match ← attempt (redirector.evidence redirector.text c.binding) with
  | none => keep c s!"binding '{c.binding.display}' is never accessed"
  | some used =>
    let uncovered := used.filter (!redirector.surface.covers ·)
    if !uncovered.isEmpty then
      warn (← attempt (Diagnostic.ofValues c.binding (.ofOption c.module)
        (.arr (uncovered.map .str))))
      pure .advance
    else do
      if c.shape == .defaultImport then
        redirector.retarget sourcePlace
        change firstSpecifier (·.setField "type" namespaceSpecifier)
      else redirector.retarget firstArgument
      redirector.redirected c

/-- Redirects the covered names of an import; the others stay behind in a statement of their own. -/
def redirectNames (redirector : Redirector) (c : Classification) : Handling Outcome := do
  let whole ← node
  let specifiers ← attempt (whole.field "specifiers" >>= Value.parts)
  let covered ← attempt (specifiers.mapM fun specifier => do
    redirector.surface.coversValue (← Node.importedNameD specifier))
  let tagged := specifiers.zip covered
  let kept := (tagged.filter (·.2)).map (·.1)
  let moved := (tagged.filter (!·.2)).map (·.1)
  if kept.isEmpty then keep c "no imported function is covered"
  else if moved.isEmpty then do
    redirector.retarget sourcePlace
    redirector.redirected c
  else do
    place (← attempt (whole.setField "specifiers" (.arr kept)))
    redirector.retarget sourcePlace
    placeAfter (← attempt (whole.setField "specifiers" (.arr moved)))
    countRedirected
    countSplit
    record (.split c.shape.name (← attempt (kept.mapM Node.importedNameD))
      (← attempt (moved.mapM Node.importedNameD)))
    pure .skipInserted

/-- Goes on when the single function of a statement is covered. -/
def whenCovered (redirector : Redirector) (c : Classification) (go : Handling Outcome) :
    Handling Outcome :=
  if redirector.surface.covers (c.function.getD "") then go
  else
    let function := c.function.getD "None"
    keep c s!"'{function}' is not covered"

/-- Redirects the import of a single function: its name becomes part of the statement. -/
def redirectSingleImport (redirector : Redirector) (c : Classification) : Handling Outcome :=
  redirector.whenCovered c do
    let _ ← attempt ((← node).field "specifiers" >>= (·.item 0))
    redirector.retarget sourcePlace
    change firstSpecifier fun specifier => do
      (← specifier.setField "type" namedSpecifier).setField "imported"
        (Node.identifier (.ofOption c.function))
    redirector.redirected c

/-- Redirects the require of a single function: it is asked of the replacement as a member. -/
def redirectSingleRequire (redirector : Redirector) (c : Classification) : Handling Outcome :=
  redirector.whenCovered c do
    redirector.retarget firstArgument
    change firstDeclarator fun declarator => do
      declarator.setField "init" (.obj [("type", .str "MemberExpression"),
        ("object", ← declarator.field "init"),
        ("property", Node.identifier (.ofOption c.function)), ("computed", .bool false),
        ("optional", .bool false)])
    redirector.redirected c

def handle (redirector : Redirector) (c : Classification) : Handling Outcome :=
  match c.shape with
  | .combinedImport => splitCombined c
  | .defaultImport | .requireModule => redirector.redirectBinding c
  | .namedImport => redirector.redirectNames c
  | .deepPathImport | .dottedPackageImport => redirector.redirectSingleImport c
  | .deepPathRequire | .dottedPackageRequire => redirector.redirectSingleRequire c
  | .unrecognized => pure .advance

/-- Handles the statement with this classification and gives the outcome with what is left. -/
def apply (redirector : Redirector) (c : Classification) (node : Option Value) :
    Except Fault Outcome × Site :=
  (redirector.handle c).run (Site.of node)

end Redirector

end ImportRedirect
