import ImportRedirect.Node
import ImportRedirect.Statement.Classify

/-!
Statements as text. Only imports, declarations and what was never looked into can be printed. Names
and raw texts are printed as they are found in the tree, so a result is text exactly when they are.
-/

namespace ImportRedirect.Emit

/-- Texts with a separator between them; nothing but texts can be joined. -/
def join (separator : String) (parts : List Value) : Except Fault String := do
  let texts ← parts.mapM fun
    | .str text => .ok text
    | _ => .error .wrongKind
  return separator.intercalate texts

def flag (node : Value) (key : String) : Except Fault Bool := do
  return (← node.get key).isPresent

/-- An expression with its parts up to some depth. -/
def expressionWithin : Nat → Value → Except Fault Value
  | 0, node => .error (.unprintable .expression (Node.type node))
  | depth + 1, node => do
    if Node.hasType node "Identifier" then node.field "name"
    else if Node.hasType node "Literal" then node.field "raw"
    else if Node.hasType node "Unparsed" then node.field "raw"
    else if Node.hasType node "CallExpression" then
      let given ← (← node.getD "arguments" (.arr [])).parts
      let arguments ← join ", " (← given.mapM (expressionWithin depth))
      let chain := if ← flag node "optional" then "?." else ""
      let callee ← expressionWithin depth (← node.field "callee")
      return .str s!"{callee.display}{chain}({arguments})"
    else if Node.hasType node "MemberExpression" then
      let object ← expressionWithin depth (← node.field "object")
      let property ← expressionWithin depth (← node.field "property")
      let computed ← flag node "computed"
      let optional ← flag node "optional"
      if computed then
        let chain := if optional then "?." else ""
        return .str s!"{object.display}{chain}[{property.display}]"
      else
        let chain := if optional then "?." else "."
        return .str s!"{object.display}{chain}{property.display}"
    else throw (.unprintable .expression (Node.type node))

def expression (node : Value) : Except Fault Value := expressionWithin (node.depth + 1) node

def declarator (node : Value) : Except Fault Value := do
  let target ← expression (← node.field "id")
  match ← node.get "init" with
  | .null => return target
  | _ =>
    let value ← expression (← node.field "init")
    return .str s!"{target.display} = {value.display}"

structure Clause where
  defaults : List Value
  namespaces : List Value
  named : List Value

def Clause.add (clause : Clause) (specifier : Value) : Except Fault Clause := do
  let localName ← expression (← specifier.field "local")
  let type ← specifier.get "type"
  if type == defaultSpecifier then
    return { clause with defaults := clause.defaults ++ [localName] }
  else if type == namespaceSpecifier then
    return { clause with namespaces := clause.namespaces ++ [.str s!"* as {localName.display}"] }
  else
    let imported ← expression (← specifier.field "imported")
    let entry : Value :=
      if imported.same localName then imported
      else .str s!"{imported.display} as {localName.display}"
    return { clause with named := clause.named ++ [entry] }

def Clause.parts (clause : Clause) : Except Fault (List Value) := do
  let front := clause.defaults ++ clause.namespaces
  if clause.named.isEmpty then return front
  else
    let names ← join ", " clause.named
    return front ++ [.str ("\x7b " ++ names ++ " \x7d")]

def importDeclaration (node : Value) : Except Fault Value := do
  let source := (← expression (← node.field "source")).display
  let specifiers ← (← node.getD "specifiers" (.arr [])).parts
  let parts ← (← specifiers.foldlM Clause.add ⟨[], [], []⟩).parts
  let attributes ←
    if ← flag node "attributesRaw" then
      pure (" " ++ (← node.field "attributesRaw").display)
    else pure ""
  if parts.isEmpty then return .str s!"import {source}{attributes};"
  else
    let clause ← join ", " parts
    return .str s!"import {clause} from {source}{attributes};"

def statement (node : Value) : Except Fault Value := do
  if Node.hasType node "ImportDeclaration" then importDeclaration node
  else if Node.hasType node "VariableDeclaration" then
    let declarations ← (← node.getD "declarations" (.arr [])).parts
    let declarators ← join ", " (← declarations.mapM declarator)
    let kind := (← node.getD "kind" (.str "var")).display
    return .str s!"{kind} {declarators};"
  else if Node.hasType node "Unparsed" then node.field "raw"
  else throw (.unprintable .statement (Node.type node))

def lines (nodes : List Value) : Except Fault String := do
  join "\n" (← nodes.mapM statement)

end ImportRedirect.Emit
