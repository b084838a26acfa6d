import ImportRedirect.Node
import ImportRedirect.Settings

/-!
The shapes in which a statement can refer to a legacy module. A statement that has none of them is
left alone.
-/

namespace ImportRedirect

inductive Shape where
  | combinedImport
  | defaultImport
  | namedImport
  | deepPathImport
  | dottedPackageImport
  | requireModule
  | deepPathRequire
  | dottedPackageRequire
  | unrecognized
  deriving DecidableEq, Repr

namespace Shape

def name : Shape → String
  | .combinedImport => "combined_import"
  | .defaultImport => "default_import"
  | .namedImport => "named_import"
  | .deepPathImport => "deep_path_import"
  | .dottedPackageImport => "dotted_package_import"
  | .requireModule => "require_module"
  | .deepPathRequire => "deep_path_require"
  | .dottedPackageRequire => "dotted_package_require"
  | .unrecognized => "unrecognized"

def all : List Shape :=
  [.combinedImport, .defaultImport, .namedImport, .deepPathImport, .dottedPackageImport,
   .requireModule, .deepPathRequire, .dottedPackageRequire, .unrecognized]

def ofName (name : String) : Except Fault Shape :=
  match all.find? (·.name == name) with
  | some shape => .ok shape
  | none => .error (.unknownShape name)

theorem ofName_name (shape : Shape) : ofName shape.name = .ok shape := by
  cases shape <;> rfl

end Shape

/-- The types of import specifiers. -/
def defaultSpecifier : Value := .str "ImportDefaultSpecifier"

@[inherit_doc defaultSpecifier]
def namedSpecifier : Value := .str "ImportSpecifier"

@[inherit_doc defaultSpecifier]
def namespaceSpecifier : Value := .str "ImportNamespaceSpecifier"

/-- What a statement refers to. The binding is null when the shape has none, and need not be text.
-/
structure Classification where
  shape : Shape
  module : Option String
  binding : Value
  function : Option String
  deriving DecidableEq, Repr

def Classification.unrecognized : Classification := ⟨.unrecognized, none, .null, none⟩

/-- The two ways to spell a module that holds a single function. -/
inductive SingleForm where
  | deepPath
  | dottedPackage
  deriving DecidableEq, Repr

structure Classifier where
  settings : Settings
  surface : Surface

namespace Classifier

/-- The single function that a module holds. A package is spelled in small letters, so its name is
looked up in the surface whatever the case. -/
def singleFunction? (classifier : Classifier) (module : String) : Option (SingleForm × String) :=
  match classifier.settings.deepName? module with
  | some function => some (.deepPath, function)
  | none =>
    match classifier.settings.dottedName? module with
    | some function =>
      some (.dottedPackage, (classifier.surface.resolveCasing function).getD function)
    | none => none

def onlyLocalName (node : Value) : Except Fault Value := do
  Node.localName (← (← node.field "specifiers").item 0)

def classifyImport (classifier : Classifier) (node : Value) : Except Fault Classification := do
  match Node.text? (← node.get "source") with
  | none => return .unrecognized
  | some module =>
    let types ← Node.specifierTypes node
    if classifier.settings.isLegacy module then
      if types.contains defaultSpecifier && types.contains namedSpecifier then
        return ⟨.combinedImport, some module, .null, none⟩
      else if types == [defaultSpecifier] then
        let binding ← onlyLocalName node
        if binding.isPresent then return ⟨.defaultImport, some module, binding, none⟩
        else return .unrecognized
      else if !types.isEmpty && types.all (· == namedSpecifier) then
        return ⟨.namedImport, some module, .null, none⟩
      else return .unrecognized
    else
      match classifier.singleFunction? module with
      | none => return .unrecognized
      | some (form, function) =>
        if types != [defaultSpecifier] then return .unrecognized
        else
          let binding ← onlyLocalName node
          if !binding.isPresent then return .unrecognized
          else
            let shape :=
              match form with
              | .deepPath => .deepPathImport
              | .dottedPackage => .dottedPackageImport
            return ⟨shape, some module, binding, some function⟩

def requiredModule? (classifier : Classifier) (call : Value) : Except Fault (Option String) := do
  if !Node.hasType call "CallExpression" then return none
  else if (← call.get "optional").isPresent then return none
  else if Node.name (← call.get "callee") != .str classifier.settings.requireCallee then return none
  else
    let arguments := (← call.get "arguments").orElse (.arr [])
    if (← arguments.size) != 1 then return none
    else return Node.text? (← arguments.item 0)

def classifyDeclaration (classifier : Classifier) (node : Value) : Except Fault Classification := do
  let declarations := (← node.get "declarations").orElse (.arr [])
  if (← declarations.size) != 1 then return .unrecognized
  else
    let declarator ← declarations.item 0
    let binding := Node.name (← declarator.get "id")
    let value ← declarator.get "init"
    if !binding.isPresent then return .unrecognized
    else
      match ← classifier.requiredModule? value with
      | none => return .unrecognized
      | some module =>
        if classifier.settings.isLegacy module then
          return ⟨.requireModule, some module, binding, none⟩
        else
          match classifier.singleFunction? module with
          | some (.deepPath, function) =>
            return ⟨.deepPathRequire, some module, binding, some function⟩
          | some (.dottedPackage, function) =>
            return ⟨.dottedPackageRequire, some module, binding, some function⟩
          | none => return .unrecognized

def classify (classifier : Classifier) (node : Value) : Except Fault Classification :=
  if Node.hasType node "ImportDeclaration" then classifier.classifyImport node
  else if Node.hasType node "VariableDeclaration" then classifier.classifyDeclaration node
  else .ok .unrecognized

end Classifier

end ImportRedirect
