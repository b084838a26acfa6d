import ImportRedirect.Fault
import ImportRedirect.Script.Statement

/-!
Scripts as loosely typed trees, the form in which statements are classified, changed and printed.
Every node but a member's name says at which bytes it starts and ends.
-/

namespace ImportRedirect.Script

def Extent.located (extent : Extent) (fields : List (String × Value)) : Value :=
  .obj (fields ++ [("start", .int extent.start), ("end", .int extent.stop)])

def nameNode (extent : Extent) : Value :=
  extent.located [("type", .str "Identifier"), ("name", .str extent.text)]

/-- A quoted text keeps its escapes as written. -/
def textNode (extent : Extent) : Value :=
  let raw := extent.text
  extent.located [("type", .str "Literal"),
    ("value", .str (String.ofList (raw.toList.drop 1).dropLast)), ("raw", .str raw)]

def otherNode (extent : Extent) (kind : Kind) : Value :=
  extent.located [("type", .str "Unparsed"), ("kind", .str kind.name), ("raw", .str extent.text)]

mutual

def Expr.node : Expr → Value
  | .name extent => nameNode extent
  | .text extent => textNode extent
  | .call extent callee arguments optional =>
    extent.located [("type", .str "CallExpression"), ("callee", callee.node),
      ("arguments", .arr (Expr.nodes arguments)), ("optional", .bool optional)]
  | .member extent object property optional =>
    extent.located [("type", .str "MemberExpression"), ("object", object.node),
      ("property", .obj [("type", .str "Identifier"), ("name", .str property.text)]),
      ("computed", .bool false), ("optional", .bool optional)]
  | .other extent kind => otherNode extent kind

def Expr.nodes : List Expr → List Value
  | [] => []
  | expr :: rest => expr.node :: Expr.nodes rest

end

def Specifier.node : Specifier → Value
  | .whole extent localName =>
    extent.located [("type", .str "ImportNamespaceSpecifier"), ("local", nameNode localName)]
  | .named extent imported localName =>
    extent.located [("type", .str "ImportSpecifier"), ("imported", imported.node),
      ("local", nameNode localName)]
  | .fallback localName =>
    localName.located [("type", .str "ImportDefaultSpecifier"), ("local", nameNode localName)]

def Declarator.node (declarator : Declarator) : Value :=
  declarator.extent.located [("type", .str "VariableDeclarator"), ("id", declarator.target.node),
    ("init", (declarator.value.map Expr.node).getD .null)]

def Statement.node? : Statement → Option Value
  | .empty => none
  | .importing extent specifiers source attributes =>
    some (extent.located ([("type", .str "ImportDeclaration"),
      ("specifiers", .arr (specifiers.map Specifier.node)), ("source", textNode source)] ++
      (match attributes with
        | some attributes => [("attributesRaw", .str attributes.text)]
        | none => [])))
  | .declaration extent binder declarators =>
    some (extent.located [("type", .str "VariableDeclaration"), ("kind", .str binder.name),
      ("declarations", .arr (declarators.map Declarator.node))])
  | .other extent kind => some (otherNode extent kind)

def Tree.body (tree : Tree) : List Value := tree.statements.filterMap Statement.node?

def Tree.program (tree : Tree) : Value :=
  .obj [("type", .str "Program"), ("sourceType", .str "module"), ("body", .arr tree.body),
    ("start", .int 0), ("end", .int tree.size)]

def program (code : String) : Except Fault Value :=
  match parse code with
  | .ok tree => .ok tree.program
  | .error offset => .error (.badSyntax offset)

end ImportRedirect.Script
