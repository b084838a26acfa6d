import ImportRedirect.Script.Cursor

/-!
What a script says, as far as anyone asks: imports, declarations, names, quoted texts, calls and
member accesses are looked into, everything else is known by its kind and its place.
-/

namespace ImportRedirect.Script

/-- A stretch of the script: where it starts and stops, and the characters from its start on. -/
structure Extent where
  start : Nat
  ahead : List Char
  stop : Nat

def takeBytes : Nat → List Char → List Char
  | 0, _ => []
  | _, [] => []
  | n + 1, c :: rest => c :: takeBytes (n + 1 - c.utf8Size) rest

def Extent.text (extent : Extent) : String :=
  String.ofList (takeBytes (extent.stop - extent.start) extent.ahead)

inductive Kind where
  | array
  | arrayPattern
  | arrow
  | assignment
  | augmentedAssignment
  | awaiting
  | binary
  | block
  | breaking
  | call
  | classDeclaration
  | classExpression
  | continuing
  | debugger
  | doWhile
  | exporting
  | expression
  | falsity
  | forIn
  | forLoop
  | functionDeclaration
  | functionExpression
  | generatorDeclaration
  | generatorExpression
  | ifElse
  | importCallee
  | labeled
  | markup
  | markupClosed
  | metaProperty
  | creation
  | null
  | number
  | object
  | objectPattern
  | parenthesized
  | regex
  | returning
  | spread
  | subscript
  | super
  | switching
  | template
  | ternary
  | this
  | throwing
  | truth
  | trying
  | unary
  | undefined
  | update
  | whileLoop
  | withScope
  | yielding
  deriving DecidableEq, Repr

def Kind.name : Kind → String
  | .array => "array"
  | .arrayPattern => "array_pattern"
  | .arrow => "arrow_function"
  | .assignment => "assignment_expression"
  | .augmentedAssignment => "augmented_assignment_expression"
  | .awaiting => "await_expression"
  | .binary => "binary_expression"
  | .block => "statement_block"
  | .breaking => "break_statement"
  | .call => "call_expression"
  | .classDeclaration => "class_declaration"
  | .classExpression => "class"
  | .continuing => "continue_statement"
  | .debugger => "debugger_statement"
  | .doWhile => "do_statement"
  | .exporting => "export_statement"
  | .expression => "expression_statement"
  | .falsity => "false"
  | .forIn => "for_in_statement"
  | .forLoop => "for_statement"
  | .functionDeclaration => "function_declaration"
  | .functionExpression => "function_expression"
  | .generatorDeclaration => "generator_function_declaration"
  | .generatorExpression => "generator_function"
  | .ifElse => "if_statement"
  | .importCallee => "import"
  | .labeled => "labeled_statement"
  | .markup => "jsx_element"
  | .markupClosed => "jsx_self_closing_element"
  | .metaProperty => "meta_property"
  | .creation => "new_expression"
  | .null => "null"
  | .number => "number"
  | .object => "object"
  | .objectPattern => "object_pattern"
  | .parenthesized => "parenthesized_expression"
  | .regex => "regex"
  | .returning => "return_statement"
  | .spread => "spread_element"
  | .subscript => "subscript_expression"
  | .super => "super"
  | .switching => "switch_statement"
  | .template => "template_string"
  | .ternary => "ternary_expression"
  | .this => "this"
  | .throwing => "throw_statement"
  | .truth => "true"
  | .trying => "try_statement"
  | .unary => "unary_expression"
  | .undefined => "undefined"
  | .update => "update_expression"
  | .whileLoop => "while_statement"
  | .withScope => "with_statement"
  | .yielding => "yield_expression"

inductive Expr where
  | name (extent : Extent)
  | text (extent : Extent)
  | call (extent : Extent) (callee : Expr) (arguments : List Expr) (optional : Bool)
  | member (extent : Extent) (object : Expr) (property : Extent) (optional : Bool)
  | other (extent : Extent) (kind : Kind)

def Expr.extent : Expr → Extent
  | .name extent | .text extent | .call extent .. | .member extent .. | .other extent _ => extent

inductive Specifier where
  | whole (extent : Extent) (localName : Extent)
  | named (extent : Extent) (imported : Expr) (localName : Extent)
  | fallback (localName : Extent)

structure Declarator where
  extent : Extent
  target : Expr
  value : Option Expr

inductive Binder where
  | constant
  | lexical
  | variable
  deriving DecidableEq, Repr

def Binder.name : Binder → String
  | .constant => "const"
  | .lexical => "let"
  | .variable => "var"

inductive Statement where
  | empty
  | importing (extent : Extent) (specifiers : List Specifier) (source : Extent)
      (attributes : Option Extent)
  | declaration (extent : Extent) (binder : Binder) (declarators : List Declarator)
  | other (extent : Extent) (kind : Kind)

/-- A script: its statements, and how many bytes it takes. -/
structure Tree where
  statements : List Statement
  size : Nat

end ImportRedirect.Script
