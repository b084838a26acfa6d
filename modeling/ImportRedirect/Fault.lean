import ImportRedirect.Files.Problem
import ImportRedirect.Text.Utf8
import ImportRedirect.Value.Display

/-!
Everything that can go wrong, as causes. The wording of each cause is in `Fault.message`.
-/

namespace ImportRedirect

inductive Place where
  | field (name : String)
  | item (index : Nat)
  deriving DecidableEq, Repr

inductive Requirement where
  | text
  | list
  | path
  | present
  | snapshot
  | moduleName
  | nonBlank
  deriving DecidableEq, Repr

def Requirement.code : Requirement → String
  | .text => "string_type"
  | .list => "list_type"
  | .path => "path_type"
  | .present => "missing"
  | .snapshot => "model_type"
  | .moduleName => "value_error"
  | .nonBlank => "value_error"

def Requirement.message : Requirement → String
  | .text => "Input should be a valid string"
  | .list => "Input should be a valid list"
  | .path => "Input is not a valid path for <class 'pathlib.Path'>"
  | .present => "Field required"
  | .snapshot => "Input should be a valid dictionary or instance of SurfaceSnapshot"
  | .moduleName => "Value error, Module names must not be empty."
  | .nonBlank => "Value error, Value must not be empty."

/-- A requirement that the data at `place` does not meet. -/
structure Issue where
  place : List Place
  requirement : Requirement
  deriving DecidableEq, Repr

inductive ReadFailure where
  | unreadable (problem : FileProblem)
  | malformed
  deriving DecidableEq, Repr

inductive Construct where
  | statement
  | expression
  deriving DecidableEq, Repr

def Construct.name : Construct → String
  | .statement => "statement"
  | .expression => "expression"

inductive Fault where
  | missingField (key : String)
  /-- An object was asked for an item by position. -/
  | missingItem (index : Nat)
  /-- A field or form was asked of a value that has none. -/
  | notRecord
  /-- An operation met a kind of value it is not defined on. -/
  | wrongKind
  | outOfRange
  | invalid (issues : List Issue)
  | unprintable (construct : Construct) (type : Value)
  | undecodable (error : Text.Utf8.DecodeError)
  /-- The script has no meaning from this byte on. -/
  | badSyntax (offset : Nat)
  | unknownShape (name : String)
  | unreadableSnapshot (path : String) (failure : ReadFailure)
  | invalidSnapshot (path : String) (issues : List Issue)
  | conversionFailed (errors : List String)
  deriving DecidableEq, Repr

def Fault.message : Fault → String
  | .missingField key => Text.Quoted.quote key
  | .missingItem index => toString index
  | .notRecord => "a field was asked of a value without fields"
  | .wrongKind => "an operation met a value of the wrong kind"
  | .outOfRange => "a position lies outside the list"
  | .invalid issues => s!"{issues.length} requirements are not met"
  | .unprintable construct type => s!"Cannot render {construct.name} of type {type.quoted}"
  | .undecodable error => error.message
  | .badSyntax offset => s!"Syntax error near byte {offset}"
  | .unknownShape name => s!"{Text.Quoted.quote name} is not a valid StatementShape"
  | .unreadableSnapshot path _ => s!"Could not read surface snapshot {path}"
  | .invalidSnapshot path _ => s!"Invalid surface snapshot {path}"
  | .conversionFailed errors => "Rewrite failed:\n" ++ "\n".intercalate errors

end ImportRedirect
