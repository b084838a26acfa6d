/-!
Paths of files, as text and as the names they lead through.
-/

namespace ImportRedirect

/-- A path: what it starts from (nothing when it is relative) and the names it leads through. -/
structure Path where
  root : String
  parts : List String
  deriving DecidableEq, Repr

namespace Path

/-- The root that a written path starts from. Exactly two slashes are a root of their own. -/
def rootOf : List Char → String
  | '/' :: '/' :: '/' :: _ => "/"
  | '/' :: '/' :: _ => "//"
  | '/' :: _ => "/"
  | _ => ""

/-- Empty names and those that stay in place are left out. -/
def parse (text : String) : Path :=
  ⟨rootOf text.toList, ((text.splitOn "/").filter fun part => part != "" && part != ".")⟩

def text (path : Path) : String :=
  if path.root == "" && path.parts.isEmpty then "."
  else path.root ++ "/".intercalate path.parts

def isAbsolute (path : Path) : Bool := path.root != ""

def join (directory path : Path) : Path :=
  if path.isAbsolute then path else ⟨directory.root, directory.parts ++ path.parts⟩

/-- The last name; no characters when there is none. -/
def name (path : Path) : String := path.parts.getLast?.getD ""

def parent (path : Path) : Path := ⟨path.root, path.parts.dropLast⟩

def ancestors (path : Path) : List Path :=
  (List.range (path.parts.length + 1)).reverse.map fun count => ⟨path.root, path.parts.take count⟩

def collapse (done : List String) : List String → List String
  | [] => done.reverse
  | ".." :: rest => collapse done.tail rest
  | part :: rest => collapse (part :: done) rest

/-- The absolute path without steps upward. -/
def resolve (workingDirectory path : Path) : Path :=
  let full := workingDirectory.join path
  ⟨full.root, collapse [] full.parts⟩

/-- The suffix of the last name: its last point and what follows, when both sides have characters.
-/
def suffix (path : Path) : String :=
  let name := path.name.toList
  let extension := (name.reverse.takeWhile (· != '.')).reverse
  let stem := name.take (name.length - extension.length - 1)
  if extension.length == name.length || extension.isEmpty || stem.isEmpty then ""
  else String.ofList ('.' :: extension)

def withSuffix (path : Path) (suffix : String) : Path :=
  let stem := path.name.take (path.name.length - path.suffix.length)
  ⟨path.root, path.parts.dropLast ++ [stem.toString ++ suffix]⟩

end Path

end ImportRedirect
