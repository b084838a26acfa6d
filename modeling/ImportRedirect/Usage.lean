import ImportRedirect.Text.Word
import ImportRedirect.Value.Access

/-!
Evidence of use: which members a script's text asks of a local name. The text is searched as it
stands, so a name in a comment or a string counts, and a name reached another way does not.
-/

namespace ImportRedirect

/-- A source of evidence: what a text uses of a binding, or nothing when it never uses it. -/
abbrev Evidence : Type := String → Value → Except Fault (Option (List String))

namespace Usage

/-- The characters after a text that begins with `front`. -/
def after? : (front text : List Char) → Option (List Char)
  | [], text => some text
  | _ :: _, [] => none
  | a :: front, b :: text => if a == b then after? front text else none

/-- The member used at this place: the binding stands here, starts a name, and is followed by a
point and a name. -/
def memberAt? (binding : List Char) (previous : Option Char) (text : List Char) :
    Option (List Char) :=
  if previous.any Text.isNameChar then none
  else
    match after? (binding ++ ['.']) text with
    | some (c :: rest) =>
      if Text.isNameStart c then some (c :: rest.takeWhile Text.isNameChar) else none
    | _ => none

/-- The members used from here on, where the next `skip` characters belong to a use already found.
-/
def membersFrom (binding : List Char) (previous : Option Char) (skip : Nat) :
    List Char → List (List Char)
  | [] => []
  | c :: rest =>
    match skip with
    | skip + 1 => membersFrom binding (some c) skip rest
    | 0 =>
      match memberAt? binding previous (c :: rest) with
      | some member => member :: membersFrom binding (some c) (binding.length + member.length) rest
      | none => membersFrom binding (some c) 0 rest

def members (text binding : String) : List String :=
  (membersFrom binding.toList none 0 text.toList).map String.ofList

/-- What the text shows: nothing for an absent binding. -/
def scan (text : String) (binding : Value) : Except Fault (Option (List String)) :=
  if !binding.isPresent then .ok none
  else
    match binding with
    | .str binding =>
      let found := members text binding
      .ok (if found.isEmpty then none else some found)
    | _ => .error .wrongKind

/-- Evidence given beforehand, binding by binding, whatever the text says. -/
def table (entries : List (String × List String)) : Evidence := fun _ binding => do
  match ← binding.asMember with
  | .str binding => return (entries.find? (·.1 == binding)).map (·.2)
  | _ => return none

end Usage

end ImportRedirect
