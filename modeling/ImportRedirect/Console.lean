import ImportRedirect.Log

/-!
What a run shows: lines of the log, notes and tables for the reader, and the text of results. Notes
may hold marks in brackets that say how to show the words between them.
-/

namespace ImportRedirect

structure Table where
  title : String
  columns : List String
  rows : List (List String)
  deriving DecidableEq, Repr

inductive Output where
  | log (line : LogLine)
  | note (text : String)
  | table (table : Table)
  | result (text : String)
  | misuse (text : String)
  deriving DecidableEq, Repr

namespace Markup

def beginsMark (c : Char) : Bool :=
  ('a' ≤ c && c ≤ 'z') || c == '#' || c == '/' || c == '@'

def afterMark? : List Char → Option (List Char)
  | c :: rest =>
    if beginsMark c then
      match rest.dropWhile fun c => c != '[' && c != ']' with
      | ']' :: rest => some rest
      | _ => none
    else none
  | [] => none

/-- The characters without marks; the first `skip` ones belong to a mark. -/
def stripFrom (skip : Nat) : List Char → List Char
  | [] => []
  | c :: rest =>
    match skip with
    | skip + 1 => stripFrom skip rest
    | 0 =>
      match if c == '[' then afterMark? rest else none with
      | some after => stripFrom (rest.length - after.length) rest
      | none => c :: stripFrom 0 rest

def strip (text : String) : String := String.ofList (stripFrom 0 text.toList)

end Markup

/-- The console that notes go to. A recording console keeps what it shows. -/
structure Console where
  width : Nat
  isRecording : Bool
  recorded : String
  deriving DecidableEq, Repr

namespace Console

def standard : Console := ⟨80, false, ""⟩

def recording (width : Nat) : Console := ⟨width, true, ""⟩

def print (console : Console) (texts : List String) : Console :=
  if console.isRecording then
    { console with recorded := console.recorded ++ Markup.strip (" ".intercalate texts) ++ "\n" }
  else console

def take (console : Console) : String × Console :=
  (console.recorded, { console with recorded := "" })

end Console

end ImportRedirect
