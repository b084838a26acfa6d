import ImportRedirect.Surface.Bundled
import ImportRedirect.Value.Reader

/-!
Snapshot files: the module that a surface was taken from and the names it exports.
-/

namespace ImportRedirect

structure Snapshot where
  module : String
  version : Option String
  exports : List String

namespace Snapshot

def textField (name : String) : Option Value → Except (List Issue) String
  | some (.str text) => .ok text
  | some _ => .error [⟨[.field name], .text⟩]
  | none => .error [⟨[.field name], .present⟩]

def optionalTextField (name : String) : Option Value → Except (List Issue) (Option String)
  | some (.str text) => .ok (some text)
  | some .null | none => .ok none
  | some _ => .error [⟨[.field name], .text⟩]

def itemIssues (name : String) (items : List Value) : List Issue :=
  items.zipIdx.filterMap fun (item, index) =>
    if item.isText then none else some ⟨[.field name, .item index], .text⟩

def texts (items : List Value) : List String :=
  items.filterMap fun
    | .str text => some text
    | _ => none

def textsField (name : String) (absent : List String) :
    Option Value → Except (List Issue) (List String)
  | none => .ok absent
  | some (.arr items) =>
    let issues := itemIssues name items
    if issues.isEmpty then .ok (texts items) else .error issues
  | some _ => .error [⟨[.field name], .list⟩]

def issuesOf {α : Type} : Except (List Issue) α → List Issue
  | .error issues => issues
  | .ok _ => []

def ofValue : Value → Except (List Issue) Snapshot
  | .obj fields =>
    let module := textField "module" (Value.lookup "module" fields)
    let version := optionalTextField "version" (Value.lookup "version" fields)
    let exports := textsField "exports" [] (Value.lookup "exports" fields)
    match module, version, exports with
    | .ok module, .ok version, .ok exports => .ok ⟨module, version, exports⟩
    | _, _, _ => .error (issuesOf module ++ issuesOf version ++ issuesOf exports)
  | _ => .error [⟨[], .snapshot⟩]

end Snapshot

namespace Surface

def ofFile (path : String) (content : Except FileProblem (List UInt8)) (excludes : List String) :
    Except Fault Surface :=
  match content with
  | .error problem => .error (.unreadableSnapshot path (.unreadable problem))
  | .ok bytes =>
    match Text.Utf8.decode bytes with
    | .error error => .error (.undecodable error)
    | .ok text =>
      match Value.parse? text with
      | none => .error (.unreadableSnapshot path .malformed)
      | some value =>
        match Snapshot.ofValue value with
        | .error issues => .error (.invalidSnapshot path issues)
        | .ok snapshot => .ok (ofNames snapshot.exports excludes (some snapshot.module))

end Surface

end ImportRedirect
