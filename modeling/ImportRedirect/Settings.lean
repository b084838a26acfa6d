import ImportRedirect.Files.Path
import ImportRedirect.Surface.Snapshot
import ImportRedirect.Text.Blank
import ImportRedirect.Text.Word

/-!
Settings: which modules are legacy, which module replaces them, and where everything is found.
Settings are built from loosely typed fields, each of which is checked and brought to its plain
form.
-/

namespace ImportRedirect

structure Settings where
  legacyModules : List String
  dottedPrefixes : List String
  singleFileExtensions : List String
  replacementModule : String
  requireCallee : String
  excludes : List String
  surfacePath : Option Path
  extensions : List String
  deriving DecidableEq, Repr

namespace Settings

def default : Settings where
  legacyModules := ["lodash", "lodash-es"]
  dottedPrefixes := ["lodash"]
  singleFileExtensions := ["js"]
  replacementModule := "es-toolkit/compat"
  requireCallee := "require"
  excludes := []
  surfacePath := none
  extensions := [".js", ".mjs", ".cjs", ".jsx"]

/-- Names of modules, none of them blank. -/
def moduleNames (field : String) (names : List String) : Except (List Issue) (List String) :=
  let trimmed := names.map Text.trim
  if trimmed.contains "" then .error [⟨[.field field], .moduleName⟩] else .ok trimmed

def notBlank (field : String) (text : String) : Except (List Issue) String :=
  let trimmed := Text.trim text
  if trimmed == "" then .error [⟨[.field field], .nonBlank⟩] else .ok trimmed

/-- A file extension without blanks and leading points. -/
def bareExtension (extension : String) : String :=
  Text.trimStart (· == '.') (Text.trim extension)

def bareExtensions (extensions : List String) : List String :=
  (extensions.map bareExtension).filter (· != "")

def dottedExtensions (extensions : List String) : List String :=
  (bareExtensions extensions).map fun extension => "." ++ Text.lower extension

def textField (name absent : String) : Option Value → Except (List Issue) String
  | some (.str text) => .ok text
  | some _ => .error [⟨[.field name], .text⟩]
  | none => .ok absent

def pathField (name : String) : Option Value → Except (List Issue) (Option Path)
  | some (.str text) => .ok (some (Path.parse text))
  | some .null | none => .ok none
  | some _ => .error [⟨[.field name], .path⟩]

/-- Settings from fields, with defaults for those that are absent, or all that is wrong with them.
-/
def ofFields (fields : List (String × Value)) : Except Fault Settings :=
  let texts := fun name absent => Snapshot.textsField name absent (Value.lookup name fields)
  let text := fun name absent => textField name absent (Value.lookup name fields)
  let legacyModules := texts "legacy_modules" default.legacyModules >>= moduleNames "legacy_modules"
  let dottedPrefixes :=
    texts "dotted_prefixes" default.dottedPrefixes >>= moduleNames "dotted_prefixes"
  let singleFileExtensions :=
    (texts "single_file_extensions" default.singleFileExtensions).map bareExtensions
  let replacementModule :=
    text "replacement_module" default.replacementModule >>= notBlank "replacement_module"
  let requireCallee := text "require_callee" default.requireCallee >>= notBlank "require_callee"
  let excludes := texts "excludes" default.excludes
  let surfacePath := pathField "surface_path" (Value.lookup "surface_path" fields)
  let extensions := (texts "extensions" default.extensions).map dottedExtensions
  match legacyModules, dottedPrefixes, singleFileExtensions, replacementModule, requireCallee,
    excludes, surfacePath, extensions with
  | .ok legacyModules, .ok dottedPrefixes, .ok singleFileExtensions, .ok replacementModule,
    .ok requireCallee, .ok excludes, .ok surfacePath, .ok extensions =>
    .ok { legacyModules, dottedPrefixes, singleFileExtensions, replacementModule, requireCallee,
          excludes, surfacePath, extensions }
  | _, _, _, _, _, _, _, _ =>
    .error (.invalid (Snapshot.issuesOf legacyModules ++ Snapshot.issuesOf dottedPrefixes ++
      Snapshot.issuesOf singleFileExtensions ++ Snapshot.issuesOf replacementModule ++
      Snapshot.issuesOf requireCallee ++ Snapshot.issuesOf excludes ++
      Snapshot.issuesOf surfacePath ++ Snapshot.issuesOf extensions))

def isLegacy (settings : Settings) (module : String) : Bool :=
  settings.legacyModules.contains module

/-- Alternatives of a pattern: no alternatives match like an empty one. -/
def alternatives (names : List String) : List String := if names.isEmpty then [""] else names

def afterText? (front : String) (text : List Char) : Option (List Char) :=
  if front.toList.isPrefixOf text then some (text.drop front.length) else none

/-- Whether the characters are exactly the text; one newline may follow. -/
def isWhole (text : List Char) (characters : List Char) : Bool :=
  characters == text || characters == text ++ ['\n']

def wordFront? (text : List Char) : Option (List Char × List Char) :=
  match text.takeWhile Text.isWord with
  | [] => none
  | word => some (word, text.dropWhile Text.isWord)

/-- The function that a file of a legacy module holds: `module/function.extension`. -/
def deepName? (settings : Settings) (module : String) : Option String :=
  (alternatives settings.legacyModules).findSome? fun legacy =>
    match afterText? (legacy ++ "/") module.toList with
    | none => none
    | some rest =>
      match wordFront? rest with
      | some (word, '.' :: extension) =>
        if (alternatives settings.singleFileExtensions).any fun known =>
            isWhole known.toList extension then some (String.ofList word)
        else none
      | _ => none

/-- The function that a package of its own holds: `prefix.function`. -/
def dottedName? (settings : Settings) (module : String) : Option String :=
  (alternatives settings.dottedPrefixes).findSome? fun package =>
    match afterText? (package ++ ".") module.toList with
    | none => none
    | some rest =>
      match wordFront? rest with
      | some (word, tail) => if isWhole [] tail then some (String.ofList word) else none
      | none => none

def toValue (settings : Settings) : Value :=
  let texts := fun (items : List String) => Value.arr (items.map .str)
  .obj [("legacy_modules", texts settings.legacyModules),
    ("dotted_prefixes", texts settings.dottedPrefixes),
    ("single_file_extensions", texts settings.singleFileExtensions),
    ("replacement_module", .str settings.replacementModule),
    ("require_callee", .str settings.requireCallee), ("excludes", texts settings.excludes),
    ("surface_path", .ofOption (settings.surfacePath.map Path.text)),
    ("extensions", texts settings.extensions)]

end Settings

end ImportRedirect
