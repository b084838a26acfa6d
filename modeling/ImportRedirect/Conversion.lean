import ImportRedirect.Emit.Splice
import ImportRedirect.Pass
import ImportRedirect.Script.Program

/-!
The conversion of one script: read it, redirect its statements, and put the changed ones back. A
script that cannot be read is given back as it was, with the reason.
-/

namespace ImportRedirect

structure Conversion where
  code : String
  errors : List String
  diagnostics : List Diagnostic
  mutated : Bool
  trace : Trace
  log : List LogLine

namespace Conversion

def success (conversion : Conversion) : Bool := conversion.errors.isEmpty

end Conversion

structure Engine where
  settings : Settings
  surface : Surface
  evidence : Evidence

namespace Engine

/-- An engine. Excluded names given on top of the settings are added to them. A surface without
names counts as none, and without a surface the snapshot named by the settings is loaded. -/
def create (settings : Settings) (surface : Option Surface) (evidence : Evidence)
    (excludes : List String) (load : Settings → Except Fault Surface) : Except Fault Engine := do
  let settings :=
    if excludes.isEmpty then settings
    else { settings with excludes := distinctNames [] (settings.excludes ++ excludes) }
  match surface with
  | some given =>
    if given.size == 0 then return ⟨settings, ← load settings, evidence⟩
    else return ⟨settings, given, evidence⟩
  | none => return ⟨settings, ← load settings, evidence⟩

def redirector (engine : Engine) (text : String) : Redirector :=
  ⟨⟨engine.settings, engine.surface⟩, engine.evidence, text⟩

/-- Converts a script. Faults other than bad input text do not arise for statements that were read
from it. -/
def convert (engine : Engine) (code : String) : Except Fault Conversion :=
  let trace := (Trace.empty.start "Rewrite Pipeline"
    ("legacy -> " ++ engine.settings.replacementModule)).start "Parsing" "JavaScript -> ESTree"
  match Script.parse code with
  | .error offset =>
    let error := "Parse Error: " ++ (Fault.badSyntax offset).message
    .ok ⟨code, [error], [], false, trace.finish.finish, []⟩
  | .ok tree =>
    let trace :=
      trace.finish.start "Rewrite Pass" "Classify, rewrite and split top-level statements"
    let walked := (engine.redirector code).run tree.body trace
    let progress := walked.progress
    let log := progress.diagnostics.map Diagnostic.warning
    match walked.fault with
    | some fault => .error fault
    | none =>
      let trace := progress.trace.finish
      if progress.mutated then
        let trace := trace.start "Emission" "ESTree -> JavaScript"
        match Emit.splice code tree.body walked.body with
        | .ok text => .ok ⟨text, [], progress.diagnostics, true, trace.finish.finish, log⟩
        | .error fault@(.unprintable ..) =>
          let error := "Generation Error: " ++ fault.message
          .ok ⟨code, [error], [], false, trace.finish.finish, log⟩
        | .error fault => .error fault
      else .ok ⟨code, [], progress.diagnostics, false, trace.finish, log⟩

end Engine

/-- Converts a script with the bundled surface, or the errors that stood in the way. -/
def convert (code : String) (settings : Settings) : Except Fault String := do
  let engine ← Engine.create settings none Usage.scan [] fun settings =>
    .ok (Surface.bundled settings.excludes)
  let conversion ← engine.convert code
  if conversion.success then return conversion.code
  else throw (.conversionFailed conversion.errors)

end ImportRedirect
