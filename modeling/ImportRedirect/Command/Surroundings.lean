import ImportRedirect.Conversion
import ImportRedirect.Settings.Load
import ImportRedirect.Sources
import ImportRedirect.Value.Printer

/-!
What commands have in common: the settings around their input, the surface that these name, and the
trace as the text of a file.
-/

namespace ImportRedirect.Command

variable {m : Type → Type} [Monad m] [Host m]

def loadSurface (settings : Settings) : m (Except Fault Surface) := do
  match settings.surfacePath with
  | none => return .ok (Surface.bundled settings.excludes)
  | some path => return Surface.ofFile path.text (← Host.read path) settings.excludes

def settingsAround (overrides : Overrides) (input : Path) : ExceptT Fault m Settings := do
  let isDirectory := (← Host.kind? input) == some .directory
  Settings.load overrides (some (if isDirectory then input else input.parent))

/-- The settings and their surface. A surface that cannot be loaded is told, and none is given. -/
def withSurface (settings : Settings) : m (Option Surface) := do
  match ← loadSurface settings with
  | .ok surface => return some surface
  | .error fault =>
    Host.log .error fault.message
    return none

/-- An event for a file: events are known by their positions. -/
def eventValue (position : Nat) (event : Event) : Value :=
  .obj [("id", .str (toString position)), ("type", .str event.happening.kind),
    ("description", .str event.happening.description),
    ("parent_id", .ofOption (event.parent.map toString)), ("metadata", event.happening.metadata)]

def traceContent (trace : Trace) : List UInt8 :=
  let events := trace.events.zipIdx.map fun (event, position) => eventValue position event
  Text.Utf8.encode ((Value.arr events).pretty 0)

end ImportRedirect.Command
