import ImportRedirect.Value

/-!
The trace of a run: what happened, in order, each event under the phase that was open at the time.
Events refer to each other by position.
-/

namespace ImportRedirect

inductive Happening where
  | phaseStart (name detail : String)
  | phaseEnd
  | redirected (shape before after : String)
  | split (shape : String) (kept moved : List Value)
  | warned (message : String)
  | inspected (statement outcome detail : String)
  deriving DecidableEq, Repr

namespace Happening

def kind : Happening → String
  | .phaseStart .. => "phase_start"
  | .phaseEnd => "phase_end"
  | .redirected .. => "statement_mutation"
  | .split .. => "statement_split"
  | .warned _ => "analysis_warning"
  | .inspected .. => "inspection"

def description : Happening → String
  | .phaseStart name _ => name
  | .phaseEnd => "End Phase"
  | .redirected shape _ _ => s!"Rewrote {shape}"
  | .split shape _ _ => s!"Split {shape}"
  | .warned message => message
  | .inspected statement _ _ => s!"Inspecting '{statement}'"

def metadata : Happening → Value
  | .phaseStart _ detail => .obj [("detail", .str detail)]
  | .phaseEnd => .obj []
  | .redirected _ before after => .obj [("before", .str before), ("after", .str after)]
  | .split _ kept moved => .obj [("kept", .arr kept), ("moved", .arr moved)]
  | .warned _ => .obj [("level", .str "warning")]
  | .inspected _ outcome detail => .obj [("outcome", .str outcome), ("detail", .str detail)]

end Happening

/-- Something that happened, and the position of the phase it belongs to. The end of a phase belongs
to the phase that ends. -/
structure Event where
  happening : Happening
  parent : Option Nat
  deriving DecidableEq, Repr

structure Trace where
  events : List Event
  openPhases : List Nat
  deriving DecidableEq, Repr

namespace Trace

def empty : Trace := ⟨[], []⟩

def append (trace : Trace) (happening : Happening) : List Event :=
  trace.events ++ [⟨happening, trace.openPhases.head?⟩]

def start (trace : Trace) (name detail : String) : Trace :=
  ⟨trace.append (.phaseStart name detail), trace.events.length :: trace.openPhases⟩

/-- Closes the innermost phase; without one nothing happens. -/
def finish (trace : Trace) : Trace :=
  match trace.openPhases with
  | [] => trace
  | _ :: outer => ⟨trace.append .phaseEnd, outer⟩

def record (trace : Trace) (happening : Happening) : Trace :=
  { trace with events := trace.append happening }

def recordAll (trace : Trace) (happenings : List Happening) : Trace := happenings.foldl record trace

end Trace

end ImportRedirect
