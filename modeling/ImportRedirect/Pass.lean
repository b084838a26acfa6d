import ImportRedirect.Statement.Redirect

/-!
The pass over a program's statements, from left to right, with a cursor between the statements that
are final and those still to be handled.
-/

namespace ImportRedirect

structure Progress where
  redirected : Nat
  split : Nat
  diagnostics : List Diagnostic
  trace : Trace

namespace Progress

def start (trace : Trace) : Progress := ⟨0, 0, [], trace⟩

def add (progress : Progress) (site : Site) : Progress where
  redirected := progress.redirected + site.redirected
  split := progress.split + site.split
  diagnostics := progress.diagnostics ++ site.diagnostics
  trace := progress.trace.recordAll site.happenings

def mutated (progress : Progress) : Bool := 0 < progress.redirected || 0 < progress.split

end Progress

/-- The end of a pass: the statements, what was done, and the fault that stopped it. -/
structure Walked where
  body : List Value
  progress : Progress
  fault : Option Fault

def Site.statements (site : Site) : List Value := site.node.toList ++ site.inserted.toList

namespace Redirector

/-- Handles the statements in `todo`; `done` holds the final ones, last first. -/
def walk (redirector : Redirector) : Nat → List Value → List Value → Progress → Walked
  | 0, done, todo, progress => ⟨done.reverse ++ todo, progress, none⟩
  | _, done, [], progress => ⟨done.reverse, progress, none⟩
  | visits + 1, done, node :: todo, progress =>
    match redirector.classifier.classify node with
    | .error fault => ⟨done.reverse ++ node :: todo, progress, some fault⟩
    | .ok c =>
      if c.shape == .unrecognized then redirector.walk visits (node :: done) todo progress
      else
        let (outcome, site) := redirector.apply c (some node)
        let progress := progress.add site
        match outcome with
        | .error fault => ⟨done.reverse ++ site.statements ++ todo, progress, some fault⟩
        | .ok .advance | .ok .skipInserted =>
          redirector.walk visits (site.statements.reverse ++ done) todo progress
        | .ok .reprocess => redirector.walk visits done (site.statements ++ todo) progress

/-- Handles a list of statements. A statement is visited at most three times: whole, without its
default specifiers, and as its default specifiers. -/
def run (redirector : Redirector) (body : List Value) (trace : Trace) : Walked :=
  redirector.walk (3 * body.length) [] body (Progress.start trace)

def runProgram (redirector : Redirector) (program : Value) (trace : Trace) :
    Value × Progress × Option Fault :=
  let failed := fun fault => (program, Progress.start trace, some fault)
  match program with
  | .arr body =>
    let walked := redirector.run body trace
    (.arr walked.body, walked.progress, walked.fault)
  | _ =>
    match program.getD "body" (.arr []) with
    | .error fault => failed fault
    | .ok (.arr body) =>
      let walked := redirector.run body trace
      let changed :=
        match program with
        | .obj fields =>
          if (Value.lookup "body" fields).isSome then
            .obj (Value.insert "body" (.arr walked.body) fields)
          else program
        | _ => program
      (changed, walked.progress, walked.fault)
    | .ok body =>
      match body.size with
      | .error fault => failed fault
      | .ok size =>
        if size == 0 || body.isText then (program, Progress.start trace, none)
        else failed (.missingItem 0)

end Redirector

end ImportRedirect
