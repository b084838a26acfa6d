import ImportRedirect.Text.Case
import ImportRedirect.Text.Quoted
import ImportRedirect.Value.Access

/-!
The functions that the replacement module offers: a set with an order, which decides among names
that differ only in the case of their letters.
-/

namespace ImportRedirect

/-- Names in order of first occurrence, without those in `seen`. -/
def distinctNames (seen : List String) : List String → List String
  | [] => []
  | name :: rest =>
    if seen.contains name then distinctNames seen rest
    else name :: distinctNames (name :: seen) rest

theorem mem_distinctNames {seen names : List String} {name : String} :
    name ∈ distinctNames seen names ↔ name ∈ names ∧ name ∉ seen := by
  induction names generalizing seen with
  | nil => simp [distinctNames]
  | cons first rest inductionHypothesis =>
    by_cases known : first ∈ seen
    · simp only [distinctNames, List.contains_eq_mem, known, decide_true, if_true,
        inductionHypothesis, List.mem_cons]
      constructor
      · intro found
        exact ⟨.inr found.1, found.2⟩
      · rintro ⟨rfl | found, fresh⟩
        · exact absurd known fresh
        · exact ⟨found, fresh⟩
    · simp only [distinctNames, List.contains_eq_mem, known, decide_false, Bool.false_eq_true,
        if_false, List.mem_cons, inductionHypothesis, not_or]
      constructor
      · rintro (rfl | ⟨found, _, fresh⟩)
        · exact ⟨.inl rfl, known⟩
        · exact ⟨.inr found, fresh⟩
      · rintro ⟨rfl | found, fresh⟩
        · exact .inl rfl
        · by_cases same : name = first
          · exact .inl same
          · exact .inr ⟨found, same, fresh⟩

theorem nodup_distinctNames (seen names : List String) : (distinctNames seen names).Nodup := by
  induction names generalizing seen with
  | nil => simp [distinctNames]
  | cons first rest inductionHypothesis =>
    by_cases known : first ∈ seen
    · simpa [distinctNames, known] using inductionHypothesis seen
    · simp [distinctNames, known, mem_distinctNames, inductionHypothesis]

structure Surface where
  module : Option String
  names : List String
  nodup : names.Nodup

namespace Surface

def ofNames (names excludes : List String) (module : Option String) : Surface :=
  ⟨module, distinctNames excludes names, nodup_distinctNames excludes names⟩

def covers (surface : Surface) (name : String) : Bool := surface.names.contains name

theorem covers_ofNames {names excludes : List String} {module : Option String} {name : String} :
    (ofNames names excludes module).covers name = true ↔ name ∈ names ∧ name ∉ excludes := by
  simp [ofNames, covers, mem_distinctNames]

/-- Whether a loosely typed value is a covered name; lists and objects cannot be asked about. -/
def coversValue (surface : Surface) (value : Value) : Except Fault Bool := do
  match ← value.asMember with
  | .str name => return surface.covers name
  | _ => return false

/-- The first name that differs from the given one at most in the case of letters. -/
def resolveCasing (surface : Surface) (name : String) : Option String :=
  surface.names.find? fun candidate => Text.lower candidate == Text.lower name

def size (surface : Surface) : Nat := surface.names.length

def describe (surface : Surface) : String :=
  let module := (surface.module.map Text.Quoted.quote).getD "None"
  s!"SupportedSurface(module={module}, size={surface.size})"

end Surface

end ImportRedirect
