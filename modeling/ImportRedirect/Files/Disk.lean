import ImportRedirect.Files.Problem

/-!
A disk: what stands at each location. A path leads to a location step by step, and every step but
the last must be taken in a directory that exists.
-/

namespace ImportRedirect

abbrev Location : Type := List String

inductive Entry where
  | file (content : List UInt8)
  | directory
  deriving DecidableEq, Repr

structure Disk where
  entries : List (Location × Entry)
  deriving DecidableEq, Repr

namespace Disk

def empty : Disk := ⟨[]⟩

def find? (location : Location) : List (Location × Entry) → Option Entry
  | [] => none
  | (other, entry) :: rest => if other == location then some entry else find? location rest

def set (location : Location) (entry : Entry) : List (Location × Entry) → List (Location × Entry)
  | [] => [(location, entry)]
  | (other, old) :: rest =>
    if other == location then (location, entry) :: rest else (other, old) :: set location entry rest

@[simp] theorem find?_set_self (location : Location) (entry : Entry)
    (entries : List (Location × Entry)) :
    find? location (set location entry entries) = some entry := by
  induction entries with
  | nil => simp [set, find?]
  | cons first rest inductionHypothesis =>
    obtain ⟨other, old⟩ := first
    by_cases same : other = location <;> simp [set, find?, same, inductionHypothesis]

theorem find?_set_of_ne {location other : Location} (different : other ≠ location) (entry : Entry)
    (entries : List (Location × Entry)) :
    find? other (set location entry entries) = find? other entries := by
  induction entries with
  | nil => simp [set, find?, different.symm]
  | cons first rest inductionHypothesis =>
    obtain ⟨place, old⟩ := first
    by_cases same : place = location
    · subst same
      simp [set, find?, different.symm]
    · by_cases found : place = other
      · subst found
        simp [set, find?, different]
      · simp [set, find?, same, found, inductionHypothesis]

/-- What stands at a location. The top is a directory. -/
def get? (disk : Disk) (location : Location) : Option Entry :=
  if location.isEmpty then some .directory else find? location disk.entries

def put (disk : Disk) (location : Location) (entry : Entry) : Disk :=
  ⟨set location entry disk.entries⟩

theorem get?_put_self (disk : Disk) {location : Location} (below : location ≠ [])
    (entry : Entry) : (disk.put location entry).get? location = some entry := by
  simp [get?, put, below]

theorem get?_put_of_ne (disk : Disk) {location other : Location} (different : other ≠ location)
    (entry : Entry) : (disk.put location entry).get? other = disk.get? other := by
  simp [get?, put, find?_set_of_ne different]

/-- The location that steps lead to from `place`. -/
def walk (disk : Disk) (place : Location) : List String → Except FileProblem Location
  | [] => .ok place
  | step :: steps =>
    match disk.get? place with
    | none => .error .notFound
    | some (.file _) => .error .notDirectory
    | some .directory => disk.walk (if step == ".." then place.dropLast else place ++ [step]) steps

def locate (disk : Disk) (path : Path) : Except FileProblem Location := disk.walk [] path.parts

def at? (disk : Disk) (path : Path) : Option Entry :=
  match disk.locate path with
  | .ok location => disk.get? location
  | .error _ => none

def read (disk : Disk) (path : Path) : Except FileProblem (List UInt8) := do
  match disk.get? (← disk.locate path) with
  | none => throw .notFound
  | some .directory => throw .isDirectory
  | some (.file content) => return content

def write (disk : Disk) (path : Path) (content : List UInt8) : Except FileProblem Disk := do
  let location ← disk.locate path
  match disk.get? location with
  | some .directory => throw .isDirectory
  | _ => return disk.put location (.file content)

def makeDirectory (disk : Disk) (path : Path) : Except FileProblem Disk := do
  let location ← disk.locate path
  match disk.get? location with
  | some _ => throw .alreadyExists
  | none => return disk.put location .directory

def stepsBelow? : (top location : Location) → Option Location
  | [], steps => some steps
  | _ :: _, [] => none
  | a :: top, b :: location => if a == b then stepsBelow? top location else none

/-- The files in a directory and in the directories below it, by the steps that lead to them. -/
def filesBelow (disk : Disk) (path : Path) : List Location :=
  match disk.locate path with
  | .error _ => []
  | .ok top =>
    disk.entries.filterMap fun (location, entry) =>
      match entry with
      | .directory => none
      | .file _ => (stepsBelow? top location).filter (!·.isEmpty)

end Disk

end ImportRedirect
