/-!
Reading a script from left to right. A cursor only ever moves forward over whole characters, which
`Leads` says and the type of `Scan` enforces: no reader can be written that jumps back or lands
inside a character.
-/

namespace ImportRedirect.Script

def byteLength : List Char → Nat
  | [] => 0
  | c :: rest => c.utf8Size + byteLength rest

@[simp] theorem byteLength_nil : byteLength [] = 0 := rfl

@[simp] theorem byteLength_cons (c : Char) (rest : List Char) :
    byteLength (c :: rest) = c.utf8Size + byteLength rest := rfl

@[simp] theorem byteLength_append (front rest : List Char) :
    byteLength (front ++ rest) = byteLength front + byteLength rest := by
  induction front with
  | nil => simp
  | cons c front inductionHypothesis => simp [inductionHypothesis, Nat.add_assoc]

structure Cursor where
  offset : Nat
  rest : List Char
  reached : Nat
  /-- How many bytes the whole script has, which bounds every loop of a reader. -/
  size : Nat

namespace Cursor

def start (text : List Char) : Cursor := ⟨0, text, 0, byteLength text⟩

/-- The moves of a reader: over one character, or the note that a token ends here. -/
inductive Leads (origin : Cursor) : Cursor → Prop where
  | refl : Leads origin origin
  | step {offset reached size : Nat} {c : Char} {rest : List Char} :
      Leads origin ⟨offset, c :: rest, reached, size⟩ →
      Leads origin ⟨offset + c.utf8Size, rest, reached, size⟩
  | settle {offset reached size : Nat} {rest : List Char} :
      Leads origin ⟨offset, rest, reached, size⟩ → Leads origin ⟨offset, rest, offset, size⟩

theorem Leads.trans {first second third : Cursor} (front : first.Leads second)
    (back : second.Leads third) : first.Leads third := by
  induction back with
  | refl => exact front
  | step _ inductionHypothesis => exact .step inductionHypothesis
  | settle _ inductionHypothesis => exact .settle inductionHypothesis

def drop : Nat → Cursor → Cursor
  | 0, c => c
  | _ + 1, ⟨offset, [], reached, size⟩ => ⟨offset, [], reached, size⟩
  | n + 1, ⟨offset, c :: rest, reached, size⟩ => drop n ⟨offset + c.utf8Size, rest, reached, size⟩

theorem leads_drop (n : Nat) (c : Cursor) : c.Leads (c.drop n) := by
  induction n generalizing c with
  | zero => exact .refl
  | succ n inductionHypothesis =>
    obtain ⟨offset, rest, reached, size⟩ := c
    cases rest with
    | nil => exact .refl
    | cons c rest => exact (Leads.step .refl).trans (inductionHypothesis _)

def settle (c : Cursor) : Cursor := { c with reached := c.offset }

theorem leads_settle (c : Cursor) : c.Leads c.settle := .settle .refl

/-- The characters between two cursors are those that were passed, and so are the bytes. -/
theorem Leads.passed {first second : Cursor} (leads : first.Leads second) :
    ∃ passed, first.rest = passed ++ second.rest ∧
      second.offset = first.offset + byteLength passed := by
  induction leads with
  | refl => exact ⟨[], by simp⟩
  | @step offset reached size c rest _ inductionHypothesis =>
    obtain ⟨passed, characters, bytes⟩ := inductionHypothesis
    refine ⟨passed ++ [c], ?_, ?_⟩
    · simp [characters]
    · simp only at bytes
      simp [bytes, Nat.add_assoc]
  | settle _ inductionHypothesis => exact inductionHypothesis

theorem Leads.offset_le {first second : Cursor} (leads : first.Leads second) :
    first.offset ≤ second.offset := by
  obtain ⟨passed, _, bytes⟩ := leads.passed
  omega

end Cursor

/-- A reader: it fails at some byte, or gives a result and leaves the cursor further on. -/
def Scan (α : Type) : Type :=
  (origin : Cursor) → Except Nat { outcome : α × Cursor // origin.Leads outcome.2 }

namespace Scan

instance : Monad Scan where
  pure a := fun origin => .ok ⟨(a, origin), .refl⟩
  bind first next := fun origin =>
    match first origin with
    | .error offset => .error offset
    | .ok ⟨(a, middle), front⟩ =>
      match next a middle with
      | .error offset => .error offset
      | .ok ⟨outcome, back⟩ => .ok ⟨outcome, front.trans back⟩

def cursor : Scan Cursor := fun origin => .ok ⟨(origin, origin), .refl⟩

def advance (count : Nat) : Scan Unit := fun origin =>
  .ok ⟨((), origin.drop count), origin.leads_drop count⟩

def settle : Scan Unit := fun origin => .ok ⟨((), origin.settle), origin.leads_settle⟩

def failAt {α : Type} (offset : Nat) : Scan α := fun _ => .error offset

instance {α : Type} : Inhabited (Scan α) := ⟨failAt 0⟩

end Scan

end ImportRedirect.Script
