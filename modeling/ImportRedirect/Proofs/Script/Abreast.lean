import ImportRedirect.Proofs.Script.Finding

/-!
Cursors that stand abreast: before the same characters of two scripts that part at a border after them,
and equally far after the last token.
-/

namespace ImportRedirect.Script

section Returns

variable {front rest : List Char}

theorem endsLine_of_append (apart : front.getLast? = some '\r' → rest.head? ≠ some '\n')
    (ends : endsLine (front ++ rest) = true) : endsLine front = true := by
  induction front with
  | nil => rfl
  | cons c front inductionHypothesis =>
    rw [List.cons_append, endsLine] at ends
    rw [endsLine]
    split at ends
    · next stops =>
      rw [if_pos stops]
      cases front with
      | cons d front => exact ends
      | nil =>
        by_cases returns : c = '\r'
        · have noFeed := apart (by simp [returns])
          simp [returns, noFeed] at ends
        · simp [returns]
    · next goesOn =>
      rw [if_neg goesOn]
      cases front with
      | nil => rfl
      | cons d front => exact inductionHypothesis (by rwa [List.getLast?_cons_cons] at apart) ends

/-- Of a text in which every line comment ends its line, so it is in the front, as long as that does not end
inside a line end. -/
theorem endsLines_of_append (apart : front.getLast? = some '\r' → rest.head? ≠ some '\n')
    (ends : endsLines (front ++ rest) = true) : endsLines front = true := by
  induction front with
  | nil => rfl
  | cons c front inductionHypothesis =>
    cases front with
    | nil => simp [endsLines]
    | cons d front =>
      rw [List.getLast?_cons_cons] at apart
      simp only [List.cons_append, endsLines, Bool.and_eq_true] at ends inductionHypothesis ⊢
      obtain ⟨here, later⟩ := ends
      refine ⟨?_, inductionHypothesis apart later⟩
      simp only [Bool.or_eq_true, List.head?_cons, List.tail_cons] at here ⊢
      refine here.imp_right fun ends => endsLine_of_append ?_ ends
      intro last
      cases front with
      | nil => cases last
      | cons e front => exact apart (by rwa [List.getLast?_cons_cons])

theorem Meets.endsLines {old new : List Char} (meets : Meets old new)
    (ends : endsLines (front ++ old) = true) : Script.endsLines front = true := by
  refine endsLines_of_append (fun _ feed => ?_) ends
  rcases meets.nil_or_cons with ⟨rfl, _⟩ | ⟨c, among, rest, _, rfl, _⟩
  · cases feed
  · obtain rfl := Option.some.inj feed
    exact absurd among (by decide)

end Returns

namespace Cursor

/-- The cursors stand before the same characters, the first up to one border and the second up to another,
and the last token ended equally far before them. -/
structure Abreast (c d : Cursor) (front old new : List Char) : Prop where
  here : c.Before (front ++ old)
  there : d.Before (front ++ new)
  settled : c.reached ≤ c.offset
  even : d.reached + (c.offset - c.reached) = d.offset

variable {c d : Cursor} {front old new : List Char}

theorem Abreast.of_settled (here : c.Before (front ++ old)) (there : d.Before (front ++ new))
    (settled : c.reached = c.offset) (settledToo : d.reached = d.offset) : Abreast c d front old new :=
  ⟨here, there, Nat.le_of_eq settled, by omega⟩

theorem Before.abreast (here : c.Before (front ++ old)) (settled : c.reached ≤ c.offset)
    (new : List Char) : ∃ d, Abreast c d front old new :=
  ⟨⟨c.offset, front ++ new, c.reached, c.offset + byteLength (front ++ new)⟩, here, ⟨rfl, rfl⟩, settled,
    Nat.add_sub_cancel' settled⟩

namespace Abreast

variable (abreast : Abreast c d front old new) (meets : Meets old new)

/-- The border before which the cursors stand. -/
def border : Border where
  old := old
  new := new
  start := c.reached
  place := d.reached
  oldSize := c.size
  newSize := d.size
  meets := meets
  sizes := by
    have first := abreast.here.whole
    have second := abreast.there.whole
    have settled := abreast.settled
    have even := abreast.even
    rw [abreast.here.rest, byteLength_append] at first
    rw [abreast.there.rest, byteLength_append] at second
    omega

theorem moved : (abreast.border meets).moved c = d := by
  have settled := abreast.settled
  have even := abreast.even
  ext1
  · simp only [Border.moved, Border.shift, border]
    omega
  · rw [Border.moved, abreast.here.rest, abreast.there.rest]
    exact Border.swap_append (b := abreast.border meets) front
  · simp [Border.moved, Border.shift, border]
  · rfl

theorem valid (ends : CommentsEnd old new front) : (abreast.border meets).Valid c := by
  refine ⟨Nat.le_refl _, abreast.settled, abreast.here.whole, rfl, fun other same => ?_⟩
  rw [abreast.here.rest] at same
  rwa [← List.append_cancel_right same]

/-- The cursors go on abreast. -/
theorem later {m : Cursor} {further : List Char} (leads : c.Leads m) (rest : m.rest = further ++ old) :
    Abreast m ((abreast.border meets).moved m) further old new := by
  have settled := abreast.settled
  have reached := leads.reached_le settled
  have onward := abreast.here.later leads
  have whole := onward.whole
  have sizes := (abreast.border meets).sizes
  rw [rest, byteLength_append, leads.size_eq] at whole
  simp only [border] at sizes
  have other : ((abreast.border meets).moved m).rest = further ++ new := by
    rw [Border.moved, rest]
    exact Border.swap_append (b := abreast.border meets) further
  refine ⟨rest ▸ onward, ⟨other, ?_⟩, reached.2, ?_⟩
  · rw [other, byteLength_append]
    simp only [Border.moved, Border.shift, border]
    omega
  · simp only [Border.moved, Border.shift, border]
    omega

end Abreast

end Cursor

end ImportRedirect.Script
