import ImportRedirect.Proofs.Script.Follow

/-!
Loops of a reader taken apart into the results that were read one after the other and the step that
gave none. Put together again, they are a run of the loop.
-/

namespace ImportRedirect.Script

namespace Scan

variable {α : Type}

/-- The step gives these results, one after the other. -/
inductive Repeats (step : Scan (Option α)) : Cursor → List α → Cursor → Prop where
  | stop {c : Cursor} : Repeats step c [] c
  | more {c d m : Cursor} {a : α} {items : List α} (one : step.Reads c (some a) d)
      (others : Repeats step d items m) : Repeats step c (a :: items) m

variable {step : Scan (Option α)} {c d m : Cursor} {items : List α} {n : Nat}

theorem Repeats.leads (repeats : step.Repeats c items m) : c.Leads m := by
  induction repeats with
  | stop => exact .refl
  | more one _ inductionHypothesis => exact one.leads.trans inductionHypothesis

theorem Repeats.length_le (repeats : step.Repeats c items m)
    (advances : ∀ m, c.Leads m → step.Advances m) : items.length + m.rest.length ≤ c.rest.length := by
  induction repeats with
  | stop => simp
  | more one _ inductionHypothesis =>
    have shorter := one.ensured (advances _ .refl) rfl
    have others := inductionHypothesis fun m leads => advances m (one.leads.trans leads)
    rw [List.length_cons]
    omega

theorem Repeats.append {others : List α} (front : step.Repeats c items m)
    (back : step.Repeats m others d) : step.Repeats c (items ++ others) d := by
  induction front with
  | stop => exact back
  | more one _ inductionHypothesis => exact .more one (inductionHypothesis back)

theorem Repeats.manyWithin (repeats : step.Repeats c items m) (last : step.Reads m none d)
    (enough : items.length < n) : (manyWithin step n).Reads c items d := by
  induction repeats generalizing n with
  | stop =>
    obtain ⟨n, rfl⟩ : ∃ rest, n = rest + 1 := ⟨n - 1, by omega⟩
    exact reads_bind.mpr ⟨none, d, last, reads_pure.mpr ⟨rfl, rfl⟩⟩
  | more one _ inductionHypothesis =>
    rw [List.length_cons] at enough
    obtain ⟨n, rfl⟩ : ∃ rest, n = rest + 1 := ⟨n - 1, by omega⟩
    exact reads_bind.mpr ⟨_, _, one, reads_bind.mpr ⟨_, _, inductionHypothesis last (by omega),
      reads_pure.mpr ⟨rfl, rfl⟩⟩⟩

theorem Repeats.many (repeats : step.Repeats c items m) (last : step.Reads m none d)
    (enough : items.length ≤ c.size) : (many step).Reads c items d :=
  reads_bind.mpr ⟨c, c, reads_cursor.mpr ⟨rfl, rfl⟩, repeats.manyWithin last (Nat.lt_succ_of_le enough)⟩

theorem repeats_of_manyWithin (reads : (manyWithin step n).Reads c items d)
    (advances : ∀ m, c.Leads m → step.Advances m) (enough : c.rest.length < n) :
    ∃ m, step.Repeats c items m ∧ step.Reads m none d := by
  induction n generalizing c items with
  | zero => omega
  | succ n inductionHypothesis =>
    obtain ⟨result, m, one, reads⟩ := reads_bind.mp reads
    cases result with
    | none =>
      obtain ⟨rfl, rfl⟩ := reads_pure.mp reads
      exact ⟨c, .stop, one⟩
    | some a =>
      have shorter := one.ensured (advances c .refl) rfl
      obtain ⟨others, _, more, reads⟩ := reads_bind.mp reads
      obtain ⟨rfl, rfl⟩ := reads_pure.mp reads
      obtain ⟨last, repeats, stopped⟩ := inductionHypothesis more
        (fun d leads => advances d (one.leads.trans leads)) (by omega)
      exact ⟨last, .more one repeats, stopped⟩

/-- A loop is as many steps as give a result, and the one after them. -/
theorem reads_many (advances : ∀ m, c.Leads m → step.Advances m) (sized : c.rest.length ≤ c.size) :
    (many step).Reads c items d ↔ ∃ m, step.Repeats c items m ∧ step.Reads m none d := by
  constructor
  · intro whole
    obtain ⟨_, _, here, reads⟩ := reads_bind.mp whole
    obtain ⟨rfl, rfl⟩ := reads_cursor.mp here
    exact repeats_of_manyWithin reads advances (by omega)
  · rintro ⟨m, repeats, last⟩
    have few := repeats.length_le advances
    exact repeats.many last (by omega)

/-- A list ends where its closing mark is passed. -/
theorem closed_of_itemOrGapBefore {closing : String} {item : Scan α}
    (whole : (itemOrGapBefore closing item).Reads c none d) :
    (c.tokenAfter 0).lexeme = .mark closing ∧ d = c.past closing.length := by
  obtain ⟨closed, m, accepted, refused⟩ := reads_bind.mp whole
  rw [acceptMark, reads_accept] at accepted
  split at accepted
  · next found =>
    obtain ⟨rfl, rfl⟩ := accepted
    obtain ⟨_, rfl⟩ := reads_pure.mp refused
    exact ⟨found, rfl⟩
  · obtain ⟨rfl, rfl⟩ := accepted
    simp only [Bool.false_eq_true, if_false] at refused
    obtain ⟨leftOut, n, _, read⟩ := reads_bind.mp refused
    cases leftOut with
    | true => simp at read
    | false =>
      simp only [Bool.false_eq_true, if_false] at read
      obtain ⟨a, _, _, separated⟩ := reads_bind.mp read
      obtain ⟨seen, _, _, last⟩ := reads_bind.mp separated
      cases seen <;> simp [reads_bind] at last

theorem reads_itemOrGapBefore_closing {closing : String} {item : Scan α}
    (found : (c.tokenAfter 0).lexeme = .mark closing) :
    (itemOrGapBefore closing item).Reads c none (c.past closing.length) := by
  refine reads_bind.mpr ⟨true, c.past closing.length, ?_, reads_pure.mpr ⟨rfl, rfl⟩⟩
  rw [acceptMark, reads_accept, if_pos found]
  exact ⟨rfl, rfl⟩

end Scan

namespace Border

open Scan

variable {α : Type} [Alone α] {b : Border} {step step' : Scan (Option α)} {c m : Cursor}
  {items : List α}

/-- The steps of a loop that stays clear of the border are taken in the other script as well. -/
theorem repeats_moved (repeats : step.Repeats c items m)
    (each : ∀ d, c.Leads d → b.Follows b.Clear b.Clear step step' d) (valid : b.Valid c)
    (clear : b.Clear m) : b.Clear c ∧
      ∃ items', step'.Repeats (b.moved c) items' (b.moved m) ∧ alone items' = alone items := by
  induction repeats with
  | stop => exact ⟨clear, [], .stop, rfl⟩
  | more one _ inductionHypothesis =>
    obtain ⟨halfway, items', others, same⟩ := inductionHypothesis
      (fun d leads => each d (one.leads.trans leads)) (valid.later one.leads) clear
    obtain ⟨begun, result', reads, alike⟩ := each _ .refl _ _ valid one halfway
    obtain ⟨a', rfl, sameItem⟩ := Option.map_eq_some_iff.mp alike
    exact ⟨begun, a' :: items', .more reads others, congrArg₂ List.cons sameItem same⟩

end Border

end ImportRedirect.Script
