import ImportRedirect.Proofs.Record

/-!
Values that are equal up to the order of fields. Parts of such values are equal in the same sense,
which tells a changed value from the one it was made of.
-/

namespace ImportRedirect.Value

variable {v w value : Value} {key : String}

attribute [local simp] same sameList sameFields

@[simp] theorem same_str (first second : String) :
    (str first).same (.str second) = (first == second) := by
  rw [same]

@[simp] theorem same_arr_singleton (first second : Value) :
    (arr [first]).same (.arr [second]) = first.same second := by
  simp

@[simp] theorem same_int (first second : Int) :
    (int first).same (.int second) = (first == second) := by
  have scaled : (int first).same (.int second) = (first * 1 == second * 1) := rfl
  rw [scaled, Int.mul_one, Int.mul_one]

@[simp] theorem same_self_null : Value.null.same .null = true := by
  rw [same]

@[simp] theorem same_self_bool (b : Bool) : (bool b).same (.bool b) = true := by
  simp [numeral, Decimal.same]

/-- Only records are equal to a record. -/
theorem isRecord_of_same (record : v.IsRecord) (alike : v.same w = true) : w.IsRecord := by
  obtain ⟨fields, rfl⟩ := record
  cases w with
  | obj others => exact isRecord_obj others
  | _ => simp [numeral] at alike

theorem lookup_of_sameFields {fields others : List (String × Value)}
    (alike : sameFields fields others = true) (found : lookup key fields = some value) :
    ∃ other, lookup key others = some other ∧ value.same other = true := by
  induction fields with
  | nil => simp [lookup] at found
  | cons field rest inductionHypothesis =>
    obtain ⟨name, content⟩ := field
    simp only [sameFields, Bool.and_eq_true] at alike
    by_cases here : name = key
    · subst here
      obtain rfl : content = value := by simpa [lookup] using found
      cases opposite : lookup name others with
      | none => simp [opposite] at alike
      | some other => exact ⟨other, rfl, by simpa [opposite] using alike.1⟩
    · refine inductionHypothesis alike.2 ?_
      simpa [lookup, here] using found

/-- Equal records have equal fields. -/
theorem same_peek (alike : v.same w = true) (present : v.peek key ≠ .null) :
    (v.peek key).same (w.peek key) = true := by
  obtain ⟨fields, rfl, found⟩ := lookup_of_peek rfl present
  obtain ⟨others, rfl⟩ := isRecord_of_same (isRecord_obj fields) alike
  simp only [same, Bool.and_eq_true] at alike
  obtain ⟨other, opposite, equal⟩ := lookup_of_sameFields alike.2 found
  rwa [show (obj others).peek key = other by rw [peek, opposite]; rfl]

theorem lookup_of_mem {fields : List (String × Value)} (once : (fields.map (·.1)).Nodup)
    {field : String × Value} (membership : field ∈ fields) : lookup field.1 fields = some field.2 := by
  induction fields with
  | nil => simp at membership
  | cons first rest inductionHypothesis =>
    obtain ⟨name, content⟩ := first
    obtain ⟨apart, restOnce⟩ := List.nodup_cons.mp once
    rcases List.mem_cons.mp membership with rfl | later
    · simp [lookup]
    · have different : name ≠ field.1 := by
        rintro rfl
        exact apart (List.mem_map.mpr ⟨field, later, rfl⟩)
      simpa [lookup, different] using inductionHypothesis restOnce later

theorem same_self_obj {fields : List (String × Value)} (once : (fields.map (·.1)).Nodup)
    (each : ∀ field ∈ fields, field.2.same field.2 = true) :
    (obj fields).same (.obj fields) = true := by
  have part : ∀ some : List (String × Value), (∀ field ∈ some, field ∈ fields) →
      sameFields some fields = true := by
    intro some among
    induction some with
    | nil => rfl
    | cons field rest inductionHypothesis =>
      have membership := among field (by simp)
      rw [sameFields, Bool.and_eq_true]
      refine ⟨?_, inductionHypothesis fun other later => among other (by simp [later])⟩
      simpa [lookup_of_mem once membership] using each field membership
  rw [same, Bool.and_eq_true]
  exact ⟨by simp, part fields fun _ membership => membership⟩

theorem same_self_arr {items : List Value} (each : ∀ item ∈ items, item.same item = true) :
    (arr items).same (.arr items) = true := by
  rw [same]
  induction items with
  | nil => rfl
  | cons item rest inductionHypothesis =>
    rw [sameList, Bool.and_eq_true]
    exact ⟨each item (by simp), inductionHypothesis fun other later => each other (by simp [later])⟩

/-- A value in which every record has each field once and every number is whole. -/
inductive Neat : Value → Prop where
  | null : Neat .null
  | bool (b : Bool) : Neat (.bool b)
  | int (i : Int) : Neat (.int i)
  | str (text : String) : Neat (.str text)
  | arr {items : List Value} (each : ∀ item ∈ items, Neat item) : Neat (.arr items)
  | obj {fields : List (String × Value)} (once : (fields.map (·.1)).Nodup)
      (each : ∀ field ∈ fields, Neat field.2) : Neat (.obj fields)

theorem Neat.same_self (neat : v.Neat) : v.same v = true := by
  induction neat with
  | null => exact same_self_null
  | bool b => exact same_self_bool b
  | int i => exact (same_int i i).trans (beq_self_eq_true i)
  | str text => exact (same_str text text).trans (beq_self_eq_true text)
  | arr _ inductionHypothesis => exact same_self_arr inductionHypothesis
  | obj once _ inductionHypothesis => exact same_self_obj once inductionHypothesis

end ImportRedirect.Value
