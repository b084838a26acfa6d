import ImportRedirect.Proofs.Value.Unplaced

/-!
The texts that stand anywhere in a value. A field that is put into a record brings in its own texts only,
and a pattern has no text that what matches it lacks.
-/

namespace ImportRedirect.Value

/-- All texts in the value are like this. -/
inductive Texts (p : String → Prop) : Value → Prop where
  | str {text : String} (holds : p text) : Texts p (.str text)
  | arr {items : List Value} (each : ∀ item ∈ items, Texts p item) : Texts p (.arr items)
  | obj {fields : List (String × Value)} (each : ∀ field ∈ fields, Texts p field.2) :
      Texts p (.obj fields)
  | null : Texts p .null
  | bool (b : Bool) : Texts p (.bool b)
  | int (i : Int) : Texts p (.int i)
  | real (r : Decimal) : Texts p (.real r)
  | moment (m : String) : Texts p (.moment m)

namespace Texts

variable {p : String → Prop} {v w pattern value : Value} {key text : String}
  {items : List Value}

theorem of_str (texts : (Value.str text).Texts p) : p text := by
  cases texts with
  | str holds => exact holds

theorem of_arr (texts : (Value.arr items).Texts p) : ∀ item ∈ items, item.Texts p := by
  cases texts with
  | arr each => exact each

theorem peek (texts : v.Texts p) (key : String) : (v.peek key).Texts p := by
  cases texts with
  | @obj fields each =>
    rw [Value.peek]
    cases found : lookup key fields with
    | none => exact .null
    | some value => exact each _ (mem_of_lookup found)
  | _ => exact .null

theorem put (texts : v.Texts p) (key : String) (other : value.Texts p) : (v.put key value).Texts p := by
  cases texts with
  | @obj fields each =>
    refine .obj ?_
    induction fields with
    | nil => simpa [insert] using other
    | cons field rest inductionHypothesis =>
      obtain ⟨name, content⟩ := field
      obtain ⟨here, later⟩ := List.forall_mem_cons.mp each
      by_cases same : name = key
      · simpa [insert, same] using ⟨other, by simpa using later⟩
      · have onward := inductionHypothesis later
        simpa [insert, same] using ⟨here, by simpa using onward⟩
  | str holds => exact .str holds
  | arr each => exact .arr each
  | null => exact .null
  | bool b => exact .bool b
  | int i => exact .int i
  | real r => exact .real r
  | moment m => exact .moment m

theorem unplaced (texts : v.Texts p) : v.unplaced.Texts p := by
  induction texts with
  | arr _ inductionHypothesis =>
    rw [unplaced_arr]
    refine .arr fun item membership => ?_
    obtain ⟨item, among, rfl⟩ := List.mem_map.mp membership
    exact inductionHypothesis item among
  | @obj fields each inductionHypothesis =>
    clear each
    refine .obj ?_
    induction fields with
    | nil => simp [unplacedFields]
    | cons field rest others =>
      obtain ⟨name, content⟩ := field
      obtain ⟨here, later⟩ := List.forall_mem_cons.mp inductionHypothesis
      have onward := others later
      by_cases place : isPlace name = true
      · simpa [unplacedFields, place] using onward
      · simpa [unplacedFields, place] using ⟨here, by simpa using onward⟩
  | str holds => exact .str holds
  | null => exact .null
  | bool b => exact .bool b
  | int i => exact .int i
  | real r => exact .real r
  | moment m => exact .moment m

theorem of_same (texts : w.Texts p) (alike : v.same w = true) : v.Texts p := by
  induction texts generalizing v with
  | str holds =>
    cases v with
    | str text =>
      rw [same_str, beq_iff_eq] at alike
      exact .str (alike ▸ holds)
    | _ => simp [same, numeral] at alike
  | @arr others each inductionHypothesis =>
    clear each
    cases v with
    | arr items =>
      refine .arr ?_
      rw [same] at alike
      induction items generalizing others with
      | nil => simp
      | cons item rest more =>
        cases others with
        | nil => simp [sameList] at alike
        | cons other others =>
          rw [sameList, Bool.and_eq_true] at alike
          obtain ⟨here, later⟩ := List.forall_mem_cons.mp inductionHypothesis
          exact List.forall_mem_cons.mpr ⟨here alike.1, more later alike.2⟩
    | _ => simp [same, numeral] at alike
  | @obj others _ inductionHypothesis =>
    cases v with
    | obj fields =>
      refine .obj ?_
      rw [same, Bool.and_eq_true] at alike
      replace alike := alike.2
      induction fields with
      | nil => simp
      | cons field rest more =>
        obtain ⟨name, content⟩ := field
        rw [sameFields, Bool.and_eq_true] at alike
        refine List.forall_mem_cons.mpr ⟨?_, more alike.2⟩
        cases found : lookup name others with
        | none => simp [found] at alike
        | some other =>
          have equal : content.same other = true := by simpa [found] using alike.1
          exact inductionHypothesis _ (mem_of_lookup found) equal
    | _ => simp [same, numeral] at alike
  | _ =>
    cases v with
    | str | arr | obj => simp [same, numeral] at alike
    | null => exact .null
    | bool b => exact .bool b
    | int i => exact .int i
    | real r => exact .real r
    | moment m => exact .moment m

theorem of_matches (texts : v.Texts p) (found : v.Matches pattern) : pattern.Texts p :=
  of_same texts.unplaced found

end Texts

end ImportRedirect.Value
