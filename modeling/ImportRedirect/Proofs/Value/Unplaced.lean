import ImportRedirect.Proofs.Value.Same
import Mathlib.Data.List.Forall2
import Mathlib.Data.List.Perm.Subperm

/-!
Values without the places of their nodes, and values that match a pattern up to places and the order of
fields. Parts of a value that matches a pattern match the parts of the pattern.
-/

namespace ImportRedirect.Value

/-- Whether a field says where a node stands. -/
def isPlace (key : String) : Bool := key == "start" || key == "end"

mutual

def unplaced : Value → Value
  | .arr items => .arr (unplacedItems items)
  | .obj fields => .obj (unplacedFields fields)
  | v => v

def unplacedItems : List Value → List Value
  | [] => []
  | v :: rest => v.unplaced :: unplacedItems rest

def unplacedFields : List (String × Value) → List (String × Value)
  | [] => []
  | (key, v) :: rest =>
    if isPlace key then unplacedFields rest else (key, v.unplaced) :: unplacedFields rest

end

variable {v w pattern value : Value} {key text : String}

theorem unplacedItems_eq (items : List Value) : unplacedItems items = items.map unplaced := by
  induction items with
  | nil => rfl
  | cons item rest inductionHypothesis => rw [unplacedItems, inductionHypothesis, List.map_cons]

@[simp] theorem unplaced_arr (items : List Value) :
    (arr items).unplaced = .arr (items.map unplaced) := by
  rw [unplaced, unplacedItems_eq]

@[simp] theorem unplaced_str (text : String) : (str text).unplaced = .str text := rfl

@[simp] theorem unplaced_bool (b : Bool) : (bool b).unplaced = .bool b := rfl

theorem unplacedFields_append (front rest : List (String × Value)) :
    unplacedFields (front ++ rest) = unplacedFields front ++ unplacedFields rest := by
  induction front with
  | nil => rfl
  | cons field front inductionHypothesis =>
    obtain ⟨key, value⟩ := field
    simp only [List.cons_append, unplacedFields, inductionHypothesis]
    split <;> rfl

theorem unplacedFields_insert (other : isPlace key = false) (fields : List (String × Value)) :
    unplacedFields (insert key value fields) = insert key value.unplaced (unplacedFields fields) := by
  induction fields with
  | nil => simp [insert, unplacedFields, other]
  | cons field rest inductionHypothesis =>
    obtain ⟨name, content⟩ := field
    by_cases here : name = key
    · subst here
      simp [insert, unplacedFields, other]
    · by_cases place : isPlace name = true
      · simp [insert, unplacedFields, here, place, inductionHypothesis]
      · simp [insert, unplacedFields, here, place, inductionHypothesis]

theorem unplaced_put (other : isPlace key = false) :
    (v.put key value).unplaced = v.unplaced.put key value.unplaced := by
  cases v with
  | obj fields => simp [put, unplaced, unplacedFields_insert other]
  | _ => simp only [put, unplaced]

theorem unplacedFields_eq (fields : List (String × Value)) : unplacedFields fields =
    (fields.filter (!isPlace ·.1)).map fun field => (field.1, field.2.unplaced) := by
  induction fields with
  | nil => rfl
  | cons field rest inductionHypothesis =>
    obtain ⟨key, value⟩ := field
    cases place : isPlace key <;> simp [unplacedFields, place, inductionHypothesis]

theorem Neat.unplaced (neat : v.Neat) : v.unplaced.Neat := by
  induction neat with
  | null => exact .null
  | bool b => exact .bool b
  | int i => exact .int i
  | str text => exact .str text
  | @arr items _ inductionHypothesis =>
    rw [unplaced_arr]
    refine .arr fun item membership => ?_
    obtain ⟨item, among, rfl⟩ := List.mem_map.mp membership
    exact inductionHypothesis item among
  | @obj fields once _ inductionHypothesis =>
    rw [Value.unplaced, unplacedFields_eq]
    refine .obj ?_ fun field membership => ?_
    · rw [List.map_map]
      exact once.sublist (List.filter_sublist.map _)
    · obtain ⟨field, among, rfl⟩ := List.mem_map.mp membership
      exact inductionHypothesis field (List.mem_filter.mp among).1

theorem lookup_unplacedFields (other : isPlace key = false) (fields : List (String × Value)) :
    lookup key (unplacedFields fields) = (lookup key fields).map unplaced := by
  induction fields with
  | nil => rfl
  | cons field rest inductionHypothesis =>
    obtain ⟨name, content⟩ := field
    by_cases here : name = key
    · subst here
      simp [unplacedFields, lookup, other]
    · by_cases place : isPlace name = true
      · simp [unplacedFields, lookup, here, place, inductionHypothesis]
      · simp [unplacedFields, lookup, here, place, inductionHypothesis]

theorem peek_unplaced (other : isPlace key = false) (v : Value) :
    v.unplaced.peek key = (v.peek key).unplaced := by
  cases v with
  | obj fields =>
    simp only [unplaced, peek, lookup_unplacedFields other]
    cases lookup key fields <;> rfl
  | _ => simp [unplaced, peek]

theorem mem_of_lookup {fields : List (String × Value)} (found : lookup key fields = some value) :
    (key, value) ∈ fields := by
  induction fields with
  | nil => simp [lookup] at found
  | cons field rest inductionHypothesis =>
    obtain ⟨name, content⟩ := field
    by_cases here : name = key
    · subst here
      obtain rfl : content = value := by simpa [lookup] using found
      exact List.mem_cons_self
    · exact List.mem_cons_of_mem _ (inductionHypothesis (by simpa [lookup, here] using found))

/-- Records of as many fields that are equal have the same fields. -/
theorem lookup_eq_none_of_sameFields {fields others : List (String × Value)}
    (once : (fields.map (·.1)).Nodup) (count : fields.length = others.length)
    (alike : sameFields fields others = true) (absent : key ∉ fields.map (·.1)) :
    lookup key others = none := by
  have among : ∀ some : List (String × Value), sameFields some others = true →
      some.map (·.1) ⊆ others.map (·.1) := by
    intro some
    induction some with
    | nil => simp
    | cons field rest inductionHypothesis =>
      obtain ⟨name, content⟩ := field
      intro alike
      rw [sameFields, Bool.and_eq_true] at alike
      refine List.cons_subset.mpr ⟨?_, inductionHypothesis alike.2⟩
      cases found : lookup name others with
      | none => simp [found] at alike
      | some other => exact List.mem_map.mpr ⟨(name, other), mem_of_lookup found, rfl⟩
  have keys : (fields.map (·.1)).Perm (others.map (·.1)) :=
    (once.subperm (among fields alike)).perm_of_length_le (by simp [count])
  cases found : lookup key others with
  | none => rfl
  | some other =>
    have listed : key ∈ others.map (·.1) :=
      List.mem_map.mpr ⟨(key, other), mem_of_lookup found, rfl⟩
    exact absurd (keys.mem_iff.mpr listed) absent

/-- What is related to something in a list, place by place. -/
theorem exists_of_forall₂ {α β : Type} {relates : α → β → Prop} {items : List α} {others : List β}
    (each : List.Forall₂ relates items others) : ∀ other ∈ others, ∃ item ∈ items, relates item other := by
  induction each with
  | nil => simp
  | cons first _ inductionHypothesis =>
    refine List.forall_mem_cons.mpr ⟨⟨_, List.mem_cons_self, first⟩, fun other membership => ?_⟩
    obtain ⟨item, among, related⟩ := inductionHypothesis other membership
    exact ⟨item, List.mem_cons_of_mem _ among, related⟩

/-- The value is the pattern, up to places and the order of fields. -/
def Matches (v pattern : Value) : Prop := pattern.same v.unplaced = true

namespace Matches

theorem of_eq (same : v.unplaced = pattern) (self : pattern.same pattern = true) :
    v.Matches pattern := by
  rw [Matches, same]
  exact self

theorem eq_str (found : v.Matches (.str text)) : v = .str text := by
  rw [Matches] at found
  cases v with
  | str other => rw [unplaced_str, same_str, beq_iff_eq] at found; rw [found]
  | _ => simp [unplaced, same, numeral] at found

theorem arr {patterns : List Value} (found : v.Matches (.arr patterns)) :
    ∃ items, v = .arr items ∧ List.Forall₂ Matches items patterns := by
  rw [Matches] at found
  cases v with
  | arr items =>
    refine ⟨items, rfl, ?_⟩
    rw [unplaced_arr, same] at found
    induction patterns generalizing items with
    | nil =>
      cases items with
      | nil => exact .nil
      | cons item rest => simp [sameList] at found
    | cons pattern patterns inductionHypothesis =>
      cases items with
      | nil => simp [sameList] at found
      | cons item rest =>
        rw [List.map_cons, sameList, Bool.and_eq_true] at found
        exact .cons found.1 (inductionHypothesis rest found.2)
  | _ => simp [unplaced, same, numeral] at found

theorem isRecord (found : v.Matches pattern) (record : pattern.IsRecord) : v.IsRecord := by
  obtain ⟨fields, known⟩ := isRecord_of_same record found
  cases v with
  | obj others => exact isRecord_obj others
  | _ => simp [unplaced] at known

theorem records {items patterns : List Value} (found : List.Forall₂ Matches items patterns)
    (each : ∀ pattern ∈ patterns, pattern.IsRecord) : ∀ item ∈ items, item.IsRecord := by
  intro item membership
  obtain ⟨pattern, among, matched : item.Matches pattern⟩ :=
    exists_of_forall₂ found.flip item membership
  exact matched.isRecord (each pattern among)

theorem peek {part : Value} (found : v.Matches pattern) (other : isPlace key = false)
    (known : pattern.peek key = part) (present : part ≠ .null) : (v.peek key).Matches part := by
  rw [Matches, ← peek_unplaced other, ← known]
  exact same_peek found (known ▸ present)

theorem peek_eq_str (found : v.Matches pattern) (other : isPlace key = false)
    (known : pattern.peek key = .str text) : v.peek key = .str text :=
  (found.peek other known (by simp)).eq_str

/-- A truth value may be written as a number, but it counts in the same way. -/
theorem isPresent_eq_false (found : v.Matches (.bool false)) : v.isPresent = false := by
  rw [Matches] at found
  have zero : ∀ {number : Int} {none scale : Nat},
      (0 * Int.pow 10 none == number * Int.pow 10 scale) = true → number = 0 := by
    intro number none scale same
    rw [beq_iff_eq, Int.zero_mul] at same
    rcases Int.mul_eq_zero.mp same.symm with zero | power
    · exact zero
    · exact absurd power (Int.pow_ne_zero (by decide))
  cases v with
  | bool b =>
    cases b with
    | false => rfl
    | true => cases found
  | int i =>
    rw [zero found]
    rfl
  | real r =>
    cases r with
    | finite number scale =>
      rw [zero found]
      rfl
    | _ => cases found
  | _ => cases found

theorem peek_eq_null {fields : List (String × Value)} (found : v.Matches (.obj fields))
    (other : isPlace key = false) (once : (fields.map (·.1)).Nodup)
    (absent : key ∉ fields.map (·.1)) : v.peek key = .null := by
  obtain ⟨others, rfl⟩ := found.isRecord (isRecord_obj fields)
  rw [Matches, unplaced, same, Bool.and_eq_true, beq_iff_eq] at found
  have none := lookup_eq_none_of_sameFields once found.1 found.2 absent
  rw [lookup_unplacedFields other, Option.map_eq_none_iff] at none
  rw [Value.peek, none]
  rfl

end Matches

end ImportRedirect.Value
