import ImportRedirect.Proofs.Value.Same
import ImportRedirect.Proofs.Statement.Regular
import ImportRedirect.Proofs.Statement.Cases

/-!
How a visit ends when the evidence answers about every name: there is a verdict for each binding, a
diagnostic for each that is blocked, and no fault.
-/

namespace ImportRedirect

/-- The evidence has an answer for every name. -/
def Evidence.Answers (evidence : Evidence) : Prop :=
  ∀ text name, ∃ used, evidence text (.str name) = .ok used

theorem Usage.scan_answers : Evidence.Answers scan := by
  intro text name
  rw [scan]
  split
  · exact ⟨_, rfl⟩
  · exact ⟨_, rfl⟩

theorem Usage.membersFrom_nonempty {binding text : List Char} {previous : Option Char} {skip : Nat} :
    ∀ member ∈ membersFrom binding previous skip text, member ≠ [] := by
  induction text generalizing previous skip with
  | nil => simp [membersFrom]
  | cons c rest inductionHypothesis =>
    unfold membersFrom
    split
    · exact inductionHypothesis
    · split
      · next member found =>
        intro other membership
        rcases List.mem_cons.mp membership with rfl | later
        · unfold memberAt? at found
          split at found
          · simp at found
          · split at found
            · split at found
              · simp [← Option.some.inj found]
              · simp at found
            · simp at found
        · exact inductionHypothesis other later
      · exact inductionHypothesis

/-- The functions that are found in a text have characters in their names. -/
theorem Usage.scan_nonempty {text name : String} {used : List String}
    (found : scan text (.str name) = .ok (some used)) : "" ∉ used := by
  intro membership
  rw [scan] at found
  split at found
  · simp at found
  · dsimp only at found
    split at found
    · simp at found
    · rw [← Option.some.inj (Except.ok.inj found), members, List.mem_map] at membership
      obtain ⟨member, among, empty⟩ := membership
      exact membersFrom_nonempty member among (String.ofList_injective empty)

theorem Value.mem_distinct {value : Value} {values : List Value} (membership : value ∈ distinct values) :
    value ∈ values := by
  induction values with
  | nil => simp [distinct] at membership
  | cons first rest inductionHypothesis =>
    rcases List.mem_cons.mp membership with rfl | membership
    · exact List.mem_cons_self
    · exact List.mem_cons_of_mem _ (inductionHypothesis (List.mem_filter.mp membership).1)

theorem Value.mem_distinct_texts {name : String} {names : List String} :
    Value.str name ∈ distinct (names.map .str) ↔ name ∈ names := by
  induction names with
  | nil => simp [distinct]
  | cons first rest inductionHypothesis =>
    rw [List.map_cons, distinct, List.mem_cons, List.mem_filter, inductionHypothesis, same_str,
      List.mem_cons, Value.str.injEq]
    by_cases same : name = first
    · simp [same]
    · simp [same, Ne.symm same]

namespace Diagnostic

theorem mem_insertName {name first : String} {names : List String} :
    name ∈ insertName first names ↔ name = first ∨ name ∈ names := by
  induction names with
  | nil => simp [insertName]
  | cons second rest inductionHypothesis =>
    rw [insertName]
    split
    · simp
    · split
      · next same =>
        rw [beq_iff_eq.mp same]
        simp
      · rw [List.mem_cons, inductionHypothesis, List.mem_cons]
        exact or_left_comm

theorem mem_sortNames {name : String} {names : List String} :
    name ∈ sortNames names ↔ name ∈ names := by
  induction names with
  | nil => simp [sortNames]
  | cons first rest inductionHypothesis =>
    rw [sortNames] at inductionHypothesis ⊢
    rw [List.foldr_cons, mem_insertName, inductionHypothesis, List.mem_cons]

/-- A diagnostic about texts can be made, and it names each of the functions once. -/
theorem ofValues_texts (binding module : String) (names : List String) :
    ∃ diagnostic, ofValues (.str binding) (.str module) (.arr (names.map .str)) = .ok diagnostic ∧
      ∀ name, name ∈ diagnostic.functions ↔ name ∈ names := by
  have members : (names.map Value.str).mapM Value.asMember = .ok (names.map Value.str) := by
    rw [mapM_eq_ok fun item membership => ?_, List.map_id']
    obtain ⟨name, _, rfl⟩ := List.mem_map.mp membership
    rfl
  have texts : ∀ member ∈ Value.distinct (names.map Value.str), ∃ name, member = .str name := by
    intro member membership
    obtain ⟨name, _, rfl⟩ := List.mem_map.mp (Value.mem_distinct membership)
    exact ⟨name, rfl⟩
  have ordered : areOrdered (Value.distinct (names.map Value.str)) = true := by
    rw [areOrdered, Bool.or_eq_true, Bool.or_eq_true, List.all_eq_true]
    refine .inl (.inr fun member membership => ?_)
    obtain ⟨name, rfl⟩ := texts member membership
    rfl
  have flawless : ∀ issues, (∀ name index, issues (Value.str name, index) = []) →
      (Value.distinct (names.map Value.str)).zipIdx.flatMap issues = ([] : List Issue) := by
    intro issues none
    rw [List.flatMap_eq_nil_iff]
    rintro ⟨member, index⟩ membership
    obtain ⟨name, rfl⟩ := texts member (List.fst_mem_of_mem_zipIdx membership)
    exact none name index
  have isText : ∀ place text, textIssues place (.str text) = [] := fun _ _ => rfl
  simp only [ofValues, Value.parts, ok_bind, members, ordered, Bool.not_true, Bool.false_eq_true,
    if_false, isText, List.nil_append]
  rw [flawless _ fun _ _ => rfl]
  refine ⟨_, rfl, fun name => ?_⟩
  rw [mem_sortNames, List.mem_filterMap, ← Value.mem_distinct_texts]
  constructor
  · rintro ⟨member, membership, named⟩
    obtain ⟨other, rfl⟩ := texts member membership
    obtain rfl : other = name := Option.some.inj named
    exact membership
  · exact fun membership => ⟨_, membership, rfl⟩

end Diagnostic

namespace Redirector

open Node

variable {redirector : Redirector} {node : Value} {c : Classification} {module name : String}

/-- The evidence shows that a name is used, and that all that is used of it is covered. -/
def justified (redirector : Redirector) (target : Value) : Bool :=
  match redirector.evidence redirector.text (Node.name target) with
  | .ok (some used) => used.all (redirector.surface.covers ·)
  | _ => false

theorem justified_iff {target : Value} : redirector.justified target = true ↔
    ∃ used, redirector.evidence redirector.text (Node.name target) = .ok (some used) ∧
      ∀ function ∈ used, redirector.surface.covers function = true := by
  unfold justified
  split
  · next used shown =>
    rw [List.all_eq_true]
    constructor
    · intro covered
      exact ⟨used, shown, covered⟩
    · rintro ⟨others, again, covered⟩
      rw [shown, Except.ok.injEq, Option.some.injEq] at again
      rwa [again]
  · next unshown =>
    constructor
    · intro impossible
      simp at impossible
    · rintro ⟨used, shown, _⟩
      exact absurd shown (unshown used)

/-- The functions that the evidence shows to be used of a binding. -/
def usesOf (redirector : Redirector) (binding : Value) : List String :=
  match redirector.evidence redirector.text binding with
  | .ok (some used) => used
  | _ => []

theorem covers_of_justified {target : Value} {function : String}
    (justified : redirector.justified target = true)
    (used : function ∈ redirector.usesOf (Node.name target)) :
    redirector.surface.covers function = true := by
  obtain ⟨shown, answer, covered⟩ := justified_iff.mp justified
  rw [usesOf, answer] at used
  exact covered function used

/-- A binding of a whole module is redirected when that is justified. Otherwise it is kept, and the
diagnostics name all that is used of it and not covered. -/
theorem settleBinding_of_answers (answers : redirector.evidence.Answers) {target : Value}
    {moved : Except Fault Value} (found : Node.name target = .str name)
    (binding : c.binding = .str name) (owner : c.module = some module) :
    redirector.justified target = true ∧
        redirector.settleBinding c node moved = redirector.moveTo c node moved ∨
      redirector.justified target = false ∧ ∃ diagnostics happenings,
        redirector.settleBinding c node moved =
          (.ok .advance, keptSite node diagnostics happenings) ∧
        ∀ function, (∃ diagnostic ∈ diagnostics, function ∈ diagnostic.functions) ↔
          function ∈ redirector.usesOf (Node.name target) ∧
            redirector.surface.covers function = false := by
  obtain ⟨used, answer⟩ := answers redirector.text name
  simp only [justified, usesOf, found, settleBinding, judge, binding, answer, Except.map]
  cases used with
  | none => exact .inr ⟨rfl, _, _, rfl, by simp⟩
  | some used =>
    by_cases covered : used.all (redirector.surface.covers ·) = true
    · have nothing : used.filter (!redirector.surface.covers ·) = [] := by
        rw [List.filter_eq_nil_iff]
        intro function membership
        simp [List.all_eq_true.mp covered function membership]
      simp only [nothing, List.isEmpty_nil, if_true]
      exact .inl ⟨covered, trivial⟩
    · have something : (used.filter (!redirector.surface.covers ·)).isEmpty = false := by
        rw [List.isEmpty_eq_false_iff]
        intro nothing
        apply covered
        rw [List.all_eq_true]
        intro function membership
        simpa using List.filter_eq_nil_iff.mp nothing function membership
      obtain ⟨diagnostic, diagnosed, functions⟩ := Diagnostic.ofValues_texts name module
        (used.filter (!redirector.surface.covers ·))
      simp only [something, Bool.false_eq_true, if_false, diagnose, binding, owner, Value.ofOption,
        diagnosed]
      refine .inr ⟨by simpa using covered, _, _, rfl, fun function => ?_⟩
      simp [functions]

theorem settleFunction_of_some (redirector : Redirector) (node : Value)
    (moved : Except Fault Value) {function : String} (single : c.function = some function) :
    redirector.surface.covers function = true ∧
        redirector.settleFunction c node moved = redirector.moveTo c node moved ∨
      redirector.surface.covers function = false ∧ ∃ happenings,
        redirector.settleFunction c node moved = (.ok .advance, keptSite node [] happenings) := by
  simp only [settleFunction, single, Option.getD_some]
  by_cases covered : redirector.surface.covers function = true
  · exact .inl ⟨covered, by simp [covered]⟩
  · refine .inr ⟨by simpa using covered, ?_⟩
    simp only [covered, Bool.false_eq_true, if_false]
    exact ⟨_, rfl⟩

theorem coverage_of_exported {specifiers : List Value}
    (records : ∀ specifier ∈ specifiers, specifier.IsRecord)
    (exported : ∀ specifier ∈ specifiers, Exported (specifier.peek "imported")) :
    redirector.coverage specifiers = .ok (specifiers.map (redirector.coversSpecifier ·)) := by
  refine mapM_eq_ok fun specifier membership => ?_
  obtain ⟨name, found⟩ := exportName_of_exported (exported specifier membership)
  rw [importedNameD_of_isRecord (records specifier membership), ok_bind, coversSpecifier, found]
  rfl

end Redirector

end ImportRedirect
