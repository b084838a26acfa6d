import ImportRedirect.Audit
import ImportRedirect.Proofs.Statement.Evidence

/-!
What a report says of the functions noted in it. Each function has one entry, which says what the
surface says of it, so a report is known from the functions that were noted.
-/

namespace ImportRedirect

namespace AuditReport

variable {surface : Surface} {report : AuditReport} {names : List String} {name : String}
  {covered : Bool} {module : Option String}

/-- Every entry is about a function with a name. -/
def IsNamed (report : AuditReport) : Prop := ∀ entry ∈ report, ∃ name, entry.function = .str name

/-- A new entry takes the place of the one about the same function. -/
theorem put_cons {first : AuditEntry} {old : String} (isOld : first.function = .str old) :
    put ⟨.str name, covered, module⟩ (first :: report) =
      if old = name then ⟨.str name, covered, module⟩ :: report
      else first :: put ⟨.str name, covered, module⟩ report := by
  simp only [put, isOld, Value.same_str, beq_iff_eq]
  split
  · next same => rw [same]
  · rfl

theorem mem_put {entry : AuditEntry} (named : report.IsNamed)
    (membership : entry ∈ put ⟨.str name, covered, module⟩ report) :
    entry = ⟨.str name, covered, module⟩ ∨ entry ∈ report := by
  induction report with
  | nil => exact .inl (List.mem_singleton.mp membership)
  | cons first rest inductionHypothesis =>
    obtain ⟨old, isOld⟩ := named first List.mem_cons_self
    have others : IsNamed rest := fun other among => named other (List.mem_cons_of_mem _ among)
    rw [put_cons isOld] at membership
    split at membership
    · rcases List.mem_cons.mp membership with isNew | among
      · exact .inl isNew
      · exact .inr (List.mem_cons_of_mem _ among)
    · rcases List.mem_cons.mp membership with rfl | among
      · exact .inr List.mem_cons_self
      · exact (inductionHypothesis others among).imp id (List.mem_cons_of_mem _)

theorem put_self_mem (named : report.IsNamed) :
    ⟨.str name, covered, module⟩ ∈ put ⟨.str name, covered, module⟩ report := by
  induction report with
  | nil => exact List.mem_singleton_self _
  | cons first rest inductionHypothesis =>
    obtain ⟨old, isOld⟩ := named first List.mem_cons_self
    rw [put_cons isOld]
    split
    · exact List.mem_cons_self
    · exact List.mem_cons_of_mem _ (inductionHypothesis fun other among =>
        named other (List.mem_cons_of_mem _ among))

/-- No function of a report is lost. -/
theorem put_keeps {entry : AuditEntry} (named : report.IsNamed) (membership : entry ∈ report) :
    ∃ other ∈ put ⟨.str name, covered, module⟩ report, other.function = entry.function := by
  induction report with
  | nil => simp at membership
  | cons first rest inductionHypothesis =>
    obtain ⟨old, isOld⟩ := named first List.mem_cons_self
    rw [put_cons isOld]
    split
    · next same =>
      rcases List.mem_cons.mp membership with rfl | among
      · exact ⟨_, List.mem_cons_self, by rw [isOld, same]⟩
      · exact ⟨entry, List.mem_cons_of_mem _ among, rfl⟩
    · rcases List.mem_cons.mp membership with rfl | among
      · exact ⟨entry, List.mem_cons_self, rfl⟩
      · obtain ⟨other, kept, same⟩ := inductionHypothesis
          (fun other among => named other (List.mem_cons_of_mem _ among)) among
        exact ⟨other, List.mem_cons_of_mem _ kept, same⟩

/-- The report has entries for these functions and no others, and says of each whether the surface
covers it. -/
structure Lists (surface : Surface) (report : AuditReport) (names : List String) : Prop where
  sound : ∀ entry ∈ report, ∃ name ∈ names,
    entry.function = .str name ∧ entry.covered = surface.covers name
  complete : ∀ name ∈ names, ∃ entry ∈ report, entry.function = .str name

theorem Lists.named (lists : Lists surface report names) : report.IsNamed := by
  intro entry membership
  obtain ⟨name, _, isName, _⟩ := lists.sound entry membership
  exact ⟨name, isName⟩

theorem lists_empty (surface : Surface) : Lists surface [] [] := ⟨by simp, by simp⟩

theorem lists_put (lists : Lists surface report names) (name : String) (module : Option String) :
    Lists surface (put ⟨.str name, surface.covers name, module⟩ report) (names ++ [name]) where
  sound entry membership := by
    rcases mem_put lists.named membership with rfl | old
    · exact ⟨name, by simp, rfl, rfl⟩
    · obtain ⟨other, noted, isOther, covered⟩ := lists.sound entry old
      exact ⟨other, List.mem_append_left _ noted, isOther, covered⟩
  complete other noted := by
    rcases List.mem_append.mp noted with old | new
    · obtain ⟨entry, membership, isOther⟩ := lists.complete other old
      obtain ⟨kept, among, same⟩ := put_keeps lists.named membership
      exact ⟨kept, among, same.trans isOther⟩
    · rw [List.mem_singleton.mp new]
      exact ⟨_, put_self_mem lists.named, rfl⟩

/-- The functions that a report says are not covered. -/
theorem Lists.uncovered_iff (lists : Lists surface report names) {function : Value} :
    (∃ entry ∈ report, entry.function = function ∧ entry.covered = false) ↔
      ∃ name ∈ names, function = .str name ∧ surface.covers name = false := by
  constructor
  · rintro ⟨entry, membership, rfl, uncovered⟩
    obtain ⟨name, noted, isName, covered⟩ := lists.sound entry membership
    exact ⟨name, noted, isName, covered.symm.trans uncovered⟩
  · rintro ⟨name, noted, rfl, uncovered⟩
    obtain ⟨entry, membership, isName⟩ := lists.complete name noted
    refine ⟨entry, membership, isName, ?_⟩
    obtain ⟨other, _, isOther, covered⟩ := lists.sound entry membership
    obtain rfl : name = other := Value.str.inj (isName.symm.trans isOther)
    exact covered.trans uncovered

end AuditReport

namespace Auditing

open Work AuditReport

variable {redirector : Redirector} {α : Type}

/-- Work that notes these functions and does not stop. -/
def Notes (surface : Surface) (work : Auditing Unit) (names : List String) : Prop :=
  ∀ report before, Lists surface report before →
    ∃ after, work.run report = (.ok (), after) ∧ Lists surface after (before ++ names)

theorem notes_pure (surface : Surface) : Notes surface (pure ()) [] := by
  intro report before lists
  refine ⟨report, rfl, ?_⟩
  rwa [List.append_nil]

@[simp] theorem run_attempt (result : Except Fault α) (report : AuditReport) :
    (attempt result).run report = (result, report) := rfl

theorem notes_attempt {surface : Surface} {result : Except Fault α} {value : α} {names : List String}
    {next : α → Auditing Unit} (succeeds : result = .ok value)
    (notes : Notes surface (next value) names) : Notes surface (attempt result >>= next) names := by
  intro report before lists
  obtain ⟨after, ran, listed⟩ := notes report before lists
  refine ⟨after, ?_, listed⟩
  rw [succeeds, run_bind_ok (run_attempt _ _)]
  exact ran

theorem notes_put (surface : Surface) (name : String) (module : Option String) :
    Notes surface (modify (put ⟨.str name, surface.covers name, module⟩)) [name] :=
  fun _ _ lists => ⟨_, rfl, lists_put lists name module⟩

/-- A function without a name is not noted. -/
theorem notes_note (redirector : Redirector) (module : Option String) (name : String) :
    Notes redirector.surface (note redirector module (.str name)) ([name].filter (· ≠ "")) := by
  by_cases empty : name = ""
  · subst empty
    exact notes_pure _
  · have present : (Value.str name).isPresent = true :=
      (Value.isPresent_iff_ne_empty name).mpr empty
    have noted : [name].filter (· ≠ "") = [name] := by simp [empty]
    rw [note, if_pos present, noted]
    exact notes_attempt rfl (notes_put redirector.surface name module)

theorem notes_forM {surface : Surface} {step : α → Auditing Unit} {names : α → List String}
    {items : List α}
    (notes : ∀ item ∈ items, Notes surface (step item) ((names item).filter (· ≠ ""))) :
    Notes surface (items.forM step) ((items.flatMap names).filter (· ≠ "")) := by
  rw [List.filter_flatMap]
  induction items with
  | nil => exact notes_pure surface
  | cons first rest inductionHypothesis =>
    intro report before lists
    obtain ⟨middle, ran, listed⟩ := notes first List.mem_cons_self report before lists
    obtain ⟨after, continued, listedAll⟩ := inductionHypothesis
      (fun item membership => notes item (List.mem_cons_of_mem _ membership)) middle _ listed
    refine ⟨after, ?_, ?_⟩
    · change (step first >>= fun _ => rest.forM step).run report = _
      rw [run_bind_ok ran, continued]
    · rwa [List.flatMap_cons, ← List.append_assoc]

end Auditing

end ImportRedirect
