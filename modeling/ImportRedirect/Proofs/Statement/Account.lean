import ImportRedirect.Proofs.Statement.Evidence

/-!
What a visit that completes leaves at its place and what it reports. Of the nine shapes only six ways
to end remain, and in each of them the counters, the happenings, the diagnostics and the statements
are given together, so that facts about whole passes need not look at the shapes again.
-/

namespace ImportRedirect

open Node

/-- The shape of a statement; none when classifying it goes wrong. -/
def Classifier.shape? (classifier : Classifier) (node : Value) : Option Shape :=
  (classifier.classify node).toOption.map (·.shape)

theorem Classifier.shape?_of_classify {classifier : Classifier} {node : Value} {c : Classification}
    (classified : classifier.classify node = .ok c) : classifier.shape? node = some c.shape := by
  rw [shape?, classified]
  rfl

namespace Diagnostic

theorem sorted_insertName {name : String} {names : List String}
    (sorted : names.Pairwise (· < ·)) : (insertName name names).Pairwise (· < ·) := by
  induction names with
  | nil => simp [insertName]
  | cons first rest inductionHypothesis =>
    obtain ⟨least, later⟩ := List.pairwise_cons.mp sorted
    rw [insertName]
    split
    · next before =>
      refine List.pairwise_cons.mpr ⟨fun other membership => ?_, sorted⟩
      rcases List.mem_cons.mp membership with rfl | membership
      · exact before
      · exact String.lt_trans before (least other membership)
    · next notBefore =>
      split
      · exact sorted
      · next different =>
        have after : first < name := by
          rw [← String.not_le]
          intro notAfter
          exact different (beq_iff_eq.mpr (String.le_antisymm notAfter (String.not_lt.mp notBefore)))
        refine List.pairwise_cons.mpr ⟨fun other membership => ?_, inductionHypothesis later⟩
        rcases mem_insertName.mp membership with rfl | membership
        · exact after
        · exact least other membership

theorem sorted_sortNames (names : List String) : (sortNames names).Pairwise (· < ·) := by
  induction names with
  | nil => exact .nil
  | cons first rest inductionHypothesis => exact sorted_insertName inductionHypothesis

/-- A diagnostic keeps the text it was given for its binding, and its functions are in order. -/
theorem sorted_of_ofValues {binding module functions : Value} {diagnostic : Diagnostic}
    (made : ofValues binding module functions = .ok diagnostic) :
    binding = .str diagnostic.binding ∧ module = .str diagnostic.module ∧
      diagnostic.functions.Pairwise (· < ·) := by
  rw [ofValues] at made
  obtain ⟨parts, _, made⟩ := bind_eq_ok.mp made
  obtain ⟨members, _, made⟩ := bind_eq_ok.mp made
  dsimp only at made
  split at made
  · simp [throw, throwThe, MonadExceptOf.throw, bind, Except.bind] at made
  · split at made
    · obtain rfl := Except.ok.inj made
      exact ⟨rfl, rfl, sorted_sortNames _⟩
    · cases made

end Diagnostic

namespace Redirector

variable (redirector : Redirector)

/-- A diagnostic names what the evidence shows to be used of its binding and the surface does not
cover: at least one function, each of them once, and in order. -/
structure Sound (diagnostic : Diagnostic) : Prop where
  nonempty : diagnostic.functions ≠ []
  sorted : diagnostic.functions.Pairwise (· < ·)
  exact : ∃ used,
    redirector.evidence redirector.text (.str diagnostic.binding) = .ok (some used) ∧
      ∀ name, name ∈ diagnostic.functions ↔ name ∈ used ∧ redirector.surface.covers name = false

/-- The ways in which a visit completes. -/
inductive Accounts (node : Value) : Outcome → Site → Prop where
  | passed (shape : redirector.classifier.shape? node = some .unrecognized) :
      Accounts node .advance (Site.of (some node))
  | kept {shape : Shape} (known : redirector.classifier.shape? node = some shape)
      (recognized : shape ≠ .unrecognized) (noPair : shape ≠ .combinedImport)
      (statement detail : String) :
      Accounts node .advance (keptSite node [] [.inspected statement "kept" detail])
  | warned {shape : Shape} (known : redirector.classifier.shape? node = some shape)
      (recognized : shape ≠ .unrecognized) (noPair : shape ≠ .combinedImport)
      {diagnostic : Diagnostic} (sound : redirector.Sound diagnostic) :
      Accounts node .advance (keptSite node [diagnostic] [.warned diagnostic.message])
  | moved {c : Classification} (known : redirector.classifier.shape? node = some c.shape)
      (recognized : c.shape ≠ .unrecognized) (noPair : c.shape ≠ .combinedImport)
      (changed : Value) : Accounts node .advance (redirector.movedSite changed c)
  | halved (known : redirector.classifier.shape? node = some .combinedImport)
      (specifiers : List Value) : Accounts node .reprocess (splitSite node specifiers)
  | parted (known : redirector.classifier.shape? node = some .namedImport) (first second : Value)
      (kept left : List Value) :
      Accounts node .skipInserted
        ⟨some first, some second, 1, 1, [], [.split Shape.namedImport.name kept left]⟩

variable {redirector} {node : Value} {c : Classification} {moved : Except Fault Value}
  {outcome : Outcome} {site : Site}

/-- A diagnostic that can be made of what is blocked is sound. -/
theorem sound_of_diagnose {uncovered : List String} {diagnostic : Diagnostic}
    (judged : redirector.judge c.binding = .ok (.blocked uncovered))
    (made : diagnose c uncovered = .ok diagnostic) : redirector.Sound diagnostic := by
  obtain ⟨bound, owned, sorted⟩ := Diagnostic.sorted_of_ofValues made
  obtain ⟨other, again, functions⟩ :=
    Diagnostic.ofValues_texts diagnostic.binding diagnostic.module uncovered
  rw [diagnose, bound, owned, again] at made
  obtain rfl := Except.ok.inj made
  obtain ⟨shown, answer, verdict⟩ := map_eq_ok.mp judged
  rw [bound] at answer
  cases shown with
  | none => cases verdict
  | some used =>
    dsimp only at verdict
    split at verdict
    · cases verdict
    · next some =>
      obtain rfl := Verdict.blocked.inj verdict
      refine ⟨fun none => ?_, sorted, used, answer, fun name => ?_⟩
      · rw [List.isEmpty_iff] at some
        exact some (List.eq_nil_iff_forall_not_mem.mpr fun name membership => by
          simpa [none] using (functions name).mpr membership)
      · rw [functions, List.mem_filter, Bool.not_eq_true']

variable (classified : redirector.classifier.classify node = .ok c)
  (recognized : c.shape ≠ .unrecognized) (noPair : c.shape ≠ .combinedImport)

include classified recognized noPair

theorem accounts_moveTo (ends : redirector.moveTo c node moved = (.ok outcome, site)) :
    redirector.Accounts node outcome site := by
  cases moved with
  | error fault => cases ends
  | ok changed =>
    cases ends
    exact .moved (Classifier.shape?_of_classify classified) recognized noPair changed

theorem accounts_settleBinding (ends : redirector.settleBinding c node moved = (.ok outcome, site)) :
    redirector.Accounts node outcome site := by
  have known := Classifier.shape?_of_classify classified
  unfold settleBinding at ends
  split at ends
  · cases ends
  · cases ends
    exact .kept known recognized noPair _ _
  · next uncovered judged =>
    split at ends
    · cases ends
    · next diagnostic made =>
      cases ends
      exact .warned known recognized noPair (sound_of_diagnose judged made)
  · exact accounts_moveTo classified recognized noPair ends

theorem accounts_settleFunction
    (ends : redirector.settleFunction c node moved = (.ok outcome, site)) :
    redirector.Accounts node outcome site := by
  unfold settleFunction at ends
  split at ends
  · exact accounts_moveTo classified recognized noPair ends
  · cases ends
    exact .kept (Classifier.shape?_of_classify classified) recognized noPair _ _

omit recognized noPair in
theorem accounts_settleNames (shape : c.shape = .namedImport) {source : Value}
    {specifiers : List Value}
    (ends : redirector.settleNames c node source specifiers = (.ok outcome, site)) :
    redirector.Accounts node outcome site := by
  have known := Classifier.shape?_of_classify classified
  have recognized : c.shape ≠ .unrecognized := by simp [shape]
  have noPair : c.shape ≠ .combinedImport := by simp [shape]
  simp only [settleNames] at ends
  split at ends
  · cases ends
    exact .kept known recognized noPair _ _
  · split at ends
    · exact accounts_moveTo classified recognized noPair ends
    · split at ends
      · cases ends
      · cases ends
        rw [shape] at known ⊢
        exact .parted known _ _ _ _

omit classified recognized noPair

/-- Every visit that completes does so in one of these ways. -/
theorem accounts_of_visit (visit : redirector.visit node = (.ok outcome, site)) :
    redirector.Accounts node outcome site := by
  have cases := redirector.visited node
  rw [visit] at cases
  generalize ended : ((Except.ok outcome : Except Fault Outcome), site) = result at cases
  cases cases with
  | failed classified => cases ended
  | unrecognized classified shape =>
    cases ended
    exact .passed (shape ▸ Classifier.shape?_of_classify classified)
  | combined _ _ _ _ _ classified =>
    cases ended
    exact .halved (Classifier.shape?_of_classify classified) _
  | default _ _ _ _ _ classified =>
    exact accounts_settleBinding classified (by simp) (by simp) ended.symm
  | named _ _ _ _ _ classified =>
    split at ended
    · cases ended
    · exact accounts_settleNames classified rfl ended.symm
  | @singleImport _ _ _ _ form _ _ _ _ _ _ classified =>
    exact accounts_settleFunction classified (by cases form <;> simp [SingleForm.importShape])
      (by cases form <;> simp [SingleForm.importShape]) ended.symm
  | requireModule _ _ _ _ _ classified =>
    exact accounts_settleBinding classified (by simp) (by simp) ended.symm
  | @singleRequire _ _ _ _ form _ _ _ _ _ _ classified =>
    exact accounts_settleFunction classified (by cases form <;> simp [SingleForm.requireShape])
      (by cases form <;> simp [SingleForm.requireShape]) ended.symm

end Redirector

end ImportRedirect
