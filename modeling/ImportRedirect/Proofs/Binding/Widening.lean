import ImportRedirect.Proofs.Binding.Preservation
import ImportRedirect.Proofs.Statement.Account
import ImportRedirect.Proofs.Surface.Names

/-!
Two passes that differ in their surface alone, the second surface having every name of the first. The
two may leave different statements and may ask the replacement for differently spelled names, yet no
binding that the first moves stays behind in the second, and the second complains of nothing that the
first does not complain of.
-/

namespace ImportRedirect

open Node

namespace Surface

variable {small large : Surface}

/-- Every name of the one surface is a name of the other. -/
def Within (small large : Surface) : Prop :=
  ∀ name, small.covers name = true → large.covers name = true

theorem within_ofNames {names excludes more : List String} {module : Option String}
    (fewer : excludes ⊆ more) : Within (ofNames names more module) (ofNames names excludes module) := by
  intro name covered
  rw [covers_ofNames] at covered ⊢
  exact ⟨covered.1, fun excluded => covered.2 (fewer excluded)⟩

theorem Within.resolveCasing (within : small.Within large) {name : String}
    (covered : small.covers ((small.resolveCasing name).getD name) = true) :
    large.covers ((large.resolveCasing name).getD name) = true := by
  have alike : Text.lower ((small.resolveCasing name).getD name) = Text.lower name := by
    cases resolved : small.resolveCasing name with
    | none => rfl
    | some found => exact (covers_of_resolveCasing resolved).2
  obtain ⟨found, resolved⟩ := resolveCasing_of_covers (within _ covered) alike
  rw [resolved]
  exact (covers_of_resolveCasing resolved).1

end Surface

namespace Referent

/-- The module that a binding refers to. -/
def module? : Referent → Option String
  | .exported module _ | .fallback module | .whole module | .required module
  | .member module _ => some module
  | .value _ => none

/-- What a name stands for has changed, and it is something of this module now. -/
structure RedirectedTo (before : Referent) (module : String) (now : Referent) : Prop where
  changed : now ≠ before
  there : now.module? = some module

end Referent

/-- A local name with what it stands for: at first, after one pass, and after the other one. -/
structure Fate where
  target : Value
  before : Referent
  first : Referent
  second : Referent

namespace Fate

def bindingBefore (fate : Fate) : Binding := ⟨fate.target, fate.before⟩

def firstBinding (fate : Fate) : Binding := ⟨fate.target, fate.first⟩

def secondBinding (fate : Fate) : Binding := ⟨fate.target, fate.second⟩

/-- The second pass goes as far as the first one. -/
structure KeepsUp (fate : Fate) (replacement : String) : Prop where
  redirected : fate.before.RedirectedTo replacement fate.first →
    fate.before.RedirectedTo replacement fate.second
  there : fate.first.module? = some replacement → fate.second.module? = some replacement

end Fate

namespace Diagnostic

/-- This diagnostic is about the same binding and names all functions that the other one names. -/
structure Includes (diagnostic other : Diagnostic) : Prop where
  binding : diagnostic.binding = other.binding
  module : diagnostic.module = other.module
  functions : other.functions ⊆ diagnostic.functions

end Diagnostic

namespace Classifier

variable {classifier : Classifier} {module : String}

theorem legacy_of_importClass {specifiers : List Value}
    (recognized : (classifier.importClass module specifiers).shape ≠ .unrecognized)
    (noFunction : (classifier.importClass module specifiers).function = none) :
    classifier.settings.isLegacy module = true := by
  refine Decidable.byContradiction fun modern => recognized ?_
  simp only [importClass, modern, if_false, Bool.false_eq_true] at noFunction ⊢
  split at noFunction
  · split at noFunction
    · cases noFunction
    · next plural => rw [if_neg plural]; rfl
  · rfl

theorem legacy_of_requireClass {binding : Value}
    (recognized : (classifier.requireClass module binding).shape ≠ .unrecognized)
    (noFunction : (classifier.requireClass module binding).function = none) :
    classifier.settings.isLegacy module = true := by
  refine Decidable.byContradiction fun modern => recognized ?_
  simp only [requireClass, modern, if_false, Bool.false_eq_true] at noFunction ⊢
  split
  · rfl
  · next named =>
    rw [if_neg named] at noFunction
    split at noFunction
    · cases noFunction
    · rfl

end Classifier

namespace Redirector

variable {redirector : Redirector} {node : Value} {diagnostic : Diagnostic}

/-- A statement binds a whole legacy module, and this is what there is to say about the functions that
keep it where it is. -/
inductive Complains (redirector : Redirector) (node : Value) (diagnostic : Diagnostic) : Prop where
  | intro {c : Classification} {uncovered : List String}
      (classified : redirector.classifier.classify node = .ok c)
      (whole : c.shape = .defaultImport ∨ c.shape = .requireModule) (noFunction : c.function = none)
      (judged : redirector.judge c.binding = .ok (.blocked uncovered))
      (made : diagnose c uncovered = .ok diagnostic)

theorem complains_of_settleBinding {c : Classification} {moved : Except Fault Value}
    (classified : redirector.classifier.classify node = .ok c)
    (whole : c.shape = .defaultImport ∨ c.shape = .requireModule) (noFunction : c.function = none)
    (membership : diagnostic ∈ (redirector.settleBinding c node moved).2.diagnostics) :
    redirector.Complains node diagnostic := by
  unfold settleBinding at membership
  split at membership
  · simp [Site.of] at membership
  · simp [keptSite] at membership
  · next uncovered judged =>
    split at membership
    · simp [Site.of] at membership
    · next made =>
      obtain rfl : diagnostic = _ := by simpa [keptSite] using membership
      exact ⟨classified, whole, noFunction, judged, made⟩
  · cases moved <;> simp [moveTo, movedSite, Site.of] at membership

theorem diagnostics_settleFunction (c : Classification) (moved : Except Fault Value) :
    (redirector.settleFunction c node moved).2.diagnostics = [] := by
  unfold settleFunction
  split
  · cases moved <;> rfl
  · rfl

theorem diagnostics_settleNames (c : Classification) (source : Value) (specifiers : List Value) :
    (redirector.settleNames c node source specifiers).2.diagnostics = [] := by
  simp only [settleNames]
  split
  · rfl
  · split
    · cases setText source redirector.replacement <;> rfl
    · cases setText source redirector.replacement <;> rfl

/-- A visit makes the diagnostics that there are to make, and no others. -/
theorem mem_diagnostics_iff : diagnostic ∈ (redirector.visit node).2.diagnostics ↔
    redirector.Complains node diagnostic := by
  constructor
  · intro membership
    have cases := redirector.visited node
    generalize redirector.visit node = result at cases membership
    cases cases with
    | failed | unrecognized | combined => simp [Site.of, splitSite] at membership
    | default _ _ _ _ _ classified =>
      exact complains_of_settleBinding classified (.inl rfl) rfl membership
    | requireModule _ _ _ _ _ classified =>
      exact complains_of_settleBinding classified (.inr rfl) rfl membership
    | named =>
      split at membership
      · simp [Site.of] at membership
      · simp [diagnostics_settleNames] at membership
    | singleImport | singleRequire => simp [diagnostics_settleFunction] at membership
  · rintro ⟨classified, whole, _, judged, made⟩
    rw [redirector.visit_of_classify classified]
    rcases whole with shape | shape <;>
      simp [apply, handle, shape, run_redirectBinding, judged, made, Site.of]

theorem diagnostics_settle (node : Value) :
    (redirector.settle node).diagnostics = (redirector.visit node).2.diagnostics := by
  rcases visited : redirector.visit node with ⟨fault | outcome, site⟩
  · rw [redirector.settle_of_error visited]
    rfl
  · rw [redirector.settle_of_ok visited]
    rfl

/-- Whatever becomes of a statement after its first visit, the diagnostics of that visit stay. -/
theorem mem_diagnostics_expand (complains : redirector.Complains node diagnostic) :
    diagnostic ∈ (redirector.expand node).diagnostics := by
  have membership := mem_diagnostics_iff.mpr complains
  rcases redirector.once_or_again node with once | ⟨site, again⟩
  · rw [redirector.expand_of_ne once, diagnostics_settle]
    exact membership
  · rw [again] at membership
    rw [redirector.expand_of_reprocess again]
    exact List.mem_append_left _ membership

theorem mem_diagnostics_ofList {expand : Value → Expansion} {body : List Value}
    (membership : diagnostic ∈ (Expansion.ofList expand body).diagnostics) :
    ∃ node ∈ body, diagnostic ∈ (expand node).diagnostics := by
  induction body with
  | nil => simp [Expansion.ofList, Expansion.empty] at membership
  | cons node rest inductionHypothesis =>
    rw [Expansion.ofList] at membership
    split at membership
    · rcases List.mem_append.mp membership with here | later
      · exact ⟨node, List.mem_cons_self, here⟩
      · obtain ⟨other, among, found⟩ := inductionHypothesis later
        exact ⟨other, List.mem_cons_of_mem _ among, found⟩
    · exact ⟨node, List.mem_cons_self, membership⟩

end Redirector

/-- The second redirector knows of more functions and is like the first one otherwise. -/
structure Redirector.Widens (first second : Redirector) : Prop where
  settings : second.classifier.settings = first.classifier.settings
  evidence : second.evidence = first.evidence
  text : second.text = first.text
  within : first.surface.Within second.surface

namespace Redirector.Widens

variable {first second : Redirector} {node : Value} {c : Classification} (widens : first.Widens second)
include widens

theorem replacement : second.replacement = first.replacement :=
  congrArg Settings.replacementModule widens.settings

theorem singleFunction? {module function : String} {form : SingleForm}
    (single : first.classifier.singleFunction? module = some (form, function)) :
    ∃ other, second.classifier.singleFunction? module = some (form, other) ∧
      (first.surface.covers function = true → second.surface.covers other = true) := by
  rw [Classifier.singleFunction?] at single ⊢
  rw [widens.settings]
  split at single
  · cases single
    exact ⟨_, rfl, widens.within _⟩
  · split at single
    · cases single
      exact ⟨_, rfl, widens.within.resolveCasing⟩
    · cases single

theorem justified {target : Value} (justified : first.justified target = true) :
    second.justified target = true := by
  rw [justified_iff] at justified ⊢
  obtain ⟨used, shown, covered⟩ := justified
  rw [widens.evidence, widens.text]
  exact ⟨used, shown, fun name membership => widens.within name (covered name membership)⟩

/-- The rule moves with the wider surface what it moves with the other one. -/
theorem redirect {occurrence : Occurrence}
    (moves : first.redirect occurrence ≠ occurrence.binding.referent) :
    second.redirect occurrence ≠ occurrence.binding.referent := by
  obtain ⟨⟨target, referent⟩, alone, besideWhole⟩ := occurrence
  cases referent with
  | exported module name =>
    simp only [Redirector.redirect, widens.settings, widens.replacement] at moves ⊢
    split at moves
    · next chosen =>
      obtain ⟨legacy, covered⟩ := Bool.and_eq_true_iff.mp chosen
      rw [if_pos (Bool.and_eq_true_iff.mpr ⟨legacy, widens.within name covered⟩)]
      exact moves
    · exact absurd rfl moves
  | fallback module =>
    simp only [Redirector.redirect, widens.settings] at moves ⊢
    split at moves
    · next legacy =>
      split at moves
      · next chosen =>
        obtain ⟨lone, justified⟩ := Bool.and_eq_true_iff.mp chosen
        rw [if_pos legacy, if_pos (Bool.and_eq_true_iff.mpr ⟨lone, widens.justified justified⟩)]
        simp
      · exact absurd rfl moves
    · next modern =>
      rw [if_neg modern]
      split at moves
      · next form function single =>
        obtain ⟨other, again, covers⟩ := widens.singleFunction? single
        simp only [again]
        split at moves
        · next chosen =>
          obtain ⟨lone, covered⟩ := Bool.and_eq_true_iff.mp chosen
          rw [if_pos (Bool.and_eq_true_iff.mpr ⟨lone, covers covered⟩)]
          simp
        · exact absurd rfl moves
      · exact absurd rfl moves
  | required module =>
    simp only [Redirector.redirect, widens.settings, widens.replacement] at moves ⊢
    split at moves
    · exact absurd rfl moves
    · next named =>
      rw [if_neg named]
      split at moves
      · next legacy =>
        split at moves
        · next justified =>
          rw [if_pos legacy, if_pos (widens.justified justified)]
          exact moves
        · exact absurd rfl moves
      · next modern =>
        rw [if_neg modern]
        split at moves
        · next form function single =>
          obtain ⟨other, again, covers⟩ := widens.singleFunction? single
          simp only [again]
          split at moves
          · next covered =>
            rw [if_pos (covers covered)]
            simp
          · exact absurd rfl moves
        · exact absurd rfl moves
  | whole | member | value => exact absurd rfl moves

/-- What stands for something of the replacement still does so with the wider surface. -/
theorem module? {occurrence : Occurrence}
    (there : (first.redirect occurrence).module? = some first.replacement) :
    (second.redirect occurrence).module? = some first.replacement := by
  rcases second.kept_or_backed occurrence with kept | backed
  · have stays : first.redirect occurrence = occurrence.binding.referent :=
      Decidable.byContradiction fun moves => widens.redirect moves kept
    rw [kept, ← stays]
    exact there
  · rw [← widens.replacement]
    generalize second.redirect occurrence = referent at backed
    cases backed <;> rfl

/-- Of the classification of a statement only a single function, which a legacy module does not hold,
depends on the surface. -/
theorem classify (classified : second.classifier.classify node = .ok c)
    (recognized : c.shape ≠ .unrecognized) (noFunction : c.function = none) :
    first.classifier.classify node = .ok c := by
  by_cases isImport : hasType node "ImportDeclaration" = true
  · obtain ⟨source, specifiers, module, imports, text, rfl⟩ :=
      Classifier.imports_of_classify isImport classified recognized
    have legacy := Classifier.legacy_of_importClass recognized noFunction
    rw [Classifier.classify_of_imports imports text]
    rw [widens.settings] at legacy
    simp only [Classifier.importClass, widens.settings, legacy, if_true]
  · by_cases isDeclaration : hasType node "VariableDeclaration" = true
    · obtain ⟨declarator, argument, module, declares, calls, text, rfl⟩ :=
        Classifier.declares_of_classify isDeclaration classified recognized
      have legacy := Classifier.legacy_of_requireClass recognized noFunction
      rw [widens.settings] at calls legacy
      rw [Classifier.classify_of_declares declares calls text]
      simp only [Classifier.requireClass, widens.settings, legacy, if_true]
    · simp only [Classifier.classify, isImport, isDeclaration, Bool.false_eq_true, if_false,
        Except.ok.injEq] at classified
      exact absurd (by rw [← classified]; rfl) recognized

/-- A binding that is blocked with the wider surface is blocked with the other one too, by the same
functions and perhaps by more. -/
theorem judge {binding : Value} {uncovered : List String}
    (judged : second.judge binding = .ok (.blocked uncovered)) :
    ∃ more, first.judge binding = .ok (.blocked more) ∧ uncovered ⊆ more := by
  rw [Redirector.judge, widens.evidence, widens.text] at judged
  obtain ⟨shown, answer, verdict⟩ := map_eq_ok.mp judged
  cases shown with
  | none => cases verdict
  | some used =>
    dsimp only at verdict
    split at verdict
    · cases verdict
    · next someUncovered =>
      cases verdict
      have fewer : used.filter (!second.surface.covers ·) ⊆ used.filter (!first.surface.covers ·) := by
        intro name membership
        obtain ⟨among, uncovered⟩ := List.mem_filter.mp membership
        refine List.mem_filter.mpr ⟨among, ?_⟩
        rw [Bool.not_eq_true', Bool.eq_false_iff] at uncovered ⊢
        exact fun covered => uncovered (widens.within name covered)
      have someMore : (used.filter (!first.surface.covers ·)).isEmpty = false := by
        rw [List.isEmpty_eq_false_iff]
        intro none
        rw [none] at fewer
        exact someUncovered (List.isEmpty_iff.mpr (List.subset_nil.mp fewer))
      exact ⟨_, by rw [Redirector.judge, answer]; simp [Except.map, someMore], fewer⟩

/-- What there is to complain of with the wider surface is part of what there was before. -/
theorem complains {diagnostic : Diagnostic} (complains : second.Complains node diagnostic) :
    ∃ other, first.Complains node other ∧ other.Includes diagnostic := by
  obtain @⟨c, uncovered, classified, whole, noFunction, judged, made⟩ := complains
  have recognized : c.shape ≠ .unrecognized := by
    rcases whole with shape | shape <;> simp [shape]
  obtain ⟨more, blocked, fewer⟩ := widens.judge judged
  obtain ⟨bound, owned, _⟩ := Diagnostic.sorted_of_ofValues made
  obtain ⟨_, again, functions⟩ :=
    Diagnostic.ofValues_texts diagnostic.binding diagnostic.module uncovered
  obtain ⟨other, made', moreFunctions⟩ :=
    Diagnostic.ofValues_texts diagnostic.binding diagnostic.module more
  rw [diagnose, bound, owned, again] at made
  cases made
  obtain ⟨binding, module, _⟩ := Diagnostic.sorted_of_ofValues made'
  refine ⟨other, ⟨widens.classify classified recognized noFunction, whole, noFunction, blocked, ?_⟩,
    (Value.str.inj binding).symm, (Value.str.inj module).symm, fun name membership => ?_⟩
  · rw [diagnose, bound, owned, made']
  · exact (moreFunctions name).mpr (fewer ((functions name).mp membership))

theorem settle {diagnostic : Diagnostic}
    (membership : diagnostic ∈ (second.settle node).diagnostics) :
    ∃ other ∈ (first.settle node).diagnostics, other.Includes diagnostic := by
  rw [diagnostics_settle, mem_diagnostics_iff] at membership
  obtain ⟨other, complains, includes⟩ := widens.complains membership
  rw [diagnostics_settle]
  exact ⟨other, mem_diagnostics_iff.mpr complains, includes⟩

/-- Both surfaces agree on which statements are visited again, and on what the first visit leaves. -/
theorem again {site : Site} (again : second.visit node = (.ok .reprocess, site)) :
    first.visit node = (.ok .reprocess, site) := by
  obtain ⟨source, specifiers, module, imports, text, legacy, someDefault, someName, rfl⟩ :=
    second.combined_of_reprocess again
  have classified : second.classifier.classify node = _ :=
    Classifier.classify_of_imports imports text
  rw [Classifier.importClass_combined legacy someDefault someName] at classified
  rw [first.visit_of_classify (widens.classify classified (by simp) rfl)]
  exact first.apply_combined imports rfl

theorem expand {diagnostic : Diagnostic} (faultless : (first.expand node).fault = none)
    (membership : diagnostic ∈ (second.expand node).diagnostics) :
    ∃ other ∈ (first.expand node).diagnostics, other.Includes diagnostic := by
  rcases second.once_or_again node with once | ⟨site, again⟩
  · rw [second.expand_of_ne once, diagnostics_settle, mem_diagnostics_iff] at membership
    obtain ⟨other, complains, includes⟩ := widens.complains membership
    exact ⟨other, mem_diagnostics_expand complains, includes⟩
  · have same := widens.again again
    rw [first.expand_of_reprocess same] at faultless ⊢
    rw [second.expand_of_reprocess again] at membership
    rcases List.mem_append.mp membership with here | later
    · exact ⟨diagnostic, List.mem_append_left _ here, rfl, rfl, fun _ membership => membership⟩
    · obtain ⟨part, among, found⟩ := mem_diagnostics_ofList later
      obtain ⟨other, membership, includes⟩ := widens.settle found
      refine ⟨other, List.mem_append_right _ ?_, includes⟩
      rw [(Expansion.ofList_faultless faultless).2.2.2.2]
      exact List.mem_flatMap.mpr ⟨part, among, membership⟩

/-- The bindings of a statement in both passes, name by name. -/
theorem fates (answers : first.evidence.Answers) (regular : Regular node) :
    let callee := first.classifier.settings.requireCallee
    ∃ fates : List Fate, fates.map (·.bindingBefore) = bindings callee node ∧
      (fates.map (·.firstBinding)).Perm ((first.expand node).statements.flatMap (bindings callee)) ∧
      (fates.map (·.secondBinding)).Perm
        ((second.expand node).statements.flatMap (bindings callee)) ∧
      ∀ fate ∈ fates, fate.KeepsUp first.replacement := by
  intro callee
  have answersToo : second.evidence.Answers := by
    rw [widens.evidence]
    exact answers
  have firstBindings := (first.settles_expand answers regular).bindings
  have secondBindings := (second.settles_expand answersToo regular).bindings
  rw [widens.settings] at secondBindings
  refine ⟨(occurrences callee node).map fun occurrence =>
    ⟨occurrence.binding.target, occurrence.binding.referent, first.redirect occurrence,
      second.redirect occurrence⟩, ?_, ?_, ?_, ?_⟩
  · rw [List.map_map, occurrences, occurrencesIn, List.map_map]
    exact List.map_id' _
  · rw [List.map_map]
    exact firstBindings.symm
  · rw [List.map_map]
    exact secondBindings.symm
  · intro fate membership
    obtain ⟨occurrence, _, rfl⟩ := List.mem_map.mp membership
    exact ⟨fun redirected => ⟨widens.redirect redirected.changed, widens.module? redirected.there⟩,
      widens.module?⟩

end Redirector.Widens

end ImportRedirect
