import ImportRedirect.Proofs.Binding.Preservation
import ImportRedirect.Proofs.Pass.Idempotence
import ImportRedirect.Proofs.Value.Unplaced

/-!
Statements that say the same at other places. What a pass over one text left alone is left alone by a pass
over another text where it stands again, unless it depends on the evidence for a binding.
-/

namespace ImportRedirect

open Node

namespace Value

/-- The second value says what the first one says, up to places and the order of fields. -/
def Echoes (v again : Value) : Prop := v.Matches again.unplaced

theorem unplaced_ne_null {v : Value} (present : v ≠ .null) : v.unplaced ≠ .null := by
  cases v with
  | null => exact absurd rfl present
  | _ => simp [unplaced]

namespace Echoes

variable {v again : Value} {key text : String} {items : List Value} (echoes : v.Echoes again)

include echoes

theorem peek (other : isPlace key = false) (present : again.peek key ≠ .null) :
    (v.peek key).Echoes (again.peek key) :=
  Matches.peek echoes other (peek_unplaced other again) (unplaced_ne_null present)

theorem peek_str (other : isPlace key = false) (known : again.peek key = .str text) :
    v.peek key = .str text :=
  Matches.peek_eq_str echoes other (by rw [peek_unplaced other, known]; rfl)

theorem arr (known : again = .arr items) : ∃ others, v = .arr others ∧ List.Forall₂ Echoes others items := by
  subst known
  rw [Echoes, unplaced_arr] at echoes
  obtain ⟨others, listed, each⟩ := Matches.arr echoes
  refine ⟨others, listed, ?_⟩
  rw [List.forall₂_map_right_iff] at each
  exact each

theorem isRecord (record : again.IsRecord) : v.IsRecord := by
  obtain ⟨fields, rfl⟩ := record
  exact Matches.isRecord echoes (isRecord_obj _)

theorem hasType {type : String} (kind : Node.hasType again type = true) :
    Node.hasType v type = true :=
  hasType_iff.mpr (echoes.peek_str rfl (hasType_iff.mp kind))

theorem text? (known : Node.text? again = some text) : Node.text? v = some text := by
  obtain ⟨kind, value⟩ := text?_eq_some.mp known
  exact text?_eq_some.mpr ⟨echoes.hasType kind, echoes.peek_str rfl value⟩

theorem name (known : Node.name again = .str text) : Node.name v = .str text := by
  obtain ⟨kind, named⟩ := name_eq_str known
  rw [name_eq, if_pos (echoes.hasType kind), echoes.peek_str rfl named]

end Echoes

end Value

open Value Redirector

section Views

variable {node again source specifier declarator argument : Value} {specifiers others : List Value}

/-- When the statement declares one thing as a call, it says that the call is made in any case. -/
def Node.CallsAlways (node : Value) : Prop :=
  ∀ declarator callee argument, Declares node declarator →
    Calls (declarator.peek "init") callee argument →
      (declarator.peek "init").peek "optional" = .bool false

theorem Node.Named.echo {identifier other : Value} (named : Named identifier)
    (echoes : other.Echoes identifier) : Node.name other = Node.name identifier := by
  obtain ⟨name, found, _⟩ := named.name
  rw [found, echoes.name found]

theorem ne_null_of_name {identifier : Value} (named : Named identifier) : identifier ≠ .null := by
  rintro rfl
  obtain ⟨name, found, _⟩ := named.name
  cases found

/-- The names of a specifier are those of the specifier it echoes. -/
structure EchoedSpecifier (specifier other : Value) : Prop where
  record : other.IsRecord
  type : other.peek "type" = specifier.peek "type"
  localName : Node.name (other.peek "local") = Node.name (specifier.peek "local")
  exported : specifier.peek "type" = namedSpecifier → exportName other = exportName specifier

theorem echoed_specifier {other : Value} (specifies : Specifies specifier)
    (echoes : other.Echoes specifier) : EchoedSpecifier specifier other where
  record := echoes.isRecord specifies.record
  type := by
    rcases specifies.type with type | type | ⟨type, _⟩
    all_goals rw [type]; exact echoes.peek_str rfl type
  localName := specifies.localName.echo (echoes.peek rfl (ne_null_of_name specifies.localName))
  exported type := by
    have different : namedSpecifier ≠ defaultSpecifier ∧ namedSpecifier ≠ namespaceSpecifier := by decide
    rcases specifies.type with same | same | ⟨_, ⟨name, found⟩ | quoted⟩
    · exact absurd (type.symm.trans same) different.1
    · exact absurd (type.symm.trans same) different.2
    · have present : specifier.peek "imported" ≠ .null := fun none => by rw [none] at found; cases found
      rw [exportName_of_name found, exportName_of_name ((echoes.peek rfl present).name found)]
    · obtain ⟨text, found⟩ := quoted.text
      have present := text_ne_null found
      rw [exportName_of_text found, exportName_of_text ((echoes.peek rfl present).text? found)]

/-- An import that is echoed has as many specifiers, which say the same. -/
theorem imports_of_echo (regular : Regular again) (echoes : node.Echoes again)
    (imports : Imports again source specifiers) :
    ∃ literal others, Imports node literal others ∧
      (∀ module, text? source = some module → text? literal = some module) ∧
      List.Forall₂ EchoedSpecifier specifiers others := by
  obtain ⟨quoted, specifies, _⟩ := regular.imported imports
  obtain ⟨text, known⟩ := quoted.text
  have written : (node.peek "source").Echoes source :=
    imports.source_eq ▸ echoes.peek rfl (imports.source_eq ▸ text_ne_null known)
  have listed : (node.peek "specifiers").Echoes (again.peek "specifiers") :=
    echoes.peek rfl (by simp [imports.specifiers_eq])
  obtain ⟨others, found, each⟩ := listed.arr imports.specifiers_eq
  have both := (List.forall₂_and_left _ _).mpr ⟨specifies, each.flip⟩
  have same : List.Forall₂ EchoedSpecifier specifiers others :=
    both.imp fun _ _ holds => echoed_specifier holds.1 holds.2
  have records : ∀ other ∈ others, other.IsRecord := by
    intro other membership
    obtain ⟨_, _, holds⟩ := exists_of_forall₂ same other membership
    exact holds.record
  exact ⟨node.peek "source", others, ⟨echoes.hasType imports.kind, rfl, found, records⟩,
    fun _ known => written.text? known, same⟩

theorem declares_of_echo (echoes : node.Echoes again) (declares : Declares again declarator) :
    ∃ other, Declares node other ∧ other.Echoes declarator := by
  have listed : (node.peek "declarations").Echoes (again.peek "declarations") :=
    echoes.peek rfl (by simp [declares.declarations])
  obtain ⟨others, found, each⟩ := listed.arr declares.declarations
  obtain ⟨other, _, only, none, rfl⟩ := List.forall₂_cons_right_iff.mp each
  obtain rfl := List.forall₂_nil_right_iff.mp none
  exact ⟨other, ⟨echoes.hasType declares.kind, found, only.isRecord declares.record⟩, only⟩

theorem calls_of_echo {value call : Value} {callee : String} (echoes : value.Echoes call)
    (calls : Calls call callee argument) (always : call.peek "optional" = .bool false) :
    ∃ other, Calls value callee other ∧ other.Echoes argument := by
  have listed : (value.peek "arguments").Echoes (call.peek "arguments") :=
    echoes.peek rfl (by simp [calls.argument_eq])
  obtain ⟨others, found, each⟩ := listed.arr calls.argument_eq
  obtain ⟨other, _, only, none, rfl⟩ := List.forall₂_cons_right_iff.mp each
  obtain rfl := List.forall₂_nil_right_iff.mp none
  have optional : (value.peek "optional").Echoes (call.peek "optional") :=
    echoes.peek rfl (by simp [always])
  rw [always] at optional
  have named : call.peek "callee" ≠ .null := fun none => by
    have known := calls.callee_eq
    rw [none] at known
    cases known
  exact ⟨other, ⟨echoes.hasType calls.kind, Matches.isPresent_eq_false optional,
    (echoes.peek rfl named).name calls.callee_eq, found⟩, only⟩

end Views

namespace Redirector

variable {redirector : Redirector} {node : Value} {c : Classification} {site : Site}
  {moved : Except Fault Value}

/-- A visit leaves the statement as it is. -/
def Stays (redirector : Redirector) (node : Value) : Prop :=
  ∃ diagnostics happenings,
    redirector.visit node = (.ok .advance, keptSite node diagnostics happenings)

theorem Stays.expand_eq (stays : redirector.Stays node) :
    (redirector.expand node).statements = [node] := by
  obtain ⟨diagnostics, happenings, kept⟩ := stays
  have once : ∀ site, redirector.visit node ≠ (.ok .reprocess, site) := by
    intro site again
    rw [kept] at again
    cases again
  rw [redirector.expand_of_ne once, redirector.settle_of_ok kept]
  rfl

/-- A statement to which nothing is done stays. -/
theorem stays_of_idle (faultless : (redirector.expand node).fault = none)
    (unmoved : (redirector.expand node).redirected = 0) (whole : (redirector.expand node).split = 0) :
    redirector.Stays node := by
  have concluded := redirector.concluded_of_expand faultless
  generalize redirector.expand node = expansion at concluded unmoved whole
  cases concluded with
  | whole concludes =>
    cases concludes with
    | kept visited => exact ⟨_, _, visited⟩
    | default | singleImport | requireModule | singleRequire | names | split => cases unmoved
  | halves =>
    have once : 1 + _ = 0 := whole
    omega

/-- What a pass leaves of a statement stays. -/
theorem stays_of_expand (outside : redirector.classifier.settings.ReplacesOutside)
    (faultless : (redirector.expand node).fault = none) :
    ∀ statement ∈ (redirector.expand node).statements, redirector.Stays statement := by
  obtain ⟨happenings, rests⟩ := expand_rests outside faultless
  have complete : (redirector.expandAll (redirector.expand node).statements).fault = none := by
    rw [rests]
  rw [expandAll] at rests complete
  obtain ⟨each, _, redirected, split, _⟩ := Expansion.ofList_faultless complete
  rw [rests] at redirected split
  intro statement membership
  exact stays_of_idle (each statement membership) (eq_zero_of_total redirected.symm statement membership)
    (eq_zero_of_total split.symm statement membership)

section OtherText

/-- The same redirector over another text. -/
def withText (redirector : Redirector) (text : String) : Redirector := { redirector with text }

theorem settleFunction_of_stays (stays : redirector.Stays node)
    (visited : redirector.visit node = redirector.settleFunction c node moved) :
    redirector.surface.covers (c.function.getD "") = false := by
  obtain ⟨diagnostics, happenings, kept⟩ := stays
  rw [Bool.eq_false_iff]
  intro covered
  rw [visited, settleFunction, if_pos covered] at kept
  obtain ⟨_, _, other⟩ := moveTo_eq_ok kept
  cases other

theorem settleNames_of_stays {source : Value} {specifiers : List Value}
    (imports : Imports node source specifiers) (present : source ≠ .null) (shape : c.shape = .namedImport)
    (stays : redirector.Stays node) (visited : redirector.visit node = redirector.apply c (some node)) :
    redirector.coveredSpecifiers specifiers = [] := by
  obtain ⟨diagnostics, happenings, kept⟩ := stays
  rw [visited, redirector.apply_named imports present shape] at kept
  cases answers : redirector.coverage specifiers with
  | error fault => simp [answers] at kept
  | ok covered =>
    rw [answers] at kept
    rcases settleNames_eq_ok kept with ⟨_, none, _⟩ | ⟨_, _, _, other⟩ | ⟨_, _, _, _, _, other⟩
    · exact none
    · cases other
    · exact absurd (congrArg Site.split other) Nat.zero_ne_one

variable {text : String} {again source : Value} {specifiers others : List Value} {module : String}

theorem importClass_of_echo (classifier : Classifier)
    (same : List.Forall₂ EchoedSpecifier specifiers others) :
    classifier.importClass module others = classifier.importClass module specifiers := by
  have types : others.map (·.peek "type") = specifiers.map (·.peek "type") := by
    induction same with
    | nil => rfl
    | cons first _ inductionHypothesis => simp [first.type, inductionHypothesis]
  have first : Node.name ((others.headD .null).peek "local") =
      Node.name ((specifiers.headD .null).peek "local") := by
    cases same with
    | nil => rfl
    | cons first _ => exact first.localName
  simp only [Classifier.importClass, types, first]

theorem coveredSpecifiers_of_echo (types : ∀ specifier ∈ specifiers, specifier.peek "type" = namedSpecifier)
    (same : List.Forall₂ EchoedSpecifier specifiers others)
    (uncovered : redirector.coveredSpecifiers others = []) :
    redirector.coveredSpecifiers specifiers = [] := by
  induction same with
  | nil => rfl
  | @cons specifier other _ _ first _ inductionHypothesis =>
    obtain ⟨type, later⟩ := List.forall_mem_cons.mp types
    rw [coveredSpecifiers, List.filter_eq_nil_iff, List.forall_mem_cons] at uncovered ⊢
    obtain ⟨here, rest⟩ := uncovered
    have none := inductionHypothesis later (by rwa [coveredSpecifiers, List.filter_eq_nil_iff])
    rw [coveredSpecifiers, List.filter_eq_nil_iff] at none
    refine ⟨?_, none⟩
    rwa [coversSpecifier, ← first.exported type]

/-- A statement that echoes one which is recognized is recognized as the same. -/
theorem classify_of_echo (classifier : Classifier) (echoes : node.Echoes again) (regular : Regular again)
    (always : CallsAlways again) (classified : classifier.classify again = .ok c)
    (recognized : c.shape ≠ .unrecognized) : classifier.classify node = .ok c := by
  by_cases isImport : hasType again "ImportDeclaration" = true
  · obtain ⟨source, specifiers, module, imports, text, rfl⟩ :=
      Classifier.imports_of_classify isImport classified recognized
    obtain ⟨literal, others, found, known, same⟩ := imports_of_echo regular echoes imports
    rw [Classifier.classify_of_imports found (known module text), importClass_of_echo classifier same]
  · by_cases isDeclaration : hasType again "VariableDeclaration" = true
    · obtain ⟨declarator, argument, module, declares, calls, text, rfl⟩ :=
        Classifier.declares_of_classify isDeclaration classified recognized
      obtain ⟨other, found, declared⟩ := declares_of_echo echoes declares
      obtain ⟨given, called, written⟩ := calls_of_echo (declared.peek rfl calls.ne_null) calls
        (always _ _ _ declares calls)
      have present : (Node.name (declarator.peek "id")).isPresent = true := by
        by_contra nameless
        exact recognized (by simp [Classifier.requireClass, nameless, Classification.unrecognized])
      have named := regular.declared declares present
      rw [Classifier.classify_of_declares found called (written.text? text),
        named.echo (declared.peek rfl (ne_null_of_name named))]
    · simp only [Classifier.classify, isImport, isDeclaration, Bool.false_eq_true, if_false,
        Except.ok.injEq] at classified
      exact absurd (by rw [← classified]; rfl) recognized

theorem settleBinding_of_blocked {outcome : Outcome} (blocked : redirector.judge c.binding ≠ .ok .free)
    (result : redirector.settleBinding c node moved = (.ok outcome, site)) :
    outcome = .advance ∧ ∃ diagnostics happenings, site = keptSite node diagnostics happenings :=
  (settleBinding_eq_ok result).resolve_right fun free => blocked free.1

/-- What stays over one text and is said again in another stays there, unless the evidence moves it. -/
theorem stays_withText (answers : redirector.evidence.Answers) (stays : redirector.Stays node)
    (echoes : node.Echoes again) (regular : Regular again) (always : CallsAlways again)
    (holds : ∀ c, redirector.classifier.classify node = .ok c →
      c.shape = .defaultImport ∨ c.shape = .requireModule →
        (redirector.withText text).judge c.binding ≠ .ok .free) : (redirector.withText text).Stays again := by
  have settles : (redirector.withText text).Settles again _ := settles_expand answers regular
  have faultless := settles.faultless
  have cases := (redirector.withText text).visited again
  have same : ∀ {c}, redirector.classifier.classify again = .ok c → c.shape ≠ .unrecognized →
      redirector.classifier.classify node = .ok c :=
    fun classified recognized => classify_of_echo _ echoes regular always classified recognized
  cases visited : (redirector.withText text).visit again with
  | mk result site =>
    rw [visited] at cases
    cases result with
    | error fault =>
      have once : ∀ site, (redirector.withText text).visit again ≠ (.ok .reprocess, site) := by
        intro site again
        rw [visited] at again
        cases again
      rw [(redirector.withText text).expand_of_ne once, (redirector.withText text).settle_of_error visited]
        at faultless
      cases faultless
    | ok outcome =>
      have staying : ∀ diagnostics happenings, outcome = .advance →
          site = keptSite again diagnostics happenings → (redirector.withText text).Stays again := by
        rintro diagnostics happenings rfl rfl
        exact ⟨_, _, visited⟩
      generalize produced : (Except.ok outcome, site) = visit at cases
      cases cases with
      | failed => cases produced
      | unrecognized =>
        obtain ⟨rfl, rfl⟩ := by simpa using produced
        exact staying [] [] rfl rfl
      | combined imports _ _ _ _ classified =>
        obtain ⟨diagnostics, happenings, kept⟩ := stays
        obtain ⟨literal, others, found, known, _⟩ := imports_of_echo regular echoes imports
        rw [redirector.visit_of_classify (same classified (by simp)),
          redirector.apply_combined found rfl] at kept
        cases kept
      | default _ _ _ _ _ classified =>
        obtain ⟨advances, _, _, kept⟩ :=
          settleBinding_of_blocked (holds _ (same classified (by simp)) (.inl rfl)) produced.symm
        exact staying _ _ advances kept
      | requireModule _ _ _ _ _ classified =>
        obtain ⟨advances, _, _, kept⟩ :=
          settleBinding_of_blocked (holds _ (same classified (by simp)) (.inr rfl)) produced.symm
        exact staying _ _ advances kept
      | @named source specifiers module imports known legacy nonempty types classified =>
        obtain ⟨literal, others, found, written, echoed⟩ := imports_of_echo regular echoes imports
        have none := settleNames_of_stays found (text_ne_null (written module known)) rfl stays
          (redirector.visit_of_classify (same classified (by simp)))
        have uncovered : (redirector.withText text).coveredSpecifiers specifiers = [] :=
          coveredSpecifiers_of_echo types echoed none
        cases answers : (redirector.withText text).coverage specifiers with
        | error fault => simp [answers] at produced
        | ok covered =>
          obtain ⟨rfl, rfl⟩ := by simpa [answers, settleNames, uncovered] using produced
          exact staying [] _ rfl rfl
      | @singleImport source specifier module function form imports known legacy single type present
          classified =>
        obtain ⟨literal, others, found, written, echoed⟩ := imports_of_echo regular echoes imports
        obtain ⟨other, _, _, none, rfl⟩ := List.forall₂_cons_left_iff.mp echoed
        obtain rfl := List.forall₂_nil_left_iff.mp none
        have visit := (redirector.visit_of_classify (same classified (by cases form <;> simp [
          SingleForm.importShape]))).trans (redirector.apply_singleImport found
            (text_ne_null (written module known)) (by cases form <;> simp [SingleForm.importShape]))
        have uncovered := settleFunction_of_stays stays visit
        rcases settleFunction_eq_ok produced.symm with ⟨advances, _, _, kept⟩ | ⟨covered, _⟩
        · exact staying _ _ advances kept
        · cases uncovered.symm.trans covered
      | @singleRequire declarator argument module function form declares calls known legacy single present
          classified =>
        obtain ⟨other, found, declared⟩ := declares_of_echo echoes declares
        obtain ⟨given, called, written⟩ := calls_of_echo (declared.peek rfl calls.ne_null) calls
          (always _ _ _ declares calls)
        have visit := (redirector.visit_of_classify (same classified (by cases form <;> simp [
          SingleForm.requireShape]))).trans (redirector.apply_singleRequire found called
            (by cases form <;> simp [SingleForm.requireShape]))
        have uncovered := settleFunction_of_stays stays visit
        rcases settleFunction_eq_ok produced.symm with ⟨advances, _, _, kept⟩ | ⟨covered, _⟩
        · exact staying _ _ advances kept
        · cases uncovered.symm.trans covered

end OtherText

end Redirector

end ImportRedirect
