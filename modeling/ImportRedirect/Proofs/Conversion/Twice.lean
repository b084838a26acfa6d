import ImportRedirect.Proofs.Conversion.Outcome
import ImportRedirect.Proofs.Script.Again
import ImportRedirect.Proofs.Surface.Bundled

/-!
Scripts that are converted twice. The second conversion reads the statements that the first one left, and
does nothing to them, unless the new text is other evidence for a binding that was left where it was.
-/

namespace ImportRedirect

open Node Emit Script Value Text

namespace Redirector

variable {redirector : Redirector} {code text : String} {tree again : Tree} {node : Value}

/-- No statement here brings in a whole legacy module of which the text shows nothing but uses that are
covered. -/
def Settled (redirector : Redirector) (text : String) (body : List Value) : Prop :=
  ∀ node ∈ body, ∀ c, redirector.classifier.classify node = .ok c →
    c.shape = .defaultImport ∨ c.shape = .requireModule →
      (redirector.withText text).judge c.binding ≠ .ok .free

instance {α : Type} {result : Except Fault α} {p : α → Prop} [DecidablePred p] :
    Decidable (∀ a, result = .ok a → p a) :=
  match result with
  | .ok a => decidable_of_iff (p a) (by simp)
  | .error _ => .isTrue (by simp)

instance (body : List Value) : Decidable (redirector.Settled text body) :=
  inferInstanceAs (Decidable (∀ node ∈ body, _))

/-- Nothing is done to a statement that neither imports nor declares. -/
theorem leaves_otherNode (redirector : Redirector) (extent : Extent) (kind : Kind) :
    redirector.leaves (otherNode extent kind) = [otherNode extent kind] := by
  have classified : redirector.classifier.classify (otherNode extent kind) = .ok .unrecognized := rfl
  have stays : redirector.Stays (otherNode extent kind) :=
    ⟨[], [], (redirector.visit_of_classify classified).trans (redirector.apply_unrecognized _)⟩
  rw [leaves_eq, stays.expand_eq]

section Parsed

variable (parsed : parse code = .ok tree) (answers : redirector.evidence.Answers)

include parsed answers

theorem faultless_expand (membership : node ∈ tree.body) : (redirector.expand node).fault = none :=
  (settles_expand answers (regular_of_parse parsed node membership)).faultless

theorem redrafts_leaves (spells : redirector.Spells)
    (supplies : redirector.Supplies fun text => Unended text.toList)
    (comments : ∀ node ∈ tree.body, ∀ raw, node.peek "attributesRaw" = .str raw →
      1 < (redirector.leaves node).length → closesComments raw.toList = true ∨ Uncommented node) :
    ∀ node ∈ tree.body, Redrafts redirector.leaves node := by
  intro node membership
  have faultless := faultless_expand parsed answers membership
  refine ⟨?_, ?_, comments node membership⟩
  · rw [leaves_eq]
    exact descends_of_expand supplies faultless
  · rw [leaves_eq]
    exact drafted_of_expand spells (origin_of_parse parsed node membership)
      (regular_of_parse parsed node membership) faultless

/-- What a pass left of a script and is said again in another text is left there once more. -/
theorem leaves_again (outside : redirector.classifier.settings.ReplacesOutside)
    (reparsed : parse text = .ok again)
    (echoes : List.Forall₂ Echoes (tree.body.flatMap redirector.leaves) again.body)
    (settled : redirector.Settled text (tree.body.flatMap redirector.leaves)) :
    ∀ node ∈ again.body, (redirector.withText text).leaves node = [node] := by
  intro node membership
  obtain ⟨left, among, echo⟩ := exists_of_forall₂ echoes node membership
  obtain ⟨original, listed, stands⟩ := List.mem_flatMap.mp among
  rw [leaves_eq] at stands
  have stays := stays_of_expand outside (faultless_expand parsed answers listed) left stands
  obtain ⟨statement, _, found⟩ := List.mem_filterMap.mp membership
  have still := stays_withText answers stays echo (regular_of_parse reparsed node membership)
    (callsAlways_node found) (settled left among)
  rw [leaves_eq, still.expand_eq]

end Parsed

end Redirector

namespace Engine

variable {engine : Engine} {code : String} {tree : Tree}

/-- What the second of two conversions needs in order to change nothing of the text that the first made. -/
structure Repeats (engine : Engine) (code : String) (tree : Tree) (text : String) : Prop where
  /-- No line comment ends with a carriage return alone. -/
  lines : endsLines code.toList = true
  /-- Attributes that are written more than once close the comments that they open, or nothing in the statement
  closes one. -/
  comments : ∀ node ∈ tree.body, ∀ raw, node.peek "attributesRaw" = .str raw →
    1 < ((engine.redirector code).leaves node).length →
      closesComments raw.toList = true ∨ Uncommented node
  settled : (engine.redirector code).Settled text (tree.body.flatMap (engine.redirector code).leaves)

/-- A conversion that is made again changes nothing, if it has what it needs. -/
theorem convert_again (answers : engine.evidence.Answers) (outside : engine.settings.ReplacesOutside)
    (spells : (engine.redirector code).Spells)
    (supplies : (engine.redirector code).Supplies fun text => Unended text.toList)
    (parsed : parse code = .ok tree) :
    ∃ conversion, engine.convert code = .ok conversion ∧ conversion.errors = [] ∧
      (engine.Repeats code tree conversion.code →
        ∃ again, engine.convert conversion.code = .ok again ∧ again.errors = [] ∧
          again.code = conversion.code) := by
  obtain ⟨conversion, converts, converted⟩ := engine.convert_of_parse parsed answers
  refine ⟨conversion, converts, converted.errors, fun repeats => ?_⟩
  obtain ⟨again, reparsed, echoes⟩ := parse_again parsed repeats.lines
    (engine.redirector code).leaves_otherNode
    (Redirector.redrafts_leaves parsed answers spells supplies repeats.comments) converted.spliced
  have kept := Redirector.leaves_again parsed answers outside reparsed echoes repeats.settled
  obtain ⟨second, converts, converted⟩ := engine.convert_of_parse reparsed answers
  exact ⟨second, converts, converted.errors, converted.unchanged reparsed kept⟩

/-- The engine with the default settings and the bundled names. -/
def bundled : Engine :=
  ⟨.default, ⟨some Surface.bundledModule, Surface.bundledNames, Surface.nodup_bundledNames⟩, Usage.scan⟩

theorem bundled_outside : bundled.settings.ReplacesOutside := ⟨by decide, by decide, by decide⟩

theorem bundled_spells (code : String) : (bundled.redirector code).Spells where
  unescaped := by
    change Unescaped Settings.default.replacementModule.toList
    decide +kernel
  readable _ := Surface.readable_bundled

theorem bundled_supplies (code : String) :
    (bundled.redirector code).Supplies fun text => Unended text.toList where
  replacement := by
    change Unended Settings.default.replacementModule.toList
    decide +kernel
  quoted quote known := by
    change Unended (quoteText Settings.default.replacementModule quote).toList
    rcases List.mem_pair.mp known with rfl | rfl
    all_goals decide +kernel
  names _ := Surface.unended_bundled
  types := by decide +kernel

end Engine

theorem convert_default (code : String) : convert code .default =
    Engine.bundled.convert code >>= fun conversion =>
      if conversion.success then .ok conversion.code
      else .error (.conversionFailed conversion.errors) := by
  rw [Engine.bundled, ← Surface.bundled_eq]
  rfl

theorem convert_eq_ok {code text : String} : convert code .default = .ok text ↔
    ∃ conversion, Engine.bundled.convert code = .ok conversion ∧ conversion.errors = [] ∧
      conversion.code = text := by
  rw [convert_default]
  cases converts : Engine.bundled.convert code with
  | error fault => simp [Bind.bind, Except.bind]
  | ok conversion =>
    rw [ok_bind, Conversion.success]
    cases errors : conversion.errors with
    | nil => simp [errors]
    | cons first rest => simp [errors]

/-- A script that can be read is converted, and converting the result changes nothing if the first
conversion changed nothing or the second one has what it needs. -/
theorem convert_twice {code : String} {tree : Tree} (parsed : parse code = .ok tree) :
    ∃ text, convert code .default = .ok text ∧
      ((text ≠ code → Engine.bundled.Repeats code tree text) → convert text .default = .ok text) := by
  obtain ⟨conversion, converts, errors, stays⟩ := Engine.convert_again Usage.scan_answers
    Engine.bundled_outside (Engine.bundled_spells code) (Engine.bundled_supplies code) parsed
  have first := convert_eq_ok.mpr ⟨conversion, converts, errors, rfl⟩
  refine ⟨conversion.code, first, fun repeats => ?_⟩
  by_cases same : conversion.code = code
  · rwa [same] at first ⊢
  · exact convert_eq_ok.mpr (stays (repeats same))

/-- A binding that is left alone stands before names that move, with a comment in the attributes, and before
a use of it. -/
theorem convert_twice_kept :
    let code := "import _ from'lodash';import\x7bmap,sortedIndex\x7dfrom'lodash'with\x7ba/**/:'b'\x7d;" ++
      "_.sortedIndex"
    ∃ tree text, parse code = .ok tree ∧ convert code .default = .ok text ∧ text ≠ code ∧
      Engine.bundled.Repeats code tree text ∧ convert text .default = .ok text := by
  suffices kept : ∀ code, endsLines code.toList = true →
      (parse code).toOption.any (fun tree => (convert code .default).toOption.any fun text =>
        text != code && tree.body.all (fun node =>
            node.peek "attributesRaw" == .null ||
              node.peek "attributesRaw" == .str "with\x7ba/**/:'b'\x7d") &&
          decide ((Engine.bundled.redirector code).Settled text
            (tree.body.flatMap (Engine.bundled.redirector code).leaves))) = true →
      ∃ tree text, parse code = .ok tree ∧ convert code .default = .ok text ∧ text ≠ code ∧
        Engine.bundled.Repeats code tree text ∧ convert text .default = .ok text by
    refine kept _ (by decide +kernel) ?_
    simp only [convert_default]
    decide +kernel
  intro code lines read
  cases parsed : parse code with
  | error offset => simp [parsed, Except.toOption] at read
  | ok tree =>
    obtain ⟨text, first, stays⟩ := convert_twice parsed
    have known : (text ≠ code ∧ ∀ node ∈ tree.body, node.peek "attributesRaw" = .null ∨
          node.peek "attributesRaw" = .str "with\x7ba/**/:'b'\x7d") ∧
        (Engine.bundled.redirector code).Settled text
          (tree.body.flatMap (Engine.bundled.redirector code).leaves) := by
      simpa [parsed, first, Except.toOption] using read
    obtain ⟨⟨changed, written⟩, settled⟩ := known
    have comments : ∀ node ∈ tree.body, ∀ raw, node.peek "attributesRaw" = .str raw →
        closesComments raw.toList = true := by
      intro node membership raw told
      rcases written node membership with none | some
      · cases none.symm.trans told
      · obtain rfl := Value.str.inj (told.symm.trans some)
        decide +kernel
    have repeats : Engine.bundled.Repeats code tree text :=
      ⟨lines, fun node membership raw told _ => .inl (comments node membership raw told), settled⟩
    exact ⟨tree, text, rfl, first, changed, repeats, stays fun _ => repeats⟩

theorem changes_of_any {code : String} (changes : ((convert code .default).toOption.any fun first =>
      (convert first .default).toOption.any (· != first)) = true) :
    ∃ first second, convert code .default = .ok first ∧ convert first .default = .ok second ∧
      second ≠ first := by
  cases once : convert code .default with
  | error fault => simp [once, Except.toOption] at changes
  | ok first =>
    cases twice : convert first .default with
    | error fault => simp [once, twice, Except.toOption] at changes
    | ok second =>
      exact ⟨first, second, rfl, twice, by simpa [once, twice, Except.toOption] using changes⟩

theorem fails_of_any {code : String} (fails : ((convert code .default).toOption.any fun first =>
      (convert first .default).toOption.isNone) = true) :
    ∃ first fault, convert code .default = .ok first ∧ convert first .default = .error fault := by
  cases once : convert code .default with
  | error fault => simp [once, Except.toOption] at fails
  | ok first =>
    cases twice : convert first .default with
    | error fault => exact ⟨first, fault, rfl, twice⟩
    | ok second => simp [once, twice, Except.toOption] at fails

/-- The first script loses the text `lodash.castarray`, which was taken for a use that is not covered. The
others cannot be read again. A carriage return alone ends a comment but no line, so that the statement before
it is ended by the line that ends in the comment after the import; and what opens a comment in the attributes
is closed when they are written once more. -/
theorem convert_twice_differs :
    let freed := "import lodash from'lodash';var e=require('lodash.castarray');lodash.map"
    let returned := "x//\rimport\x7bmap,sortedIndex\x7dfrom'lodash'\n/* k */\nbar"
    let commented := "import\x7bmap,sortedIndex\x7dfrom'lodash'with\x7bb:/x*/,a:/*x/\x7d"
    (∃ first second, convert freed .default = .ok first ∧ convert first .default = .ok second ∧
        second ≠ first) ∧
      (∃ first fault, convert returned .default = .ok first ∧ convert first .default = .error fault) ∧
      ∃ first fault, convert commented .default = .ok first ∧ convert first .default = .error fault := by
  refine ⟨changes_of_any ?_, fails_of_any ?_, fails_of_any ?_⟩
  all_goals
    simp only [convert_default]
    decide +kernel

end ImportRedirect
