import ImportRedirect.Proofs.Pass.Idempotence
import ImportRedirect.Proofs.Script.Conversion
import ImportRedirect.Proofs.Script.Origin
import ImportRedirect.Proofs.Script.Rereading

/-!
What a pass writes is read as what it means. Every statement of a pass that was not in the script before
is one that could be drafted.
-/

namespace ImportRedirect

open Node Script Value

/-- Nothing in the text needs an escape in a quoted text. -/
def Unescaped (text : List Char) : Prop := ∀ c ∈ text, c ∉ ['\'', '"', '\\', '\n', '\r']

instance (text : List Char) : Decidable (Unescaped text) :=
  decidable_of_iff (text.all (['\'', '"', '\\', '\n', '\r'].contains · == false)) (by simp [Unescaped])

section Quoting

variable {quote : Char} {text : List Char} (known : quote = '\'' ∨ quote = '"')

theorem quoteOf_eq_ok {raw : Value} (found : quoteOf raw = .ok quote) : quote = '\'' ∨ quote = '"' := by
  unfold quoteOf at found
  split at found
  · exact .inl (Except.ok.inj found).symm
  · split at found
    · split at found
      · exact .inr (Except.ok.inj found).symm
      · exact .inl (Except.ok.inj found).symm
    · exact .inl (Except.ok.inj found).symm
    · cases found

include known

theorem quotedLength?_of_unescaped (plain : Unescaped text) (passed : Nat) :
    quotedLength? quote passed 0 (text ++ [quote]) = some (passed + text.length + 1) := by
  induction text generalizing passed with
  | nil => simp [quotedLength?]
  | cons c rest inductionHypothesis =>
    obtain ⟨here, later⟩ := List.forall_mem_cons.mp plain
    simp only [List.mem_cons, List.not_mem_nil, or_false, not_or] at here
    obtain ⟨single, double, slash, feed, back⟩ := here
    have other : c ≠ quote := by
      rcases known with rfl | rfl
      · exact single
      · exact double
    simp [quotedLength?, other, feed, back, slash, inductionHypothesis later, Nat.add_assoc,
      Nat.add_comm 1]

theorem quoteChars_of_unescaped (plain : Unescaped text) :
    quoteChars quote text = quote :: (text ++ [quote]) := by
  have same : (text.flatMap escapeBackslash).flatMap (escapeQuote quote) = text := by
    induction text with
    | nil => rfl
    | cons c rest inductionHypothesis =>
      obtain ⟨here, later⟩ := List.forall_mem_cons.mp plain
      simp only [List.mem_cons, List.not_mem_nil, or_false, not_or] at here
      have other : c ≠ quote := by
        rcases known with rfl | rfl
        · exact here.1
        · exact here.2.1
      simp [escapeBackslash, escapeQuote, here, other, inductionHypothesis later]
  rw [quoteChars, same, List.cons_append]

theorem quotes_of_unescaped (plain : Unescaped text) : Quotes (quote :: (text ++ [quote])) quote := by
  refine ⟨known, text ++ [quote], rfl, ?_⟩
  rw [quotedLength?_of_unescaped known plain, List.length_cons, List.length_append,
    List.length_singleton]
  exact congrArg some (by omega)

end Quoting

namespace Redirector

/-- What the pass puts into statements can be read there. -/
structure Spells (redirector : Redirector) : Prop where
  unescaped : Unescaped redirector.replacement.toList
  readable : ∀ name ∈ redirector.surface.names, Readable name

variable {redirector : Redirector} {node source specifier declarator argument literal changed : Value}
  {specifiers : List Value} {quotation : Draft.Quotation} {attributes : Option Draft.Attributes}

/-- A quoted text is one again when the replacement is put into it. -/
theorem quotation_of_setText (spells : redirector.Spells) (quoted : literal.unplaced = quotation.node)
    (succeeds : setText literal redirector.replacement = .ok changed) :
    ∃ written : Draft.Quotation, changed.unplaced = written.node := by
  have record : literal.IsRecord := by
    cases literal with
    | obj fields => exact isRecord_obj fields
    | _ => simp [unplaced, Draft.Quotation.node] at quoted
  rw [setText_of_isRecord record] at succeeds
  obtain ⟨quote, found, rfl⟩ := map_eq_ok.mp succeeds
  have known := quoteOf_eq_ok found
  have raw : (quoteText redirector.replacement quote).toList =
      quote :: (redirector.replacement.toList ++ [quote]) := by
    rw [quoteText, String.toList_ofList, quoteChars_of_unescaped known spells.unescaped]
  refine ⟨⟨quoteText redirector.replacement quote, quote, ?_⟩, ?_⟩
  · rw [raw]
    exact quotes_of_unescaped known spells.unescaped
  · rw [retext, unplaced_put (by decide), unplaced_put (by decide), quoted]
    simp [Draft.Quotation.node, put, Value.insert, raw]

section Moved

variable (spells : redirector.Spells) (origin : Origin node)

include spells origin

theorem drafted_namespaceImport (imports : Imports node source [specifier])
    (type : specifier.peek "type" = defaultSpecifier)
    (moved : redirector.namespaceImport node source specifier = .ok changed) : Drafted changed := by
  obtain ⟨quotation, attributes, same, quoted, known⟩ := origin.imported imports
  obtain ⟨localName, named⟩ := fallback_of_type (known specifier (by simp)) type
  rw [namespaceImport] at moved
  obtain ⟨literal, replaced, rfl⟩ := map_eq_ok.mp moved
  obtain ⟨written, again⟩ := quotation_of_setText spells quoted replaced
  have whole : (specifier.put "type" namespaceSpecifier).unplaced =
      Draft.Entry.node (.whole localName) := by
    rw [unplaced_put (by decide), named]
    simp [Draft.Entry.node, put, Value.insert, namespaceSpecifier]
  have final := Draft.unplaced_withSpecifiers (Draft.unplaced_withSource same again)
    [specifier.put "type" namespaceSpecifier]
  refine drafted_of_specifier (.whole localName) final ?_
  rw [whole]
  exact Draft.Entry.same_self _

theorem drafted_functionImport {function : String} (readable : Readable function)
    (imports : Imports node source [specifier]) (type : specifier.peek "type" = defaultSpecifier)
    (moved : redirector.functionImport node source specifier (some function) = .ok changed) :
    Drafted changed := by
  obtain ⟨quotation, attributes, same, quoted, known⟩ := origin.imported imports
  obtain ⟨localName, named⟩ := fallback_of_type (known specifier (by simp)) type
  rw [functionImport] at moved
  obtain ⟨literal, replaced, rfl⟩ := map_eq_ok.mp moved
  obtain ⟨written, again⟩ := quotation_of_setText spells quoted replaced
  have final := Draft.unplaced_withSpecifiers (Draft.unplaced_withSource same again)
    [(specifier.put "type" namedSpecifier).put "imported" (identifier (.str function))]
  refine drafted_of_specifier (.named ⟨.named ⟨function, readable⟩, localName⟩) final ?_
  -- The imported name was put after the local one, where a statement that is read has it before.
  have last : ((specifier.put "type" namedSpecifier).put "imported"
      (identifier (.str function))).unplaced = .obj [("type", namedSpecifier),
        ("local", localName.node), ("imported", identifier (.str function))] := by
    rw [unplaced_put (by decide), unplaced_put (by decide), named]
    simp [Draft.Entry.node, put, Value.insert, namedSpecifier, identifier, unplaced, unplacedFields,
      isPlace]
  have localSelf := localName.same_self
  have importedSelf : (identifier (.str function)).same (identifier (.str function)) = true :=
    Draft.Name.same_self ⟨function, readable⟩
  rw [last]
  change (Value.obj [("type", namedSpecifier), ("imported", identifier (.str function)),
    ("local", localName.node)]).same _ = true
  simp [Value.same, sameFields, lookup, localSelf, importedSelf, namedSpecifier]

variable {callee module : String} (declares : Declares node declarator)
  (calls : Calls (declarator.peek "init") callee argument) (text : text? argument = some module)
  (present : (Node.name (declarator.peek "id")).isPresent = true)

include declares calls text present

theorem drafted_moduleRequire (moved : redirector.moduleRequire node declarator argument = .ok changed) :
    Drafted changed := by
  obtain ⟨binder, target, function, quotation, only, same, value, given⟩ :=
    origin.required declares calls text present
  rw [moduleRequire] at moved
  obtain ⟨literal, replaced, rfl⟩ := map_eq_ok.mp moved
  obtain ⟨written, again⟩ := quotation_of_setText spells given replaced
  refine ⟨.requiring binder target function written none, .of_eq ?_ (Draft.same_self _)⟩
  rw [requireOf, unplaced_put (by decide), unplaced_arr, List.map_singleton, unplaced_put (by decide),
    unplaced_put (by decide), unplaced_arr, List.map_singleton, again, value, only, same]
  simp [Draft.declarationNode, Draft.declaratorNode, Draft.callNode, put, Value.insert, Draft.node,
    Draft.valueNode]

theorem drafted_functionRequire {name : String} (readable : Readable name)
    (moved : redirector.functionRequire node declarator argument (some name) = .ok changed) :
    Drafted changed := by
  obtain ⟨binder, target, function, quotation, only, same, value, given⟩ :=
    origin.required declares calls text present
  rw [functionRequire] at moved
  obtain ⟨literal, replaced, rfl⟩ := map_eq_ok.mp moved
  obtain ⟨written, again⟩ := quotation_of_setText spells given replaced
  refine ⟨.requiring binder target function written (some ⟨name, readable⟩),
    .of_eq ?_ (Draft.same_self _)⟩
  have member : ∀ object : Value, (memberOf object (some name)).unplaced =
      memberOf object.unplaced (some name) := fun object => by
    simp [memberOf, unplaced, unplacedFields, isPlace, identifier, ofOption]
  rw [unplaced_put (by decide), unplaced_arr, List.map_singleton, unplaced_put (by decide), member,
    unplaced_put (by decide), unplaced_arr, List.map_singleton, again, value, only, same]
  simp [Draft.declarationNode, Draft.declaratorNode, Draft.callNode, put, Value.insert, Draft.node,
    Draft.valueNode]

end Moved

section Visits

variable {names chosen : List Value}

theorem drafted_sourceChange (spells : redirector.Spells) (origin : Origin node)
    (imports : Imports node source specifiers) (nonempty : specifiers ≠ [])
    (types : ∀ specifier ∈ specifiers, specifier.peek "type" = namedSpecifier)
    (moved : (setText source redirector.replacement).map (node.put "source") = .ok changed) :
    Drafted changed := by
  obtain ⟨quotation, attributes, same, quoted, known⟩ := origin.imported imports
  obtain ⟨literal, replaced, rfl⟩ := map_eq_ok.mp moved
  obtain ⟨written, again⟩ := quotation_of_setText spells quoted replaced
  exact drafted_of_names (Draft.unplaced_withSource same again) nonempty known types

/-- An import of some of the specifiers, all of them names, can be drafted. -/
theorem drafted_withNames (origin : Origin node) (imports : Imports node source specifiers)
    (among : chosen ⊆ specifiers) (nonempty : chosen ≠ [])
    (types : ∀ specifier ∈ chosen, specifier.peek "type" = namedSpecifier) :
    Drafted (node.put "specifiers" (.arr chosen)) := by
  obtain ⟨quotation, attributes, same, quoted, known⟩ := origin.imported imports
  exact drafted_of_names (Draft.unplaced_withSpecifiers same chosen) nonempty
    (fun specifier membership => known specifier (among membership)) types

theorem drafted_of_moved {c : Classification} (drafted : Drafted changed) :
    ∀ statement ∈ (redirector.movedSite changed c).statements, Drafted statement := by
  intro statement membership
  obtain rfl := List.mem_singleton.mp membership
  exact drafted

/-- A last visit leaves the statement itself or statements that can be drafted. -/
theorem drafted_of_concludes (spells : redirector.Spells) (origin : Origin node) {site : Site}
    (concludes : redirector.Concludes node site) :
    site.statements = [node] ∨ ∀ statement ∈ site.statements, Drafted statement := by
  have readable : ∀ {function : String}, redirector.surface.covers function = true →
      Readable function :=
    fun covered => spells.readable _ (List.contains_iff_mem.mp covered)
  cases concludes with
  | kept => exact .inl rfl
  | default imports _ type moved =>
    exact .inr (drafted_of_moved (drafted_namespaceImport spells origin imports type moved))
  | singleImport imports _ type covered moved =>
    exact .inr (drafted_of_moved
      (drafted_functionImport spells origin (readable covered) imports type moved))
  | requireModule declares calls text present moved =>
    exact .inr (drafted_of_moved
      (drafted_moduleRequire spells origin declares calls text present moved))
  | singleRequire declares calls text present covered moved =>
    exact .inr (drafted_of_moved
      (drafted_functionRequire spells origin declares calls text present (readable covered) moved))
  | names imports _ nonempty types moved =>
    exact .inr (drafted_of_moved (drafted_sourceChange spells origin imports nonempty types moved))
  | @split _ literal specifiers _ _ _ imports text _ types _ replaced someKept someLeft =>
    have keptAmong := redirector.covered_subset specifiers
    have leftAmong := redirector.uncovered_subset specifiers
    have keptHalf := drafted_sourceChange spells (origin.withSpecifiers imports keptAmong)
      (imports.withSome keptAmong) someKept
      (fun specifier membership => types specifier (keptAmong membership))
      (map_eq_ok.mpr ⟨literal, replaced, rfl⟩)
    have leftHalf := drafted_withNames origin imports leftAmong someLeft
      (fun specifier membership => types specifier (leftAmong membership))
    exact .inr (by simpa [partedSite, Site.statements] using ⟨keptHalf, leftHalf⟩)

/-- The one default of an import that has both can be imported alone. -/
theorem drafted_withDefault (origin : Origin node) (imports : Imports node source specifiers)
    (sole : (defaultSpecifiers specifiers).length ≤ 1)
    (someDefault : defaultSpecifier ∈ specifiers.map (·.peek "type")) :
    Drafted (node.put "specifiers" (.arr (defaultSpecifiers specifiers))) := by
  obtain ⟨quotation, attributes, same, quoted, known⟩ := origin.imported imports
  obtain ⟨specifier, membership, only, type⟩ := sole_default_of_defaults sole someDefault
  obtain ⟨localName, named⟩ := fallback_of_type (known specifier membership) type
  have final := Draft.unplaced_withSpecifiers same [specifier]
  rw [only]
  refine drafted_of_specifier (.fallback localName) final ?_
  rw [named]
  exact Draft.Entry.same_self _

/-- Whatever a last visit makes of a statement that can be drafted can be drafted. -/
theorem drafted_of_drafted (spells : redirector.Spells) (origin : Origin node)
    (drafted : Drafted node) {site : Site} (concludes : redirector.Concludes node site) :
    ∀ statement ∈ site.statements, Drafted statement := by
  intro statement membership
  rcases drafted_of_concludes spells origin concludes with kept | changed
  · obtain rfl := List.mem_singleton.mp (kept ▸ membership)
    exact drafted
  · exact changed statement membership

/-- A pass makes of a statement of a script the statement itself or statements that can be drafted. -/
theorem drafted_of_expand (spells : redirector.Spells) (origin : Origin node) (regular : Regular node)
    (faultless : (redirector.expand node).fault = none) :
    (redirector.expand node).statements = [node] ∨
      ∀ statement ∈ (redirector.expand node).statements, Drafted statement := by
  have concluded := redirector.concluded_of_expand faultless
  generalize redirector.expand node = expansion at concluded
  cases concluded with
  | whole concludes => exact drafted_of_concludes spells origin concludes
  | @halves _ specifiers _ _ _ imports _ _ someDefault someName others defaults =>
    obtain ⟨_, specifies, apart, sole⟩ := regular.imported imports
    have othersAmong := others_subset specifiers
    have othersHalf := drafted_withNames origin imports othersAmong
      (List.length_pos_iff.mp (length_others_pos someName)) (types_others specifies (apart someName))
    have defaultsHalf := drafted_withDefault origin imports sole someDefault
    refine .inr fun statement membership => ?_
    rcases List.mem_append.mp membership with among | among
    · exact drafted_of_drafted spells (origin.withSpecifiers imports othersAmong) othersHalf others
        statement among
    · exact drafted_of_drafted spells (origin.withSpecifiers imports (defaults_subset specifiers))
        defaultsHalf defaults statement among

/-- What a pass leaves of a script is in the script or can be drafted. -/
theorem drafted_of_run (spells : redirector.Spells) (answers : redirector.evidence.Answers)
    {code : String} {tree : Tree} (parsed : parse code = .ok tree) {trace : Trace}
    (final : node ∈ (redirector.run tree.body trace).body) (changed : node ∉ tree.body) :
    Drafted node := by
  have regular := regular_of_parse parsed
  have faultless := (expandAll_bindings answers regular).1
  rw [run_eq, expandAll] at final
  obtain ⟨each, statements, _⟩ := Expansion.ofList_faultless faultless
  rw [statements] at final
  obtain ⟨original, membership, among⟩ := List.mem_flatMap.mp final
  rcases drafted_of_expand spells (origin_of_parse parsed original membership)
    (regular original membership) (each original membership) with kept | drafted
  · obtain rfl := List.mem_singleton.mp (kept ▸ among)
    exact absurd membership changed
  · exact drafted node among

end Visits

/-- A changed statement is printed as a script of one statement, which is the changed statement up to
places, as long as no carriage return stands alone in its attributes. -/
theorem run_rereads (spells : redirector.Spells) (answers : redirector.evidence.Answers)
    {code : String} {tree : Tree} (parsed : parse code = .ok tree) (trace : Trace)
    (final : node ∈ (redirector.run tree.body trace).body) (changed : node ∉ tree.body)
    (pairs : ∀ raw, node.peek "attributesRaw" = .str raw → pairsReturns raw.toList = true) :
    ∃ text reread again, Emit.statement node = .ok (.str text) ∧ parse text = .ok reread ∧
      reread.body = [again] ∧ again.unplaced.same node.unplaced = true := by
  obtain ⟨draft, found⟩ := drafted_of_run spells answers parsed final changed
  obtain ⟨reread, again, parses, only, same⟩ := draft.parse_text fun given known => by
    have raw := Draft.attributesRaw_of_matches found known
    have whole := pairs given.text raw
    rw [Draft.Attributes.text, String.toList_ofList] at whole
    exact endsLines_right (endsLines_of_pairsReturns whole)
  exact ⟨draft.text, reread, again, draft.printed found, parses, only, by rw [same]; exact found⟩

/-- The covered half of an import with attributes. -/
theorem run_rereads_attributes :
    let code := "import \x7bmap as m, omit\x7d from 'lodash' with \x7btype: 'json'\x7d"
    let redirector : Redirector := ⟨⟨.default, .ofNames ["map"] [] none⟩, Usage.scan, code⟩
    redirector.Spells ∧ redirector.evidence.Answers ∧ ∃ tree node raw, parse code = .ok tree ∧
      node ∈ (redirector.run tree.body .empty).body ∧ node ∉ tree.body ∧
      node.peek "attributesRaw" = .str raw ∧ pairsReturns raw.toList = true ∧
      ∃ text reread again, Emit.statement node = .ok (.str text) ∧ parse text = .ok reread ∧
        reread.body = [again] ∧ again.unplaced.same node.unplaced = true := by
  intro code redirector
  have spells : redirector.Spells := ⟨by decide +kernel, by decide +kernel⟩
  have read : (parse code).toOption.any (fun tree =>
      (redirector.run tree.body .empty).body.any fun node => decide (node ∉ tree.body) &&
        node.peek "attributesRaw" == .str "with \x7btype: 'json'\x7d") = true := by decide +kernel
  cases parsed : parse code with
  | error offset => simp [parsed, Except.toOption] at read
  | ok tree =>
    rw [parsed] at read
    obtain ⟨node, final, known⟩ := List.any_eq_true.mp read
    obtain ⟨changed, written⟩ := (Bool.and_eq_true _ _).mp known
    have raw := beq_iff_eq.mp written
    have pairs : pairsReturns "with \x7btype: 'json'\x7d".toList = true := by decide +kernel
    have changed := of_decide_eq_true changed
    refine ⟨spells, Usage.scan_answers, tree, node, _, rfl, final, changed, raw, pairs, ?_⟩
    refine run_rereads spells Usage.scan_answers parsed .empty final changed ?_
    intro other same
    obtain rfl := Value.str.inj (same.symm.trans raw)
    exact pairs

/-- A method in the attributes with a comment that a carriage return alone ends. Its last statement has
no semicolon and is ended by the line that ends after the import, which is not printed with it. -/
theorem run_rereads_not_returned :
    let code :=
      "import \x7bmap\x7d from 'lodash' with \x7b f() \x7b x // c\r y \x7d \x7d;\n/* k */\nbar;"
    let redirector : Redirector := ⟨⟨.default, .ofNames ["map"] [] none⟩, Usage.scan, code⟩
    redirector.Spells ∧ redirector.evidence.Answers ∧ ∃ tree node text, parse code = .ok tree ∧
      node ∈ (redirector.run tree.body .empty).body ∧ node ∉ tree.body ∧
      Emit.statement node = .ok (.str text) ∧ ∀ reread, parse text ≠ .ok reread := by
  intro code redirector
  have spells : redirector.Spells := ⟨by decide +kernel, by decide +kernel⟩
  let text := "import \x7b map \x7d from 'es-toolkit/compat' with \x7b f() \x7b x // c\r y \x7d \x7d;"
  have read : (parse code).toOption.any (fun tree =>
      (redirector.run tree.body .empty).body.any fun node => decide (node ∉ tree.body) &&
        (Emit.statement node).toOption == some (.str text)) = true := by decide +kernel
  have rejected : (parse text).toOption.isNone = true := by decide +kernel
  cases parsed : parse code with
  | error offset => simp [parsed, Except.toOption] at read
  | ok tree =>
    rw [parsed] at read
    obtain ⟨node, final, known⟩ := List.any_eq_true.mp read
    obtain ⟨changed, written⟩ := (Bool.and_eq_true _ _).mp known
    refine ⟨spells, Usage.scan_answers, tree, node, text, rfl, final, of_decide_eq_true changed, ?_, ?_⟩
    · cases printed : Emit.statement node with
      | error fault => simp [printed, Except.toOption] at written
      | ok value => simpa [printed, Except.toOption] using written
    · intro reread parses
      simp [parses, Except.toOption] at rejected

end Redirector

end ImportRedirect
