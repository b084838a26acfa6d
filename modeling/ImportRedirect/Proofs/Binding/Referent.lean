import ImportRedirect.Proofs.Statement.Evidence

/-!
What the local names of a script stand for, and the rule by which a pass is to change that. The rule
looks at one local name at a time; of the other names in its statement it asks only whether there are
any, and whether one of them stands for everything that the module exports.
-/

namespace ImportRedirect

/-- What a local name stands for. -/
inductive Referent where
  /-- What a module exports under a name. -/
  | exported (module name : String)
  /-- The default export of a module. -/
  | fallback (module : String)
  /-- Everything a module exports. -/
  | whole (module : String)
  /-- What requiring a module gives. -/
  | required (module : String)
  /-- One member of what requiring a module gives. -/
  | member (module name : String)
  /-- A value of which nothing else is said. -/
  | value (node : Value)
  deriving DecidableEq

def Referent.isWhole : Referent → Bool
  | .whole _ => true
  | _ => false

/-- A name, or a pattern of names, and what it stands for. -/
structure Binding where
  target : Value
  referent : Referent
  deriving DecidableEq

/-- A binding among those of its statement. -/
structure Occurrence where
  binding : Binding
  /-- The statement has no other binding. -/
  alone : Bool
  /-- The statement has a binding that stands for everything its module exports. -/
  besideWhole : Bool

namespace Node

def items : Value → List Value
  | .arr items => items
  | _ => []

def exportText (specifier : Value) : String :=
  match exportName specifier with
  | .str name => name
  | _ => ""

def specifierReferent (module : String) (specifier : Value) : Referent :=
  if specifier.peek "type" == namedSpecifier then .exported module (exportText specifier)
  else if specifier.peek "type" == defaultSpecifier then .fallback module
  else .whole module

def specifierBinding (module : String) (specifier : Value) : Binding :=
  ⟨specifier.peek "local", specifierReferent module specifier⟩

/-- The module that a value requires: a plain call of this name with one quoted text. -/
def requiredText? (callee : String) (value : Value) : Option String :=
  if hasType value "CallExpression" && !(value.peek "optional").isPresent &&
      Node.name (value.peek "callee") == .str callee then
    match value.peek "arguments" with
    | .arr [argument] => text? argument
    | _ => none
  else none

/-- The module and the name when a value is a member of what requiring gives. -/
def requiredMember? (callee : String) (value : Value) : Option (String × String) :=
  if hasType value "MemberExpression" && !(value.peek "computed").isPresent &&
      !(value.peek "optional").isPresent then
    match requiredText? callee (value.peek "object"), Node.name (value.peek "property") with
    | some module, .str name => some (module, name)
    | _, _ => none
  else none

def valueReferent (callee : String) (value : Value) : Referent :=
  match requiredText? callee value with
  | some module => .required module
  | none =>
    match requiredMember? callee value with
    | some (module, name) => .member module name
    | none => .value value

def declaratorBinding (callee : String) (declarator : Value) : Binding :=
  ⟨declarator.peek "id", valueReferent callee (declarator.peek "init")⟩

/-- The local bindings that a statement introduces as an import or a declaration. -/
def bindings (callee : String) (node : Value) : List Binding :=
  if hasType node "ImportDeclaration" then
    (items (node.peek "specifiers")).map
      (specifierBinding ((text? (node.peek "source")).getD ""))
  else if hasType node "VariableDeclaration" then
    (items (node.peek "declarations")).map (declaratorBinding callee)
  else []

def occurrencesIn (bindings : List Binding) : List Occurrence :=
  bindings.map fun binding =>
    ⟨binding, bindings.length == 1, bindings.any (·.referent.isWhole)⟩

/-- The bindings of a statement, each with what the rule asks about the others. -/
def occurrences (callee : String) (node : Value) : List Occurrence :=
  occurrencesIn (bindings callee node)

end Node

namespace Redirector

variable (redirector : Redirector)

/-- What a binding is to stand for after a pass. -/
def redirect (occurrence : Occurrence) : Referent :=
  let settings := redirector.classifier.settings
  let target := occurrence.binding.target
  let kept := occurrence.binding.referent
  match kept with
  | .exported module name =>
    if settings.isLegacy module && redirector.surface.covers name then
      .exported redirector.replacement name
    else kept
  | .fallback module =>
    if settings.isLegacy module then
      if !occurrence.besideWhole && redirector.justified target then .whole redirector.replacement
      else kept
    else
      match redirector.classifier.singleFunction? module with
      | some (_, function) =>
        if occurrence.alone && redirector.surface.covers function then
          .exported redirector.replacement function
        else kept
      | none => kept
  | .required module =>
    if !occurrence.alone || !(Node.name target).isPresent then kept
    else if settings.isLegacy module then
      if redirector.justified target then .required redirector.replacement else kept
    else
      match redirector.classifier.singleFunction? module with
      | some (_, function) =>
        if redirector.surface.covers function then .member redirector.replacement function else kept
      | none => kept
  | .whole _ | .member .. | .value _ => kept

/-- The binding after a pass: its target stays. -/
def moved (occurrence : Occurrence) : Binding :=
  ⟨occurrence.binding.target, redirector.redirect occurrence⟩

/-- What a binding can be moved to: it is at the replacement, and each function that is asked for
there is covered. -/
inductive Backed (target : Value) : Referent → Prop where
  | exported {name : String} (covered : redirector.surface.covers name = true) :
      Backed target (.exported redirector.replacement name)
  | whole {used : List String}
      (shown : redirector.evidence redirector.text (Node.name target) = .ok (some used))
      (covered : ∀ name ∈ used, redirector.surface.covers name = true) :
      Backed target (.whole redirector.replacement)
  | required {used : List String}
      (shown : redirector.evidence redirector.text (Node.name target) = .ok (some used))
      (covered : ∀ name ∈ used, redirector.surface.covers name = true) :
      Backed target (.required redirector.replacement)
  | member {name : String} (covered : redirector.surface.covers name = true) :
      Backed target (.member redirector.replacement name)

/-- The rule keeps a binding or moves it to something that is covered. -/
theorem kept_or_backed (occurrence : Occurrence) :
    redirector.redirect occurrence = occurrence.binding.referent ∨
      redirector.Backed occurrence.binding.target (redirector.redirect occurrence) := by
  obtain ⟨⟨target, referent⟩, alone, besideWhole⟩ := occurrence
  cases referent with
  | exported module name =>
    simp only [redirect]
    split
    · next moves => exact .inr (.exported (Bool.and_eq_true_iff.mp moves).2)
    · exact .inl rfl
  | fallback module =>
    simp only [redirect]
    split
    · split
      · next moves =>
        obtain ⟨used, shown, covered⟩ := justified_iff.mp (Bool.and_eq_true_iff.mp moves).2
        exact .inr (.whole shown covered)
      · exact .inl rfl
    · split
      · split
        · next moves => exact .inr (.exported (Bool.and_eq_true_iff.mp moves).2)
        · exact .inl rfl
      · exact .inl rfl
  | required module =>
    simp only [redirect]
    split
    · exact .inl rfl
    · split
      · split
        · next justified =>
          obtain ⟨used, shown, covered⟩ := justified_iff.mp justified
          exact .inr (.required shown covered)
        · exact .inl rfl
      · split
        · split
          · next covered => exact .inr (.member covered)
          · exact .inl rfl
        · exact .inl rfl
  | whole | member | value => exact .inl rfl

end Redirector

namespace Node

variable {node source specifier declarator argument value : Value} {specifiers : List Value}
  {module callee : String}

theorem specifierReferent_default (type : specifier.peek "type" = defaultSpecifier) :
    specifierReferent module specifier = .fallback module := by
  simp [specifierReferent, type, defaultSpecifier, namedSpecifier]

theorem specifierReferent_named (type : specifier.peek "type" = namedSpecifier) :
    specifierReferent module specifier = .exported module (exportText specifier) := by
  simp [specifierReferent, type]

theorem specifierReferent_namespace (type : specifier.peek "type" = namespaceSpecifier) :
    specifierReferent module specifier = .whole module := by
  simp [specifierReferent, type, namespaceSpecifier, defaultSpecifier, namedSpecifier]

theorem isWhole_specifierReferent (specifies : Specifies specifier) :
    (specifierReferent module specifier).isWhole = true ↔
      specifier.peek "type" = namespaceSpecifier := by
  rcases specifies.type with type | type | ⟨type, _⟩
  · rw [specifierReferent_default type, type]
    simp [Referent.isWhole, defaultSpecifier, namespaceSpecifier]
  · rw [specifierReferent_namespace type, type]
    simp [Referent.isWhole]
  · rw [specifierReferent_named type, type]
    simp [Referent.isWhole, namedSpecifier, namespaceSpecifier]

/-- A binding stands for everything its module exports exactly when there is a namespace. -/
theorem any_isWhole_iff (specifies : ∀ specifier ∈ specifiers, Specifies specifier) :
    (specifiers.map (specifierBinding module)).any (·.referent.isWhole) = true ↔
      namespaceSpecifier ∈ specifiers.map (·.peek "type") := by
  rw [List.any_map, List.any_eq_true, List.mem_map]
  constructor
  · rintro ⟨specifier, membership, isWhole⟩
    exact ⟨specifier, membership,
      (isWhole_specifierReferent (specifies specifier membership)).mp isWhole⟩
  · rintro ⟨specifier, membership, type⟩
    exact ⟨specifier, membership,
      (isWhole_specifierReferent (specifies specifier membership)).mpr type⟩

theorem bindings_of_imports (imports : Imports node source specifiers)
    (text : text? source = some module) :
    bindings callee node = specifiers.map (specifierBinding module) := by
  simp [bindings, imports.kind, imports.specifiers_eq, imports.source_eq, text, items]

theorem bindings_of_declares (declares : Declares node declarator) :
    bindings callee node = [declaratorBinding callee declarator] := by
  have different : hasType node "ImportDeclaration" = false := by
    have kind := hasType_iff.mp declares.kind
    simp [hasType, type_eq_peek, kind]
  simp [bindings, declares.kind, declares.declarations, different, items]

theorem requiredText?_of_calls (calls : Calls value callee argument) :
    requiredText? callee value = text? argument := by
  simp [requiredText?, calls.kind, calls.always, calls.callee_eq, calls.argument_eq]

theorem valueReferent_of_calls (calls : Calls value callee argument)
    (text : text? argument = some module) : valueReferent callee value = .required module := by
  simp [valueReferent, requiredText?_of_calls calls, text]

theorem valueReferent_memberOf {object : Value} {function : String}
    (calls : Calls object callee argument) (text : text? argument = some module) :
    valueReferent callee (Redirector.memberOf object (some function)) =
      .member module function := by
  have noCall : requiredText? callee (Redirector.memberOf object (some function)) = none := rfl
  have member : requiredMember? callee (Redirector.memberOf object (some function)) =
      match requiredText? callee object, Node.name (identifier (.str function)) with
      | some module, .str name => some (module, name)
      | _, _ => none := rfl
  rw [valueReferent, noCall, member, requiredText?_of_calls calls, text]
  rfl

/-- A binding whose rule changes nothing is what it was. -/
theorem map_moved_of_kept {redirector : Redirector} {bindings : List Binding}
    (kept : ∀ occurrence ∈ occurrencesIn bindings,
      redirector.redirect occurrence = occurrence.binding.referent) :
    (occurrencesIn bindings).map redirector.moved = bindings := by
  have same : (occurrencesIn bindings).map redirector.moved =
      (occurrencesIn bindings).map (·.binding) :=
    List.map_congr_left fun occurrence membership => by
      rw [Redirector.moved, kept occurrence membership]
  rw [same, occurrencesIn, List.map_map]
  exact List.map_id' _

end Node

end ImportRedirect
