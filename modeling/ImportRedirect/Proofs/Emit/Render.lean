import ImportRedirect.Emit.Render
import ImportRedirect.Proofs.Binding.Settling

/-!
Every statement that replaces another one can be printed, and its print is a text.
-/

namespace ImportRedirect

open Node

namespace Emit

/-- All of the values are texts. -/
def Texts (values : List Value) : Prop := ∃ texts : List String, values = texts.map .str

/-- Printing gave a text. -/
def Printed (result : Except Fault Value) : Prop := ∃ text, result = .ok (.str text)

theorem Texts.nil : Texts [] := ⟨[], rfl⟩

theorem Texts.singleton (text : String) : Texts [.str text] := ⟨[text], rfl⟩

theorem Texts.append {front rest : List Value} (first : Texts front) (second : Texts rest) :
    Texts (front ++ rest) := by
  obtain ⟨texts, rfl⟩ := first
  obtain ⟨others, rfl⟩ := second
  exact ⟨texts ++ others, by simp⟩

theorem join_texts (separator : String) (texts : List String) :
    join separator (texts.map .str) = .ok (separator.intercalate texts) := by
  have read : ∀ read : Value → Except Fault String, (∀ text, read (.str text) = .ok text) →
      (texts.map Value.str).mapM read = .ok texts := by
    intro read each
    induction texts with
    | nil => rfl
    | cons text rest inductionHypothesis =>
      rw [List.map_cons, List.mapM_cons, each, ok_bind, inductionHypothesis]
      rfl
  rw [join, read _ fun _ => rfl]
  rfl

theorem Texts.join {values : List Value} (texts : Texts values) (separator : String) :
    ∃ text, Emit.join separator values = .ok text := by
  obtain ⟨texts, rfl⟩ := texts
  exact ⟨_, join_texts separator texts⟩

theorem mapM_printed {print : Value → Except Fault Value} {nodes : List Value}
    (each : ∀ node ∈ nodes, Printed (print node)) :
    ∃ texts : List String, texts.length = nodes.length ∧
      nodes.mapM print = .ok (texts.map .str) := by
  induction nodes with
  | nil => exact ⟨[], rfl, rfl⟩
  | cons node rest inductionHypothesis =>
    obtain ⟨text, first⟩ := each node (by simp)
    obtain ⟨texts, length, others⟩ :=
      inductionHypothesis fun other membership => each other (by simp [membership])
    refine ⟨text :: texts, by simp [length], ?_⟩
    rw [List.mapM_cons, first, ok_bind, others]
    rfl

theorem lines_of_mapM {nodes : List Value} {texts : List String}
    (printed : nodes.mapM statement = .ok (texts.map .str)) :
    lines nodes = .ok ("\n".intercalate texts) := by
  rw [lines, printed, ok_bind, join_texts]

section Expressions

variable {node argument object value : Value} {callee name function text : String}

theorem flag_of_isRecord (record : node.IsRecord) (key : String) :
    flag node key = .ok (node.peek key).isPresent := by
  rw [flag, Value.get_of_isRecord record]
  rfl

theorem ne_null_of_name (found : Node.name node = .str name) : node ≠ .null := by
  rintro rfl
  simp [Node.name] at found

theorem ne_null_of_printed {depth : Nat} (printed : expressionWithin depth node = .ok (.str text)) :
    node ≠ .null := by
  rintro rfl
  cases depth <;> cases printed

theorem expressionWithin_of_name (found : Node.name node = .str name) (depth : Nat) :
    expressionWithin (depth + 1) node = .ok (.str name) := by
  obtain ⟨kind, named⟩ := name_eq_str found
  rw [expressionWithin, if_pos kind]
  exact Value.field_of_peek named (by simp)

theorem expressionWithin_of_literal (kind : hasType node "Literal" = true)
    (raw : node.peek "raw" = .str text) (depth : Nat) :
    expressionWithin (depth + 1) node = .ok (.str text) := by
  rw [expressionWithin, if_neg (hasType_ne kind (by decide)), if_pos kind]
  exact Value.field_of_peek raw (by simp)

theorem expressionWithin_of_calls {depth : Nat} (calls : Calls node callee argument)
    (printed : expressionWithin (depth + 1) argument = .ok (.str text)) :
    expressionWithin (depth + 2) node = .ok (.str s!"{callee}({text})") := by
  have present := ne_null_of_name calls.callee_eq
  have list : (Value.arr [argument]).parts = .ok [argument] := rfl
  have arguments : [argument].mapM (expressionWithin (depth + 1)) = .ok ([text].map .str) := by
    rw [List.mapM_cons, printed, ok_bind, List.mapM_nil]
    rfl
  rw [expressionWithin, if_neg (hasType_ne calls.kind (by decide)),
    if_neg (hasType_ne calls.kind (by decide)), if_neg (hasType_ne calls.kind (by decide)),
    if_pos calls.kind, Value.getD_of_peek calls.argument_eq (by simp), ok_bind,
    list, ok_bind, arguments, ok_bind, join_texts, ok_bind, flag_of_isRecord calls.record, ok_bind,
    Value.field_of_peek rfl present, ok_bind, expressionWithin_of_name calls.callee_eq, ok_bind,
    calls.always]
  simp [pure_eq_ok, Value.display, toString]

/-- The value is the plain access to this member of this object. -/
structure Accesses (value object : Value) (member : String) : Prop where
  kind : hasType value "MemberExpression" = true
  object_eq : value.peek "object" = object
  property : Node.name (value.peek "property") = .str member
  plain : (value.peek "computed").isPresent = false
  always : (value.peek "optional").isPresent = false

theorem accesses_memberOf (object : Value) (function : String) :
    Accesses (Redirector.memberOf object (some function)) object function :=
  ⟨rfl, rfl, rfl, rfl, rfl⟩

theorem expressionWithin_of_accesses {depth : Nat} (accesses : Accesses node object function)
    (printed : expressionWithin (depth + 1) object = .ok (.str text)) :
    expressionWithin (depth + 2) node = .ok (.str s!"{text}.{function}") := by
  have record := isRecord_of_hasType accesses.kind
  have present : node.peek "object" ≠ .null := accesses.object_eq ▸ ne_null_of_printed printed
  rw [expressionWithin, if_neg (hasType_ne accesses.kind (by decide)),
    if_neg (hasType_ne accesses.kind (by decide)), if_neg (hasType_ne accesses.kind (by decide)),
    if_neg (hasType_ne accesses.kind (by decide)), if_pos accesses.kind,
    Value.field_of_peek accesses.object_eq (accesses.object_eq ▸ present), ok_bind, printed, ok_bind,
    Value.field_of_peek rfl (ne_null_of_name accesses.property), ok_bind,
    expressionWithin_of_name accesses.property, ok_bind, flag_of_isRecord record, ok_bind,
    flag_of_isRecord record, ok_bind, accesses.plain, accesses.always]
  rfl

theorem expression_of_name (found : Node.name node = .str name) :
    expression node = .ok (.str name) := expressionWithin_of_name found _

theorem expression_of_literal (kind : hasType node "Literal" = true)
    (raw : node.peek "raw" = .str text) : expression node = .ok (.str text) :=
  expressionWithin_of_literal kind raw _

theorem expression_of_calls (calls : Calls node callee argument)
    (kind : hasType argument "Literal" = true) (raw : argument.peek "raw" = .str text) :
    expression node = .ok (.str s!"{callee}({text})") := by
  obtain ⟨depth, deep⟩ := Value.depth_of_isRecord calls.record
  rw [expression, deep]
  exact expressionWithin_of_calls calls (expressionWithin_of_literal kind raw depth)

theorem expression_of_accesses (accesses : Accesses node object function)
    (calls : Calls object callee argument) (kind : hasType argument "Literal" = true)
    (raw : argument.peek "raw" = .str text) :
    expression node = .ok (.str (s!"{callee}({text})" ++ "." ++ function)) := by
  obtain ⟨inner, deep⟩ := Value.depth_of_isRecord calls.record
  have shallower := Value.depth_peek_lt (isRecord_of_hasType accesses.kind) "object"
  rw [accesses.object_eq, deep] at shallower
  obtain ⟨depth, deeper⟩ : ∃ depth, node.depth = depth + 2 := ⟨node.depth - 2, by omega⟩
  rw [expression, deeper]
  exact expressionWithin_of_accesses accesses
    (expressionWithin_of_calls calls (expressionWithin_of_literal kind raw depth))

theorem printed_of_quoted (quoted : Quoted node) : Printed (expression node) := by
  obtain ⟨text, raw⟩ := quoted.raw
  exact ⟨text, expression_of_literal quoted.kind raw⟩

theorem printed_of_exported (exported : Exported node) : Printed (expression node) := by
  rcases exported with ⟨name, found⟩ | quoted
  · exact ⟨name, expression_of_name found⟩
  · exact printed_of_quoted quoted

end Expressions

section Clauses

variable {clause : Clause} {specifier : Value} {specifiers : List Value} {name text : String}

/-- All parts of a clause are texts. -/
structure Clause.Complete (clause : Clause) : Prop where
  defaults : Texts clause.defaults
  namespaces : Texts clause.namespaces
  named : Texts clause.named

/-- What is imported, and the name for it here unless that is the same. -/
def renamed (imported localName : String) : String :=
  if imported = localName then imported else s!"{imported} as {localName}"

section Add

variable (record : specifier.IsRecord) (found : Node.name (specifier.peek "local") = .str name)
include record found

theorem Clause.add_eq (clause : Clause) : clause.add specifier =
    if specifier.peek "type" == defaultSpecifier then
      .ok { clause with defaults := clause.defaults ++ [.str name] }
    else if specifier.peek "type" == namespaceSpecifier then
      .ok { clause with namespaces := clause.namespaces ++ [.str s!"* as {name}"] }
    else do
      let imported ← expression (← specifier.field "imported")
      let entry : Value :=
        if imported.same (.str name) then imported else .str s!"{imported.display} as {name}"
      return { clause with named := clause.named ++ [entry] } := by
  rw [Clause.add, Value.field_of_peek rfl (ne_null_of_name found), ok_bind, expression_of_name found,
    ok_bind, Value.get_of_isRecord record, ok_bind]
  rfl

theorem Clause.add_default (type : specifier.peek "type" = defaultSpecifier) (clause : Clause) :
    clause.add specifier = .ok { clause with defaults := clause.defaults ++ [.str name] } := by
  rw [Clause.add_eq record found, type, if_pos (by rfl)]

theorem Clause.add_namespace (type : specifier.peek "type" = namespaceSpecifier) (clause : Clause) :
    clause.add specifier =
      .ok { clause with namespaces := clause.namespaces ++ [.str s!"* as {name}"] } := by
  rw [Clause.add_eq record found, type, if_neg (by decide), if_pos (by rfl)]

theorem Clause.add_named (type : specifier.peek "type" = namedSpecifier)
    (printed : expression (specifier.peek "imported") = .ok (.str text)) (clause : Clause) :
    clause.add specifier = .ok { clause with named := clause.named ++ [.str (renamed text name)] } := by
  have present : specifier.peek "imported" ≠ .null := ne_null_of_printed printed
  rw [Clause.add_eq record found, type, if_neg (by decide), if_neg (by decide),
    Value.field_of_peek rfl present, ok_bind, printed, ok_bind, Value.same_str, renamed]
  by_cases same : text = name
  · simp [same, pure_eq_ok]
  · simp [same, pure_eq_ok]
    rfl

end Add

theorem Clause.Complete.add (complete : clause.Complete) (specifies : Specifies specifier) :
    ∃ longer, clause.add specifier = .ok longer ∧ longer.Complete := by
  obtain ⟨name, found, _⟩ := specifies.localName.name
  rcases specifies.type with type | type | ⟨type, exported⟩
  · exact ⟨_, Clause.add_default specifies.record found type clause,
      complete.defaults.append (.singleton name), complete.namespaces, complete.named⟩
  · exact ⟨_, Clause.add_namespace specifies.record found type clause, complete.defaults,
      complete.namespaces.append (.singleton _), complete.named⟩
  · obtain ⟨text, printed⟩ := printed_of_exported exported
    exact ⟨_, Clause.add_named specifies.record found type printed clause, complete.defaults,
      complete.namespaces, complete.named.append (.singleton _)⟩

theorem Clause.Complete.addAll (complete : clause.Complete)
    (specifies : ∀ specifier ∈ specifiers, Specifies specifier) :
    ∃ longer, specifiers.foldlM Clause.add clause = .ok longer ∧ longer.Complete := by
  induction specifiers generalizing clause with
  | nil => exact ⟨clause, rfl, complete⟩
  | cons specifier rest inductionHypothesis =>
    obtain ⟨longer, added, completeLonger⟩ := complete.add (specifies specifier (by simp))
    rw [List.foldlM_cons, added, ok_bind]
    exact inductionHypothesis completeLonger fun other membership =>
      specifies other (by simp [membership])

theorem Clause.Complete.parts (complete : clause.Complete) :
    ∃ parts, clause.parts = .ok parts ∧ Texts parts := by
  have front := complete.defaults.append complete.namespaces
  rw [Clause.parts]
  split
  · exact ⟨_, rfl, front⟩
  · obtain ⟨names, joined⟩ := complete.named.join ", "
    rw [joined, ok_bind]
    exact ⟨_, rfl, front.append (.singleton _)⟩

end Clauses

section Statements

variable {node source declarator value : Value} {specifiers : List Value} {name text : String}

/-- The attributes of an import with the blank before them. -/
def attributesText (node : Value) : String :=
  if (node.peek "attributesRaw").isPresent then " " ++ (node.peek "attributesRaw").display else ""

def importText (parts : List String) (source attributes : String) : String :=
  if parts.isEmpty then s!"import {source}{attributes};"
  else
    let clause := ", ".intercalate parts
    s!"import {clause} from {source}{attributes};"

theorem importDeclaration_of_parts (imports : Imports node source specifiers)
    (printed : expression source = .ok (.str text)) {clause : Clause} {parts : List String}
    (added : specifiers.foldlM Clause.add ⟨[], [], []⟩ = .ok clause)
    (listed : clause.parts = .ok (parts.map .str)) :
    importDeclaration node = .ok (.str (importText parts text (attributesText node))) := by
  have list : (Value.arr specifiers).parts = .ok specifiers := rfl
  have joined := join_texts ", " parts
  rw [importDeclaration, imports.field_source (ne_null_of_printed printed), ok_bind, printed, ok_bind,
    Value.getD_of_peek imports.specifiers_eq (by simp), ok_bind, list, ok_bind, added, ok_bind,
    listed, ok_bind, flag_of_isRecord imports.record, ok_bind, attributesText]
  dsimp only
  rw [importText, List.isEmpty_map]
  split
  · next present =>
    rw [Value.field_of_peek rfl (Value.ne_null_of_isPresent present)]
    simp only [ok_bind, pure_eq_ok, joined]
    split
    · rfl
    · rfl
  · simp only [ok_bind, pure_eq_ok, joined]
    split
    · rfl
    · rfl

theorem printed_importDeclaration (imports : Imports node source specifiers)
    (quoted : Quoted source) (specifies : ∀ specifier ∈ specifiers, Specifies specifier) :
    Printed (importDeclaration node) := by
  obtain ⟨text, printed⟩ := printed_of_quoted quoted
  have empty : Clause.Complete ⟨[], [], []⟩ := ⟨.nil, .nil, .nil⟩
  obtain ⟨clause, added, complete⟩ := empty.addAll specifies
  obtain ⟨_, listed, texts, rfl⟩ := complete.parts
  exact ⟨_, importDeclaration_of_parts imports printed added listed⟩

theorem declarator_of_name (found : Node.name (declarator.peek "id") = .str name)
    (record : declarator.IsRecord)
    (printed : expression (declarator.peek "init") = .ok (.str text)) :
    Emit.declarator declarator = .ok (.str s!"{name} = {text}") := by
  have given : declarator.peek "init" ≠ .null := ne_null_of_printed printed
  rw [Emit.declarator, Value.field_of_peek rfl (ne_null_of_name found), ok_bind,
    expression_of_name found, ok_bind, Value.get_of_isRecord record, ok_bind]
  split
  · next none => exact absurd none given
  · rw [Value.field_of_peek rfl given, ok_bind, printed, ok_bind]
    rfl

theorem statement_of_declares (declares : Declares node declarator) {kind : Value}
    (known : node.getD "kind" (.str "var") = .ok kind)
    (printed : Emit.declarator declarator = .ok (.str text)) :
    statement node = .ok (.str s!"{kind.display} {text};") := by
  have list : (Value.arr [declarator]).parts = .ok [declarator] := rfl
  have all : [declarator].mapM Emit.declarator = .ok ([text].map .str) := by
    rw [List.mapM_cons, printed, ok_bind, List.mapM_nil]
    rfl
  rw [statement, if_neg (hasType_ne declares.kind (by decide)), if_pos declares.kind,
    Value.getD_of_peek declares.declarations (by simp), ok_bind, list, ok_bind, all, ok_bind,
    join_texts, ok_bind, known]
  rfl

theorem printed_declares (declares : Declares node declarator) (named : Named (declarator.peek "id"))
    (printed : Printed (expression (declarator.peek "init"))) : Printed (statement node) := by
  obtain ⟨name, found, _⟩ := named.name
  obtain ⟨text, printed⟩ := printed
  obtain ⟨kind, known⟩ := Value.getD_of_isRecord declares.nodeRecord "kind" (.str "var")
  exact ⟨_, statement_of_declares declares known (declarator_of_name found declares.record printed)⟩

theorem statement_of_rewritten (rewritten : Rewritten node) : Printed (statement node) := by
  cases rewritten with
  | importing imports quoted specifies =>
    rw [statement, if_pos imports.kind]
    exact printed_importDeclaration imports quoted specifies
  | requiring declares named calls quoted =>
    obtain ⟨text, raw⟩ := quoted.raw
    exact printed_declares declares named ⟨_, expression_of_calls calls quoted.kind raw⟩
  | @accessing declarator object argument callee function declares named accesses calls quoted =>
    obtain ⟨text, raw⟩ := quoted.raw
    have member := accesses_memberOf object function
    rw [← accesses] at member
    exact printed_declares declares named ⟨_, expression_of_accesses member calls quoted.kind raw⟩

end Statements

end Emit

end ImportRedirect
