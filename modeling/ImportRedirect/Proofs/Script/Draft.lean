import ImportRedirect.Proofs.Emit.Render
import ImportRedirect.Proofs.Script.Attributes
import ImportRedirect.Proofs.Value.Unplaced
import ImportRedirect.Script.Program

/-!
Statements that are still to be written: imports with a clause, and declarations of one name as what a
call gives. Their names, quoted texts and attributes can be read wherever they stand. A draft says how it
is written and which node it is, places aside; whatever matches that node is printed as the draft.
-/

namespace ImportRedirect.Script

open Node Value

namespace Draft

structure Name where
  text : String
  readable : Readable text

structure Quotation where
  raw : String
  quotes : ∃ mark, Quotes raw.toList mark

/-- What a module exports. -/
inductive Export where
  | default
  | named (name : Name)
  | quoted (quotation : Quotation)

structure Import where
  exported : Export
  localName : Name

/-- What an import brings in: a default, everything, or at least one thing by its name. -/
inductive Clause where
  | fallback (localName : Name)
  | whole (localName : Name)
  | names (first : Import) (others : List Import)

/-- The object after the word, and what came after it where it was read. -/
structure Attributes where
  object : List Char
  rest : List Char
  written : ObjectText rest object

structure Callee where
  text : String
  operand : Operand text

end Draft

inductive Draft where
  | importing (clause : Draft.Clause) (source : Draft.Quotation)
      (attributes : Option Draft.Attributes)
  | requiring (binder : Binder) (target : Draft.Name) (callee : Draft.Callee)
      (argument : Draft.Quotation) (member : Option Draft.Name)

namespace Draft

variable {v : Value}

def attributes? : Draft → Option Attributes
  | .importing _ _ attributes => attributes
  | .requiring .. => none

def Name.node (name : Name) : Value := identifier (.str name.text)

def Quotation.node (quotation : Quotation) : Value :=
  .obj [("type", .str "Literal"),
    ("value", .str (String.ofList (quotation.raw.toList.drop 1).dropLast)),
    ("raw", .str quotation.raw)]

namespace Export

def text : Export → String
  | .default => "default"
  | .named name => name.text
  | .quoted quotation => quotation.raw

def node : Export → Value
  | .default => identifier (.str "default")
  | .named name => name.node
  | .quoted quotation => quotation.node

end Export

namespace Import

def text (item : Import) : String := Emit.renamed item.exported.text item.localName.text

def node (item : Import) : Value :=
  .obj [("type", namedSpecifier), ("imported", item.exported.node), ("local", item.localName.node)]

end Import

namespace Clause

def parts : Clause → List String
  | .fallback localName => [localName.text]
  | .whole localName => [s!"* as {localName.text}"]
  | .names first others =>
    ["\x7b " ++ ", ".intercalate ((first :: others).map Import.text) ++ " \x7d"]

def nodes : Clause → List Value
  | .fallback localName => [.obj [("type", defaultSpecifier), ("local", localName.node)]]
  | .whole localName => [.obj [("type", namespaceSpecifier), ("local", localName.node)]]
  | .names first others => (first :: others).map Import.node

end Clause

def Attributes.text (attributes : Attributes) : String :=
  String.ofList ("with".toList ++ attributes.object)

theorem Attributes.text_ne_empty (attributes : Attributes) : attributes.text ≠ "" := by
  intro empty
  have none : "with".toList ++ attributes.object = "".toList :=
    String.toList_ofList.symm.trans (congrArg String.toList empty)
  exact absurd (List.append_eq_nil_iff.mp none).1 (by decide)

/-- The call of a function with a module, or a member of what it gives. -/
def valueText (callee : Callee) (argument : Quotation) : Option Name → String
  | none => s!"{callee.text}({argument.raw})"
  | some member => s!"{callee.text}({argument.raw})" ++ "." ++ member.text

def declaratorText (target : Name) (callee : Callee) (argument : Quotation)
    (member : Option Name) : String :=
  s!"{target.text} = {valueText callee argument member}"

def callNode (callee : Callee) (argument : Quotation) : Value :=
  .obj [("type", .str "CallExpression"), ("callee", identifier (.str callee.text)),
    ("arguments", .arr [argument.node]), ("optional", .bool false)]

def valueNode (callee : Callee) (argument : Quotation) : Option Name → Value
  | none => callNode callee argument
  | some member => Redirector.memberOf (callNode callee argument) (some member.text)

def text : Draft → String
  | .importing clause source attributes =>
    Emit.importText clause.parts source.raw ((attributes.map (" " ++ ·.text)).getD "")
  | .requiring binder target callee argument member =>
    s!"{binder.name} {declaratorText target callee argument member};"

def node : Draft → Value
  | .importing clause source attributes =>
    .obj ([("type", .str "ImportDeclaration"), ("specifiers", .arr clause.nodes),
      ("source", source.node)] ++
      (attributes.map fun attributes => ("attributesRaw", .str attributes.text)).toList)
  | .requiring binder target callee argument member =>
    .obj [("type", .str "VariableDeclaration"), ("kind", .str binder.name),
      ("declarations", .arr [.obj [("type", .str "VariableDeclarator"), ("id", target.node),
        ("init", valueNode callee argument member)]])]

section Read

variable {extent : Extent}

theorem unplaced_located (fields : List (String × Value)) :
    (extent.located fields).unplaced = .obj (unplacedFields fields) := by
  simp [Extent.located, unplaced, unplacedFields_append, unplacedFields, isPlace]

@[simp] theorem unplaced_nameNode (extent : Extent) :
    (nameNode extent).unplaced = identifier (.str extent.text) := by
  rw [nameNode, unplaced_located]
  rfl

theorem unplaced_textNode {quotation : Quotation} (written : extent.text = quotation.raw) :
    (textNode extent).unplaced = quotation.node := by
  rw [textNode, unplaced_located, Quotation.node, ← written]
  rfl

end Read

section Printing

theorem name_of_matches {name : String} (found : v.Matches (identifier (.str name))) :
    Node.name v = .str name := by
  have kind : hasType v "Identifier" = true := hasType_iff.mpr (found.peek_eq_str rfl rfl)
  rw [name_eq, if_pos kind]
  exact found.peek_eq_str rfl rfl

theorem name_of_field {pattern : Value} {key name : String} (found : v.Matches pattern)
    (other : isPlace key = false) (known : pattern.peek key = identifier (.str name)) :
    Node.name (v.peek key) = .str name :=
  name_of_matches (found.peek other known (by simp [identifier]))

theorem Quotation.kind_of_matches {quotation : Quotation} (found : v.Matches quotation.node) :
    hasType v "Literal" = true := hasType_iff.mpr (found.peek_eq_str rfl rfl)

theorem Quotation.raw_of_matches {quotation : Quotation} (found : v.Matches quotation.node) :
    v.peek "raw" = .str quotation.raw := found.peek_eq_str rfl rfl

theorem Quotation.printed {quotation : Quotation} (found : v.Matches quotation.node) :
    Emit.expression v = .ok (.str quotation.raw) :=
  Emit.expression_of_literal (kind_of_matches found) (raw_of_matches found)

theorem Export.printed {exported : Export} (found : v.Matches exported.node) :
    Emit.expression v = .ok (.str exported.text) := by
  cases exported with
  | default => exact Emit.expression_of_name (name_of_matches found)
  | named name => exact Emit.expression_of_name (name_of_matches found)
  | quoted quotation => exact quotation.printed found

theorem Export.node_ne_null (exported : Export) : exported.node ≠ .null := by
  cases exported <;> simp [Export.node, Name.node, Quotation.node, identifier]

theorem Import.added {item : Import} (found : v.Matches item.node) (clause : Emit.Clause) :
    clause.add v = .ok { clause with named := clause.named ++ [.str item.text] } :=
  Emit.Clause.add_named (found.isRecord (isRecord_obj _))
    (name_of_field found rfl rfl) (found.peek_eq_str rfl rfl)
    (Export.printed (found.peek rfl rfl item.exported.node_ne_null)) clause

theorem Import.addedAll {items : List Import} {values : List Value}
    (found : List.Forall₂ (fun v item => v.Matches (Import.node item)) values items)
    (clause : Emit.Clause) : values.foldlM Emit.Clause.add clause =
      .ok { clause with named := clause.named ++ items.map fun item => .str item.text } := by
  induction found generalizing clause with
  | nil => simp [pure_eq_ok]
  | cons first _ inductionHypothesis =>
    rw [List.foldlM_cons, Import.added first, ok_bind, inductionHypothesis]
    simp

theorem Clause.added {clause : Clause} {values : List Value}
    (found : List.Forall₂ Matches values clause.nodes) :
    ∃ read, values.foldlM Emit.Clause.add ⟨[], [], []⟩ = .ok read ∧
      read.parts = .ok (clause.parts.map .str) := by
  cases clause with
  | fallback localName =>
    obtain ⟨first, _, only, none, rfl⟩ := List.forall₂_cons_right_iff.mp found
    obtain rfl := List.forall₂_nil_right_iff.mp none
    have added := Emit.Clause.add_default (only.isRecord (isRecord_obj _))
      (name_of_field only rfl rfl) (only.peek_eq_str rfl rfl) ⟨[], [], []⟩
    exact ⟨⟨[.str localName.text], [], []⟩, by rw [List.foldlM_cons, added]; rfl, rfl⟩
  | whole localName =>
    obtain ⟨first, _, only, none, rfl⟩ := List.forall₂_cons_right_iff.mp found
    obtain rfl := List.forall₂_nil_right_iff.mp none
    have added := Emit.Clause.add_namespace (only.isRecord (isRecord_obj _))
      (name_of_field only rfl rfl) (only.peek_eq_str rfl rfl) ⟨[], [], []⟩
    exact ⟨⟨[], [.str s!"* as {localName.text}"], []⟩, by rw [List.foldlM_cons, added]; rfl, rfl⟩
  | names first others =>
    have items := List.forall₂_map_right_iff.mp found
    refine ⟨_, Import.addedAll items _, ?_⟩
    have texts : ((first :: others).map fun item => .str item.text) =
        ((first :: others).map Import.text).map Value.str := by rw [List.map_map]; rfl
    rw [List.nil_append, texts, Emit.Clause.parts, if_neg (by simp), Emit.join_texts]
    rfl

theorem calls_of_matches {callee : Callee} {argument : Quotation}
    (found : v.Matches (callNode callee argument)) :
    ∃ given, Calls v callee.text given ∧ given.Matches argument.node := by
  have arguments : (v.peek "arguments").Matches (.arr [argument.node]) :=
    found.peek rfl rfl (by simp)
  obtain ⟨_, listed, only⟩ := arguments.arr
  obtain ⟨given, _, matched, none, rfl⟩ := List.forall₂_cons_right_iff.mp only
  obtain rfl := List.forall₂_nil_right_iff.mp none
  have always : (v.peek "optional").Matches (.bool false) := found.peek rfl rfl (by simp)
  exact ⟨given, ⟨hasType_iff.mpr (found.peek_eq_str rfl rfl), always.isPresent_eq_false,
    name_of_field found rfl rfl, listed⟩, matched⟩

theorem value_printed {callee : Callee} {argument : Quotation} {member : Option Name}
    (found : v.Matches (valueNode callee argument member)) :
    Emit.expression v = .ok (.str (valueText callee argument member)) := by
  cases member with
  | none =>
    obtain ⟨given, calls, matched⟩ := calls_of_matches found
    exact Emit.expression_of_calls calls (Quotation.kind_of_matches matched)
      (Quotation.raw_of_matches matched)
  | some member =>
    have object : (v.peek "object").Matches (callNode callee argument) :=
      found.peek rfl rfl (by simp [callNode])
    have computed : (v.peek "computed").Matches (.bool false) := found.peek rfl rfl (by simp)
    have always : (v.peek "optional").Matches (.bool false) := found.peek rfl rfl (by simp)
    obtain ⟨given, calls, matched⟩ := calls_of_matches object
    have accesses : Emit.Accesses v (v.peek "object") member.text :=
      ⟨hasType_iff.mpr (found.peek_eq_str rfl rfl), rfl, name_of_field found rfl rfl,
        computed.isPresent_eq_false, always.isPresent_eq_false⟩
    exact Emit.expression_of_accesses accesses calls (Quotation.kind_of_matches matched)
      (Quotation.raw_of_matches matched)

theorem Clause.isRecord {clause : Clause} : ∀ node ∈ clause.nodes, node.IsRecord := by
  intro node membership
  cases clause with
  | fallback localName => exact List.mem_singleton.mp membership ▸ isRecord_obj _
  | whole localName => exact List.mem_singleton.mp membership ▸ isRecord_obj _
  | names first others =>
    obtain ⟨item, _, rfl⟩ := List.mem_map.mp membership
    exact isRecord_obj _

theorem attributesText_of_matches {clause : Clause} {source : Quotation}
    {attributes : Option Attributes} (found : v.Matches (Draft.importing clause source attributes).node) :
    Emit.attributesText v = (attributes.map (" " ++ ·.text)).getD "" := by
  rw [Emit.attributesText]
  cases attributes with
  | none =>
    have none : v.peek "attributesRaw" = .null := found.peek_eq_null rfl (by simp) (by simp)
    rw [none]
    rfl
  | some attributes =>
    have raw : v.peek "attributesRaw" = .str attributes.text := found.peek_eq_str rfl rfl
    rw [raw, if_pos ((isPresent_iff_ne_empty _).mpr attributes.text_ne_empty)]
    rfl

theorem attributesRaw_of_matches {draft : Draft} {given : Attributes} (found : v.Matches draft.node)
    (known : given ∈ draft.attributes?) : v.peek "attributesRaw" = .str given.text := by
  cases draft with
  | importing clause source attributes =>
    obtain rfl : attributes = some given := known
    exact found.peek_eq_str rfl rfl
  | requiring => cases known

/-- What matches the node of a draft is printed as the draft is written. -/
theorem printed (draft : Draft) (found : v.Matches draft.node) :
    Emit.statement v = .ok (.str draft.text) := by
  have type := fun kind known => hasType_iff.mpr (@Matches.peek_eq_str _ _ "type" kind found rfl known)
  cases draft with
  | importing clause source attributes =>
    have kind := type "ImportDeclaration" rfl
    have clauses : (v.peek "specifiers").Matches (.arr clause.nodes) := found.peek rfl rfl (by simp)
    obtain ⟨specifiers, listed, matched⟩ := clauses.arr
    obtain ⟨read, added, parts⟩ := clause.added matched
    have quotation : (v.peek "source").Matches source.node :=
      found.peek rfl rfl (by simp [Quotation.node])
    have imports : Imports v (v.peek "source") specifiers :=
      ⟨kind, rfl, listed, Matches.records matched clause.isRecord⟩
    rw [Emit.statement, if_pos kind, Emit.importDeclaration_of_parts imports
      (source.printed quotation) added parts, attributesText_of_matches found]
    rfl
  | requiring binder target callee argument member =>
    have kind := type "VariableDeclaration" rfl
    have declarations := (found.peek rfl rfl (by simp) : (v.peek "declarations").Matches (.arr [_]))
    obtain ⟨_, listed, only⟩ := declarations.arr
    obtain ⟨declarator, _, matched, none, rfl⟩ := List.forall₂_cons_right_iff.mp only
    obtain rfl := List.forall₂_nil_right_iff.mp none
    have record := matched.isRecord (isRecord_obj _)
    have value : (declarator.peek "init").Matches (valueNode callee argument member) :=
      matched.peek rfl rfl (by cases member <;> simp [valueNode, callNode, Redirector.memberOf])
    have declared : Emit.declarator declarator =
        .ok (.str (declaratorText target callee argument member)) :=
      Emit.declarator_of_name (name_of_field matched rfl rfl) record (value_printed value)
    have binds : v.peek "kind" = .str binder.name := found.peek_eq_str rfl rfl
    rw [Emit.statement_of_declares ⟨kind, listed, record⟩
      (Value.getD_of_peek binds (by simp) _) declared]
    rfl

end Printing

end Draft

end ImportRedirect.Script
