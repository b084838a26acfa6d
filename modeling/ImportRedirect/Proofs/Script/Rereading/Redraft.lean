import ImportRedirect.Proofs.Pass.Descent
import ImportRedirect.Proofs.Script.Rereading.Lines

/-!
Statements that were made of a statement of a script, as drafts. They begin with the word with which that
statement begins, and their attributes are those that stand in the script.
-/

namespace ImportRedirect.Script

open Node Value

namespace Draft

variable {draft : Draft} {given old : Attributes}

/-- The draft with these attributes in the place of its own. -/
def withAttributes : Draft → Attributes → Draft
  | .importing clause source _, given => .importing clause source (some given)
  | .requiring binder target callee argument member, _ =>
    .requiring binder target callee argument member

theorem node_withAttributes (known : draft.attributes? = some old) (same : given.text = old.text) :
    (draft.withAttributes given).node = draft.node := by
  cases draft with
  | importing clause source attributes =>
    obtain rfl : attributes = some old := known
    simp [withAttributes, node, same]
  | requiring => rfl

theorem keyword_withAttributes (draft : Draft) (given : Attributes) :
    (draft.withAttributes given).keyword = draft.keyword := by
  cases draft <;> rfl

theorem attributes?_withAttributes (known : draft.attributes? = some old) :
    (draft.withAttributes given).attributes? = some given := by
  cases draft with
  | importing => rfl
  | requiring => cases known

end Draft

/-- Characters that are read as a name up to their end do not go on with a name. -/
theorem namePartLength?_of_parts {word rest : List Char}
    (parts : ∀ c ∈ word, isNamePart c = true ∧ c ≠ '\\')
    (whole : namePartsLength 0 (word ++ rest) = word.length) : namePartLength? rest = none := by
  induction word with
  | nil =>
    cases rest with
    | nil => rfl
    | cons c rest =>
      rw [List.nil_append, namePartsLength] at whole
      cases found : namePartLength? (c :: rest) with
      | none => rfl
      | some length => simp [found] at whole
  | cons c word inductionHypothesis =>
    obtain ⟨⟨part, plain⟩, others⟩ := List.forall_mem_cons.mp parts
    have one : namePartLength? (c :: (word ++ rest)) = some 1 := by
      rw [namePartLength?, if_pos part]
      exact fun _ same => absurd same plain
    rw [List.cons_append, namePartsLength, one] at whole
    exact inductionHypothesis others (by simpa using whole)

theorem namePartLength?_of_keyword {word : String} {rest : List Char}
    (known : word ∈ ["import", "const", "let", "var"])
    (found : Lexeme.first (word.toList ++ rest) = .word word) : namePartLength? rest = none := by
  have plain : ["import", "const", "let", "var"].all fun word => !word.toList.head?.any Char.isDigit &&
      word.toList.all fun c => isNamePart c && c != '\\' := by decide
  have each := List.all_eq_true.mp plain word known
  rw [Bool.and_eq_true, Bool.not_eq_true', List.all_eq_true] at each
  obtain ⟨digit, parts⟩ := each
  obtain ⟨_, same⟩ := Lexeme.first_eq_word_iff.mp found
  have within := nameLength_le (word.toList ++ rest)
  have counted := congrArg String.length same
  rw [String.length_ofList, List.length_take, Nat.min_eq_left within, ← String.length_toList] at counted
  have head : (word.toList ++ rest).head?.any Char.isDigit = false := by
    obtain ⟨c, tail, characters⟩ := List.exists_cons_of_ne_nil (Draft.word_of_keyword known).ne_nil
    rw [characters] at digit ⊢
    exact digit
  rw [nameLength, head, if_neg (by simp)] at counted
  exact namePartLength?_of_parts (fun c membership => by simpa using parts c membership) counted.symm

/-- The statement was made of the node of a statement before these characters, and is what the draft
says. -/
structure Redraft (ahead after : List Char) (word : String) (node statement : Value)
    (draft : Draft) : Prop where
  found : statement.Matches draft.node
  keyword : draft.keyword = word
  attributed : ∀ given ∈ draft.attributes?, node.peek "attributesRaw" = .str given.text
  given : ∀ given ∈ draft.attributes?, ∃ front inner between,
    ahead = front ++ ("with".toList ++ (inner ++ '\x7d' :: (between ++ after))) ∧
      given.object = inner ++ ['\x7d'] ∧ given.rest = between ++ after
  joins : Uncommented node → Joins draft.text.toList

section Redrafts

variable {statement : Statement} {ahead after : List Char} {word : String} {node changed : Value}
  {draft : Draft}

theorem keyword_of_descends (keyword : statement.keyword? = some word)
    (found : statement.node? = some node)
    (descends : Descends (fun text => Unended text.toList) node changed)
    (drafted : changed.Matches draft.node) : draft.keyword = word := by
  have keeps : ∀ key ∉ changedFields, ∀ text, draft.node.peek key = .str text → isPlace key = false →
      node.peek key = .str text := fun key apart text known other =>
    (descends.keeps key apart).symm.trans (drafted.peek_eq_str other known)
  cases statement with
  | empty => cases keyword
  | importing extent specifiers source attributes =>
    obtain rfl := Option.some.inj keyword
    have type : node.peek "type" = .str "ImportDeclaration" := by
      obtain rfl := Option.some.inj found
      cases attributes <;> exact peek_located rfl
    cases draft with
    | importing => rfl
    | requiring =>
      have other := type.symm.trans (keeps "type" (by decide) _ rfl rfl)
      simp at other
  | declaration extent binder declarators =>
    obtain rfl := Option.some.inj keyword
    have fields : node.peek "type" = .str "VariableDeclaration" ∧ node.peek "kind" = .str binder.name := by
      obtain rfl := Option.some.inj found
      exact ⟨peek_located rfl, peek_located rfl⟩
    cases draft with
    | importing =>
      have other := fields.1.symm.trans (keeps "type" (by decide) _ rfl rfl)
      simp at other
    | requiring other =>
      exact Value.str.inj ((keeps "kind" (by decide) _ rfl rfl).symm.trans fields.2)
  | other => cases keyword

/-- The attributes that a node tells of were read. -/
theorem attributes_of_node {raw : String} (found : statement.node? = some node)
    (told : node.peek "attributesRaw" = .str raw) : ∃ extent specifiers source attributes,
      statement = .importing extent specifiers source (some attributes) ∧ attributes.text = raw := by
  cases statement with
  | empty => cases found
  | importing extent specifiers source attributes =>
    obtain rfl := Option.some.inj found
    cases attributes with
    | none =>
      have none := (peek_located_of_none rfl).symm.trans told
      simp [peek, lookup] at none
    | some attributes => exact ⟨_, _, _, _, rfl, Value.str.inj ((peek_located rfl).symm.trans told)⟩
  | declaration extent binder declarators =>
    obtain rfl := Option.some.inj found
    have none := (peek_located_of_none rfl).symm.trans told
    simp [peek, lookup] at none
  | other extent kind =>
    obtain rfl := Option.some.inj found
    have none := (peek_located_of_none rfl).symm.trans told
    simp [peek, lookup] at none

theorem redraft_of_drafted (keyword : statement.keyword? = some word)
    (found : statement.node? = some node) (attributed : statement.AttributedIn ahead after)
    (descends : Descends (fun text => Unended text.toList) node changed) (drafted : Drafted changed) :
    ∃ draft, Redraft ahead after word node changed draft := by
  obtain ⟨draft, same⟩ := drafted
  have joins : ∀ {draft : Draft}, changed.Matches draft.node → Uncommented node →
      Joins draft.text.toList :=
    fun {draft} same texts => draft.joins ((descends.texts texts).of_matches same)
  have begins := keyword_of_descends keyword found descends same
  cases known : draft.attributes? with
  | none => exact ⟨draft, same, begins, by simp [known], by simp [known], joins same⟩
  | some old =>
    have raw : node.peek "attributesRaw" = .str old.text :=
      (descends.keeps "attributesRaw" (by decide)).symm.trans (Draft.attributesRaw_of_matches same known)
    obtain ⟨extent, specifiers, source, attributes, rfl, told⟩ := attributes_of_node found raw
    obtain ⟨front, inner, between, whole, restates⟩ := attributed
    let given : Draft.Attributes := ⟨inner ++ ['\x7d'], between ++ after, restates.object⟩
    have text : given.text = old.text := restates.text.symm.trans told
    have again := (Draft.node_withAttributes known text).symm ▸ same
    have only := @Draft.attributes?_withAttributes draft given old known
    refine ⟨draft.withAttributes given, again, (draft.keyword_withAttributes given).trans begins,
      fun other among => ?_, fun other among => ?_, joins again⟩
    · obtain rfl := Option.some.inj (only ▸ among)
      rw [raw, text]
    · obtain rfl := Option.some.inj (only ▸ among)
      exact ⟨front, inner, between, whole, rfl, rfl⟩

/-- Each of the statements made of a statement is a draft. -/
theorem redrafts_of_drafted {statements : List Value} (keyword : statement.keyword? = some word)
    (found : statement.node? = some node) (attributed : statement.AttributedIn ahead after)
    (descends : ∀ changed ∈ statements, Descends (fun text => Unended text.toList) node changed)
    (drafted : ∀ changed ∈ statements, Drafted changed) :
    ∃ drafts, List.Forall₂ (Redraft ahead after word node) statements drafts := by
  induction statements with
  | nil => exact ⟨[], .nil⟩
  | cons changed others inductionHypothesis =>
    obtain ⟨here, later⟩ := List.forall_mem_cons.mp descends
    obtain ⟨first, rest⟩ := List.forall_mem_cons.mp drafted
    obtain ⟨draft, redraft⟩ := redraft_of_drafted keyword found attributed here first
    obtain ⟨drafts, redrafts⟩ := inductionHypothesis later rest
    exact ⟨draft :: drafts, .cons redraft redrafts⟩

end Redrafts

end ImportRedirect.Script
