import ImportRedirect.Proofs.Script.Nesting.Statement
import ImportRedirect.Proofs.Script.Nodes
import ImportRedirect.Proofs.Script.Rereading
import ImportRedirect.Proofs.Value.Texts

/-!
Texts in which no block comment ends. What a draft writes is one when its own texts are, since the marks
between them make up no end of a comment.
-/

namespace ImportRedirect.Script

open Node Value

variable {text other front rest : List Char} {c : Char}

namespace Unended

theorem of_infix (unended : Unended text) (inside : other <:+: text) : Unended other :=
  fun ends => unended (ends.trans inside)

theorem left (unended : Unended (front ++ rest)) : Unended front :=
  unended.of_infix (List.infix_append' [] front rest)

theorem right (unended : Unended (front ++ rest)) : Unended rest :=
  unended.of_infix (List.suffix_append front rest).isInfix

end Unended

/-- No block comment ends in the text, also when it is written after something. -/
structure Joins (text : List Char) : Prop where
  unended : Unended text
  head : text.head? ≠ some '/'

instance (text : List Char) : Decidable (Joins text) :=
  decidable_of_iff (Unended text ∧ text.head? ≠ some '/')
    ⟨fun holds => ⟨holds.1, holds.2⟩, fun joins => ⟨joins.unended, joins.head⟩⟩

namespace Joins

theorem nil : Joins [] := ⟨by simp [Unended], by simp⟩

/-- An end of a comment lies in one of two texts, or begins with the last character of the first. -/
theorem unended_append (joins : Joins rest) (unended : Unended front) : Unended (front ++ rest) := by
  induction front with
  | nil => exact joins.unended
  | cons c front inductionHypothesis =>
    rw [List.cons_append, Unended, List.infix_cons_iff, not_or]
    refine ⟨?_, inductionHypothesis (unended.of_infix (List.suffix_cons c front).isInfix)⟩
    rintro ⟨tail, whole⟩
    obtain ⟨rfl, same⟩ : '*' = c ∧ '/' :: tail = front ++ rest := by simpa using whole
    clear whole
    cases front with
    | nil =>
      rw [List.nil_append] at same
      exact joins.head (by rw [← same, List.head?_cons])
    | cons d front =>
      obtain ⟨rfl, _⟩ := List.cons.inj same
      exact unended ⟨[], front, rfl⟩

theorem append (first : Joins front) (second : Joins rest) : Joins (front ++ rest) := by
  refine ⟨second.unended_append first.unended, ?_⟩
  cases front with
  | nil => exact second.head
  | cons c front => exact first.head

theorem cons (joins : Joins rest) (other : c ≠ '/') : Joins (c :: rest) :=
  have single : Joins [c] := ⟨fun ends => by simpa using ends.length_le, by simpa using other⟩
  single.append joins

end Joins

/-- No block comment ends in a text of the value. -/
abbrev Uncommented (v : Value) : Prop := v.Texts fun text => Unended text.toList

section Sources

variable {code ahead : List Char} {low high : Nat} {extent : Extent}

/-- What stands after a place is in the characters that come after it. -/
theorem Extent.Within.isInfix (within : extent.Within code low high) (split : code = front ++ ahead)
    (place : byteLength front ≤ low) : extent.text.toList <:+: ahead := by
  obtain ⟨cut, after, _⟩ := within
  cases cut with
  | @intro before inside rest whole =>
    obtain ⟨between, _, begun⟩ := eq_append_of_le (split.symm.trans whole) (Nat.le_trans place after)
    have text : Extent.text ⟨byteLength before, inside ++ rest, byteLength before + byteLength inside⟩ =
        String.ofList inside := by
      rw [Extent.text, Nat.add_sub_cancel_left, takeBytes_append (Nat.le_refl _), takeBytes_whole]
    rw [text, String.toList_ofList, begun]
    exact ⟨between, rest, by simp⟩

variable (unended : Unended ahead) (split : code = front ++ ahead)

theorem uncommented_located {fields : List (String × Value)}
    (texts : ∀ field ∈ fields, Uncommented field.2) : Uncommented (extent.located fields) := by
  refine .obj fun field membership => ?_
  rcases List.mem_append.mp membership with own | place
  · exact texts field own
  · rcases List.mem_pair.mp place with rfl | rfl <;> exact .int _

theorem uncommented_word {word : String} (unended : Unended word.toList) : Uncommented (.str word) :=
  .str unended

include unended split

theorem Extent.Within.uncommented (within : extent.Within code low high)
    (place : byteLength front ≤ low) : Uncommented (.str extent.text) :=
  .str (unended.of_infix (within.isInfix split place))

theorem uncommented_nameNode (within : extent.Within code low high) (place : byteLength front ≤ low) :
    Uncommented (nameNode extent) := by
  have name := within.uncommented unended split place
  exact uncommented_located (by simpa using ⟨uncommented_word (by decide), name⟩)

theorem uncommented_otherNode (within : extent.Within code low high) (place : byteLength front ≤ low)
    (kind : Kind) : Uncommented (otherNode extent kind) := by
  have raw := within.uncommented unended split place
  have named : Uncommented (.str kind.name) := by
    refine .str ?_
    cases kind <;> decide
  exact uncommented_located (by simpa using ⟨uncommented_word (by decide), named, raw⟩)

theorem uncommented_textNode (within : extent.Within code low high) (place : byteLength front ≤ low) :
    Uncommented (textNode extent) := by
  have raw := within.uncommented unended split place
  have inside : (extent.text.toList.drop 1).dropLast <:+: extent.text.toList :=
    (List.dropLast_prefix _).isInfix.trans (List.drop_suffix 1 _).isInfix
  have value : Uncommented (.str (String.ofList (extent.text.toList.drop 1).dropLast)) := by
    refine .str ?_
    rw [String.toList_ofList]
    exact raw.of_str.of_infix inside
  exact uncommented_located (by simpa using ⟨uncommented_word (by decide), by simpa using value, raw⟩)

theorem uncommented_expr {expr : Expr} (nested : expr.Nested code low high)
    (place : byteLength front ≤ low) : Uncommented expr.node := by
  induction nested with
  | name within => exact uncommented_nameNode unended split within place
  | text within => exact uncommented_textNode unended split within place
  | @call _ _ extent callee arguments optional within _ _ function given =>
    have inner := Nat.le_trans place within.after
    have listed : Uncommented (.arr (Expr.nodes arguments)) := by
      refine .arr fun node membership => ?_
      obtain ⟨argument, among, rfl⟩ := mem_nodes.mp membership
      exact given argument among inner
    exact uncommented_located
      (by simpa using ⟨uncommented_word (by decide), function inner, listed, .bool _⟩)
  | @member _ _ extent property object optional within _ asked owner =>
    have inner := Nat.le_trans place within.after
    have name := asked.uncommented unended split inner
    have named : Uncommented (.obj [("type", .str "Identifier"), ("name", .str property.text)]) :=
      .obj (by simpa using ⟨uncommented_word (by decide), name⟩)
    exact uncommented_located
      (by simpa using ⟨uncommented_word (by decide), owner inner, named, .bool _, .bool _⟩)
  | other within => exact uncommented_otherNode unended split within place _

theorem uncommented_exports {expr : Expr} (exports : expr.Exports code low high)
    (place : byteLength front ≤ low) : Uncommented expr.node := by
  cases exports with
  | name named => exact uncommented_nameNode unended split named.place place
  | default within => exact uncommented_nameNode unended split within place
  | text within => exact uncommented_textNode unended split within place

theorem uncommented_binds {expr : Expr} (binds : expr.Binds code low high)
    (place : byteLength front ≤ low) : Uncommented expr.node := by
  cases binds with
  | name named => exact uncommented_nameNode unended split named.place place
  | pattern within => exact uncommented_otherNode unended split within place _

theorem uncommented_specifier {specifier : Specifier} (nested : specifier.Nested code low high)
    (place : byteLength front ≤ low) : Uncommented specifier.node := by
  cases nested with
  | whole within bound =>
    have name := uncommented_nameNode unended split bound.place (Nat.le_trans place within.after)
    exact uncommented_located (by simpa using ⟨uncommented_word (by decide), name⟩)
  | named within exported bound =>
    have inner := Nat.le_trans place within.after
    have name := uncommented_nameNode unended split bound.place inner
    have imported := uncommented_exports unended split exported inner
    exact uncommented_located (by simpa using ⟨uncommented_word (by decide), imported, name⟩)
  | fallback bound =>
    have name := uncommented_nameNode unended split bound.place place
    exact uncommented_located (by simpa using ⟨uncommented_word (by decide), name⟩)

theorem uncommented_declarator {declarator : Declarator} (nested : declarator.Nested code low high)
    (place : byteLength front ≤ low) : Uncommented declarator.node := by
  have inner := Nat.le_trans place nested.place.after
  have target := uncommented_binds unended split nested.target inner
  have value : Uncommented ((declarator.value.map Expr.node).getD .null) := by
    cases given : declarator.value with
    | none => exact .null
    | some expr => exact uncommented_expr unended split (nested.value expr given) inner
  exact uncommented_located (by simpa using ⟨uncommented_word (by decide), target, value⟩)

/-- A statement in whose characters no comment ends has no text in which one ends. -/
theorem uncommented_statement {statement : Statement} {after : List Char} {node : Value}
    (place : ∀ extent ∈ statement.extent?, extent.Of code ∧ byteLength front ≤ extent.start)
    (parts : statement.Parts code) (attributed : statement.AttributedIn ahead after)
    (found : statement.node? = some node) : Uncommented node := by
  cases statement with
  | empty => simp [Statement.node?] at found
  | importing extent specifiers source attributes =>
    have begun := (place extent rfl).2
    have listed : Uncommented (.arr (specifiers.map Specifier.node)) := by
      refine .arr fun node membership => ?_
      obtain ⟨specifier, among, rfl⟩ := List.mem_map.mp membership
      exact uncommented_specifier unended split (parts.nested specifier among) begun
    have quoted := uncommented_textNode unended split parts.place begun
    obtain rfl := Option.some.inj found
    cases attributes with
    | none =>
      exact uncommented_located (by simpa using ⟨uncommented_word (by decide), listed, quoted⟩)
    | some attributes =>
      obtain ⟨before, inner, between, whole, restates⟩ := attributed
      have written : Uncommented (.str attributes.text) := by
        refine .str ?_
        rw [restates.text, String.toList_ofList]
        exact unended.of_infix ⟨before, between ++ after, by simp [whole]⟩
      exact uncommented_located
        (by simpa using ⟨uncommented_word (by decide), listed, quoted, written⟩)
  | declaration extent binder declarators =>
    have listed : Uncommented (.arr (declarators.map Declarator.node)) := by
      refine .arr fun node membership => ?_
      obtain ⟨declarator, among, rfl⟩ := List.mem_map.mp membership
      exact uncommented_declarator unended split (parts declarator among) (place extent rfl).2
    have named : Uncommented (.str binder.name) := by
      refine .str ?_
      cases binder <;> decide
    obtain rfl := Option.some.inj found
    exact uncommented_located (by simpa using ⟨uncommented_word (by decide), named, listed⟩)
  | other extent kind =>
    obtain ⟨cut, begun⟩ := place extent rfl
    obtain rfl := Option.some.inj found
    exact uncommented_otherNode unended split cut.within begun kind

end Sources

namespace Draft

theorem Name.joins (name : Name) (texts : Uncommented name.node) : Joins name.text.toList := by
  have content := texts.peek "name"
  refine ⟨content.of_str, ?_⟩
  obtain ⟨c, tail, characters⟩ := List.exists_cons_of_ne_nil name.readable.word.ne_nil
  obtain ⟨_, slash, _⟩ := name.readable.word.head_notMem characters
  simpa [characters] using slash

theorem Quotation.joins (quotation : Quotation) (texts : Uncommented quotation.node) :
    Joins quotation.raw.toList := by
  have content := texts.peek "raw"
  refine ⟨content.of_str, ?_⟩
  obtain ⟨mark, quotes⟩ := quotation.quotes
  obtain ⟨inner, whole, _⟩ := quotes.whole
  rcases quotes.known with rfl | rfl <;> simp [whole]

theorem Export.joins (exported : Export) (texts : Uncommented exported.node) :
    Joins exported.text.toList := by
  cases exported with
  | default =>
    have word : Joins "default".toList := by decide
    exact word
  | named name => exact name.joins texts
  | quoted quotation => exact quotation.joins texts

theorem Import.joins (item : Import) (texts : Uncommented item.node) : Joins item.text.toList := by
  have imported := item.exported.joins (texts.peek "imported")
  have bound := item.localName.joins (texts.peek "local")
  rw [Import.text, Emit.renamed]
  split
  · exact imported
  · have between : Joins " as ".toList := by decide
    have text : s!"{item.exported.text} as {item.localName.text}" =
        item.exported.text ++ " as " ++ item.localName.text := rfl
    rw [text, String.toList_append, String.toList_append, List.append_assoc]
    exact imported.append (between.append bound)

theorem joins_names {items : List Import} (texts : ∀ item ∈ items, Uncommented item.node) :
    Joins (namesText items) := by
  induction items with
  | nil => exact .nil
  | cons item others inductionHypothesis =>
    obtain ⟨here, later⟩ := List.forall_mem_cons.mp texts
    cases others with
    | nil => exact item.joins here
    | cons second others =>
      rw [namesText]
      · exact (item.joins here).append (((inductionHypothesis later).cons (by decide)).cons (by decide))
      · simp

theorem Clause.joins (clause : Clause) (texts : ∀ node ∈ clause.nodes, Uncommented node) :
    Joins (clauseText clause) := by
  cases clause with
  | fallback localName => exact localName.joins ((texts _ List.mem_cons_self).peek "local")
  | whole localName =>
    have bound := localName.joins ((texts _ List.mem_cons_self).peek "local")
    have front : Joins "* as ".toList := by decide
    exact front.append bound
  | names first others =>
    have items := @joins_names (first :: others) fun item membership =>
      texts item.node (List.mem_map_of_mem membership)
    have closing : Joins [' ', '\x7d'] := by decide
    exact ((items.append closing).cons (by decide)).cons (by decide)

theorem joins_attributes {attributes : Option Attributes}
    (texts : ∀ given ∈ attributes, Unended given.text.toList) : Joins (attributesText attributes) := by
  cases attributes with
  | none => exact .nil
  | some attributes =>
    refine Joins.cons ⟨texts attributes rfl, ?_⟩ (by decide)
    simp [Attributes.text]

theorem joins_value {callee : Callee} {argument : Quotation} {member : Option Name}
    (texts : Uncommented (valueNode callee argument member)) :
    Joins (callee.text.toList ++ '(' :: (argument.raw.toList ++ ')' :: memberText member)) := by
  have call : ∀ {rest}, Uncommented (callNode callee argument) → Joins rest →
      Joins (callee.text.toList ++ '(' :: (argument.raw.toList ++ ')' :: rest)) := by
    intro rest texts ends
    have function := Name.joins ⟨callee.text, callee.operand.readable⟩ (texts.peek "callee")
    have given := argument.joins ((texts.peek "arguments").of_arr _ List.mem_cons_self)
    exact function.append ((given.append (ends.cons (by decide))).cons (by decide))
  cases member with
  | none => exact call texts .nil
  | some member => exact call (texts.peek "object") ((member.joins (texts.peek "property")).cons (by decide))

/-- What a draft writes has no end of a comment when its texts have none. -/
theorem joins (draft : Draft) (texts : Uncommented draft.node) : Joins draft.text.toList := by
  have spaced : ∀ {word : String} {rest : List Char}, Joins word.toList → Joins rest →
      Joins (word.toList ++ ' ' :: rest) := fun word rest => word.append (rest.cons (by decide))
  cases draft with
  | importing clause source attributes =>
    have clauses := clause.joins (texts.peek "specifiers").of_arr
    have quoted := source.joins (texts.peek "source")
    have given := @joins_attributes attributes fun given known => by
      obtain rfl : attributes = some given := known
      exact (texts.peek "attributesRaw").of_str
    have semicolon : Joins [';'] := by decide
    rw [importing_written, importingText]
    refine spaced (by decide) (clauses.append ((spaced ?_ (quoted.append (given.append semicolon))).cons
      (by decide)))
    decide
  | requiring binder target callee argument member =>
    have declarator := (texts.peek "declarations").of_arr _ List.mem_cons_self
    have named := target.joins (declarator.peek "id")
    have value := joins_value (declarator.peek "init")
    have keyword : Joins binder.name.toList := by cases binder <;> decide
    have semicolon : Joins [';'] := by decide
    have text : callee.text.toList ++ '(' :: (argument.raw.toList ++ ')' :: (memberText member ++ [';'])) =
        callee.text.toList ++ '(' :: (argument.raw.toList ++ ')' :: memberText member) ++ [';'] := by simp
    rw [requiring_written, declarationText, text]
    exact spaced keyword (named.append ((((value.append semicolon).cons (by decide)).cons
      (by decide)).cons (by decide)))

end Draft

end ImportRedirect.Script
