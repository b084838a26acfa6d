import ImportRedirect.Proofs.Script.Nesting.Statement
import ImportRedirect.Proofs.Script.Placement

/-!
The nodes of a script. Every node that says where it stands starts and ends between two characters,
stands within the node that it is a part of, and gives the text at its place as it is written there.
-/

namespace ImportRedirect

open Script Text

namespace Node

/-- The text of a node that keeps it is the source from one place up to the other. -/
structure Spelled (code : String) (start stop : Nat) (node : Value) : Prop where
  name : hasType node "Identifier" = true → ∃ name, node.peek "name" = .str name ∧
    Utf8.encode name = stretch (Utf8.encode code) start stop
  raw : hasType node "Unparsed" = true → ∃ raw, node.peek "raw" = .str raw ∧
    Utf8.encode raw = stretch (Utf8.encode code) start stop
  quoted : hasType node "Literal" = true → ∃ raw value mark, node.peek "raw" = .str raw ∧
    Utf8.encode raw = stretch (Utf8.encode code) start stop ∧ node.peek "value" = .str value ∧
    (mark = '\'' ∨ mark = '"') ∧ raw.toList = mark :: value.toList ++ [mark]

/-- All nodes of a tree that have a place stand between two others, and their parts within them. -/
inductive Stands (code : String) : Nat → Nat → Value → Prop where
  | placed {low high start stop : Nat} {fields : List (String × Value)}
      (begins : Value.lookup "start" fields = some (.int start))
      (ends : Value.lookup "end" fields = some (.int stop)) (after : low ≤ start)
      (ordered : start ≤ stop) (before : stop ≤ high) (first : Boundary code.toList start)
      (last : Boundary code.toList stop) (spelled : Spelled code start stop (.obj fields))
      (parts : ∀ field ∈ fields, Stands code start stop field.2) : Stands code low high (.obj fields)
  | free {low high : Nat} {fields : List (String × Value)}
      (noStart : Value.lookup "start" fields = none) (noEnd : Value.lookup "end" fields = none)
      (parts : ∀ field ∈ fields, Stands code low high field.2) : Stands code low high (.obj fields)
  | list {low high : Nat} {items : List Value} (each : ∀ item ∈ items, Stands code low high item) :
      Stands code low high (.arr items)
  | null {low high : Nat} : Stands code low high .null
  | bool {low high : Nat} (b : Bool) : Stands code low high (.bool b)
  | int {low high : Nat} (i : Int) : Stands code low high (.int i)
  | str {low high : Nat} (s : String) : Stands code low high (.str s)

end Node

namespace Script

open Node

variable {code : String} {low high : Nat} {extent : Extent}

theorem Extent.Of.boundaries {text : List Char} (cut : extent.Of text) :
    Boundary text extent.start ∧ Boundary text extent.stop := by
  cases cut with
  | @intro before inside after split =>
    refine ⟨⟨before, inside ++ after, split, rfl⟩, ⟨before ++ inside, after, ?_, ?_⟩⟩
    · rw [split, List.append_assoc]
    · rw [byteLength_append]

/-- The text of an extent is what stands between its places. -/
theorem Extent.Of.encode_text (cut : extent.Of code.toList) :
    Utf8.encode extent.text = stretch (Utf8.encode code) extent.start extent.stop := by
  cases cut with
  | @intro before inside after split =>
    have taken : takeBytes (byteLength inside) (inside ++ after) = inside := by
      rw [takeBytes_append (Nat.le_refl _), takeBytes_whole]
    have whole : Utf8.encode code =
        Utf8.encodeChars before ++ (Utf8.encodeChars inside ++ Utf8.encodeChars after) := by
      rw [Utf8.encode, split, Utf8.encodeChars_append, Utf8.encodeChars_append]
    rw [Extent.text, Nat.add_sub_cancel_left, taken, whole, stretch, Nat.add_sub_cancel_left,
      ← length_encodeChars, ← length_encodeChars, List.drop_left, List.take_left, Utf8.encode,
      String.toList_ofList]

theorem stands_located {fields : List (String × Value)} (place : extent.Within code.toList low high)
    (noStart : Value.lookup "start" fields = none) (noEnd : Value.lookup "end" fields = none)
    (spelled : Spelled code extent.start extent.stop (extent.located fields))
    (parts : ∀ field ∈ fields, Stands code extent.start extent.stop field.2) :
    Stands code low high (extent.located fields) := by
  obtain ⟨first, last⟩ := place.cut.boundaries
  refine .placed (Value.lookup_append_of_none noStart _) (Value.lookup_append_of_none noEnd _)
    place.after place.cut.le place.before first last spelled fun field membership => ?_
  rcases List.mem_append.mp membership with membership | membership
  · exact parts field membership
  · have own : field = ("start", .int extent.start) ∨ field = ("end", .int extent.stop) := by
      simpa using membership
    rcases own with rfl | rfl
    · exact .int _
    · exact .int _

/-- A node that keeps no text of its own stands where its parts do. -/
theorem stands_branch {type : String} {fields : List (String × Value)}
    (place : extent.Within code.toList low high) (noStart : Value.lookup "start" fields = none)
    (noEnd : Value.lookup "end" fields = none) (unnamed : type ≠ "Identifier")
    (parsed : type ≠ "Unparsed") (unquoted : type ≠ "Literal")
    (parts : ∀ field ∈ fields, Stands code extent.start extent.stop field.2) :
    Stands code low high (extent.located (("type", .str type) :: fields)) := by
  have kind : hasType (extent.located (("type", .str type) :: fields)) type = true :=
    hasType_iff.mpr (peek_located rfl)
  refine stands_located place (by simpa [Value.lookup] using noStart)
    (by simpa [Value.lookup] using noEnd) ⟨?_, ?_, ?_⟩
    (List.forall_mem_cons.mpr ⟨.str _, parts⟩)
  · exact fun found => absurd found (hasType_ne kind unnamed)
  · exact fun found => absurd found (hasType_ne kind parsed)
  · exact fun found => absurd found (hasType_ne kind unquoted)

section Leaves

variable (place : extent.Within code.toList low high)
include place

theorem stands_nameNode : Stands code low high (nameNode extent) := by
  have kind : hasType (nameNode extent) "Identifier" = true := hasType_iff.mpr (peek_located rfl)
  refine stands_located place rfl rfl ⟨fun _ => ⟨extent.text, peek_located rfl,
    place.cut.encode_text⟩, ?_, ?_⟩ ?_
  · exact fun found => absurd found (hasType_ne kind (by decide))
  · exact fun found => absurd found (hasType_ne kind (by decide))
  · simpa using ⟨.str _, .str _⟩

theorem stands_otherNode (kind : Kind) : Stands code low high (otherNode extent kind) := by
  have type : hasType (otherNode extent kind) "Unparsed" = true := hasType_iff.mpr (peek_located rfl)
  refine stands_located place rfl rfl ⟨?_, fun _ => ⟨extent.text, peek_located rfl,
    place.cut.encode_text⟩, ?_⟩ ?_
  · exact fun found => absurd found (hasType_ne type (by decide))
  · exact fun found => absurd found (hasType_ne type (by decide))
  · simpa using ⟨.str _, .str _, .str _⟩

theorem stands_textNode (quoted : extent.Quoted) : Stands code low high (textNode extent) := by
  obtain ⟨mark, quotes⟩ := quoted
  obtain ⟨inner, characters⟩ := quotes.closed
  have kind : hasType (textNode extent) "Literal" = true := hasType_iff.mpr (peek_located rfl)
  have value : (textNode extent).peek "value" = .str (String.ofList inner) := by
    have between : (extent.text.toList.drop 1).dropLast = inner := by simp [characters]
    rw [← between]
    exact peek_located rfl
  refine stands_located place rfl rfl ⟨?_, ?_, fun _ => ⟨extent.text, String.ofList inner, mark,
    peek_located rfl, place.cut.encode_text, value, quotes.known, ?_⟩⟩ ?_
  · exact fun found => absurd found (hasType_ne kind (by decide))
  · exact fun found => absurd found (hasType_ne kind (by decide))
  · rw [String.toList_ofList, characters]
  · simpa using ⟨.str _, .str _, .str _⟩

end Leaves

theorem stands_expr {expr : Expr} (nested : expr.Nested code.toList low high) :
    Stands code low high expr.node := by
  induction nested with
  | name place => exact stands_nameNode place
  | text place quoted => exact stands_textNode place quoted
  | @call _ _ extent callee arguments optional place _ _ function given =>
    have listed : Stands code extent.start extent.stop (.arr (Expr.nodes arguments)) := by
      refine .list fun node membership => ?_
      obtain ⟨argument, among, rfl⟩ := mem_nodes.mp membership
      exact given argument among
    exact stands_branch place rfl rfl (by decide) (by decide) (by decide)
      (by simpa using ⟨function, listed, .bool _⟩)
  | @member _ _ extent property object optional place _ _ owner =>
    have named : Stands code extent.start extent.stop
        (.obj [("type", .str "Identifier"), ("name", .str property.text)]) :=
      .free rfl rfl (by simpa using ⟨.str _, .str _⟩)
    exact stands_branch place rfl rfl (by decide) (by decide) (by decide)
      (by simpa using ⟨owner, named, .bool _, .bool _⟩)
  | other place => exact stands_otherNode place _

theorem stands_exports {expr : Expr} (exports : expr.Exports code.toList low high) :
    Stands code low high expr.node := by
  cases exports with
  | name named => exact stands_nameNode named.place
  | default place _ => exact stands_nameNode place
  | text place quoted => exact stands_textNode place quoted

theorem stands_binds {expr : Expr} (binds : expr.Binds code.toList low high) :
    Stands code low high expr.node := by
  cases binds with
  | name named => exact stands_nameNode named.place
  | pattern place => exact stands_otherNode place _

theorem stands_specifier {specifier : Specifier}
    (nested : specifier.Nested code.toList low high) : Stands code low high specifier.node := by
  cases nested with
  | whole place bound =>
    exact stands_branch place rfl rfl (by decide) (by decide) (by decide)
      (by simpa using stands_nameNode bound.place)
  | named place exported bound =>
    exact stands_branch place rfl rfl (by decide) (by decide) (by decide)
      (by simpa using ⟨stands_exports exported, stands_nameNode bound.place⟩)
  | fallback bound =>
    exact stands_branch bound.place rfl rfl (by decide) (by decide) (by decide)
      (by simpa using stands_nameNode bound.within.place)

theorem stands_declarator {declarator : Declarator}
    (nested : declarator.Nested code.toList low high) : Stands code low high declarator.node := by
  have value : Stands code declarator.extent.start declarator.extent.stop
      ((declarator.value.map Expr.node).getD .null) := by
    cases given : declarator.value with
    | none => exact .null
    | some expr => exact stands_expr (nested.value expr given)
  exact stands_branch nested.place rfl rfl (by decide) (by decide) (by decide)
    (by simpa using ⟨stands_binds nested.target, value⟩)

theorem stands_statement {statement : Statement} {node : Value}
    (place : ∀ extent ∈ statement.extent?, extent.Within code.toList low high)
    (parts : statement.Parts code.toList) (found : statement.node? = some node) :
    Stands code low high node := by
  cases statement with
  | empty => simp [Statement.node?] at found
  | importing extent specifiers source attributes =>
    have listed : Stands code extent.start extent.stop (.arr (specifiers.map Specifier.node)) := by
      refine .list fun node membership => ?_
      obtain ⟨specifier, among, rfl⟩ := List.mem_map.mp membership
      exact stands_specifier (parts.nested specifier among)
    have source := stands_textNode parts.place parts.quoted
    obtain rfl := Option.some.inj found
    cases attributes with
    | none =>
      exact stands_branch (place extent rfl) rfl rfl (by decide) (by decide) (by decide)
        (by simpa using ⟨listed, source⟩)
    | some attributes =>
      exact stands_branch (place extent rfl) rfl rfl (by decide) (by decide) (by decide)
        (by simpa using ⟨listed, source, .str _⟩)
  | declaration extent binder declarators =>
    have listed : Stands code extent.start extent.stop (.arr (declarators.map Declarator.node)) := by
      refine .list fun node membership => ?_
      obtain ⟨declarator, among, rfl⟩ := List.mem_map.mp membership
      exact stands_declarator (parts declarator among)
    obtain rfl := Option.some.inj found
    exact stands_branch (place extent rfl) rfl rfl (by decide) (by decide) (by decide)
      (by simpa using ⟨.str _, listed⟩)
  | other extent kind =>
    obtain rfl := Option.some.inj found
    exact stands_otherNode (place extent rfl) kind

theorem size_of_parse {tree : Tree} (parsed : parse code = .ok tree) :
    tree.size = (Utf8.encode code).length := by
  unfold parse at parsed
  dsimp only at parsed
  split at parsed
  · simp at parsed
  · obtain rfl := Except.ok.inj parsed
    exact (length_encodeChars _).symm

theorem stands_of_parse {tree : Tree} (parsed : parse code = .ok tree) :
    Stands code 0 (Utf8.encode code).length tree.program := by
  have size := size_of_parse parsed
  have bytes : (Utf8.encode code).length = byteLength code.toList := length_encodeChars _
  have whole : Extent.Within code.toList 0 (Utf8.encode code).length
      ⟨0, code.toList, tree.size⟩ := by
    refine ⟨?_, Nat.le_refl _, Nat.le_of_eq size⟩
    have all := @Extent.Of.intro code.toList [] code.toList [] (by simp)
    rw [size, bytes]
    simpa using all
  have body : Stands code 0 tree.size (.arr tree.body) := by
    rw [size]
    refine .list fun node membership => ?_
    obtain ⟨statement, among, found⟩ := List.mem_filterMap.mp membership
    obtain ⟨cut, parts⟩ := parts_of_parse parsed statement among
    refine stands_statement (fun extent place => ⟨cut extent place, Nat.zero_le _, ?_⟩) parts found
    exact (cut extent place).boundaries.2.le_length
  have located : tree.program = Extent.located ⟨0, code.toList, tree.size⟩
      [("type", .str "Program"), ("sourceType", .str "module"), ("body", .arr tree.body)] := rfl
  rw [located]
  exact stands_branch whole rfl rfl (by decide) (by decide) (by decide)
    (by simpa using ⟨.str _, body⟩)

/-- Statements that are placed one after the other have places that do not overlap. -/
theorem spans_of_placed {text : List Char} {cursor : Nat} {body : List Value}
    (placed : Emit.Placed text cursor body) :
    ∃ spans : List (Nat × Nat),
      body.map (fun node => (node.peek "start", node.peek "end")) =
        spans.map (fun span => (.int span.1, .int span.2)) ∧
      (∀ span ∈ spans, cursor ≤ span.1 ∧ span.1 < span.2 ∧ Boundary text span.2) ∧
      spans.Pairwise fun first second => first.2 ≤ second.1 := by
  induction placed with
  | nil => exact ⟨[], rfl, by simp, .nil⟩
  | @cons cursor start stop node rest _ begins ends ordered nonempty _ remaining inductionHypothesis =>
    obtain ⟨spans, places, each, apart⟩ := inductionHypothesis
    refine ⟨(start, stop) :: spans, by simp [begins, ends, places], ?_, ?_⟩
    · refine List.forall_mem_cons.mpr ⟨⟨ordered, nonempty, remaining.origin⟩, fun span membership => ?_⟩
      obtain ⟨after, some, last⟩ := each span membership
      exact ⟨by omega, some, last⟩
    · exact .cons (fun span membership => (each span membership).1) apart

/-- The statements of a script have places that are not empty, come one after the other and do not
overlap; and all nodes stand, between characters, where they say, each with its own text and within the
one that it is a part of. -/
theorem program_stands {program : Value} (read : Script.program code = .ok program) :
    ∃ (body : List Value) (spans : List (Nat × Nat)),
      program.peek "body" = .arr body ∧ program.peek "start" = .int 0 ∧
      program.peek "end" = .int (Utf8.encode code).length ∧
      body.map (fun node => (node.peek "start", node.peek "end")) =
        spans.map (fun span => (.int span.1, .int span.2)) ∧
      (∀ span ∈ spans, span.1 < span.2 ∧ span.2 ≤ (Utf8.encode code).length) ∧
      (spans.Pairwise fun first second => first.1 < second.1 ∧ first.2 ≤ second.1) ∧
      Stands code 0 (Utf8.encode code).length program := by
  unfold Script.program at read
  split at read
  · next tree parsed =>
    obtain rfl := Except.ok.inj read
    obtain ⟨spans, places, each, apart⟩ := spans_of_placed (placed_of_parse parsed)
    refine ⟨tree.body, spans, rfl, rfl, ?_, places, fun span membership => ?_, ?_,
      stands_of_parse parsed⟩
    · rw [← size_of_parse parsed]
      rfl
    · exact ⟨(each span membership).2.1, (each span membership).2.2.le_length⟩
    · refine apart.imp_of_mem fun {first second} membership _ ordered => ⟨?_, ordered⟩
      exact Nat.lt_of_lt_of_le (each first membership).2.1 ordered
  · cases read

/-- An import after a comment, and a declaration with neither spaces nor a semicolon behind it. -/
theorem program_stands_sample :
    let code := "/*é*/import _,{map as ü}from'lodash'\nvar{é}=require(\"a\").b,x=1"
    ∃ program, Script.program code = .ok program ∧
      ∃ (body : List Value) (spans : List (Nat × Nat)),
        program.peek "body" = .arr body ∧ program.peek "start" = .int 0 ∧
        program.peek "end" = .int (Utf8.encode code).length ∧
        body.map (fun node => (node.peek "start", node.peek "end")) =
          spans.map (fun span => (.int span.1, .int span.2)) ∧
        (∀ span ∈ spans, span.1 < span.2 ∧ span.2 ≤ (Utf8.encode code).length) ∧
        (spans.Pairwise fun first second => first.1 < second.1 ∧ first.2 ≤ second.1) ∧
        Stands code 0 (Utf8.encode code).length program := by
  intro code
  have reads : (Script.program code).toOption.isSome = true := by decide +kernel
  cases read : Script.program code with
  | error fault => simp [read, Except.toOption] at reads
  | ok program => exact ⟨program, rfl, program_stands read⟩

end Script

end ImportRedirect
