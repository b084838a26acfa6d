import ImportRedirect.Proofs.Emit.Splice

/-!
Splicing as a law about texts. An edited list of statements has a block of statements in the place of
each statement that was there, and statements without a place between the blocks. The spliced text has
the printed block in each place, the bytes that were there where the block keeps its statement, and the
statements without a place on lines of their own after what precedes them.
-/

namespace ImportRedirect.Emit

open Node Script Text

/-- A part of an edited list: the block that a statement gave way to, or a statement without a place. -/
inductive Part where
  | block (node : Value) (statements : List Value)
  | loose (statement : Value)

/-- What is printed of a statement. -/
def printed (node : Value) : String :=
  match statement node with
  | .ok (.str text) => text
  | _ => ""

/-- A place that a statement names, counted in bytes. -/
def placeIn (node : Value) (key : String) : Nat :=
  match node.peek key with
  | .int place => place.toNat
  | _ => 0

namespace Part

/-- The statements before the edit. -/
def before : Part → List Value
  | .block node _ => [node]
  | .loose _ => []

/-- The statements after the edit. -/
def after : Part → List Value
  | .block _ statements => statements
  | .loose statement => [statement]

/-- The statements of a block stand where their statement stood, and all but one that is kept can be
printed; those between the blocks can be printed and say nothing of a start or of an end. -/
inductive Fits : Part → Prop where
  | block {node : Value} {statements : List Value} (some : statements ≠ [])
      (place : ∀ statement ∈ statements, SamePlace statement node)
      (printed : keeps node statements = false →
        ∀ statement ∈ statements, Printed (Emit.statement statement)) : Fits (.block node statements)
  | loose {statement : Value} (record : statement.IsRecord)
      (apart : statement.peek "start" = .null ∨ statement.peek "end" = .null)
      (printed : Printed (Emit.statement statement)) : Fits (.loose statement)

end Part

def before (parts : List Part) : List Value := parts.flatMap Part.before

def after (parts : List Part) : List Value := parts.flatMap Part.after

/-- The bytes of a text from a place on, after the edit. -/
def edited (bytes : List UInt8) : Nat → List Part → List UInt8
  | cursor, [] => bytes.drop cursor
  | cursor, .loose statement :: parts =>
    Utf8.encode ("\n" ++ printed statement) ++ edited bytes cursor parts
  | cursor, .block node statements :: parts =>
    let start := placeIn node "start"
    let stop := placeIn node "end"
    stretch bytes cursor start ++
      (if keeps node statements then stretch bytes start stop
        else Utf8.encode ("\n".intercalate (statements.map printed))) ++
      edited bytes stop parts

theorem statement_printed {node : Value} (prints : Printed (statement node)) :
    statement node = .ok (.str (printed node)) := by
  obtain ⟨text, result⟩ := prints
  rw [printed, result]

theorem lines_printed {nodes : List Value}
    (prints : ∀ node ∈ nodes, Printed (statement node)) :
    lines nodes = .ok ("\n".intercalate (nodes.map printed)) := by
  apply lines_of_mapM
  rw [mapM_eq_ok fun node membership => statement_printed (prints node membership), List.map_map]
  rfl

section Loose

variable {span : Span} {statement : Value} {parts : List Part}

theorem span_of_isRecord (record : statement.IsRecord) :
    Span.of statement = .ok ⟨statement.peek "start", statement.peek "end"⟩ := by
  rw [Span.of, Value.get_of_isRecord record, Value.get_of_isRecord record]
  rfl

theorem isOpen_iff : span.isOpen = true ↔ span.start = .null ∨ span.stop = .null := by
  simp [Span.isOpen]

@[simp] theorem same_null_int (i : Int) : Value.null.same (.int i) = false := by
  simp [Value.same, Value.numeral]

@[simp] theorem same_int_null (i : Int) : (Value.int i).same .null = false := by
  simp [Value.same, Value.numeral]

theorem same_between_of_isOpen {start stop : Nat} (opened : span.isOpen = true) :
    span.same (between start stop) = false ∧ (between start stop).same span = false := by
  obtain ⟨first, last⟩ := span
  rcases isOpen_iff.mp opened with rfl | rfl
  · simp [Span.same, between]
  · simp [Span.same, between]

/-- Only statements without a place are taken together with one of them. -/
theorem takeGroup_loose (opened : span.isOpen = true) (fits : ∀ part ∈ parts, part.Fits)
    {text : List Char} {cursor : Nat} (places : Placed text cursor (before parts)) :
    ∃ group rest, takeGroup span (after parts) = .ok (group, after rest) ∧
      parts = group.map .loose ++ rest := by
  induction parts with
  | nil => exact ⟨[], [], rfl, rfl⟩
  | cons part parts inductionHypothesis =>
    have others := fun other membership => fits other (List.mem_cons_of_mem part membership)
    cases fits part (by simp) with
    | @loose statement record apart prints =>
      have split : after (.loose statement :: parts) = statement :: after parts := rfl
      rw [split, takeGroup, span_of_isRecord record, ok_bind]
      split
      · obtain ⟨group, rest, taken, rfl⟩ := inductionHypothesis others places
        rw [taken]
        exact ⟨statement :: group, rest, rfl, rfl⟩
      · exact ⟨[], .loose statement :: parts, rfl, rfl⟩
    | @block node statements some place prints =>
      obtain ⟨first, more, rfl⟩ := List.exists_cons_of_ne_nil some
      have split : after (.block node (first :: more) :: parts) = first :: (more ++ after parts) := rfl
      have listed : node ∈ before (.block node (first :: more) :: parts) := List.mem_cons_self
      obtain ⟨start, stop, begins, ends, _⟩ := places.mem listed
      have here := place first (by simp)
      rw [split, takeGroup, span_of_placed (here.start.trans begins) (here.stop.trans ends), ok_bind,
        if_neg (by simp [(same_between_of_isOpen opened).1])]
      exact ⟨[], .block node (first :: more) :: parts, rfl, rfl⟩

/-- The statement after a block has another span. -/
theorem apart_of_fits {text : List Char} {start stop : Nat} (fits : ∀ part ∈ parts, part.Fits)
    (ordered : start < stop) (places : Placed text stop (before parts)) :
    ∀ statement ∈ (after parts).head?, ∃ other, Span.of statement = .ok other ∧
      (between start stop).same other = false := by
  cases parts with
  | nil => exact fun statement first => nomatch first
  | cons part parts =>
    intro statement first
    cases fits part (by simp) with
    | loose record apart =>
      obtain rfl := Option.some.inj first
      exact ⟨_, span_of_isRecord record, (same_between_of_isOpen (isOpen_iff.mpr apart)).2⟩
    | @block node statements some place =>
      obtain ⟨head, more, rfl⟩ := List.exists_cons_of_ne_nil some
      obtain rfl := Option.some.inj first
      have listed : node ∈ before (.block node (head :: more) :: parts) := List.mem_cons_self
      obtain ⟨otherStart, otherStop, begins, ends, beyond⟩ := places.mem listed
      have here := place head (by simp)
      refine ⟨_, span_of_placed (here.start.trans begins) (here.stop.trans ends), ?_⟩
      rw [← Bool.not_eq_true, same_between]
      omega

end Loose

section Walk

variable {text : List Char} {known : List (Span × Value)} {cursor n : Nat} {statement : Value}
  {group : List Value} {parts rest : List Part}

theorem encode_append (first second : String) :
    Utf8.encode (first ++ second) = Utf8.encode first ++ Utf8.encode second := by
  rw [Utf8.encode, String.toList_append, Utf8.encodeChars_append]
  rfl

/-- Statements without a place that stand together are printed on lines of their own. -/
theorem edited_loose (bytes : List UInt8) (cursor : Nat) (statement : Value) (group : List Value)
    (rest : List Part) :
    edited bytes cursor (.loose statement :: (group.map .loose ++ rest)) =
      Utf8.encode ("\n" ++ "\n".intercalate ((statement :: group).map printed)) ++
        edited bytes cursor rest := by
  induction group generalizing statement with
  | nil => simp [edited]
  | cons second group inductionHypothesis =>
    have joined : "\n" ++ "\n".intercalate ((statement :: second :: group).map printed) =
        ("\n" ++ printed statement) ++
          ("\n" ++ "\n".intercalate ((second :: group).map printed)) := by
      simp [String.intercalate_cons_cons, String.append_assoc]
    rw [edited, List.map_cons, List.cons_append, inductionHypothesis, joined,
      encode_append ("\n" ++ printed statement), List.append_assoc]

/-- One step of the walk, over statements without a place. -/
theorem spliceFrom_loose {bytes edit : List UInt8} {left : List Value} {span : Span}
    (place : Span.of statement = .ok span) (opened : span.isOpen = true)
    (taken : takeGroup span left = .ok (group, after rest))
    (prints : ∀ node ∈ statement :: group, Printed (Emit.statement node))
    (remaining : spliceFrom bytes known n (.int cursor) (after rest) = .ok edit) :
    spliceFrom bytes known (n + 1) (.int cursor) (statement :: left) =
      .ok (Utf8.encode ("\n" ++ "\n".intercalate ((statement :: group).map printed)) ++ edit) := by
  rw [spliceFrom, place, ok_bind, taken, ok_bind]
  dsimp only
  rw [if_pos opened, lines_printed prints, ok_bind, remaining]
  rfl

theorem placeIn_of_peek {node : Value} {key : String} {place : Nat}
    (found : node.peek key = .int place) : placeIn node key = place := by
  rw [placeIn, found]
  exact Int.toNat_natCast place

/-- The block of a statement is a block of characters, kept or printed. -/
theorem block_printed {node : Value} {statements : List Value} {start stop : Nat}
    (prints : keeps node statements = false →
      ∀ statement ∈ statements, Printed (Emit.statement statement))
    (first : Boundary text start) (last : Boundary text stop) (ordered : start ≤ stop) :
    ∃ characters, (if keeps node statements then
        bytesBetween (Utf8.encodeChars text) (.int start) (.int stop)
      else (lines statements).map Utf8.encode) = .ok (Utf8.encodeChars characters) ∧
      Utf8.encodeChars characters =
        if keeps node statements then stretch (Utf8.encodeChars text) start stop
        else Utf8.encode ("\n".intercalate (statements.map printed)) := by
  cases kept : keeps node statements with
  | true =>
    obtain ⟨characters, whole⟩ := first.stretch last ordered
    refine ⟨characters, ?_, whole.symm⟩
    rw [if_pos rfl, bytesBetween_of_le first.le_length last.le_length, whole]
  | false =>
    refine ⟨("\n".intercalate (statements.map printed)).toList, ?_, rfl⟩
    rw [if_neg Bool.false_ne_true, lines_printed (prints kept)]
    rfl

/-- The walk over the statements after an edit. -/
theorem spliceFrom_parts (places : Placed text cursor (before parts))
    (fits : ∀ part ∈ parts, part.Fits)
    (found : ∀ node ∈ before parts, ∀ start stop : Nat, node.peek "start" = .int start →
      node.peek "end" = .int stop →
      ∃ span, known.find? (fun entry => entry.1.same (between start stop)) = some (span, node))
    (enough : (after parts).length ≤ n) :
    ∃ characters, spliceFrom (Utf8.encodeChars text) known n (.int cursor) (after parts) =
        .ok (Utf8.encodeChars characters) ∧
      Utf8.encodeChars characters = edited (Utf8.encodeChars text) cursor parts := by
  -- A step of the walk may take several parts at once, and the parts that are left are fewer.
  induction length : parts.length using Nat.strongRecOn generalizing parts cursor n with
  | ind count inductionHypothesis =>
  subst length
  cases parts with
  | nil =>
    obtain ⟨characters, whole⟩ := places.origin.drop
    refine ⟨characters, ?_, whole.symm⟩
    rw [after, List.flatMap_nil, spliceFrom, bytesFrom_of_le places.origin.le_length, whole]
  | cons part parts =>
    have others := fun other membership => fits other (List.mem_cons_of_mem part membership)
    cases fits part (by simp) with
    | @loose statement record apart prints =>
      have split : after (.loose statement :: parts) = statement :: after parts := rfl
      obtain ⟨n, rfl⟩ : ∃ fewer, n = fewer + 1 :=
        ⟨n - 1, by rw [split, List.length_cons] at enough; omega⟩
      have opened : Span.isOpen ⟨statement.peek "start", statement.peek "end"⟩ = true :=
        isOpen_iff.mpr apart
      obtain ⟨group, rest, taken, rfl⟩ := takeGroup_loose opened others places
      have sameBefore : before (.loose statement :: (group.map .loose ++ rest)) = before rest := by
        simp [before, Part.before, List.flatMap_map]
      have sameAfter : after (group.map .loose ++ rest) = group ++ after rest := by
        simp [after, Part.after, List.flatMap_map]
      rw [sameBefore] at places found
      rw [split, sameAfter, List.length_cons, List.length_append] at enough
      have fewer : (after rest).length ≤ n := by omega
      have shorter : rest.length < (Part.loose statement :: (group.map .loose ++ rest)).length := by
        rw [List.length_cons, List.length_append]
        omega
      obtain ⟨characters, walked, same⟩ := inductionHypothesis rest.length shorter places
        (fun other membership => others other (by simp [membership])) found fewer rfl
      have allPrint : ∀ node ∈ statement :: group, Printed (Emit.statement node) := by
        intro node membership
        rcases List.mem_cons.mp membership with rfl | membership
        · exact prints
        · cases others (.loose node) (by simp [membership]) with
          | loose _ _ prints => exact prints
      refine ⟨("\n" ++ "\n".intercalate ((statement :: group).map printed)).toList ++ characters,
        ?_, ?_⟩
      · rw [split, spliceFrom_loose (span_of_isRecord record) opened taken allPrint walked,
          Utf8.encodeChars_append]
        rfl
      · rw [edited_loose, Utf8.encodeChars_append, same]
        rfl
    | @block node statements some place prints =>
      obtain ⟨first, more, rfl⟩ := List.exists_cons_of_ne_nil some
      have split : after (.block node (first :: more) :: parts) = first :: (more ++ after parts) := rfl
      have sameBefore : before (.block node (first :: more) :: parts) = node :: before parts := rfl
      obtain ⟨n, rfl⟩ : ∃ fewer, n = fewer + 1 :=
        ⟨n - 1, by rw [split, List.length_cons] at enough; omega⟩
      rw [sameBefore] at places found
      cases places with
      | @cons _ start stop _ _ origin begins ends ordered nonempty boundary remaining =>
        obtain ⟨span, listed⟩ := found node (by simp) start stop begins ends
        have fewer : (after parts).length ≤ n := by
          rw [split, List.length_cons, List.length_append] at enough
          omega
        obtain ⟨others, continues, same⟩ := inductionHypothesis parts.length (by simp) remaining others
          (fun other membership => found other (by simp [membership])) fewer rfl
        obtain ⟨gap, gapped⟩ := origin.stretch boundary ordered
        obtain ⟨block, replaced, whole⟩ :=
          block_printed prints boundary remaining.origin (Nat.le_of_lt nonempty)
        have here : ∀ statement ∈ first :: more, Span.of statement = .ok (between start stop) :=
          fun statement membership => span_of_placed
            ((place statement membership).start.trans begins)
            ((place statement membership).stop.trans ends)
        have taken : takeGroup (between start stop) (more ++ after parts) = .ok (more, after parts) :=
          takeGroup_of_apart (fun statement membership =>
            ⟨_, here statement (by simp [membership]), same_between.mpr ⟨rfl, rfl⟩⟩)
            (apart_of_fits (fun part membership => fits part (by simp [membership])) nonempty remaining)
        refine ⟨gap ++ block ++ others, ?_, ?_⟩
        · rw [Utf8.encodeChars_append, Utf8.encodeChars_append, ← gapped, split, ← List.cons_append]
          exact spliceFrom_group (here first (by simp)) taken (isUnchanged_eq_keeps listed)
            (bytesBetween_of_le origin.le_length boundary.le_length) replaced continues
        · rw [Utf8.encodeChars_append, Utf8.encodeChars_append, ← gapped, whole, same, edited,
            placeIn_of_peek begins, placeIn_of_peek ends]

end Walk

/-- Splicing follows the edit: each statement gives way to its block, and what has no place is put after
what precedes it. Statements that were not edited leave the text as it was. -/
theorem splice_parts {source : String} {parts : List Part}
    (places : Placed source.toList 0 (before parts)) (fits : ∀ part ∈ parts, part.Fits) :
    (∃ text, splice source (before parts) (after parts) = .ok text ∧
      Utf8.encode text = edited (Utf8.encode source) 0 parts) ∧
    ((∀ node ∈ before parts, node.same node = true) →
      splice source (before parts) (before parts) = .ok source) := by
  constructor
  · obtain ⟨characters, walked, same⟩ := spliceFrom_parts places fits
      (fun node membership start stop begins ends =>
        ⟨_, find?_of_placed places membership begins ends⟩) (Nat.le_refl _)
    have origin : Value.int 0 = .int (0 : Nat) := rfl
    refine ⟨String.ofList characters, ?_, ?_⟩
    · rw [splice, knownStatements_of_placed places, ok_bind, origin, Utf8.encode, walked, ok_bind,
        Utf8.decode_encodeChars]
      rfl
    · rw [Utf8.encode, String.toList_ofList]
      exact same
  · intro self
    have replaces : ∀ node ∈ before parts, Replaces node [node] := by
      intro node membership
      refine ⟨self node membership, ?_, by simp, by simp, ?_, fun changed => absurd rfl changed⟩
      · rintro statement (_ | ⟨_, ⟨⟩⟩)
        exact .rfl
      · rintro statement ⟨⟩ _
        rfl
    obtain ⟨converted, spliced, unchanged⟩ := splice_placed places replaces
    rw [List.flatMap_singleton'] at spliced
    have same := unchanged.unique (spliced_of_unchanged places fun _ _ => rfl)
    rw [List.drop_zero] at same
    have equal : converted = source := Utf8.encode_injective same
    rw [spliced, equal]

/-- A statement of which only the text is known. -/
def verbatim (raw : String) (place : List (String × Value)) : Value :=
  .obj ([("type", .str "Unparsed"), ("raw", .str raw)] ++ place)

/-- Two statements, the first with a letter of two bytes, of which the first is split; statements
without a place stand before them, between them and after them. -/
def splitParts : List Part :=
  let first := [("start", Value.int 0), ("end", .int 3)]
  let second := [("start", Value.int 4), ("end", .int 8)]
  [.loose (verbatim "a;" []),
    .block (verbatim "é;" first) [verbatim "x;" first, verbatim "✓;" first],
    .loose (verbatim "b;" [("start", .int 1)]),
    .block (verbatim "g();" second) [verbatim "g();" second],
    .loose (verbatim "c;" []), .loose (verbatim "d;" [("end", .int 1)])]

theorem splice_parts_multibyte :
    Placed "é;\ng();\n".toList 0 (before splitParts) ∧ (∀ part ∈ splitParts, part.Fits) ∧
      splice "é;\ng();\n" (before splitParts) (after splitParts) =
        .ok "\na;x;\n✓;\nb;\ng();\nc;\nd;\n" ∧
      splice "é;\ng();\n" (before splitParts) (before splitParts) = .ok "é;\ng();\n" := by
  have places : Placed "é;\ng();\n".toList 0 (before splitParts) :=
    .cons ⟨[], _, rfl, rfl⟩ rfl rfl (by decide) (by decide) ⟨[], _, rfl, rfl⟩
      (.cons ⟨['é', ';'], _, rfl, rfl⟩ rfl rfl (by decide) (by decide) ⟨['é', ';', '\n'], _, rfl, rfl⟩
        (.nil ⟨['é', ';', '\n', 'g', '(', ')', ';'], _, rfl, rfl⟩))
  have fits : ∀ part ∈ splitParts, part.Fits := by
    simp only [splitParts, List.forall_mem_cons, List.not_mem_nil, false_implies, implies_true,
      and_true]
    refine ⟨.loose ⟨_, rfl⟩ (.inl rfl) ⟨_, rfl⟩, .block (by simp) ?_ ?_,
      .loose ⟨_, rfl⟩ (.inr rfl) ⟨_, rfl⟩, .block (by simp) ?_ ?_,
      .loose ⟨_, rfl⟩ (.inl rfl) ⟨_, rfl⟩, .loose ⟨_, rfl⟩ (.inl rfl) ⟨_, rfl⟩⟩
    · simp only [List.forall_mem_cons]
      exact ⟨⟨rfl, rfl⟩, ⟨rfl, rfl⟩, by simp⟩
    · simp only [List.forall_mem_cons]
      exact fun _ => ⟨⟨_, rfl⟩, ⟨_, rfl⟩, by simp⟩
    · rintro statement (_ | ⟨_, ⟨⟩⟩)
      exact .rfl
    · rintro changed
      exact absurd changed (by decide)
  obtain ⟨⟨text, spliced, whole⟩, unedited⟩ := splice_parts places fits
  have same : text = "\na;x;\n✓;\nb;\ng();\nc;\nd;\n" := Utf8.encode_injective (whole.trans (by decide))
  exact ⟨places, fits, same ▸ spliced, unedited (by decide)⟩

end ImportRedirect.Emit
