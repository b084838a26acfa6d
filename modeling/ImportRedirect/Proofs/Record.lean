import ImportRedirect.Node

/-!
Records among loosely typed values. Reading a field of a record is total, so what is known of a
record is stated through `peek` and `put`; the partial operations succeed exactly on records and
agree with these two there.
-/

namespace ImportRedirect

/-- A sequence of two steps succeeds when both do. -/
theorem bind_eq_ok {α β : Type} {first : Except Fault α} {next : α → Except Fault β} {result : β} :
    (first >>= next) = .ok result ↔ ∃ middle, first = .ok middle ∧ next middle = .ok result := by
  cases first <;> simp [bind, Except.bind]

theorem ok_bind {α β : Type} (value : α) (next : α → Except Fault β) :
    ((Except.ok value : Except Fault α) >>= next) = next value := rfl

theorem pure_eq_ok {α : Type} (value : α) : (pure value : Except Fault α) = .ok value := rfl

theorem map_eq_ok {α β : Type} {result : Except Fault α} {total : α → β} {mapped : β} :
    result.map total = .ok mapped ↔ ∃ value, result = .ok value ∧ total value = mapped := by
  cases result <;> simp [Except.map]

theorem mapM_eq_ok {α β : Type} {partialMap : α → Except Fault β} {total : α → β} {items : List α}
    (agree : ∀ item ∈ items, partialMap item = .ok (total item)) :
    items.mapM partialMap = .ok (items.map total) := by
  induction items with
  | nil => rfl
  | cons item rest inductionHypothesis =>
    have first := agree item (by simp)
    have others := inductionHypothesis fun other membership => agree other (by simp [membership])
    simp [List.mapM_cons, first, others, ok_bind, pure_eq_ok]

/-- A function that is defined on a list gives results that its total counterpart gives too. -/
theorem mapM_ok_eq {α β : Type} {partialMap : α → Except Fault β} {total : α → β} {items : List α}
    {results : List β}
    (agree : ∀ item ∈ items, ∀ result, partialMap item = .ok result → total item = result)
    (succeeds : items.mapM partialMap = .ok results) : results = items.map total := by
  induction items generalizing results with
  | nil =>
    simp only [List.mapM_nil, pure_eq_ok, Except.ok.injEq] at succeeds
    simp [← succeeds]
  | cons item rest inductionHypothesis =>
    rw [List.mapM_cons] at succeeds
    obtain ⟨first, firstResult, succeeds⟩ := bind_eq_ok.mp succeeds
    obtain ⟨others, otherResults, succeeds⟩ := bind_eq_ok.mp succeeds
    simp only [pure_eq_ok, Except.ok.injEq] at succeeds
    have restAgrees := inductionHypothesis
      (fun other membership => agree other (by simp [membership])) otherResults
    rw [← succeeds, List.map_cons, agree item (by simp) first firstResult, ← restAgrees]

theorem mapM_ok_mem {α β : Type} {partialMap : α → Except Fault β} {items : List α}
    {results : List β} (succeeds : items.mapM partialMap = .ok results) :
    ∀ item ∈ items, ∃ result, partialMap item = .ok result := by
  induction items generalizing results with
  | nil => simp
  | cons item rest inductionHypothesis =>
    rw [List.mapM_cons] at succeeds
    obtain ⟨first, firstResult, succeeds⟩ := bind_eq_ok.mp succeeds
    obtain ⟨others, otherResults, _⟩ := bind_eq_ok.mp succeeds
    intro other membership
    rcases List.mem_cons.mp membership with rfl | membership
    · exact ⟨first, firstResult⟩
    · exact inductionHypothesis otherResults other membership

namespace Value

def IsRecord (v : Value) : Prop := ∃ fields, v = .obj fields

/-- The field of a record; null when it is absent or there is no record. -/
def peek (v : Value) (key : String) : Value :=
  match v with
  | .obj fields => (lookup key fields).getD .null
  | _ => .null

/-- The record with one field set; everything else stays as it is. -/
def put (v : Value) (key : String) (value : Value) : Value :=
  match v with
  | .obj fields => .obj (insert key value fields)
  | _ => v

theorem lookup_append_of_some {key : String} {value : Value} {fields : List (String × Value)}
    (found : lookup key fields = some value) (more : List (String × Value)) :
    lookup key (fields ++ more) = some value := by
  induction fields with
  | nil => simp [lookup] at found
  | cons field rest inductionHypothesis =>
    obtain ⟨name, content⟩ := field
    by_cases here : name = key
    · simpa [lookup, here] using found
    · simp only [lookup, beq_iff_eq, here, if_false, List.cons_append] at found ⊢
      exact inductionHypothesis found

theorem lookup_append_of_none {key : String} {fields : List (String × Value)}
    (absent : lookup key fields = none) (more : List (String × Value)) :
    lookup key (fields ++ more) = lookup key more := by
  induction fields with
  | nil => rfl
  | cons field rest inductionHypothesis =>
    obtain ⟨name, content⟩ := field
    by_cases here : name = key
    · simp [lookup, here] at absent
    · simp only [lookup, beq_iff_eq, here, if_false, List.cons_append] at absent ⊢
      exact inductionHypothesis absent

theorem isRecord_obj (fields : List (String × Value)) : (obj fields).IsRecord := ⟨fields, rfl⟩

theorem IsRecord.put {v : Value} (record : v.IsRecord) (key : String) (value : Value) :
    (v.put key value).IsRecord := by
  obtain ⟨fields, rfl⟩ := record
  exact ⟨insert key value fields, rfl⟩

theorem get_of_isRecord {v : Value} (record : v.IsRecord) (key : String) :
    v.get key = .ok (v.peek key) := by
  obtain ⟨fields, rfl⟩ := record
  rfl

theorem get_eq_ok {v value : Value} {key : String} :
    v.get key = .ok value ↔ v.IsRecord ∧ v.peek key = value := by
  constructor
  · intro found
    cases v <;> simp [get] at found
    exact ⟨isRecord_obj _, found⟩
  · rintro ⟨record, rfl⟩
    exact get_of_isRecord record key

theorem lookup_of_peek {v value : Value} {key : String} (found : v.peek key = value)
    (present : value ≠ .null) : ∃ fields, v = .obj fields ∧ lookup key fields = some value := by
  cases v with
  | obj fields =>
    refine ⟨fields, rfl, ?_⟩
    cases known : lookup key fields with
    | none =>
      rw [peek, known] at found
      exact absurd found.symm present
    | some other =>
      rw [peek, known] at found
      exact congrArg some found
  | _ => exact absurd found.symm present

theorem field_of_peek {v value : Value} {key : String} (found : v.peek key = value)
    (present : value ≠ .null) : v.field key = .ok value := by
  obtain ⟨fields, rfl, known⟩ := lookup_of_peek found present
  simp only [field, known]

theorem setField_of_isRecord {v : Value} (record : v.IsRecord) (key : String) (value : Value) :
    v.setField key value = .ok (v.put key value) := by
  obtain ⟨fields, rfl⟩ := record
  rfl

theorem peek_put_self {v : Value} (record : v.IsRecord) (key : String) (value : Value) :
    (v.put key value).peek key = value := by
  obtain ⟨fields, rfl⟩ := record
  simp [put, peek]

theorem field_put_self {v : Value} (record : v.IsRecord) (key : String) (value : Value) :
    (v.put key value).field key = .ok value := by
  obtain ⟨fields, rfl⟩ := record
  simp [put, field]

theorem peek_put_of_ne {key other : String} (different : other ≠ key) (v value : Value) :
    (v.put key value).peek other = v.peek other := by
  cases v <;> simp [put, peek, lookup_insert_of_ne different]

/-- Characters of a text and names of fields are no records, so records are the parts of a list. -/
theorem eq_arr_of_parts {v : Value} {items : List Value}
    (parts : (v.orElse (.arr [])).parts = .ok items) (nonempty : items ≠ [])
    (records : ∀ item ∈ items, item.IsRecord) : v = .arr items := by
  have noText : ∀ text, str text ∉ items := by
    intro text membership
    obtain ⟨fields, impossible⟩ := records _ membership
    simp at impossible
  cases v with
  | arr values =>
    cases values with
    | nil => simp_all [orElse, isPresent, Value.parts]
    | cons first rest => simpa [orElse, isPresent, Value.parts] using parts
  | str text =>
    exfalso
    by_cases empty : text = ""
    · simp_all [orElse, isPresent, Value.parts]
    · have listed : text.toList.map (fun c => str (String.singleton c)) = items := by
        simpa [orElse, isPresent, empty, Value.parts] using parts
      cases characters : text.toList with
      | nil => simp [characters] at listed; exact nonempty listed
      | cons c rest => exact noText (String.singleton c) (by simp [← listed, characters])
  | obj fields =>
    exfalso
    cases fields with
    | nil => simp_all [orElse, isPresent, Value.parts]
    | cons field rest =>
      have listed : (field :: rest).map (fun entry => str entry.1) = items := by
        simpa [orElse, isPresent, Value.parts] using parts
      exact noText field.1 (by simp [← listed])
  | _ => rw [orElse] at parts; split at parts <;> simp_all [Value.parts]

theorem eq_arr_of_item {v item : Value} (size : (v.orElse (.arr [])).size = .ok 1)
    (found : (v.orElse (.arr [])).item 0 = .ok item) (record : item.IsRecord) :
    v = .arr [item] := by
  obtain ⟨fields, rfl⟩ := record
  cases v with
  | arr values =>
    match values with
    | [] => simp [orElse, isPresent, Value.size] at size
    | [first] => simpa [orElse, isPresent, Value.item] using found
    | first :: second :: rest => simp [orElse, isPresent, Value.size] at size
  | str text =>
    by_cases empty : text = ""
    · simp [orElse, isPresent, empty, Value.size] at size
    · cases characters : text.toList <;> simp [orElse, isPresent, empty, Value.item, characters] at found
  | obj entries =>
    cases entries with
    | nil => simp [orElse, isPresent, Value.size] at size
    | cons entry rest => simp [orElse, isPresent, Value.item] at found
  | _ => rw [orElse] at size; split at size <;> simp [Value.size] at size

theorem orElse_arr_singleton (item : Value) : (arr [item]).orElse (.arr []) = .arr [item] := rfl

theorem size_arr_singleton (item : Value) : (arr [item]).size = .ok 1 := rfl

theorem item_arr_cons (first : Value) (rest : List Value) :
    (arr (first :: rest)).item 0 = .ok first := rfl

theorem put_put (v : Value) (key : String) (first second : Value) :
    (v.put key first).put key second = v.put key second := by
  cases v with
  | obj fields =>
    simp only [put, obj.injEq]
    induction fields with
    | nil => simp [insert]
    | cons field rest inductionHypothesis =>
      obtain ⟨k, w⟩ := field
      by_cases same : k = key <;> simp [insert, same, inductionHypothesis]
  | _ => rfl

theorem insert_of_lookup {key : String} {value : Value} {fields : List (String × Value)}
    (there : lookup key fields = some value) : insert key value fields = fields := by
  induction fields with
  | nil => simp [lookup] at there
  | cons field rest inductionHypothesis =>
    obtain ⟨name, content⟩ := field
    by_cases same : name = key
    · simpa [insert, lookup, same, eq_comm] using there
    · simp only [lookup, beq_iff_eq, same, if_false] at there
      simp [insert, same, inductionHypothesis there]

/-- Two fields are set in any order when one of them is there already. -/
theorem insert_comm {key other : String} (different : key ≠ other) {fields : List (String × Value)}
    (there : lookup key fields ≠ none) (value content : Value) :
    insert key value (insert other content fields) =
      insert other content (insert key value fields) := by
  induction fields with
  | nil => simp [lookup] at there
  | cons field rest inductionHypothesis =>
    obtain ⟨name, old⟩ := field
    by_cases same : name = key
    · simp [insert, same, different]
    · simp only [lookup, beq_iff_eq, same, if_false] at there
      by_cases otherSame : name = other
      · simp [insert, otherSame, different.symm]
      · simp [insert, same, otherSame, inductionHypothesis there]

/-- Setting a field to what it holds changes nothing. -/
theorem put_of_peek {v value : Value} {key : String} (there : v.peek key = value)
    (present : value ≠ .null) : v.put key value = v := by
  obtain ⟨fields, rfl, known⟩ := lookup_of_peek there present
  rw [put, insert_of_lookup known]

theorem put_comm {v : Value} {key other : String} (different : key ≠ other)
    (there : v.peek key ≠ .null) (value content : Value) :
    (v.put other content).put key value = (v.put key value).put other content := by
  obtain ⟨fields, rfl, known⟩ := lookup_of_peek rfl there
  have found : lookup key fields ≠ none := by simp [known]
  simp only [put, insert_comm different found]

theorem isPresent_iff_ne_empty (text : String) : (str text).isPresent = true ↔ text ≠ "" := by
  simp [isPresent]

theorem getD_of_peek {v value : Value} {key : String} (found : v.peek key = value)
    (present : value ≠ .null) (default : Value) : v.getD key default = .ok value := by
  obtain ⟨fields, rfl, known⟩ := lookup_of_peek found present
  simp only [getD, known, Option.getD_some]

theorem getD_of_isRecord {v : Value} (record : v.IsRecord) (key : String) (default : Value) :
    ∃ value, v.getD key default = .ok value := by
  obtain ⟨fields, rfl⟩ := record
  exact ⟨_, rfl⟩

theorem ne_null_of_isPresent {v : Value} (present : v.isPresent = true) : v ≠ .null := by
  rintro rfl
  simp [isPresent] at present

theorem depth_of_isRecord {v : Value} (record : v.IsRecord) : ∃ depth, v.depth = depth + 1 := by
  obtain ⟨fields, rfl⟩ := record
  exact ⟨_, rfl⟩

theorem depth_peek_lt {v : Value} (record : v.IsRecord) (key : String) :
    (v.peek key).depth < v.depth := by
  obtain ⟨fields, rfl⟩ := record
  rw [depth, Nat.lt_succ_iff]
  induction fields with
  | nil => exact Nat.zero_le _
  | cons field rest inductionHypothesis =>
    obtain ⟨name, content⟩ := field
    by_cases here : name = key
    · simp only [peek, lookup, here, beq_self_eq_true, if_true, Option.getD_some]
      exact Nat.le_max_left _ _
    · simp only [peek, lookup, beq_iff_eq, here, if_false] at inductionHypothesis ⊢
      exact Nat.le_trans inductionHypothesis (Nat.le_max_right _ _)

end Value

namespace Node

open Value

theorem type_eq_peek (node : Value) : Node.type node = node.peek "type" := by
  cases node <;> rfl

theorem hasType_iff {node : Value} {name : String} :
    hasType node name = true ↔ node.peek "type" = .str name := by
  simp [hasType, type_eq_peek]

/-- No node has two types. -/
theorem hasType_ne {node : Value} {name other : String} (kind : hasType node name = true)
    (different : name ≠ other) : ¬ hasType node other = true := by
  rw [hasType_iff] at kind ⊢
  simp [kind, different]

theorem isRecord_of_hasType {node : Value} {name : String} (kind : hasType node name = true) :
    node.IsRecord := by
  rw [hasType_iff] at kind
  cases node <;> simp [peek] at kind
  exact isRecord_obj _

theorem hasType_put_of_ne {key : String} (different : "type" ≠ key) (node value : Value)
    (name : String) : hasType (node.put key value) name = hasType node name := by
  simp [hasType, type_eq_peek, peek_put_of_ne different]

theorem text?_eq_some {node : Value} {text : String} :
    text? node = some text ↔ hasType node "Literal" = true ∧ node.peek "value" = .str text := by
  cases node with
  | obj fields =>
    simp only [text?, peek]
    by_cases kind : hasType (.obj fields) "Literal" = true
    · cases known : lookup "value" fields with
      | none => simp [kind]
      | some value => cases value <;> simp [kind]
    · simp [kind]
  | _ => simp [text?, peek]

theorem name_eq (node : Value) :
    Node.name node = if hasType node "Identifier" then node.peek "name" else .null := by
  cases node <;> simp [name, peek]

/-- The text of a quoted text is replaced, and its quotes are kept. -/
def retext (literal : Value) (text : String) (quote : Char) : Value :=
  (literal.put "value" (.str text)).put "raw" (.str (quoteText text quote))

theorem setText_of_isRecord {literal : Value} (record : literal.IsRecord) (text : String) :
    setText literal text =
      (quoteOf (literal.peek "raw")).map fun quote => retext literal text quote := by
  simp only [setText, get_of_isRecord record, ok_bind]
  cases quoteOf (literal.peek "raw") with
  | error fault => rfl
  | ok quote =>
    simp only [ok_bind, setField_of_isRecord record, setField_of_isRecord (record.put _ _)]
    rfl

theorem text?_retext {literal : Value} (kind : hasType literal "Literal" = true) (text : String)
    (quote : Char) : text? (retext literal text quote) = some text := by
  have record := isRecord_of_hasType kind
  rw [text?_eq_some]
  constructor
  · rw [retext, hasType_put_of_ne (by decide), hasType_put_of_ne (by decide)]
    exact kind
  · rw [retext, peek_put_of_ne (by decide), peek_put_self record]

theorem text?_setText {literal changed : Value} {text : String} (isText : ∃ old, text? literal = some old)
    (succeeds : setText literal text = .ok changed) : text? changed = some text := by
  obtain ⟨old, isText⟩ := isText
  have kind := (text?_eq_some.mp isText).1
  rw [setText_of_isRecord (isRecord_of_hasType kind)] at succeeds
  cases quotes : quoteOf (literal.peek "raw") with
  | error fault => simp [quotes, Except.map] at succeeds
  | ok quote =>
    simp only [quotes, Except.map, Except.ok.injEq] at succeeds
    rw [← succeeds]
    exact text?_retext kind text quote

def exportName (specifier : Value) : Value :=
  ((Node.name (specifier.peek "imported")).orElse
    (.ofOption (text? (specifier.peek "imported")))).orElse (.str "")

theorem importedNameD_of_isRecord {specifier : Value} (record : specifier.IsRecord) :
    importedNameD specifier = .ok (exportName specifier) := by
  simp [importedNameD, importedName, get_of_isRecord record, ok_bind, pure_eq_ok, exportName]

end Node

end ImportRedirect
