import ImportRedirect.Proofs.Script.Finding
import ImportRedirect.Proofs.Text.Stretch

/-!
The parts of a script stand where they say, in whole characters, and each of them within the part that
it belongs to. Most of what is read is known by its kind and its place alone, and for that it is enough
that reading goes forward; calls, members, imports and declarations are looked into.
-/

namespace ImportRedirect.Script

variable {text : List Char} {low high : Nat}

/-- Some characters that follow each other in the text, with the places where they begin and end. -/
inductive Extent.Of (text : List Char) : Extent → Prop where
  | intro {before inside after : List Char} (split : text = before ++ (inside ++ after)) :
      Of text ⟨byteLength before, inside ++ after, byteLength before + byteLength inside⟩

/-- The extent stands between two places. -/
structure Extent.Within (text : List Char) (low high : Nat) (extent : Extent) : Prop where
  cut : extent.Of text
  after : low ≤ extent.start
  before : extent.stop ≤ high

theorem Extent.Within.wider {extent : Extent} {lower higher : Nat}
    (within : extent.Within text low high) (front : lower ≤ low) (back : high ≤ higher) :
    extent.Within text lower higher :=
  ⟨within.cut, Nat.le_trans front within.after, Nat.le_trans within.before back⟩

theorem Extent.Of.within {extent : Extent} (cut : extent.Of text) :
    extent.Within text extent.start extent.stop := ⟨cut, Nat.le_refl _, Nat.le_refl _⟩

/-- The characters are a quoted text, wherever they are written. -/
def Extent.Quoted (extent : Extent) : Prop := ∃ mark, Quotes extent.text.toList mark

/-- A name between two places, which is one wherever it is written. -/
structure Extent.Named (text : List Char) (low high : Nat) (extent : Extent) : Prop where
  place : extent.Within text low high
  readable : Readable extent.text

theorem Extent.Named.wider {extent : Extent} {lower higher : Nat}
    (named : extent.Named text low high) (front : lower ≤ low) (back : high ≤ higher) :
    extent.Named text lower higher :=
  ⟨named.place.wider front back, named.readable⟩

theorem Extent.Named.within {extent : Extent} (named : extent.Named text low high) :
    extent.Named text extent.start extent.stop := ⟨named.place.cut.within, named.readable⟩

/-- A name that stands for a value by itself. -/
structure Operand (word : String) : Prop where
  readable : Readable word
  plain : word ≠ "undefined" ∧ word ≠ "await" ∧ word ≠ "yield"

/-- The parts of an expression stand within it. -/
inductive Expr.Nested (text : List Char) : Nat → Nat → Expr → Prop where
  | name {low high : Nat} {extent : Extent} (place : extent.Within text low high)
      (operand : Operand extent.text) : Nested text low high (.name extent)
  | text {low high : Nat} {extent : Extent} (place : extent.Within text low high)
      (quoted : extent.Quoted) : Nested text low high (.text extent)
  | call {low high : Nat} {extent : Extent} {callee : Expr} {arguments : List Expr} {optional : Bool}
      (place : extent.Within text low high) (function : Nested text extent.start extent.stop callee)
      (given : ∀ argument ∈ arguments, Nested text extent.start extent.stop argument) :
      Nested text low high (.call extent callee arguments optional)
  | member {low high : Nat} {extent property : Extent} {object : Expr} {optional : Bool}
      (place : extent.Within text low high) (owner : Nested text extent.start extent.stop object)
      (asked : property.Within text extent.start extent.stop) :
      Nested text low high (.member extent object property optional)
  | other {low high : Nat} {extent : Extent} {kind : Kind} (place : extent.Within text low high) :
      Nested text low high (.other extent kind)

theorem Expr.Nested.wider {expr : Expr} {lower higher : Nat} (nested : expr.Nested text low high)
    (front : lower ≤ low) (back : high ≤ higher) : expr.Nested text lower higher := by
  cases nested with
  | name place operand => exact .name (place.wider front back) operand
  | text place quoted => exact .text (place.wider front back) quoted
  | call place function given => exact .call (place.wider front back) function given
  | member place owner asked => exact .member (place.wider front back) owner asked
  | other place => exact .other (place.wider front back)

theorem Expr.Nested.place {expr : Expr} (nested : expr.Nested text low high) :
    expr.extent.Within text low high := by
  cases nested <;> assumption

theorem Extent.Of.le {extent : Extent} (cut : extent.Of text) : extent.start ≤ extent.stop := by
  cases cut
  exact Nat.le_add_right _ _

theorem Expr.Nested.le {expr : Expr} (nested : expr.Nested text low high) : low ≤ high :=
  Nat.le_trans nested.place.after (Nat.le_trans nested.place.cut.le nested.place.before)

namespace Cursor

theorem Leads.reached_mono {c d : Cursor} (front : (start text).Leads c) (leads : c.Leads d) :
    c.reached ≤ d.reached := (leads.reached_le front.reached_le_offset).1

/-- Of two cursors in the text, the last token before the second one ended after the first. -/
structure Since (text : List Char) (first c : Cursor) : Prop where
  begins : (start text).Leads first
  leads : (start text).Leads c
  reached : first.offset ≤ c.reached

namespace Since

variable {first c d : Cursor}

theorem later (since : Since text first c) (leads : c.Leads d) : Since text first d where
  begins := since.begins
  leads := since.leads.trans leads
  reached := Nat.le_trans since.reached (since.leads.reached_mono leads)

theorem offset_le (since : Since text first c) : first.offset ≤ c.offset :=
  Nat.le_trans since.reached since.leads.reached_le_offset

/-- What stands from the one cursor up to the last token before the other. -/
theorem within (since : Since text first c) :
    Extent.Within text first.offset c.reached ⟨first.offset, first.rest, c.reached⟩ := by
  obtain ⟨before, characters, bytes⟩ := since.begins.passed
  obtain ⟨longer, others, again, place⟩ := since.leads.boundary_reached
  have begun : first.offset = byteLength before := by simpa [start] using bytes
  obtain ⟨inside, rfl, rest⟩ := eq_append_of_le (characters.symm.trans again)
    (begun ▸ place ▸ since.reached)
  refine ⟨?_, Nat.le_refl _, Nat.le_refl _⟩
  rw [begun, place, rest, byteLength_append]
  exact .intro (by rw [again, List.append_assoc])

end Since

variable {origin c : Cursor}

/-- Once the token ahead was passed. -/
theorem Beyond.since (beyond : c.Beyond (origin.tokenAfter 0).offset)
    (front : (start text).Leads origin) (leads : origin.Leads c) :
    Since text (origin.tokenAfter 0) c :=
  ⟨front.trans (origin.leads_tokenAfter 0), front.trans leads, Nat.le_of_lt beyond.passed⟩

end Cursor

namespace Scan

open Cursor

variable {α β : Type} {first origin : Cursor}

theorem ensures_passing {scan : Scan α} {next : α → Scan β} {post : β → Cursor → Prop}
    (front : (start text).Leads origin) (passes : scan.Passes origin)
    (ensures : ∀ a c, Since text (origin.tokenAfter 0) c → (next a).Ensures c post) :
    (scan >>= next).Ensures origin post := by
  rw [ensures_bind]
  exact Ensures.mono passes fun a c leads beyond => ensures a c (beyond.since front leads)

theorem ensures_since {scan : Scan α} {next : α → Scan β} {post : β → Cursor → Prop}
    (since : Since text first origin)
    (ensures : ∀ a c, Since text first c → (next a).Ensures c post) :
    (scan >>= next).Ensures origin post := by
  rw [ensures_bind]
  exact ensures_of_leads fun a c leads => ensures a c (since.later leads)

theorem name_within (front : (start text).Leads origin) :
    name.Ensures origin fun extent c =>
      extent.Named text (origin.tokenAfter 0).offset c.reached ∧
        (origin.tokenAfter 0).lexeme = .word extent.text := by
  simp only [name, ensures_bind, ensures_ahead]
  split
  · next word found =>
    have first : Lexeme.first (tokenText origin.rest) = .word word := by
      rw [← lexeme_tokenAfter, found]
    simp only [ensures_bind, ensures_require, ensures_pass, ensures_extentFrom]
    rw [text_past_word first]
    exact fun named => ⟨⟨((beyond_past_word found).since front (origin.leads_past _)).within,
      by rw [text_past_word first]; exact ⟨word_of_first first, named⟩⟩, found⟩
  · exact ensures_unexpected _

theorem property_within (front : (start text).Leads origin) :
    property.Ensures origin fun extent c =>
      extent.Within text (origin.tokenAfter 0).offset c.reached := by
  simp only [property, ensures_bind, ensures_ahead]
  split
  · next word found =>
    simp only [ensures_bind, ensures_pass, ensures_extentFrom]
    exact ((beyond_past_word found).since front (origin.leads_past _)).within
  · next length found =>
    simp only [ensures_bind, ensures_pass, ensures_extentFrom]
    exact ((beyond_past_length found (by simp) (by simp) (by simp)).since front
      (origin.leads_past _)).within
  · exact ensures_unexpected _

theorem quotedText_within (front : (start text).Leads origin) :
    quotedText.Ensures origin fun extent c =>
      extent.Within text (origin.tokenAfter 0).offset c.reached ∧ extent.Quoted := by
  simp only [quotedText, ensures_bind, ensures_ahead]
  split
  · next mark found =>
    split
    · next length measured =>
      have some : length ≠ 0 := by
        rintro rfl
        exact absurd measured (quotedLength?_ne_zero _ _ _ _)
      simp only [ensures_bind, ensures_pass, ensures_extentFrom]
      refine ⟨((beyond_past_of_lexeme found (by simp) some).since front
        (origin.leads_past _)).within, mark, ?_⟩
      rw [text_past, String.toList_ofList, ← rest_tokenAfter]
      exact quotes_of_measured found measured
    · exact ensures_unexpected _
  · exact ensures_unexpected _

/-- Results that are read one after the other have what each of them has, when reading on does not
take it away. -/
theorem ensures_manyWithin {step : Scan (Option α)} {property : α → Cursor → Prop}
    (stays : ∀ a c d, (start text).Leads c → c.Leads d → property a c → property a d)
    (each : ∀ c, (start text).Leads c → origin.Leads c →
      step.Ensures c fun result d => ∀ a ∈ result, property a d) (n : Nat)
    (front : (start text).Leads origin) :
    (manyWithin step n).Ensures origin fun results d => ∀ a ∈ results, property a d := by
  induction n generalizing origin with
  | zero => exact (ensures_pure _ _).mpr (by simp)
  | succ n inductionHypothesis =>
    rw [manyWithin, ensures_bind]
    refine (each origin front .refl).mono fun result c leads holds => ?_
    cases result with
    | none => exact (ensures_pure _ _).mpr (by simp)
    | some a =>
      simp only [ensures_bind, ensures_pure]
      refine (inductionHypothesis (fun d there further => each d there (leads.trans further))
        (front.trans leads)).mono fun results d further others => ?_
      intro other membership
      rcases List.mem_cons.mp membership with rfl | membership
      · exact stays _ _ _ (front.trans leads) further (holds _ rfl)
      · exact others other membership

/-- What was read of an item is still there after the comma or the closing mark. -/
theorem ensures_separated {closing : String} {a : α} {post : α → Cursor → Prop}
    (holds : ∀ d, origin.Leads d → post a d) :
    (do
      unless ← sees (.mark closing) do expectMark ","
      pure a : Scan α).Ensures origin post := by
  rw [ensures_bind]
  refine ensures_of_leads fun last d leads => ?_
  dsimp only
  split
  · exact (ensures_pure _ _).mpr (holds d leads)
  · rw [ensures_bind]
    exact ensures_of_leads fun _ e further =>
      (ensures_pure _ _).mpr (holds e (leads.trans further))

theorem ensures_listed {closing : String} {item : Scan α} {property : α → Cursor → Prop}
    (stays : ∀ a c d, (start text).Leads c → c.Leads d → property a c → property a d)
    (front : (start text).Leads origin)
    (each : ∀ c, (start text).Leads c → origin.Leads c → item.Ensures c property) :
    (listed closing item).Ensures origin fun results d => ∀ a ∈ results, property a d := by
  rw [listed, many, ensures_bind, ensures_cursor]
  refine ensures_manyWithin stays (fun c front leads => ?_) _ front
  rw [ensures_bind]
  refine ensures_of_leads fun closed d further => ?_
  split
  · exact (ensures_pure _ _).mpr (by simp)
  · rw [ensures_bind]
    refine (each d (front.trans further) (leads.trans further)).mono fun a e onward holds => ?_
    refine ensures_separated fun f last other same => ?_
    obtain rfl := Option.some.inj same
    exact stays _ _ _ (front.trans (further.trans onward)) last holds

/-- Like `ensures_listed`, for the items that are not left out. -/
theorem ensures_listedOrLeftOut {closing : String} {item : Scan α} {property : α → Cursor → Prop}
    (stays : ∀ a c d, (start text).Leads c → c.Leads d → property a c → property a d)
    (front : (start text).Leads origin)
    (each : ∀ c, (start text).Leads c → origin.Leads c → item.Ensures c property) :
    (listedOrLeftOut closing item).Ensures origin fun results d =>
      ∀ a ∈ results.filterMap id, property a d := by
  rw [listedOrLeftOut, many, ensures_bind, ensures_cursor]
  have kept : ∀ (result : Option α) c d, (start text).Leads c → c.Leads d →
      (∀ a ∈ result, property a c) → ∀ a ∈ result, property a d :=
    fun _ _ _ front leads holds a membership => stays _ _ _ front leads (holds a membership)
  refine (ensures_manyWithin kept (fun c front leads => ?_) _ front).mono
    fun given d _ holds a among => ?_
  · rw [ensures_bind]
    refine ensures_of_leads fun closed d further => ?_
    split
    · exact (ensures_pure _ _).mpr (by simp)
    · rw [ensures_bind]
      refine ensures_of_leads fun empty e again => ?_
      have further := further.trans again
      split
      · exact (ensures_pure _ _).mpr (by simp)
      · rw [ensures_bind]
        refine (each e (front.trans further) (leads.trans further)).mono fun a f onward holds => ?_
        refine ensures_separated fun g last other same => ?_
        obtain rfl := Option.some.inj same
        intro b given
        obtain rfl := Option.some.inj given
        exact stays _ _ _ (front.trans (further.trans onward)) last holds
  · obtain ⟨_, membership, rfl⟩ := List.mem_filterMap.mp among
    exact holds _ membership a rfl

/-- What holds of each statement that is read holds of all the statements of a script. -/
theorem ensures_scriptWith {read : Readers} {property : Statement → Prop}
    (each : ∀ c, (start text).Leads c → (read .statement).Ensures c fun statement _ =>
      property statement) :
    (scriptWith read).Ensures (start text) fun statements _ =>
      ∀ statement ∈ statements, property statement := by
  rw [scriptWith, ensures_bind]
  refine ensures_of_leads fun _ c front => ?_
  rw [many, ensures_bind, ensures_cursor]
  refine ensures_manyWithin (fun _ _ _ _ _ holds => holds) (fun d there _ => ?_) _ front
  rw [ensures_bind, ensures_sees]
  split
  · exact (ensures_pure _ _).mpr (by simp)
  · rw [ensures_bind]
    refine (each d there).mono fun statement e _ holds => ?_
    refine (ensures_pure _ _).mpr fun other same => ?_
    obtain rfl := Option.some.inj same
    exact holds

/-- The piece that is read is nested between a place and the end of the last token. -/
def Nests (scan : Scan Piece) (text : List Char) (low : Nat) (origin : Cursor) : Prop :=
  scan.Ensures origin fun piece c => piece.expr.Nested text low c.reached

theorem nests_unexpected : (unexpected : Scan Piece).Nests text low origin := ensures_unexpected _

theorem nests_since {scan : Scan α} {next : α → Scan Piece} (since : Since text first origin)
    (nests : ∀ a c, Since text first c → (next a).Nests text low c) :
    (scan >>= next).Nests text low origin :=
  ensures_since since nests

theorem nests_passing {scan : Scan α} {next : α → Scan Piece} (front : (start text).Leads origin)
    (passes : scan.Passes origin)
    (nests : ∀ a c, Since text (origin.tokenAfter 0) c → (next a).Nests text low c) :
    (scan >>= next).Nests text low origin :=
  ensures_passing front passes nests

theorem nests_ahead {next : Cursor → Scan Piece}
    (nests : (next (origin.tokenAfter 0)).Nests text low origin) :
    (ahead >>= next).Nests text low origin := by
  rw [Nests, ensures_bind, ensures_ahead]
  exact nests

theorem nests_pure {piece : Piece} (nested : piece.expr.Nested text low origin.reached) :
    (pure piece : Scan Piece).Nests text low origin :=
  (ensures_pure _ _).mpr nested

/-- What is only known by its kind stands between its first token and its last. -/
theorem nests_other (since : Since text first origin) {piece : Extent → Piece} {kind : Kind}
    (expr : ∀ extent, (piece extent).expr = .other extent kind) :
    (extentFrom first >>= fun extent => pure (piece extent)).Nests text first.offset origin := by
  rw [Nests, ensures_bind, ensures_extentFrom, ensures_pure, expr]
  exact .other since.within

end Scan

theorem forall_of_parse {code : String} {tree : Tree} {property : Statement → Prop}
    (parsed : parse code = .ok tree)
    (each : ∀ depth c, 2 * code.toList.length + 1 < depth → (Cursor.start code.toList).Leads c →
      (reader depth .statement).Ensures c fun statement _ => property statement) :
    ∀ statement ∈ tree.statements, property statement :=
  holds_of_parse (∀ statement ∈ ·, property statement) parsed fun depth deep =>
    Scan.ensures_scriptWith fun c front => each depth c deep front

end ImportRedirect.Script
