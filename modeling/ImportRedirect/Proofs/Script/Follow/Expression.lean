import ImportRedirect.Proofs.Script.Follow

/-!
Expressions before a border. Each reader follows itself as long as the readers it is nested in do.
-/

namespace ImportRedirect.Script

open Scan Readers

section Consuming

variable {c d : Cursor}

theorem acceptMark_consumed {mark : String} (reads : (acceptMark mark).Reads c true d) :
    d.rest.length < c.rest.length := by
  rw [acceptMark, reads_accept] at reads
  split at reads
  · next found =>
    obtain ⟨_, rfl⟩ := reads
    have passes : (pass mark.length).Passes c := passes_pass (Cursor.beyond_past_mark found)
    exact (reads_pass.mpr rfl : (pass mark.length).Reads c () _).ensured passes.consumes
  · cases reads.1

theorem acceptWord_consumed {word : String} (reads : (acceptWord word).Reads c true d) :
    d.rest.length < c.rest.length := by
  rw [acceptWord, reads_accept] at reads
  split at reads
  · next found =>
    obtain ⟨_, rfl⟩ := reads
    have passes : (pass word.length).Passes c := passes_pass (Cursor.beyond_past_word found)
    exact (reads_pass.mpr rfl : (pass word.length).Reads c () _).ensured passes.consumes
  · cases reads.1

theorem expectMark_consumed {mark : String} {a : Unit} (reads : (expectMark mark).Reads c a d) :
    d.rest.length < c.rest.length :=
  reads.ensured (passes_expectMark mark).consumes

theorem pass_consumed {count : Nat} {lexeme : Lexeme} {a : Unit}
    (found : (c.tokenAfter 0).lexeme = lexeme) (finish : lexeme ≠ .finish) (some : count ≠ 0)
    (reads : (pass count).Reads c a d) : d.rest.length < c.rest.length :=
  reads.ensured (consumes_pass (by rw [found]; exact finish) some)

theorem drop_shorter {count : Nat} (some : count ≠ 0) (left : c.rest ≠ []) :
    (c.drop count).rest.length < c.rest.length := by
  have nonempty := List.length_pos_iff.mpr left
  rw [Cursor.rest_drop, List.length_drop]
  omega

theorem template_shorter {length : Nat} {closed : Bool}
    (measured : templateLength? 0 0 c.rest = some (length, closed)) :
    (c.drop length).rest.length < c.rest.length := by
  have further := lt_templateLength? measured
  refine drop_shorter (by omega) fun none => ?_
  simp [none, templateLength?] at measured

end Consuming

namespace Readers

variable (read : Readers)

/-- What an object has under a name, the name included, when it is not the name alone. -/
def pairOrMethod (first : Cursor) : Scan Piece := do
  let plain := fun (value target : Bool) => do
    return (⟨.other (← extentFrom first) .object, value, target, target⟩ : Piece)
  passModifiers 4
  read.memberName
  if ← acceptMark ":" then
    let piece ← read (.expression .enclosed)
    plain piece.value piece.element
  else do
    read.method
    plain true false

/-- A function after its name. -/
def functionTail (complete generator : Bool) : Scan Bool := do
  read.parameters
  read.block complete
  pure generator

/-- A class after what it extends. -/
def classBody : Scan Unit := do
  expectMark "\x7b"
  let _ ← many (α := Unit) do
    if ← acceptMark "\x7d" then pure none
    else if ← acceptMark ";" then pure (some ())
    else do
      read.decorators
      read.classMemberFrom 5
      pure (some ())

/-- A class after its name. -/
def classHeritage : Scan Unit := do
  if ← acceptWord "extends" then let _ ← read.valueIn .enclosed
  read.classBody

end Readers

namespace Border

variable {b : Border} {read read' : Readers} {depth : Nat} {c d first first' : Cursor} {mode : Mode}

/-- Every reader that is nested in others passes a token. -/
structure Progresses (read : Readers) : Prop where
  statementPasses : ∀ c, (read .statement).Passes c
  expressionPasses : ∀ c mode, (read (.expression mode)).Passes c
  operandPasses : ∀ c mode, (read (.operand mode)).Passes c
  markupPasses : ∀ c, (read .markup).Passes c

/-- Readers that follow each other as deep as there is room. -/
structure Tied (b : Border) (read read' : Readers) (depth : Nat) : Prop extends Progresses read where
  statement : ∀ c, b.Room depth 2 c → b.Follows b.Clear b.Clear (read .statement) (read' .statement) c
  expression : ∀ mode c, b.Room depth 1 c →
    b.Follows b.Clear b.Clear (read (.expression mode)) (read' (.expression mode)) c
  operand : ∀ mode c, b.Room depth 1 c →
    b.Follows b.Clear b.Clear (read (.operand mode)) (read' (.operand mode)) c
  creator : ∀ mode c, b.Room depth 1 c →
    b.Follows b.Clear b.Clear (read (.constructor mode)) (read' (.constructor mode)) c
  /-- After an element comes text, when it is the child of another. -/
  markup : ∀ c, b.Room depth 0 c → b.Follows b.Clear b.Inside (read .markup) (read' .markup) c

theorem follows_stops : b.Follows b.Clear b.Clear (stops mode) (stops mode) c := by
  unfold stops
  split
  · exact follows_lineEnd true
  · exact follows_pure rfl

section Passing

theorem memberNamePasses : read.memberName.Passes c := by
  refine passes_ahead ?_
  split
  · exact passes_bind passes_property _
  · exact passes_bind passes_property _
  · exact passes_bind passes_quotedText _
  · next found => exact passes_pass (Cursor.beyond_past_number found)
  · next mark found =>
    split
    · next opens => exact passes_bind (passes_passMark (beq_iff_eq.mp opens ▸ found)) _
    · exact passes_unexpected
  · exact passes_unexpected

theorem ensures_passModifiers (n : Nat) : (Readers.passModifiers n).Ensures c fun _ d =>
    d = c ∨ d.Beyond (c.tokenAfter 0).offset := by
  cases n with
  | zero => exact (ensures_pure _ _).mpr (.inl rfl)
  | succ n =>
    rw [Readers.passModifiers, ensures_bind, ensures_next]
    split
    · next found => exact Ensures.mono (passes_passMark found) fun _ _ _ beyond => .inr beyond
    · next word found =>
      rw [ensures_bind, ensures_second]
      split
      · exact Ensures.mono (passes_bind (passes_passWord found) _) fun _ _ _ beyond => .inr beyond
      · exact (ensures_pure _ _).mpr (.inl rfl)
    · exact (ensures_pure _ _).mpr (.inl rfl)

namespace Progresses

variable (progresses : Progresses read)

include progresses

theorem spreadablePasses : read.spreadable.Passes c :=
  passes_ahead (passes_acceptMark (progresses.expressionPasses c _))

theorem objectMemberPasses : read.objectMember.Passes c := by
  have other : ∀ {β : Type} (next : Unit → Scan β),
      (Readers.passModifiers 4 >>= fun _ => read.memberName >>= next).Passes c := fun next =>
    passes_bind_after (ensures_passModifiers 4) fun _ => passes_bind memberNamePasses _
  refine passes_ahead ?_
  dsimp only
  split
  · exact progresses.spreadablePasses
  · refine passes_second fun lexeme => ?_
    split
    · exact passes_bind passes_name _
    · exact passes_bind passes_name _
    · exact passes_bind passes_name _
    · exact other _
  · exact other _

end Progresses

end Passing

namespace Tied

variable (tied : b.Tied read read' depth)

include tied

section Sequences

theorem valueIn (room : b.Room depth 1 c) :
    b.Follows b.Clear b.Clear (read.valueIn mode) (read'.valueIn mode) c := by
  refine follows_bind (tied.expression mode c room) fun piece piece' _ _ same => ?_
  rw [Piece.value_eq same]
  exact follows_require fun _ => follows_pure same

theorem sequenceFrom (room : b.Room depth 0 c) :
    b.Follows b.Clear b.Clear (read.sequenceFrom mode) (read'.sequenceFrom mode) c := by
  refine follows_bind (follows_many (fun _ clear => clear.inside) (fun d leads => ?_) fun d leads => ?_)
    fun _ _ _ _ _ => follows_pure rfl
  · refine advances_bind fun stopped e further => ?_
    cases stopped with
    | true => exact advances_none
    | false => exact advances_acceptMark advances_none
  · refine follows_then follows_stops fun stopped e stop => ?_
    cases stopped with
    | true => exact follows_pure rfl
    | false =>
      refine follows_then (follows_acceptMark _) fun more f comma => ?_
      cases more with
      | false => exact follows_pure rfl
      | true =>
        have room := ((room.later leads).later stop.leads).consumed (acceptMark_consumed comma)
        exact follows_bind (tied.valueIn (room.mono (by omega))) fun _ _ _ _ _ => follows_pure rfl

theorem sequence (room : b.Room depth 1 c) :
    b.Follows b.Clear b.Clear (read.sequence mode) (read'.sequence mode) c :=
  follows_bind (tied.valueIn room) fun _ _ _ reads _ =>
    tied.sequenceFrom ((room.later reads.leads).mono (by omega))

theorem block {complete : Bool} (room : b.Room depth 0 c) :
    b.Follows b.Clear b.Clear (read.block complete) (read'.block complete) c := by
  refine follows_then (follows_expectMark _) fun _ m opened => ?_
  have room := room.consumed (expectMark_consumed opened)
  refine follows_bind (follows_many (fun _ clear => clear.inside) (fun d leads => ?_) fun d leads => ?_)
    fun _ _ _ _ _ => follows_then (follows_takeLineEnd complete) fun _ _ _ => follows_pure rfl
  · exact advances_acceptMark ((tied.statementPasses d).consumes.advances _)
  · refine follows_then (follows_acceptMark _) fun closed e read => ?_
    cases closed with
    | true => exact follows_pure rfl
    | false =>
      refine follows_bind (tied.statement e (room.later (leads.trans read.leads))) ?_
      exact fun _ _ _ _ same => follows_pure (congrArg some same)

theorem spreadable (room : b.Room depth 1 c) :
    b.Follows b.Clear b.Clear read.spreadable read'.spreadable c := by
  refine follows_ahead fun first' near => ?_
  refine follows_then (follows_acceptMark _) fun spread m accepted => ?_
  have room := room.later accepted.leads
  cases spread with
  | false => exact tied.expression _ m room
  | true =>
    refine follows_bind (tied.expression _ m room) fun piece piece' _ _ same => ?_
    rw [Piece.value_eq same, Piece.target_eq same]
    exact follows_other near _ _ _ _

theorem parameters (room : b.Room depth 0 c) :
    b.Follows b.Clear b.Clear read.parameters read'.parameters c := by
  refine follows_then (follows_expectMark _) fun _ m opened => ?_
  have room := room.consumed (expectMark_consumed opened)
  refine follows_bind (follows_listed (fun _ _ => tied.spreadablePasses.consumes) fun _ leads =>
    tied.spreadable ((room.later leads).mono (by omega))) fun pieces pieces' _ _ same => ?_
  rw [all_alone (fun _ => rfl) same]
  exact follows_required _

theorem arguments (room : b.Room depth 0 c) :
    b.Follows b.Clear b.Clear read.arguments read'.arguments c := by
  refine follows_then (follows_expectMark _) fun _ m opened => ?_
  have room := room.consumed (expectMark_consumed opened)
  exact follows_listedOrLeftOut (fun _ _ => tied.spreadablePasses.consumes) fun _ leads =>
    tied.spreadable ((room.later leads).mono (by omega))

theorem arrowFrom (near : b.Near first first') (room : b.Room depth 0 c) :
    b.Follows b.Clear b.Clear (read.arrowFrom first mode) (read'.arrowFrom first' mode) c := by
  refine follows_then (follows_expectMark _) fun _ m arrow => follows_sees ?_
  have room := room.consumed (expectMark_consumed arrow)
  split
  · exact follows_then (tied.block (room.mono (by omega))) fun _ _ _ => follows_other near _ _ _ _
  · exact follows_bind (tied.valueIn (room.mono (by omega))) fun _ _ _ _ _ =>
      follows_other near _ _ _ _

end Sequences

section Members

theorem template (room : b.Room depth 0 c) :
    b.Follows b.Inside b.Inside read.template read'.template c := by
  refine follows_bind (follows_many (fun _ inside => inside) (fun d leads => ?_) fun d leads => ?_)
    fun _ _ _ _ _ => follows_pure rfl
  · rw [Advances, ensures_bind, ensures_cursor]
    split
    · exact ensures_unexpected _
    · next length closed measured =>
      rw [ensures_bind, ensures_advance]
      exact ensures_of_leads fun _ e further _ =>
        Nat.lt_of_le_of_lt further.length_le (template_shorter measured)
  · refine follows_cursor ?_
    split
    · exact follows_unexpected
    · next length closed measured =>
      refine follows_inside_drop (fun _ inside => inside) fun inside => ?_
      have again : templateLength? 0 0 (b.moved d).rest = some (length, closed) := by
        rw [← measured]
        refine inside.measured (templateLength? 0 0) fun front before short => ?_
        rw [before] at measured
        exact (templateLength?_append b.meets measured (by omega)).trans measured.symm
      rw [again]
      have room := (room.later leads).consumed (template_shorter measured)
      refine follows_then follows_advance fun _ e advanced => ?_
      obtain rfl := reads_advance.mp advanced
      cases closed with
      | true => exact follows_then follows_settle_raw fun _ _ _ => follows_pure rfl
      | false =>
        refine follows_then follows_settle_raw.to_clear fun _ f settled => ?_
        refine follows_then (tied.sequence ((room.later settled.leads).mono (by omega))) ?_
        intro _ g _
        refine follows_sees ?_
        split
        · next closes =>
          refine follows_then (follows_pass_raw (beq_iff_eq.mp closes) (by simp) (by omega)
            (by decide)) fun _ _ _ => follows_pure rfl
        · exact follows_unexpected_bind

theorem memberName (room : b.Room depth 0 c) :
    b.Follows b.Clear b.Clear read.memberName read'.memberName c := by
  refine follows_ahead fun first' near => ?_
  rw [near.lexeme]
  split
  · exact follows_bind follows_property fun _ _ _ _ _ => follows_pure rfl
  · exact follows_bind follows_property fun _ _ _ _ _ => follows_pure rfl
  · exact follows_bind follows_quotedText fun _ _ _ _ _ => follows_pure rfl
  · next found => exact follows_passNumber near found
  · next mark found =>
    split
    · next opens =>
      rw [beq_iff_eq.mp opens] at found
      refine follows_then (follows_passMark found) fun _ m passed => ?_
      have room := room.consumed (pass_consumed found (by simp) (by decide) passed)
      exact follows_bind (tied.valueIn (room.mono (by omega))) fun _ _ _ _ _ => follows_expectMark _
    · exact follows_unexpected
  · exact follows_unexpected

theorem method (room : b.Room depth 0 c) :
    b.Follows b.Clear b.Clear read.method read'.method c :=
  follows_then (tied.parameters room) fun _ _ reads => tied.block (room.later reads.leads)

omit tied in
theorem passModifiers (n : Nat) :
    b.Follows b.Clear b.Clear (passModifiers n) (passModifiers n) c := by
  induction n generalizing c with
  | zero => exact follows_pure rfl
  | succ n inductionHypothesis =>
    refine follows_next ?_
    split
    · next found => exact follows_passMark found
    · next word found =>
      refine follows_second (by rw [found]; rfl) fun again same _ => ?_
      by_cases modifier : modifiers.contains word = true
      · -- No modifier stands at the border.
        have before : tokenText c.rest ≠ b.old := by
          refine before_of_word found fun border => ?_
          have apart : ∀ word ∈ ["import", "const", "let", "var"], word ∉ modifiers := by decide
          exact apart word border (List.contains_iff_mem.mp modifier)
        rw [same before]
        split
        · exact follows_then (follows_passWord found) fun _ _ _ => inductionHypothesis
        · exact follows_pure rfl
      · have none : ∀ lexeme, (modifiers.contains word && !endsMemberName lexeme) = false := by
          intro lexeme
          rw [Bool.eq_false_iff.mpr modifier, Bool.false_and]
        rw [none, none]
        exact follows_pure rfl
    · exact follows_pure rfl

theorem pairOrMethod (near : b.Near first first') (room : b.Room depth 1 c) :
    b.Follows b.Clear b.Clear (read.pairOrMethod first) (read'.pairOrMethod first') c := by
  refine follows_then (passModifiers 4) fun _ m modified => ?_
  have room := room.later modified.leads
  refine follows_then (tied.memberName (room.mono (by omega))) fun _ n named => ?_
  have room := room.later named.leads
  refine follows_then (follows_acceptMark _) fun pair o colon => ?_
  have room := room.later colon.leads
  cases pair with
  | true =>
    refine follows_bind (tied.expression _ o room) fun piece piece' _ _ same => ?_
    rw [Piece.value_eq same, Piece.element_eq same]
    exact follows_other near _ _ _ _
  | false =>
    exact follows_then (tied.method (room.mono (by omega))) fun _ _ _ => follows_other near _ _ _ _

theorem objectMember (room : b.Room depth 1 c) :
    b.Follows b.Clear b.Clear read.objectMember read'.objectMember c := by
  refine Follows.assuming_before tied.objectMemberPasses (fun _ clear => clear.inside) fun before => ?_
  refine follows_ahead fun first' near => ?_
  have plain : ∀ {d : Cursor} (value target : Bool), b.Follows b.Clear b.Clear
      (do return (⟨.other (← extentFrom (c.tokenAfter 0)) .object, value, target, target⟩ : Piece))
      (do return (⟨.other (← extentFrom first') .object, value, target, target⟩ : Piece)) d :=
    fun value target => follows_other near _ _ _ _
  rw [near.lexeme]
  dsimp only
  split
  · exact tied.spreadable room
  · next word found =>
    refine follows_second (by rw [found]; rfl) fun again same _ => ?_
    rw [same before]
    split
    · exact follows_bind follows_name fun _ _ _ _ _ => plain true true
    · exact follows_bind follows_name fun _ _ _ _ _ => plain true true
    · next equals =>
      refine follows_bind follows_name fun _ _ m named _ => ?_
      have found := (lexeme_of_name named).trans equals
      refine follows_then (follows_passMark found) fun _ n passed => ?_
      have room := (room.later named.leads).later passed.leads
      exact follows_bind (tied.valueIn room) fun _ _ _ _ _ => plain false true
    · exact tied.pairOrMethod near room
  · exact tied.pairOrMethod near room

end Members

section Collections

omit tied in
theorem collection {kind : Kind} {closing : String} {item item' : Scan Piece}
    (near : b.Near first first') (consumes : ∀ m, c.Leads m → item.Consumes m)
    (each : ∀ m, c.Leads m → b.Follows b.Clear b.Clear item item' m) :
    b.Follows b.Clear b.Clear (Readers.collection first kind closing item)
      (Readers.collection first' kind closing item') c := by
  refine follows_bind (follows_listedOrLeftOut consumes each) fun items items' _ _ same => ?_
  have pieces := alone_filterMap_id same
  dsimp only
  rw [all_alone (fun _ => rfl) pieces, all_alone (fun _ => rfl) pieces]
  exact follows_other near _ _ _ _

theorem object (near : b.Near first first') (room : b.Room depth 0 c) :
    b.Follows b.Clear b.Clear (read.object first) (read'.object first') c := by
  refine follows_then (follows_expectMark _) fun _ m opened => ?_
  have room := room.consumed (expectMark_consumed opened)
  exact collection near (fun _ _ => tied.objectMemberPasses.consumes) fun _ leads =>
    tied.objectMember ((room.later leads).mono (by omega))

theorem array (near : b.Near first first') (room : b.Room depth 0 c) :
    b.Follows b.Clear b.Clear (read.array first) (read'.array first') c := by
  refine follows_then (follows_expectMark _) fun _ m opened => ?_
  have room := room.consumed (expectMark_consumed opened)
  exact collection near (fun _ _ => tied.spreadablePasses.consumes) fun _ leads =>
    tied.spreadable ((room.later leads).mono (by omega))

theorem parenthesized (near : b.Near first first') (room : b.Room depth 0 c) :
    b.Follows b.Clear b.Clear (read.parenthesized first mode) (read'.parenthesized first' mode) c := by
  refine follows_then (follows_expectMark _) fun _ m opened => ?_
  have room := room.consumed (expectMark_consumed opened)
  refine follows_bind (follows_many (fun _ clear => clear.inside) (fun d leads => ?_) fun d leads => ?_)
    fun pieces pieces' e reads same => ?_
  · refine advances_acceptMark (advances_bind fun spread f further => ?_)
    exact tied.spreadablePasses.consumes.advances _
  · refine follows_then (follows_acceptMark _) fun closed f closing => ?_
    cases closed with
    | true => exact follows_pure rfl
    | false =>
      refine follows_sees ?_
      refine follows_bind (tied.spreadable (((room.later leads).later closing.leads).mono (by omega))) ?_
      intro piece piece' g _ same
      refine follows_sees ?_
      have item : ∀ value last : Bool, alone (some (piece', piece'.value && value, last)) =
          alone (some (piece, piece.value && value, last)) := fun value last => by
        rw [Piece.value_eq same]
        exact congrArg (fun piece => some (piece, _, last)) same
      split
      · exact follows_pure (item _ _)
      · exact follows_then (follows_expectMark _) fun _ _ _ => follows_pure (item _ _)
  · refine follows_sees ?_
    have room := room.later reads.leads
    split
    · rw [all_alone (fun _ => rfl) same]
      exact follows_require fun _ => tied.arrowFrom near (room.mono (by omega))
    · rw [all_alone (fun _ => rfl) same, any_getLast?_alone (fun _ => rfl) same]
      exact follows_require fun _ => follows_other near _ _ _ _

theorem functionTail {complete generator : Bool} (room : b.Room depth 0 c) :
    b.Follows b.Clear b.Clear (read.functionTail complete generator)
      (read'.functionTail complete generator) c :=
  follows_then (tied.parameters room) fun _ _ given =>
    follows_then (tied.block (room.later given.leads)) fun _ _ _ => follows_pure rfl

theorem function {named complete : Bool} (room : b.Room depth 0 c) :
    b.Follows b.Clear b.Clear (read.function named complete) (read'.function named complete) c := by
  refine follows_then (follows_acceptMark _) fun generator m star => follows_next ?_
  have room := room.later star.leads
  split
  · exact follows_bind follows_name fun _ _ _ named _ => tied.functionTail (room.later named.leads)
  · exact follows_require fun _ => tied.functionTail room

theorem decorators (room : b.Room depth 0 c) :
    b.Follows b.Clear b.Clear read.decorators read'.decorators c := by
  refine follows_bind (follows_many (fun _ clear => clear.inside) (fun d leads => ?_) fun d leads => ?_)
    fun _ _ _ _ _ => follows_pure rfl
  · exact advances_acceptMark advances_none
  · refine follows_then (follows_acceptMark _) fun more e sign => ?_
    cases more with
    | false => exact follows_pure rfl
    | true =>
      refine follows_bind follows_name fun _ _ f named _ => ?_
      refine follows_bind (follows_many (fun _ clear => clear.inside) (fun g further => ?_)
        fun g further => ?_) fun _ _ h members _ => ?_
      · exact advances_acceptMark advances_none
      · refine follows_then (follows_acceptMark _) fun more _ _ => ?_
        cases more with
        | false => exact follows_pure rfl
        | true => exact follows_bind follows_property fun _ _ _ _ _ => follows_pure rfl
      · refine follows_sees ?_
        have room := room.later (leads.trans (sign.leads.trans (named.leads.trans members.leads)))
        split
        · exact follows_bind (tied.arguments room) fun _ _ _ _ _ => follows_pure rfl
        · exact follows_pure rfl

end Collections

section Classes

theorem fieldTail (room : b.Room depth 0 c) :
    b.Follows b.Clear b.Clear read.fieldTail read'.fieldTail c := by
  refine follows_then (follows_takeLineEnd false) fun ended m line => ?_
  have room := room.later line.leads
  cases ended with
  | true => exact follows_pure rfl
  | false =>
    refine follows_then (follows_acceptMark _) fun given n equals => ?_
    cases given with
    | false => exact follows_expectMark _
    | true =>
      have room := room.consumed (acceptMark_consumed equals)
      exact follows_bind (tied.valueIn (room.mono (by omega))) fun _ _ _ _ _ => follows_semicolon true

theorem classMemberTail (room : b.Room depth 0 c) :
    b.Follows b.Clear b.Clear (classMemberFrom.tail read) (classMemberFrom.tail read') c := by
  refine follows_sees ?_
  split
  · exact tied.method room
  · exact tied.fieldTail room

theorem classMemberFrom (room : b.Room depth 0 c) (n : Nat) :
    b.Follows b.Clear b.Clear (read.classMemberFrom n) (read'.classMemberFrom n) c := by
  induction n generalizing c with
  | zero => exact follows_unexpected
  | succ n inductionHypothesis =>
    refine follows_next ?_
    split
    · next word found =>
      refine follows_then (follows_passWord found) fun _ m passed => ?_
      have room := room.later passed.leads
      split
      · refine follows_then (follows_takeLineEnd false) fun ended o line => ?_
        have room := room.later line.leads
        cases ended with
        | true => exact follows_pure rfl
        | false =>
          refine follows_sees ?_
          split
          · exact tied.block room
          · refine follows_next ?_
            split
            · exact tied.classMemberTail room
            · exact inductionHypothesis room
      · exact tied.classMemberTail room
    · next found =>
      refine follows_then (follows_passMark found) fun _ m passed => ?_
      have room := room.later passed.leads
      exact follows_then (tied.memberName room) fun _ _ named =>
        tied.classMemberTail (room.later named.leads)
    · exact follows_then (tied.memberName room) fun _ _ named =>
        tied.classMemberTail (room.later named.leads)

omit tied in
theorem classMemberPasses (n : Nat) : (read.classMemberFrom n).Passes c := by
  cases n with
  | zero => exact passes_unexpected
  | succ n =>
    rw [Readers.classMemberFrom, Passes, ensures_bind, ensures_next]
    split
    · next found => exact passes_bind (passes_passWord found) _
    · next found => exact passes_bind (passes_passMark found) _
    · exact passes_bind memberNamePasses _

theorem classBody (room : b.Room depth 0 c) :
    b.Follows b.Clear b.Clear read.classBody read'.classBody c := by
  refine follows_then (follows_expectMark _) fun _ m opened => ?_
  have room := room.later opened.leads
  refine follows_bind (follows_many (fun _ clear => clear.inside) (fun d leads => ?_) fun d leads => ?_)
    fun _ _ _ _ _ => follows_pure rfl
  · refine advances_acceptMark (advances_acceptMark (advances_bind fun _ e _ => ?_))
    exact (classMemberPasses 5).consumes.advances _
  · refine follows_then (follows_acceptMark _) fun closed e closing => ?_
    cases closed with
    | true => exact follows_pure rfl
    | false =>
      refine follows_then (follows_acceptMark _) fun empty f semicolon => ?_
      cases empty with
      | true => exact follows_pure rfl
      | false =>
        have room := room.later (leads.trans (closing.leads.trans semicolon.leads))
        refine follows_then (tied.decorators room) fun _ g decorated => ?_
        exact follows_then (tied.classMemberFrom (room.later decorated.leads) 5) fun _ _ _ =>
          follows_pure rfl

theorem classHeritage (room : b.Room depth 0 c) :
    b.Follows b.Clear b.Clear read.classHeritage read'.classHeritage c := by
  refine follows_then (follows_acceptWord _) fun extended d word => ?_
  cases extended with
  | false => exact tied.classBody (room.later word.leads)
  | true =>
    have inner := room.consumed (acceptWord_consumed word)
    exact follows_bind (tied.valueIn (inner.mono (by omega))) fun _ _ _ reads _ =>
      tied.classBody (room.later (word.leads.trans reads.leads))

theorem classTail {named : Bool} (room : b.Room depth 0 c) :
    b.Follows b.Clear b.Clear (read.classTail named) (read'.classTail named) c := by
  refine follows_next ?_
  split
  · split
    · exact follows_require fun _ => tied.classHeritage room
    · exact follows_bind follows_name fun _ _ _ named _ => tied.classHeritage (room.later named.leads)
  · exact follows_require fun _ => tied.classHeritage room

end Classes

end Tied

end Border

end ImportRedirect.Script
