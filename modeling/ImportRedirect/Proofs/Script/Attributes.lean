import ImportRedirect.Proofs.Script.Abreast
import ImportRedirect.Proofs.Script.Follow.Statement
import ImportRedirect.Proofs.Script.Nesting
import ImportRedirect.Proofs.Script.Repetition

/-!
The attributes of an import: the word `with` and an object. The object can be read again wherever its
text is written, as long as no comment is open in it and every carriage return in it is followed by a
line feed. A carriage return ends a comment but no line, so that without a line feed it is the text
after the object which decides where the statements in it end.
-/

namespace ImportRedirect.Script

theorem breaksName_of_isSpace {c : Char} (space : isSpace c = true) : BreaksName c := by
  refine ⟨by simp [isNamePart, space], ?_⟩
  rintro rfl
  revert space
  decide

/-- Blanks and comments before a token go on with no name, unless there are none. -/
theorem breaksName_of_tokenText {text rest : List Char} {c : Char} (token : tokenText text = c :: rest)
    (breaks : BreaksName c) : ∃ d tail, text = d :: tail ∧ BreaksName d := by
  cases text with
  | nil => simp [tokenText] at token
  | cons d tail =>
    refine ⟨d, tail, rfl, ?_⟩
    by_cases space : isSpace d = true
    · exact breaksName_of_isSpace space
    · by_cases slash : d = '/'
      · subst slash
        decide
      · rw [tokenText_of_plain (by simpa using space) slash] at token
        rw [(List.cons.inj token).1]
        exact breaks

/-- A mark is written at the place where it is seen. -/
theorem Lexeme.prefix_of_mark {ahead : List Char} {mark : String}
    (found : Lexeme.first ahead = .mark mark) : mark.toList <+: ahead := by
  cases ahead with
  | nil => cases found
  | cons c rest =>
    simp only [Lexeme.first] at found
    split at found
    · cases found
    · split at found
      · cases found
      · split at found
        · cases found
        · split at found
          · cases found
          · split at found
            · next long =>
              have begins := List.find?_some long
              have among := List.isPrefixOf_iff_prefix.mp begins
              split at found
              · obtain rfl := Lexeme.mark.inj found
                exact (by decide : "?".toList <+: ['?', '.']).trans among
              · obtain rfl := Lexeme.mark.inj found
                exact among
            · next long =>
              have begins := List.find?_some long
              obtain rfl := Lexeme.mark.inj found
              rw [String.toList_ofList]
              exact List.isPrefixOf_iff_prefix.mp begins
            · obtain rfl := Lexeme.mark.inj found
              rw [String.toList_singleton]
              exact ⟨rest, rfl⟩

namespace Readers

open Scan Cursor

variable {n : Nat} {first c d : Cursor} {piece : Piece}

/-- What an object with these members is taken for. -/
def objectPiece (extent : Extent) (given : List (Option Piece)) : Piece :=
  let pieces := given.filterMap id
  ⟨.other extent .object, pieces.all (·.value), pieces.all (·.element), pieces.all (·.element)⟩

theorem advances_objectMember (n : Nat) (c : Cursor) :
    (itemOrGapBefore "\x7d" (reader n).objectMember).Advances c :=
  advances_itemOrGapBefore (Border.progresses_reader n).objectMemberPasses.consumes

/-- An object is an opening mark, members, and a closing mark. -/
theorem reads_object (sized : c.rest.length ≤ c.size) :
    ((reader n).object first).Reads c piece d ↔ ∃ opened given m,
      (expectMark "\x7b").Reads c () opened ∧
      (itemOrGapBefore "\x7d" (reader n).objectMember).Repeats opened given m ∧
      (m.tokenAfter 0).lexeme = .mark "\x7d" ∧ d = m.past 1 ∧
      piece = objectPiece ⟨first.offset, first.rest, d.reached⟩ given := by
  have inner : ∀ opened, c.Leads opened → opened.rest.length ≤ opened.size := by
    intro opened leads
    rw [leads.size_eq]
    exact Nat.le_trans leads.length_le sized
  constructor
  · intro reads
    obtain ⟨_, opened, mark, collected⟩ := reads_bind.mp reads
    obtain ⟨given, _, listed, placed⟩ := reads_bind.mp collected
    obtain ⟨extent, _, place, returned⟩ := reads_bind.mp placed
    obtain ⟨rfl, rfl⟩ := reads_extentFrom.mp place
    obtain ⟨rfl, rfl⟩ := reads_pure.mp returned
    rw [listedOrLeftOut_eq, reads_many (fun m _ => advances_objectMember n m)
      (inner opened mark.leads)] at listed
    obtain ⟨m, repeats, last⟩ := listed
    obtain ⟨closing, rfl⟩ := closed_of_itemOrGapBefore last
    exact ⟨opened, given, m, mark, repeats, closing, rfl, rfl⟩
  · rintro ⟨opened, given, m, mark, repeats, closing, rfl, rfl⟩
    refine reads_bind.mpr ⟨(), opened, mark, reads_bind.mpr ⟨given, m.past 1, ?_, ?_⟩⟩
    · rw [listedOrLeftOut_eq, reads_many (fun m _ => advances_objectMember n m)
        (inner opened mark.leads)]
      exact ⟨m, repeats, reads_itemOrGapBefore_closing closing⟩
    · exact reads_bind.mpr ⟨_, _, reads_extentFrom.mpr ⟨rfl, rfl⟩, reads_pure.mpr ⟨rfl, rfl⟩⟩

end Readers

/-- These characters are an object wherever they are written, when their comments end there as they do
before `rest`. -/
structure ObjectText (rest text : List Char) : Prop where
  apart (after : List Char) : namePartLength? (text ++ after) = none
  reads {n : Nat} {after : List Char} {c : Cursor} (ends : CommentsEnd rest after text)
    (deep : 2 * text.length < n)
    (before : c.Before (text ++ after)) (settled : c.reached = c.offset) :
    ∃ piece d, ((reader n).object (c.tokenAfter 0)).Reads c piece d ∧ piece.value = true ∧
      d.Before after ∧ d.reached = d.offset

theorem unended_closing {rest : List Char} : Unended ('\x7d' :: rest) ↔ Unended rest := by
  simp [Unended, List.infix_cons_iff]

/-- The closing mark of an object closes no comment. -/
theorem closesComments_closing {front : List Char} (closes : closesComments (front ++ ['\x7d']) = true) :
    closesComments front = true := by
  have unclosed : ∀ {front : List Char}, Unended front → Unended (front ++ ['\x7d']) := by
    intro front unended ends
    rcases List.infix_concat_iff.mp ends with ⟨passed, same⟩ | inside
    · have last := congrArg List.getLast? same
      simp at last
    · exact unended inside
  induction front with
  | nil => rfl
  | cons c front inductionHypothesis =>
    cases front with
    | nil => simp [closesComments]
    | cons d front =>
      simp only [List.cons_append, closesComments, Bool.and_eq_true] at closes inductionHypothesis ⊢
      refine ⟨?_, inductionHypothesis closes.2⟩
      simp only [Bool.or_eq_true, List.head?_cons, List.tail_cons] at closes ⊢
      exact closes.1.imp_right fun closed => decide_eq_true (mt unclosed (of_decide_eq_true closed))

/-- Comments before the closing mark of an object end there as they do before what comes after it. -/
theorem CommentsEnd.closing {rest after front : List Char}
    (ends : CommentsEnd rest after (front ++ ['\x7d'])) :
    CommentsEnd ('\x7d' :: rest) ('\x7d' :: after) front where
  lines := endsLines_of_append (by simp) ends.lines
  blocks := by
    rw [unended_closing, unended_closing]
    exact ends.blocks.imp_left closesComments_closing

section Closing

open Cursor

variable {front rest after : List Char} {c d : Cursor}

/-- Two scripts can part at the closing mark of an object which is written in both of them. -/
theorem Meets.closing : Meets ('\x7d' :: rest) ('\x7d' :: after) :=
  @Meets.token ['\x7d'] rest after (by decide) fun other => absurd rfl other

open Scan Readers in
/-- The members of an object are read again up to its closing mark. -/
theorem object_again {n n' : Nat} {opened m : Cursor} {given : List (Option Piece)}
    (abreast : Abreast c d front ('\x7d' :: rest) ('\x7d' :: after))
    (ends : CommentsEnd ('\x7d' :: rest) ('\x7d' :: after) front) (deep : 2 * c.rest.length < n) (deepToo : 2 * front.length + 2 < n')
    (mark : (expectMark "\x7b").Reads c () opened)
    (repeats : (itemOrGapBefore "\x7d" (reader n).objectMember).Repeats opened given m)
    (closed : tokenText m.rest = '\x7d' :: rest) :
    ∃ given' e, ((reader n').object (d.tokenAfter 0)).Reads d
        (objectPiece ⟨(d.tokenAfter 0).offset, (d.tokenAfter 0).rest, e.reached⟩ given') e ∧
      alone given' = alone given ∧ e.rest = after ∧ e.reached = e.offset := by
  let b := abreast.border .closing
  have here := abreast.here
  have valid : b.Valid c := abreast.valid _ ends
  have clear : b.Clear m := .reached closed
  have moved : b.moved c = d := abreast.moved _
  have counted : c.rest.length = front.length + b.old.length := by
    rw [here.rest, List.length_append]
    rfl
  have nonempty : 0 < b.old.length := Nat.succ_pos _
  have room : b.Room (2 * front.length + 3) 0 c := by
    rw [Border.Room]
    omega
  have tied := @Border.tied_reader b (2 * front.length + 3) n n' (by omega) (by omega)
  have inner := room.consumed (expectMark_consumed mark)
  obtain ⟨begun, given', again, same⟩ := Border.repeats_moved repeats (fun d leads =>
    Border.follows_itemOrGapBefore fun e further =>
      tied.objectMember ((inner.later (leads.trans further)).mono (by omega)))
    (valid.later mark.leads) clear
  obtain ⟨_, _, markAgain, _⟩ := Border.follows_expectMark _ _ _ valid mark begun
  have later : b.Valid m := valid.later (mark.leads.trans repeats.leads)
  have last : ((b.moved m).tokenAfter 0).lexeme = .mark "\x7d" := by
    rw [clear.lexeme_moved later, lexeme_tokenAfter, closed]
    exact rfl
  have sized : (b.moved c).rest.length ≤ (b.moved c).size := by
    rw [moved]
    exact abreast.there.length_le
  have reads : ((reader n').object (d.tokenAfter 0)).Reads (b.moved c) _ _ :=
    (reads_object sized).mpr ⟨_, given', _, markAgain, again, last, rfl, rfl⟩
  rw [moved] at reads
  refine ⟨given', _, reads, same, ?_, rfl⟩
  have token : tokenText (b.moved m).rest = b.swap (tokenText m.rest) := by
    rw [← rest_tokenAfter, clear.tokenAfter_moved later, ← rest_tokenAfter]
    rfl
  rw [rest_past, token, closed]
  exact congrArg (List.drop 1) (Border.swap_append (b := b) [])

end Closing

open Scan Readers Cursor in
/-- What was read as an object is one again, up to its closing mark. -/
theorem objectText_of_reads {n : Nat} {first c d : Cursor} {piece : Piece}
    (reads : ((reader n).object first).Reads c piece d) (value : piece.value = true)
    (deep : 2 * c.rest.length < n) (whole : c.Before c.rest) (settled : c.reached = c.offset) :
    ∃ inner, c.rest = inner ++ '\x7d' :: d.rest ∧ d.reached = d.offset ∧
      ObjectText d.rest (inner ++ ['\x7d']) := by
  obtain ⟨opened, given, m, mark, repeats, closing, rfl, rfl⟩ := (reads_object whole.length_le).mp reads
  obtain ⟨rest, closed⟩ : ∃ rest, '\x7d' :: rest = tokenText m.rest :=
    Lexeme.prefix_of_mark ((lexeme_tokenAfter m).symm.trans closing)
  have left : (m.past 1).rest = rest := by
    rw [rest_past, ← closed]
    rfl
  obtain ⟨front, split⟩ : ∃ front, c.rest = front ++ '\x7d' :: rest := by
    obtain ⟨before, passed, _⟩ := (mark.leads.trans repeats.leads).passed
    obtain ⟨blanks, inside, _⟩ := @within_of_tokenText ('\x7d' :: rest) m.rest [] closed.symm
    exact ⟨before ++ blanks, by rw [passed, inside, List.append_nil, List.append_assoc]⟩
  refine ⟨front, by rw [left, split], rfl, ?_, ?_⟩
  · intro after
    obtain ⟨c, tail, characters, breaks⟩ : ∃ c tail, front ++ ['\x7d'] = c :: tail ∧ BreaksName c := by
      obtain ⟨found, _⟩ := reads_expectMark.mp mark
      obtain ⟨inner, opens⟩ : ∃ inner, '\x7b' :: inner = tokenText c.rest :=
        Lexeme.prefix_of_mark ((lexeme_tokenAfter c).symm.trans found)
      obtain ⟨first, tail, characters, breaks⟩ := breaksName_of_tokenText opens.symm (by decide)
      cases front with
      | nil => exact ⟨'\x7d', [], rfl, by decide⟩
      | cons head front =>
        rw [split] at characters
        obtain ⟨rfl, _⟩ := List.cons.inj characters
        exact ⟨_, _, rfl, breaks⟩
    rw [characters]
    exact namePartLength?_of_break breaks _
  · intro n' after c' ends deepToo before settledToo
    rw [left] at ends
    rw [List.append_assoc, List.singleton_append] at before
    rw [List.length_append, List.length_singleton] at deepToo
    obtain ⟨given', e, again, same, behind, ended⟩ := object_again
      (.of_settled (split ▸ whole) before settled settledToo) ends.closing deep (by omega) mark repeats
      closed.symm
    refine ⟨_, e, again, ?_, behind ▸ before.later again.leads, ended⟩
    rw [← value]
    exact all_alone (fun _ => rfl) (alone_filterMap_id same)

/-- The text of attributes is the word and an object that can be read again. -/
structure Extent.Restates (attributes : Extent) (rest object : List Char) : Prop where
  text : attributes.text = String.ofList ("with".toList ++ object)
  object : ObjectText rest object

def Statement.Attributed : Statement → Prop
  | .importing _ _ _ (some attributes) => ∃ rest object, attributes.Restates rest object
  | _ => True

/-- Attributes, if there are some, are an object in the characters ahead, and the others come after the
statement. -/
def Statement.AttributedIn (ahead after : List Char) : Statement → Prop
  | .importing _ _ _ (some attributes) => ∃ front inner between,
      ahead = front ++ ("with".toList ++ (inner ++ '\x7d' :: (between ++ after))) ∧
        attributes.Restates (between ++ after) (inner ++ ['\x7d'])
  | _ => True

theorem Statement.AttributedIn.attributed {statement : Statement} {ahead after : List Char}
    (attributed : statement.AttributedIn ahead after) : statement.Attributed := by
  cases statement with
  | importing extent specifiers source attributes =>
    cases attributes with
    | none => trivial
    | some attributes =>
      obtain ⟨front, inner, between, _, restates⟩ := attributed
      exact ⟨_, _, restates⟩
  | _ => trivial

theorem Statement.AttributedIn.earlier {statement : Statement} {ahead after : List Char}
    (attributed : statement.AttributedIn ahead after) (passed : List Char) :
    statement.AttributedIn (passed ++ ahead) after := by
  cases statement with
  | importing extent specifiers source attributes =>
    cases attributes with
    | none => trivial
    | some attributes =>
      obtain ⟨front, inner, between, rfl, restates⟩ := attributed
      exact ⟨passed ++ front, inner, between, (List.append_assoc _ _ _).symm, restates⟩
  | _ => trivial

open Scan Readers Cursor

theorem Lexeme.prefix_of_word {ahead : List Char} {word : String}
    (found : Lexeme.first ahead = .word word) : ahead = word.toList ++ ahead.drop word.length := by
  obtain ⟨_, same⟩ := Lexeme.first_eq_word_iff.mp found
  have counted := congrArg String.length same
  rw [String.length_ofList, List.length_take, Nat.min_eq_left (nameLength_le ahead)] at counted
  have characters := congrArg String.toList same
  rw [String.toList_ofList] at characters
  rw [counted, characters, List.take_append_drop]

theorem Scan.ensures_of_reads {α : Type} {scan : Scan α} {c : Cursor} {post : α → Cursor → Prop}
    (each : ∀ a d, scan.Reads c a d → post a d) : scan.Ensures c post :=
  fun outcome succeeds => each _ _ ⟨outcome.property, succeeds⟩

section Importing

variable {text : List Char} {origin first : Cursor} {n : Nat}

/-- After the word the object stands up to the end of the attributes. -/
theorem restates_of_reads {c d : Cursor} {piece : Piece} (deep : 2 * text.length < n)
    (front : (start text).Leads c) (word : (c.tokenAfter 0).lexeme = .word "with")
    (reads : ((reader n).object first).Reads (c.past 4) piece d) (value : piece.value = true) :
    ∃ inner, (c.tokenAfter 0).rest = "with".toList ++ (inner ++ '\x7d' :: d.rest) ∧
      Extent.Restates ⟨(c.tokenAfter 0).offset, (c.tokenAfter 0).rest, d.reached⟩ d.rest
        (inner ++ ['\x7d']) := by
  have token := front.trans (c.leads_tokenAfter 0)
  have begun := front.trans (c.leads_past 4)
  have whole : (c.past 4).Before (c.past 4).rest :=
    Before.later ⟨rfl, by simp [start]⟩ begun
  have shorter := begun.length_le
  obtain ⟨inner, split, settled, again⟩ := objectText_of_reads reads value
    (Nat.lt_of_le_of_lt (Nat.mul_le_mul_left 2 shorter) deep) whole rfl
  have characters : (c.tokenAfter 0).rest = "with".toList ++ (inner ++ '\x7d' :: d.rest) := by
    rw [← split, rest_past, ← rest_tokenAfter]
    exact Lexeme.prefix_of_word word
  have onward : (c.tokenAfter 0).Leads d := by
    refine Leads.trans ?_ reads.leads
    rw [past_eq]
    exact (leads_drop _ _).trans (leads_settle _)
  obtain ⟨passed, same, bytes⟩ := onward.passed
  have written : (c.tokenAfter 0).rest = ("with".toList ++ (inner ++ ['\x7d'])) ++ d.rest := by
    simp [characters]
  obtain rfl : "with".toList ++ (inner ++ ['\x7d']) = passed :=
    List.append_cancel_right (written.symm.trans same)
  refine ⟨inner, characters, ?_, again⟩
  rw [settled]
  exact text_of_leads written bytes

theorem attributed_importTail {c : Cursor} (deep : 2 * text.length < n) (front : (start text).Leads c)
    (specifiers : List Specifier) (source : Extent) :
    ((reader n).importTail first specifiers source).Ensures c fun statement d =>
      statement.AttributedIn c.rest d.rest := by
  rw [importTail, ensures_bind]
  refine ensures_of_leads fun ended d leads => ?_
  split
  · rw [ensures_bind, ensures_extentFrom, ensures_pure]
    trivial
  · have front := front.trans leads
    rw [ensures_bind, ensures_ahead, ensures_bind, acceptWord, ensures_accept]
    split
    · next word =>
      simp only [if_true, ensures_bind, ensures_ahead]
      refine ensures_of_reads fun piece e reads => ?_
      simp only [ensures_require, ensures_extentFrom, ensures_pure]
      intro value
      obtain ⟨inner, characters, restates⟩ := restates_of_reads deep front word reads value
      obtain ⟨passed, before, _⟩ := (leads.trans (d.leads_tokenAfter 0)).passed
      refine ensures_of_leads fun _ f further => ?_
      obtain ⟨between, after, _⟩ := further.passed
      rw [after] at characters restates
      exact ⟨passed, inner, between, by rw [before, characters], restates⟩
    · simp only [Bool.false_eq_true, if_false, ensures_bind, ensures_extentFrom, ensures_pure]
      exact ensures_of_leads fun _ _ _ => trivial

theorem attributed_importDeclaration (deep : 2 * text.length < n) (front : (start text).Leads origin)
    (first : Cursor) : ((reader n).importDeclaration first).Ensures origin fun statement d =>
      statement.AttributedIn (tokenText origin.rest) d.rest := by
  have front := front.trans (origin.leads_past 6)
  have tail : ∀ {c : Cursor} specifiers source, (origin.past 6).Leads c →
      ((reader n).importTail first specifiers source).Ensures c fun statement d =>
        statement.AttributedIn (tokenText origin.rest) d.rest := by
    intro c specifiers source leads
    obtain ⟨passed, before, _⟩ := leads.passed
    have ahead : tokenText origin.rest = (tokenText origin.rest).take 6 ++ passed ++ c.rest := by
      rw [List.append_assoc, ← before, rest_past, List.take_append_drop]
    refine (attributed_importTail deep (front.trans leads) specifiers source).mono ?_
    intro statement d _ attributed
    rw [ahead]
    exact attributed.earlier _
  rw [ensures_importDeclaration]
  split
  · exact ensures_of_leads fun source c leads => tail _ _ leads
  · refine ensures_of_leads fun specifiers c leads => ensures_of_leads fun source d further => ?_
    exact tail _ _ (leads.trans further)

theorem attributed_declarationFrom (read : Readers) (binder : Binder) {ahead : List Char} :
    (read.declarationFrom first binder).Ensures origin fun statement d =>
      statement.AttributedIn ahead d.rest := by
  rw [declarationFrom, ensures_bind]
  refine ensures_of_leads fun _ c _ => ?_
  rw [ensures_bind, ensures_cursor, ensures_bind]
  refine ensures_of_leads fun declarators d _ => ?_
  rw [ensures_bind, ensures_extentFrom, ensures_pure]
  trivial

/-- The attributes of a statement can be written elsewhere. -/
theorem attributed_readStatement (deep : 2 * text.length + 1 < n) (front : (start text).Leads origin) :
    (reader n .statement).Ensures origin fun statement d =>
      statement.AttributedIn (tokenText origin.rest) d.rest := by
  obtain ⟨n, rfl⟩ : ∃ rest, n = rest + 1 := ⟨n - 1, by omega⟩
  refine ensures_chosen (passes_readExpression n) (fun _ => trivial) fun scan chosen => ?_
  cases chosen with
  | other ends passes =>
    refine (ends origin).mono fun statement d _ known => ?_
    obtain ⟨kind, rfl⟩ := known
    trivial
  | importing found => exact attributed_importDeclaration (by omega) front _
  | declaring binder found => exact attributed_declarationFrom _ binder

end Importing

theorem attributed_of_parse {code : String} {tree : Tree} (parsed : parse code = .ok tree) :
    ∀ statement ∈ tree.statements, statement.Attributed :=
  forall_of_parse parsed fun _ _ deep front =>
    (attributed_readStatement deep front).mono fun _ _ _ attributed => attributed.attributed

end ImportRedirect.Script
