import ImportRedirect.Proofs.Script.Echo
import ImportRedirect.Proofs.Script.Rereading.Redraft

/-!
A script whose statements gave way to others is read as these statements. The reader of the new script
follows that of the old one up to the next statement that was changed, reads what is written there instead,
and goes on after it.
-/

namespace ImportRedirect.Script

open Scan Cursor Node Value

section Steps

variable {n other : Nat} {c d m : Cursor} {statement : Statement} {front further old new : List Char}

theorem Lexeme.eq_nil_of_first {ahead : List Char} (finish : Lexeme.first ahead = .finish) :
    ahead = [] := by
  cases ahead with
  | nil => rfl
  | cons c rest =>
    simp only [Lexeme.first] at finish
    repeat' split at finish
    all_goals cases finish

/-- When what comes after the border keeps comments open, so does what stands ahead of it. -/
theorem Meets.unended (meets : Meets old new) (keeps : Unended old → Unended new)
    (unended : Unended (front ++ old)) : Unended (front ++ new) :=
  blockCommentTail?_eq_none_iff.mp (blockCommentTail?_append_none meets (fun _ => keeps)
    (@blockCommentTail?_eq_none_iff 0 _ |>.mpr unended))

/-- A statement before a border is read by a reader that stands abreast, which then does so still. -/
theorem nextStatement_again (abreast : Abreast c d front old new) (meets : Meets old new)
    (ends : CommentsEnd old new front) (deep : 2 * front.length + 2 < n)
    (deepToo : 2 * front.length + 2 < other)
    (reads : (nextStatement (reader n)).Reads c (some statement) m) (clear : Clear old m.rest) :
    Clear old c.rest ∧ ∃ again, (nextStatement (reader other)).Reads d (some again)
      ((abreast.border meets).moved m) ∧ alone again = alone statement := by
  let b := abreast.border meets
  have tied := @Border.tied_reader b (2 * front.length + 3) n other deep deepToo
  have room : b.Room (2 * front.length + 3) 2 c := by
    have counted := congrArg List.length abreast.here.rest
    have same : b.old = old := rfl
    rw [List.length_append] at counted
    rw [Border.Room, same]
    omega
  have follows : b.Follows b.Clear b.Clear (nextStatement (reader n)) (nextStatement (reader other)) c := by
    refine Border.follows_sees ?_
    split
    · exact Border.follows_pure rfl
    · exact Border.follows_bind (tied.statement c room) fun _ _ _ _ same =>
        Border.follows_pure (congrArg some same)
  obtain ⟨begun, result, again, same⟩ := follows _ _ (abreast.valid meets ends) reads clear
  obtain ⟨statement', rfl, alike⟩ := Option.map_eq_some_iff.mp same
  rw [abreast.moved] at again
  exact ⟨begun, statement', again, alike⟩

theorem echoes_of_means {ahead after : List Char} {word : String} {node : Value} {values : List Value}
    {drafts : List Draft} {statements : List Statement}
    (redrafts : List.Forall₂ (Redraft ahead after word node) values drafts)
    (means : List.Forall₂ Statement.Means statements drafts) :
    List.Forall₂ Echoes values (statements.filterMap Statement.node?) := by
  induction redrafts generalizing statements with
  | nil =>
    cases means
    exact .nil
  | cons first _ inductionHypothesis =>
    cases means with
    | cons meant others =>
      obtain ⟨again, found, same⟩ := meant
      rw [List.filterMap_cons_some found]
      refine .cons ?_ (inductionHypothesis others)
      rw [Echoes, same]
      exact first.found

end Steps

/-- What stands ahead of the cursor and what stands there now have the front in common, and whoever stands
abreast reads what the nodes say. -/
structure Reread (c : Cursor) (out : List Char) (nodes : List Value) (front old new : List Char) :
    Prop where
  meets : Meets old new
  keeps : Unended old → Unended new
  here : c.rest = front ++ old
  there : out = front ++ new
  clear : Clear old c.rest
  again {n : Nat} {d : Cursor} (deep : 2 * out.length + 2 < n) (abreast : Abreast c d front old new) :
    ∃ statements e, (nextStatement (reader n)).Repeats d statements e ∧
      (e.tokenAfter 0).lexeme = .finish ∧ List.Forall₂ Echoes nodes (statements.filterMap Statement.node?)

section Reread

variable {n : Nat} {c d : Cursor} {statement : Statement} {nodes left : List Value}
  {out passed front old new : List Char}

theorem reread_stop (finish : (c.tokenAfter 0).lexeme = .finish) :
    Reread c c.rest [] c.rest [] [] where
  meets := .finish
  keeps unended := unended
  here := (List.append_nil _).symm
  there := (List.append_nil _).symm
  clear := .reached (Lexeme.eq_nil_of_first ((lexeme_tokenAfter c).symm.trans finish))
  again {n d} deep abreast := by
    refine ⟨[], d, .stop, ?_, .nil⟩
    rw [lexeme_tokenAfter, abreast.there.rest, List.append_nil, ← lexeme_tokenAfter, finish]

/-- A statement that is kept is read again. -/
theorem Reread.kept (reread : Reread d out nodes front old new)
    (reads : (nextStatement (reader n)).Reads c (some statement) d) (split : c.rest = passed ++ d.rest)
    (here : c.Before c.rest) (settled : c.reached ≤ c.offset) (lines : endsLines c.rest = true)
    (deep : 2 * c.rest.length + 2 < n) :
    Reread c (passed ++ out) (statement.node?.toList ++ nodes) (passed ++ front) old new := by
  have whole : c.rest = passed ++ front ++ old := by rw [split, reread.here, List.append_assoc]
  have before : c.Before (passed ++ front ++ old) := whole ▸ here
  have ends : CommentsEnd old new (passed ++ front) :=
    ⟨reread.meets.endsLines (whole ▸ lines), .inr reread.keeps⟩
  have enough : 2 * (passed ++ front).length + 2 < n := by
    rw [whole, List.length_append] at deep
    omega
  obtain ⟨e, abreast⟩ := before.abreast settled new
  have begun := nextStatement_again abreast reread.meets ends enough enough reads reread.clear
  refine ⟨reread.meets, reread.keeps, whole, by rw [reread.there, List.append_assoc], begun.1, ?_⟩
  intro n' e deepToo abreast
  have short : 2 * (passed ++ front).length + 2 < n' := by
    rw [reread.there, ← List.append_assoc, List.length_append] at deepToo
    omega
  obtain ⟨_, again, one, same⟩ :=
    nextStatement_again abreast reread.meets ends enough short reads reread.clear
  have onward : 2 * out.length + 2 < n' := by
    rw [List.length_append] at deepToo
    omega
  obtain ⟨statements, m, others, finish, echoes⟩ :=
    reread.again onward (abreast.later reread.meets reads.leads reread.here)
  refine ⟨again :: statements, m, .more one others, finish, ?_⟩
  cases found : statement.node? with
  | none =>
    have absent := unplaced_node?_of_alone same
    rw [found, Option.map_none, Option.map_eq_none_iff] at absent
    rw [List.filterMap_cons_none absent]
    exact echoes
  | some node =>
    obtain ⟨_, found, echo⟩ := echoes_of_alone same found
    rw [List.filterMap_cons_some found]
    exact .cons echo echoes

/-- The first token of a statement that was changed begins what is written in its place. -/
theorem meets_of_redraft {ahead after rest : List Char} {word : String} {node changed : Value}
    {draft : Draft} (keyed : Keyed word c d) (redraft : Redraft ahead after word node changed draft) :
    Meets (tokenText c.rest) (draft.text.toList ++ rest) := by
  have first : Lexeme.first (tokenText c.rest) = .word word := (lexeme_tokenAfter c).symm.trans keyed.found
  have noArrow := keyed.noArrow
  rw [second_eq, first] at noArrow
  have begins := Lexeme.prefix_of_word first
  have known : word ∈ ["import", "const", "let", "var"] := redraft.keyword ▸ draft.mem_keywords
  have parting : word.toList ∈ partingTokens := by
    have each := List.all_eq_true.mp
      (by decide : ["import", "const", "let", "var"].all fun word => word.toList ∈ partingTokens) word known
    simpa using each
  have text : draft.text.toList ++ rest = word.toList ++ (draft.tail ++ rest) := by
    rw [draft.toList_text, redraft.keyword, List.append_assoc]
  rw [text]
  rw [begins] at first ⊢
  exact .token parting fun _ => ⟨⟨namePartLength?_of_keyword known first, noArrow⟩, draft.completes rest⟩

/-- What takes the place of a token is ahead where the token was. -/
theorem tokenText_of_meets {text blanks : List Char} (meets : Meets (tokenText text) new)
    (keeps : Unended (tokenText text) → Unended new) (split : text = blanks ++ tokenText text)
    (lines : endsLines text = true) : tokenText (blanks ++ new) = new := by
  have blank : triviaLength (blanks ++ [] ++ tokenText text) = blanks.length := by
    have counted := congrArg List.length split
    have within := triviaLength_le text
    rw [List.append_nil, ← split]
    rw [List.length_append, tokenText, List.length_drop] at counted
    omega
  have ends : CommentsEnd (tokenText text) new (blanks ++ []) := by
    rw [List.append_nil]
    exact ⟨meets.endsLines (split ▸ lines), .inr keeps⟩
  have same := tokenText_append meets ends blank
  rwa [List.append_nil] at same

section Redrafts

variable {ahead after : List Char} {word : String} {node changed : Value} {values : List Value}
  {draft first : Draft} {drafts : List Draft} {given : Draft.Attributes}

/-- Attributes that are written once more are read before what was written after the statement. -/
theorem Redraft.legible (redraft : Redraft ahead after word node changed draft)
    (known : given ∈ draft.attributes?) (deep : 2 * draft.text.length < n)
    (lines : endsLines ahead = true) (clean : Unended after → Unended out) : given.Legible n out := by
  obtain ⟨front, inner, between, text, object, rest⟩ := redraft.given given known
  have short := draft.length_object_le known
  refine ⟨by omega, ?_, .inr fun unclosed => ?_⟩
  · rw [text] at lines
    have inside := endsLines_right (endsLines_right lines)
    rw [List.append_cons] at inside
    rw [object]
    exact endsLines_of_append (by simp) inside
  · rw [rest] at unclosed
    exact (clean unclosed.right).cons (by decide)

variable (redrafts : List.Forall₂ (Redraft ahead after word node) values (first :: drafts))

include redrafts

theorem unended_of_redrafts (behind : after <:+ ahead) (uncommented : Unended ahead → Uncommented node)
    (clean : Unended after → Unended out) (unended : Unended ahead) :
    Unended (Draft.lines out first drafts) := by
  refine Draft.unended_lines (fun draft membership => ?_) (clean (unended.of_infix behind.isInfix))
  obtain ⟨_, _, redraft⟩ := exists_of_forall₂ redrafts draft membership
  exact redraft.joins (uncommented unended)

theorem joins_of_redrafts (comments : ∀ raw, node.peek "attributesRaw" = .str raw → drafts ≠ [] →
      closesComments raw.toList = true ∨ Uncommented node) :
    ∀ draft ∈ first :: drafts, ∀ given ∈ draft.attributes?,
      closesComments given.object = true ∨ ∀ other ∈ drafts, Joins other.text.toList := by
  intro draft membership given known
  obtain ⟨_, _, redraft⟩ := exists_of_forall₂ redrafts draft membership
  by_cases none : drafts = []
  · simp [none]
  · refine (comments given.text (redraft.attributed given known) none).imp (fun closes => ?_)
      fun texts other among => ?_
    · rw [Draft.Attributes.text, String.toList_ofList] at closes
      exact closesComments_right closes
    · obtain ⟨_, _, another⟩ := exists_of_forall₂ redrafts other (List.mem_cons_of_mem _ among)
      exact another.joins texts

end Redrafts

/-- What was written in the place of a statement is read. -/
theorem Reread.changed {word : String} {node : Value} {values : List Value} {first : Draft}
    {drafts : List Draft} {blanks : List Char} (reread : Reread d out nodes front old new)
    (behind : d.rest <:+ tokenText c.rest) (leads : c.Leads d) (keyed : Keyed word c d)
    (redrafts : List.Forall₂ (Redraft (tokenText c.rest) d.rest word node) values (first :: drafts))
    (uncommented : Unended (tokenText c.rest) → Uncommented node)
    (comments : ∀ raw, node.peek "attributesRaw" = .str raw → drafts ≠ [] →
      closesComments raw.toList = true ∨ Uncommented node)
    (split : c.rest = blanks ++ tokenText c.rest) (here : c.Before c.rest)
    (lines : endsLines c.rest = true) :
    Reread c (blanks ++ Draft.lines out first drafts) (values ++ nodes) blanks (tokenText c.rest)
      (Draft.lines out first drafts) := by
  have each := exists_of_forall₂ redrafts
  have clean : Unended d.rest → Unended out := by
    intro unended
    rw [reread.here] at unended
    rw [reread.there]
    exact reread.meets.unended reread.keeps unended
  have meets : Meets (tokenText c.rest) (Draft.lines out first drafts) := by
    obtain ⟨rest, text⟩ := @Draft.lines_eq_append out first drafts
    obtain ⟨_, _, redraft⟩ := each first List.mem_cons_self
    rw [text]
    exact meets_of_redraft keyed redraft
  have keeps := unended_of_redrafts redrafts behind uncommented clean
  refine ⟨meets, keeps, split, rfl, .reached rfl, ?_⟩
  intro n e deep abreast
  have token := tokenText_of_meets meets keeps split lines
  obtain ⟨n, rfl⟩ : ∃ rest, n = rest + 1 := ⟨n - 1, by omega⟩
  have long := @Draft.length_le_lines out first drafts
  rw [List.length_append] at deep
  have legible : ∀ draft ∈ first :: drafts, ∀ given ∈ draft.attributes?, given.Legible n out := by
    intro draft membership given known
    obtain ⟨_, _, redraft⟩ := each draft membership
    have within := long.1 draft membership
    exact redraft.legible known (by omega) (endsLines_right (split ▸ lines)) clean
  obtain ⟨statements, m, repeats, passed, means⟩ :=
    Draft.repeats_lines (by omega) (joins_of_redrafts redrafts comments) legible abreast.there token
  have onward : Abreast d m front old new := .of_settled (reread.here ▸ here.later leads)
    (reread.there ▸ passed.before) keyed.settled passed.settled
  obtain ⟨others, last, more, finish, echoes⟩ := reread.again (n := n + 1) (by omega) onward
  refine ⟨statements ++ others, last, repeats.append more, finish, ?_⟩
  rw [List.filterMap_append]
  exact List.rel_append (echoes_of_means redrafts means) echoes

end Reread

/-- What is needed of the statements that a statement of a script was left as. -/
structure Redrafts (left : Value → List Value) (node : Value) : Prop where
  descends : ∀ changed ∈ left node, Descends (fun text => Unended text.toList) node changed
  drafted : left node = [node] ∨ ∀ changed ∈ left node, Drafted changed
  /-- A comment that is opened in attributes and not closed there is not closed when they are written once
  more. -/
  comments : ∀ raw, node.peek "attributesRaw" = .str raw → 1 < (left node).length →
    closesComments raw.toList = true ∨ Uncommented node

section Rewritten

variable {text : List Char} {left : Value → List Value} {n : Nat} {c : Cursor}
  {statements : List Statement} {out : List Char}

theorem mapM_of_redrafts {ahead after : List Char} {word : String} {node : Value} {values : List Value}
    {drafts : List Draft} (redrafts : List.Forall₂ (Redraft ahead after word node) values drafts) :
    values.mapM Emit.statement = .ok ((drafts.map Draft.text).map .str) := by
  induction redrafts with
  | nil => rfl
  | cons first _ inductionHypothesis =>
    rw [List.mapM_cons, Draft.printed _ first.found, ok_bind, inductionHypothesis]
    rfl

section Read

variable {d : Cursor} {statement : Statement} {node : Value} (front : (Cursor.start text).Leads c)
  (reads : (reader n .statement).Reads c statement d)

include front reads

/-- What comes after a statement comes after its first token. -/
theorem suffix_of_reads : d.rest <:+ tokenText c.rest := by
  have token := c.leads_tokenAfter 0
  have beyond := (reads.ensured (ensures_readStatement n c)).beyond
  obtain ⟨before, here, place⟩ := (front.trans token).passed
  obtain ⟨longer, there, further⟩ := (front.trans reads.leads).passed
  have ordered := Nat.le_trans (Nat.le_of_lt beyond.passed) beyond.settled
  obtain ⟨middle, _, rest⟩ := eq_append_of_le (here.symm.trans there) (by omega)
  exact ⟨middle, by rw [← rest_tokenAfter, rest]⟩

/-- A statement in whose characters no comment ends has no text in which one ends. -/
theorem uncommented_of_reads (deep : 2 * text.length + 1 < n) (found : statement.node? = some node)
    (unended : Unended (tokenText c.rest)) : Uncommented node := by
  have token := c.leads_tokenAfter 0
  have read := reads.ensured (ensures_readStatement n c)
  obtain ⟨before, whole, place⟩ := (front.trans token).passed
  rw [rest_tokenAfter] at whole
  refine uncommented_statement unended whole (fun extent stands => ⟨read.cut front reads.leads extent stands, ?_⟩)
    (reads.ensured (parts_readStatement n front)) (reads.ensured (attributed_readStatement deep front)) found
  obtain rfl := read.extent extent stands
  exact Nat.le_of_eq (by rw [place]; simp [Cursor.start])

end Read

/-- The statements of a script that were left as others are read again, as these others. -/
theorem reread_of_rewritten (deep : 2 * text.length + 2 < n) (ends : endsLines text = true)
    (front : (Cursor.start text).Leads c) (rewritten : Rewritten left (reader n) c statements out)
    (redrafts : ∀ node ∈ statements.filterMap Statement.node?, Redrafts left node) :
    ∃ front old new, Reread c out ((statements.filterMap Statement.node?).flatMap left) front old new := by
  have ahead : ∀ {c : Cursor}, (Cursor.start text).Leads c → c.Before c.rest ∧ c.reached ≤ c.offset ∧
      endsLines c.rest = true ∧ 2 * c.rest.length + 2 < n := by
    intro c front
    obtain ⟨passed, characters, _⟩ := front.passed
    have whole : text = passed ++ c.rest := characters
    rw [whole, List.length_append] at deep
    exact ⟨(before_start text).later front, front.reached_le_offset,
      endsLines_right (whole ▸ ends), by omega⟩
  induction rewritten with
  | stop finish => exact ⟨_, _, _, reread_stop finish⟩
  | @kept c d statement statements passed after reads same split _ inductionHypothesis =>
    obtain ⟨here, settled, lines, enough⟩ := ahead front
    have nodes : ((statement :: statements).filterMap Statement.node?).flatMap left =
        statement.node?.toList ++ (statements.filterMap Statement.node?).flatMap left := by
      cases found : statement.node? with
      | none => simp [found]
      | some node => simp [found, same node found]
    have others : ∀ node ∈ statements.filterMap Statement.node?, Redrafts left node := by
      intro node membership
      obtain ⟨other, among, found⟩ := List.mem_filterMap.mp membership
      exact redrafts node (List.mem_filterMap.mpr ⟨other, List.mem_cons_of_mem _ among, found⟩)
    obtain ⟨_, _, _, reread⟩ := inductionHypothesis (front.trans reads.leads) others
    rw [nodes]
    exact ⟨_, _, _, reread.kept reads split here settled lines enough⟩
  | @changed c d statement statements node word texts blanks after next found keyword differs some printed
      split _ inductionHypothesis =>
    obtain ⟨here, settled, lines, _⟩ := ahead front
    obtain ⟨_, reads⟩ := reads_nextStatement.mp next
    rw [List.filterMap_cons_some found] at redrafts ⊢
    obtain ⟨redraft, others⟩ := List.forall_mem_cons.mp redrafts
    obtain ⟨_, _, _, reread⟩ := inductionHypothesis (front.trans reads.leads) others
    obtain ⟨drafts, same⟩ := redrafts_of_drafted keyword found
      (reads.ensured (attributed_readStatement (by omega) front)) redraft.descends
      (redraft.drafted.resolve_left differs)
    have written := printed.symm.trans (mapM_of_redrafts same)
    rw [Except.ok.injEq, List.map_inj_right fun _ _ => Value.str.inj] at written
    subst written
    cases drafts with
    | nil => simp at some
    | cons first drafts =>
      rw [List.flatMap_cons, ← Draft.lines_eq]
      refine ⟨_, _, _, reread.changed (suffix_of_reads front reads) reads.leads
        (reads.ensured (keyed_readStatement n c) word keyword) same
        (uncommented_of_reads front reads (by omega) found) (fun raw told more => ?_) split here lines⟩
      have length := same.length_eq
      have several := List.length_pos_iff.mpr more
      rw [List.length_cons] at length
      exact redraft.comments raw told (by omega)

end Rewritten

section Line

variable {b : Border} {c : Cursor}

theorem Lexeme.first_interpreterLine (rest : List Char) :
    Lexeme.first ('#' :: '!' :: rest) = .mark "#" := by
  have hash : isNamePart '#' = false := by decide
  have bang : isNamePart '!' = false := by decide
  simp [Lexeme.first, nameLength, namePartsLength, namePartLength?, hash, bang, longMarks]

/-- What stops before the border stops before what comes in its place. -/
theorem takeWhile_stops {old new further rest : List Char} {p : Char → Bool} (meets : Meets old new)
    (stops : rest.drop (rest.takeWhile p).length = further ++ old) :
    (rest.takeWhile p ++ (further ++ new)).takeWhile p = rest.takeWhile p := by
  have head := meets.head?_append further
  induction rest with
  | nil =>
    rw [← stops] at head
    simp [List.head?_eq_none_iff.mp head.symm]
  | cons c rest inductionHypothesis =>
    cases within : p c with
    | true =>
      rw [List.takeWhile_cons_of_pos within, List.length_cons, List.drop_succ_cons] at stops
      rw [List.takeWhile_cons_of_pos within, List.cons_append, List.takeWhile_cons_of_pos within,
        inductionHypothesis stops]
    | false =>
      have ends : ¬p c = true := by simp [within]
      rw [List.takeWhile_cons_of_neg ends] at stops ⊢
      rw [← stops] at head
      obtain ⟨tail, begins⟩ := List.head?_eq_some_iff.mp head.symm
      rw [List.nil_append, begins, List.takeWhile_cons_of_neg ends]

/-- The line for the interpreter is passed in both scripts: it ends before the border, or both scripts end
there. -/
theorem Border.follows_passInterpreterLine :
    b.Follows b.Clear b.Clear passInterpreterLine passInterpreterLine c := by
  refine follows_ahead fun first' near => ?_
  by_cases line : ['#', '!'] <+: (c.tokenAfter 0).rest
  · obtain ⟨rest, begins⟩ := line
    replace begins : (c.tokenAfter 0).rest = '#' :: '!' :: rest := begins.symm
    rw [begins]
    refine Follows.assuming_reads fun _ d reads clear => ?_
    obtain rfl := reads_pass.mp reads
    have token : tokenText c.rest = '#' :: '!' :: rest := (rest_tokenAfter c).symm.trans begins
    obtain ⟨further, left⟩ := clear.inside
    rw [rest_past, token, Nat.add_comm, List.drop_succ_cons, List.drop_succ_cons] at left
    obtain ⟨rest', begins', same⟩ : ∃ rest', first'.rest = '#' :: '!' :: rest' ∧
        rest'.takeWhile (· != '\n') = rest.takeWhile (· != '\n') := by
      rcases near.rest_cases with same | ⟨front, before, after⟩
      · exact ⟨rest, same.trans begins, rfl⟩
      · refine ⟨rest.takeWhile (· != '\n') ++ (further ++ b.new), ?_, takeWhile_stops b.meets left⟩
        have whole : front ++ b.old =
            '#' :: '!' :: (rest.takeWhile (· != '\n') ++ further) ++ b.old := by
          have rest_eq : rest = rest.takeWhile (· != '\n') ++ (further ++ b.old) := by
            have prefixed := List.prefix_iff_eq_take.mp (@List.takeWhile_prefix _ rest (· != '\n'))
            conv => lhs; rw [← List.take_append_drop (rest.takeWhile (· != '\n')).length rest]
            rw [← prefixed, left]
          rw [← before, begins, List.cons_append, List.cons_append, List.append_assoc, ← rest_eq]
        rw [after, List.append_cancel_right whole]
        simp
    rw [begins']
    show b.Follows b.Clear b.Clear (pass _) (pass _) c
    rw [same]
    have found : (c.tokenAfter 0).lexeme = .mark "#" := by
      rw [lexeme_tokenAfter, token, Lexeme.first_interpreterLine]
    exact follows_pass found (by simp) (by omega) (by simp [Lexeme.chained])
  · have other : ¬['#', '!'] <+: first'.rest := by
      rintro ⟨rest, begins⟩
      rcases near.rest_cases with same | ⟨front, before, after⟩
      · exact line ⟨rest, begins.trans same⟩
      · obtain ⟨tail, rfl⟩ := b.meets.cons_of_append (.inr rfl) (by decide) (after.symm.trans begins.symm)
        rw [List.cons_append] at after
        obtain ⟨tail, rfl⟩ := b.meets.cons_of_append (.inr rfl) (by decide)
          (List.cons.inj (begins.trans after)).2.symm
        exact line ⟨tail ++ b.old, before.symm⟩
    split
    · next rest begins => exact absurd ⟨rest, begins.symm⟩ line
    · split
      · next rest begins => exact absurd ⟨rest, begins.symm⟩ other
      · exact follows_pure rfl

end Line

/-- A script whose statements were left as others is parsed, as these others. -/
theorem parse_again {code text : String} {tree : Tree} {left : Value → List Value}
    (parsed : parse code = .ok tree) (ends : endsLines code.toList = true)
    (inert : ∀ extent kind, left (otherNode extent kind) = [otherNode extent kind])
    (redrafts : ∀ node ∈ tree.body, Redrafts left node)
    (spliced : Emit.Spliced (Text.Utf8.encode code) left 0 tree.body (Text.Utf8.encode text)) :
    ∃ again, parse text = .ok again ∧ List.Forall₂ Echoes (tree.body.flatMap left) again.body := by
  obtain ⟨c, m, line, repeats, finish⟩ := reads_of_parse parsed
  obtain ⟨out, whole, rewritten⟩ := rewritten_of_spliced inert repeats finish line.leads
    (Nat.zero_le _) spliced
  obtain ⟨front, old, new, reread⟩ :=
    reread_of_rewritten (by omega) ends line.leads rewritten redrafts
  obtain ⟨passed, characters, place⟩ := line.leads.passed
  have begun := stretch_passed (c := Cursor.start code.toList) .refl characters place
  have zero : (Cursor.start code.toList).offset = 0 := rfl
  rw [zero] at begun
  rw [begun, ← Text.Utf8.encodeChars_append] at whole
  have written : text.toList = passed ++ out := by
    have same : text = String.ofList (passed ++ out) := by
      refine Text.Utf8.encode_injective (whole.trans ?_)
      rw [Text.Utf8.encode, String.toList_ofList]
    rw [same, String.toList_ofList]
  have split : code.toList = passed ++ front ++ old := by
    rw [List.append_assoc, ← reread.here]
    exact characters
  have start : Abreast (Cursor.start code.toList) (Cursor.start text.toList) (passed ++ front) old new := by
    refine .of_settled ?_ ?_ rfl rfl
    · rw [← split]
      exact before_start _
    · rw [List.append_assoc, ← reread.there, ← written]
      exact before_start _
  have comments : CommentsEnd old new (passed ++ front) :=
    ⟨reread.meets.endsLines (split ▸ ends), .inr reread.keeps⟩
  let b := start.border reread.meets
  obtain ⟨_, _, again, _⟩ := @Border.follows_passInterpreterLine b (Cursor.start code.toList) _ _
    (start.valid reread.meets comments) line reread.clear
  rw [start.moved] at again
  obtain ⟨statements, e, repeated, finish, echoes⟩ := reread.again (n := 2 * text.toList.length + 16)
    (by rw [written, List.length_append]; omega) (start.later reread.meets line.leads reread.here)
  exact ⟨_, parse_of_reads again repeated finish, echoes⟩

end ImportRedirect.Script
