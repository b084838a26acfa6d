import ImportRedirect.Proofs.Script.Finding
import ImportRedirect.Proofs.Script.Keyword
import ImportRedirect.Proofs.Script.Placement
import ImportRedirect.Proofs.Script.Repetition

/-!
A script whose statements gave way to others, as it is read: beside each statement stand the characters
that were passed with it, or what was printed in their place.
-/

namespace ImportRedirect.Script

open Scan Emit Text Text.Utf8

theorem Cursor.before_start (text : List Char) : (Cursor.start text).Before text :=
  ⟨rfl, by simp [Cursor.start]⟩

/-- One step of reading a script: the next statement, unless the script is at its end. -/
def nextStatement (read : Readers) : Scan (Option Statement) := do
  if ← sees .finish then pure none else return some (← read .statement)

section Steps

variable {read : Readers} {c d : Cursor} {statement : Statement}

theorem reads_nextStatement : (nextStatement read).Reads c (some statement) d ↔
    (c.tokenAfter 0).lexeme ≠ .finish ∧ (read .statement).Reads c statement d := by
  by_cases finish : (c.tokenAfter 0).lexeme = .finish <;> simp [nextStatement, reads_bind, finish]

theorem reads_nextStatement_none : (nextStatement read).Reads c none d ↔
    (c.tokenAfter 0).lexeme = .finish ∧ d = c := by
  by_cases finish : (c.tokenAfter 0).lexeme = .finish <;> simp [nextStatement, reads_bind, finish]

theorem advances_nextStatement (n : Nat) (c : Cursor) : (nextStatement (reader n)).Advances c := by
  refine advances_bind fun finish m _ => ?_
  cases finish with
  | true => exact advances_none
  | false => exact ((Border.progresses_reader n).statementPasses m).consumes.advances _

theorem reads_of_parse {code : String} {tree : Tree} (parsed : parse code = .ok tree) :
    ∃ c m, passInterpreterLine.Reads (Cursor.start code.toList) () c ∧
      (nextStatement (reader (2 * code.toList.length + 16))).Repeats c tree.statements m ∧
      (m.tokenAfter 0).lexeme = .finish := by
  unfold parse at parsed
  dsimp only at parsed
  split at parsed
  · cases parsed
  · next outcome succeeds =>
    obtain rfl := Except.ok.inj parsed
    have reads : (scriptWith _).Reads _ _ _ := ⟨outcome.property, succeeds⟩
    obtain ⟨_, c, line, loop⟩ := reads_bind.mp reads
    have sized := ((Cursor.before_start code.toList).later line.leads).length_le
    obtain ⟨m, repeats, last⟩ := (reads_many (fun m _ => advances_nextStatement _ m) sized).mp loop
    exact ⟨c, m, line, repeats, (reads_nextStatement_none.mp last).1⟩

/-- A script is parsed when its statements can be read one after the other up to its end. -/
theorem parse_of_reads {code : String} {statements : List Statement}
    (line : passInterpreterLine.Reads (Cursor.start code.toList) () c)
    (repeats : (nextStatement (reader (2 * code.toList.length + 16))).Repeats c statements d)
    (finish : (d.tokenAfter 0).lexeme = .finish) :
    parse code = .ok ⟨statements, byteLength code.toList⟩ := by
  have sized := ((Cursor.before_start code.toList).later line.leads).length_le
  have loop := (reads_many (fun m _ => advances_nextStatement _ m) sized).mpr
    ⟨d, repeats, reads_nextStatement_none.mpr ⟨finish, rfl⟩⟩
  have reads : (scriptWith (reader (2 * code.toList.length + 16))).Reads _ statements d :=
    reads_bind.mpr ⟨(), c, line, loop⟩
  obtain ⟨_, succeeds⟩ := reads
  rw [parse, succeeds]

end Steps

/-- Statements that are read from a cursor on, each left as others, and the characters that stand there
then: those that were passed with the statement, or what was printed in place of those from its first
token on. -/
inductive Rewritten (left : Value → List Value) (read : Readers) :
    Cursor → List Statement → List Char → Prop where
  | stop {c : Cursor} (finish : (c.tokenAfter 0).lexeme = .finish) : Rewritten left read c [] c.rest
  | kept {c d : Cursor} {statement : Statement} {statements : List Statement} {passed after : List Char}
      (reads : (nextStatement read).Reads c (some statement) d)
      (same : ∀ node, statement.node? = some node → left node = [node])
      (split : c.rest = passed ++ d.rest) (others : Rewritten left read d statements after) :
      Rewritten left read c (statement :: statements) (passed ++ after)
  | changed {c d : Cursor} {statement : Statement} {statements : List Statement} {node : Value}
      {word : String} {texts : List String} {blanks after : List Char}
      (reads : (nextStatement read).Reads c (some statement) d) (found : statement.node? = some node)
      (keyword : statement.keyword? = some word) (differs : left node ≠ [node]) (some : texts ≠ [])
      (printed : (left node).mapM Emit.statement = .ok (texts.map .str))
      (split : c.rest = blanks ++ tokenText c.rest) (others : Rewritten left read d statements after) :
      Rewritten left read c (statement :: statements)
        (blanks ++ (("\n".intercalate texts).toList ++ after))

section Spliced

variable {text : List Char} {left : Value → List Value} {c d m : Cursor} {n place : Nat}
  {statements : List Statement} {bytes : List UInt8}

theorem stretch_append {bytes : List UInt8} {first second third : Nat} (ordered : first ≤ second)
    (more : second ≤ third) :
    stretch bytes first second ++ stretch bytes second third = stretch bytes first third := by
  have length : third - first = (second - first) + (third - second) := by omega
  rw [stretch, stretch, stretch, length, List.take_add, List.drop_drop, Nat.add_sub_cancel' ordered]

theorem Cursor.drop_encodeChars (front : (Cursor.start text).Leads c) :
    (encodeChars text).drop c.offset = encodeChars c.rest := by
  obtain ⟨passed, characters, bytes⟩ := front.passed
  have whole : text = passed ++ c.rest := characters
  have place : c.offset = byteLength passed := bytes.trans (Nat.zero_add _)
  rw [whole, place, encodeChars_append, ← length_encodeChars, List.drop_left]

theorem Cursor.stretch_passed (front : (Cursor.start text).Leads c) {passed : List Char}
    (split : c.rest = passed ++ d.rest) (bytes : d.offset = c.offset + byteLength passed) :
    stretch (encodeChars text) c.offset d.offset = encodeChars passed := by
  rw [stretch, Cursor.drop_encodeChars front, split, encodeChars_append, bytes,
    Nat.add_sub_cancel_left, ← length_encodeChars, List.take_left]

/-- What a script becomes when its statements are left as others, statement by statement. -/
theorem rewritten_of_spliced (inert : ∀ extent kind, left (otherNode extent kind) = [otherNode extent kind])
    (repeats : (nextStatement (reader n)).Repeats c statements m)
    (finish : (m.tokenAfter 0).lexeme = .finish) (front : (Cursor.start text).Leads c)
    (low : place ≤ c.offset)
    (spliced : Emit.Spliced (encodeChars text) left place (statements.filterMap Statement.node?) bytes) :
    ∃ out, bytes = stretch (encodeChars text) place c.offset ++ encodeChars out ∧
      Rewritten left (reader n) c statements out := by
  induction repeats generalizing place bytes with
  | stop =>
    cases spliced
    refine ⟨_, ?_, .stop finish⟩
    rw [← Cursor.drop_encodeChars front, stretch_append_drop low]
  | @more c d m statement statements one _ inductionHypothesis =>
    have onward := front.trans one.leads
    obtain ⟨passed, split, bytes⟩ := one.leads.passed
    have ahead := Cursor.stretch_passed front split bytes
    obtain ⟨_, reads⟩ := reads_nextStatement.mp one
    have read := reads.ensured (ensures_readStatement n c)
    cases found : statement.node? with
    | none =>
      rw [List.filterMap_cons_none found] at spliced
      obtain ⟨out, rfl, others⟩ := inductionHypothesis finish onward
        (Nat.le_trans low one.leads.offset_le) spliced
      refine ⟨passed ++ out, ?_, .kept one (by simp [found]) split others⟩
      rw [encodeChars_append, ← ahead, ← List.append_assoc, stretch_append low one.leads.offset_le]
    | some node =>
      have placed : ∃ extent, statement.extent? = some extent := by
        cases statement <;> simp [Statement.node?, Statement.extent?] at found ⊢
      obtain ⟨extent, stands⟩ := placed
      obtain ⟨first, last⟩ := peek_place_node stands found
      have token := c.leads_tokenAfter 0
      obtain rfl := read.extent extent stands
      rw [List.filterMap_cons_some found] at spliced
      cases spliced with
      | @cons _ start stop _ _ block after begins ends ordered nonempty inside replaced remaining =>
        obtain rfl := Int.natCast_inj.mp (Value.int.inj (first.symm.trans begins))
        obtain rfl := Int.natCast_inj.mp (Value.int.inj (last.symm.trans ends))
        obtain ⟨out, rfl, others⟩ := inductionHypothesis finish onward onward.reached_le_offset remaining
        cases replaced with
        | @kept start stop unchanged begins ends =>
          obtain rfl := Int.natCast_inj.mp (Value.int.inj (first.symm.trans begins))
          obtain rfl := Int.natCast_inj.mp (Value.int.inj (last.symm.trans ends))
          have same : ∀ other, statement.node? = some other → left other = [other] := by
            intro other known
            obtain rfl := Option.some.inj (found.symm.trans known)
            exact unchanged
          refine ⟨passed ++ out, ?_, .kept one same split others⟩
          have settled := onward.reached_le_offset
          have within : place ≤ d.reached := Nat.le_trans ordered (Nat.le_of_lt nonempty)
          rw [encodeChars_append, ← ahead, stretch_append ordered (Nat.le_of_lt nonempty),
            ← List.append_assoc, ← List.append_assoc, stretch_append low one.leads.offset_le,
            stretch_append within settled]
        | @printed texts differs some _ printed =>
          have keyed : ∃ word, statement.keyword? = Option.some word := by
            cases statement with
            | empty => cases found
            | importing => exact ⟨_, rfl⟩
            | declaration => exact ⟨_, rfl⟩
            | other extent kind =>
              obtain rfl := Option.some.inj found
              exact absurd (inert extent kind) differs
          obtain ⟨word, keyword⟩ := keyed
          have settled := (reads.ensured (keyed_readStatement n c) word keyword).settled
          obtain ⟨blanks, before, bytes⟩ := token.passed
          have blank := Cursor.stretch_passed front before bytes
          rw [Cursor.rest_tokenAfter] at before
          refine ⟨blanks ++ (("\n".intercalate texts).toList ++ out), ?_,
            .changed one found keyword differs (List.length_pos_iff.mp some) printed before others⟩
          have none : stretch (encodeChars text) d.reached d.offset = [] := by
            rw [settled, stretch, Nat.sub_self, List.take_zero]
          have word : Utf8.encode ("\n".intercalate texts) =
              encodeChars ("\n".intercalate texts).toList := rfl
          rw [none, List.nil_append, word, encodeChars_append, encodeChars_append, ← blank,
            ← List.append_assoc, ← List.append_assoc, stretch_append low token.offset_le]

end Spliced

end ImportRedirect.Script
