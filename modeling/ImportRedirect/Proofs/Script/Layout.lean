import ImportRedirect.Proofs.Script.Shape

/-!
Where the statements of a script stand. They follow each other without overlap, none of them is
empty, and each starts and stops between two characters.
-/

namespace ImportRedirect.Script

/-- A number of bytes after which a character of the text ends. -/
def Boundary (text : List Char) (place : Nat) : Prop :=
  ∃ before after, text = before ++ after ∧ place = byteLength before

namespace Cursor

variable {text : List Char} {c : Cursor}

theorem Leads.boundary_offset (leads : (start text).Leads c) : Boundary text c.offset := by
  obtain ⟨before, characters, bytes⟩ := leads.passed
  exact ⟨before, c.rest, characters, by simpa [start] using bytes⟩

theorem Leads.boundary_reached (leads : (start text).Leads c) : Boundary text c.reached := by
  induction leads with
  | refl => exact ⟨[], text, rfl, rfl⟩
  | step _ inductionHypothesis => exact inductionHypothesis
  | settle leads _ => exact leads.boundary_offset

theorem Leads.reached_le_offset (leads : (start text).Leads c) : c.reached ≤ c.offset :=
  (leads.reached_le (Nat.le_refl _)).2

end Cursor

/-- Statements that stand in a text one after the other, from some byte on. -/
inductive Laid (text : List Char) : Nat → List Statement → Prop where
  | nil {start : Nat} : Laid text start []
  | empty {start : Nat} {rest : List Statement} :
      Laid text start rest → Laid text start (.empty :: rest)
  | cons {start : Nat} {statement : Statement} {extent : Extent} {rest : List Statement}
      (place : statement.extent? = some extent) (after : start ≤ extent.start)
      (nonempty : extent.start < extent.stop) (begins : Boundary text extent.start)
      (ends : Boundary text extent.stop) :
      Laid text extent.stop rest → Laid text start (statement :: rest)

namespace Laid

variable {text : List Char}

theorem earlier {start earlier : Nat} {statements : List Statement}
    (laid : Laid text start statements) (before : earlier ≤ start) :
    Laid text earlier statements := by
  induction laid generalizing earlier with
  | nil => exact .nil
  | empty _ inductionHypothesis => exact .empty (inductionHypothesis before)
  | cons place after nonempty begins ends rest =>
    exact .cons place (Nat.le_trans before after) nonempty begins ends rest

theorem cons_read {statement : Statement} {rest : List Statement} {origin c : Cursor}
    (front : (Cursor.start text).Leads origin) (back : origin.Leads c)
    (read : statement.Read (origin.tokenAfter 0) c) (laid : Laid text c.reached rest) :
    Laid text origin.reached (statement :: rest) := by
  have token := origin.leads_tokenAfter 0
  have after : origin.reached ≤ (origin.tokenAfter 0).offset :=
    Nat.le_trans front.reached_le_offset token.offset_le
  cases place : statement.extent? with
  | none =>
    cases statement with
    | empty => exact .empty (laid.earlier (back.reached_le front.reached_le_offset).1)
    | _ => simp [Statement.extent?] at place
  | some extent =>
    obtain rfl := read.extent extent place
    exact .cons place after read.beyond.passed (front.trans token).boundary_offset
      (front.trans back).boundary_reached laid

end Laid

namespace Scan

variable {text : List Char} {origin : Cursor}

/-- Statements that are read one after the other until the text ends. -/
theorem ensures_statements {step : Scan Statement}
    (each : ∀ origin, step.Ensures origin (Statement.Read (origin.tokenAfter 0))) (n : Nat)
    (front : (Cursor.start text).Leads origin) :
    (manyWithin (do if ← sees .finish then pure none else return some (← step)) n).Ensures origin
      fun statements _ => Laid text origin.reached statements ∧
        ∀ statement ∈ statements, statement.Regular := by
  -- The place from which the rest is laid is where the last token of this statement ended.
  induction n generalizing origin with
  | zero => exact (ensures_pure _ _).mpr ⟨.nil, by simp⟩
  | succ n inductionHypothesis =>
    rw [manyWithin, ensures_bind, ensures_bind, ensures_sees]
    split
    · simpa using Laid.nil
    · simp only [ensures_bind, ensures_pure]
      refine (each origin).mono fun statement c back read => ?_
      refine (inductionHypothesis (front.trans back)).mono fun rest _ _ holds => ?_
      refine ⟨.cons_read front back read holds.1, fun other membership => ?_⟩
      rcases List.mem_cons.mp membership with rfl | membership
      · exact read.regular
      · exact holds.2 other membership

end Scan

/-- What reading a script ensures of its statements, whatever the bound on its depth, if only it is
deep enough. -/
theorem holds_of_parse {code : String} {tree : Tree} (property : List Statement → Prop)
    (parsed : parse code = .ok tree)
    (ensures : ∀ depth, 2 * code.toList.length + 1 < depth →
      (scriptWith (reader depth)).Ensures (Cursor.start code.toList)
        fun statements _ => property statements) : property tree.statements := by
  unfold parse at parsed
  dsimp only at parsed
  split at parsed
  · simp at parsed
  · next outcome succeeds =>
    obtain rfl := Except.ok.inj parsed
    exact ensures _ (by omega) outcome succeeds

/-- The statements of a script stand one after the other, and have the forms that can be read. -/
theorem laid_of_parse {code : String} {tree : Tree} (parsed : parse code = .ok tree) :
    Laid code.toList 0 tree.statements ∧ ∀ statement ∈ tree.statements, statement.Regular := by
  refine holds_of_parse (fun statements => Laid code.toList 0 statements ∧
    ∀ statement ∈ statements, statement.Regular) parsed fun depth _ => ?_
  rw [scriptWith, Scan.ensures_bind]
  refine Scan.ensures_of_leads fun _ c front => ?_
  rw [Scan.many, Scan.ensures_bind, Scan.ensures_cursor]
  refine (Scan.ensures_statements (ensures_readStatement depth) _ front).mono
    fun statements _ _ holds => ?_
  exact ⟨holds.1.earlier (Nat.zero_le _), holds.2⟩

end ImportRedirect.Script
