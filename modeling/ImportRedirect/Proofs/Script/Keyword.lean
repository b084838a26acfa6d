import ImportRedirect.Proofs.Script.Follow.Statement

/-!
The keywords of imports and declarations. No arrow comes after them, so they are not taken for names, and
the statement ends where the cursor is left.
-/

namespace ImportRedirect.Script

/-- The word with which an import or a declaration begins. -/
def Statement.keyword? : Statement → Option String
  | .importing .. => some "import"
  | .declaration _ binder _ => some binder.name
  | _ => none

/-- What is known of the cursors around a statement that begins with a keyword. -/
structure Keyed (word : String) (origin c : Cursor) : Prop where
  found : (origin.tokenAfter 0).lexeme = .word word
  noArrow : origin.second ≠ .mark "=>"
  settled : c.reached = c.offset

namespace Readers

open Scan

variable {read : Readers} {first origin : Cursor}

theorem settled_takeLineEnd (complete : Bool) :
    (takeLineEnd complete).Ensures origin fun ended c => ended = true → c.reached = c.offset := by
  rw [takeLineEnd, ensures_bind]
  refine ensures_of_leads fun ended c _ => ?_
  cases ended with
  | true => simp [Cursor.settle]
  | false => simp

theorem settled_expectMark (mark : String) :
    (expectMark mark).Ensures origin fun _ c => c.reached = c.offset := by
  rw [expectMark, ensures_expect]
  exact fun _ => rfl

theorem settled_semicolon (complete : Bool) :
    (semicolon complete).Ensures origin fun _ c => c.reached = c.offset := by
  rw [semicolon, ensures_bind]
  refine (settled_takeLineEnd complete).mono fun ended c _ settled => ?_
  cases ended with
  | true => simpa using settled
  | false => exact settled_expectMark ";"

theorem keyword_importTail (specifiers : List Specifier) (source : Extent) :
    (read.importTail first specifiers source).Ensures origin fun statement c =>
      statement.keyword? = some "import" ∧ c.reached = c.offset := by
  rw [importTail, ensures_bind]
  refine (settled_takeLineEnd false).mono fun ended c _ settled => ?_
  cases ended with
  | true => simpa [Statement.keyword?] using settled
  | false =>
    simp only [Bool.false_eq_true, if_false, ensures_bind, ensures_ahead]
    refine ensures_of_leads fun given d _ => ?_
    have ends : ∀ (attributes : Option Extent) (e : Cursor), (semicolon false).Ensures e fun _ f =>
        (Statement.importing ⟨first.offset, first.rest, f.reached⟩ specifiers source
          attributes).keyword? = some "import" ∧ f.reached = f.offset :=
      fun _ _ => (settled_semicolon false).mono fun _ _ _ settled => ⟨rfl, settled⟩
    cases given with
    | true =>
      simp only [if_true, ensures_bind, ensures_ahead, ensures_pure, ensures_extentFrom]
      exact ensures_of_leads fun _ _ _ => ensures_of_leads fun _ _ _ => ends _ _
    | false =>
      simp only [Bool.false_eq_true, if_false, ensures_bind, ensures_pure, ensures_extentFrom]
      exact ends none d

theorem noArrow_importDeclaration : (read.importDeclaration first).Ensures origin
    fun _ _ => ((origin.past 6).tokenAfter 0).lexeme ≠ .mark "=>" := by
  by_cases arrow : ((origin.past 6).tokenAfter 0).lexeme = .mark "=>"
  · rw [ensures_importDeclaration]
    simp [arrow, importClause, importedNames, acceptMark, ensures_accept, expectMark, ensures_expect]
  · exact ensures_of_leads fun _ _ _ => arrow

theorem keyed_importDeclaration (found : (origin.tokenAfter 0).lexeme = .word "import") :
    (read.importDeclaration first).Ensures origin fun statement c =>
      ∀ word ∈ statement.keyword?, Keyed word origin c := by
  have second : origin.second = ((origin.past 6).tokenAfter 0).lexeme := by
    rw [← Cursor.lexeme_past, found]
    rfl
  have ends : (read.importDeclaration first).Ensures origin fun statement c =>
      statement.keyword? = some "import" ∧ c.reached = c.offset := by
    rw [ensures_importDeclaration]
    split
    · exact ensures_of_leads fun source c _ => keyword_importTail [] source
    · exact ensures_of_leads fun specifiers c _ => ensures_of_leads fun source d _ =>
        keyword_importTail specifiers source
  refine (ends.and noArrow_importDeclaration).mono fun statement c _ holds word known => ?_
  obtain ⟨⟨keyword, settled⟩, noArrow⟩ := holds
  obtain rfl := Option.some.inj (keyword.symm.trans known)
  exact ⟨found, by rwa [second], settled⟩

theorem settled_declaratorsWithin (mode : Mode) (n : Nat) :
    (read.declaratorsWithin mode n).Ensures origin fun _ c => c.reached = c.offset := by
  induction n generalizing origin with
  | zero => exact ensures_unexpected _
  | succ n inductionHypothesis =>
    rw [declaratorsWithin, ensures_bind]
    refine ensures_of_leads fun result c _ => ?_
    obtain ⟨declarator, ended⟩ := result
    cases ended with
    | true => simp [Cursor.settle]
    | false =>
      simp only [Bool.false_eq_true, if_false, ensures_bind]
      refine ensures_of_leads fun more d _ => ?_
      cases more with
      | true => simpa using inductionHypothesis
      | false => simpa using settled_expectMark ";"

theorem noArrow_declaratorsWithin (mode : Mode) (n : Nat) :
    (read.declaratorsWithin mode n).Ensures origin
      fun _ _ => (origin.tokenAfter 0).lexeme ≠ .mark "=>" := by
  by_cases arrow : (origin.tokenAfter 0).lexeme = .mark "=>"
  · cases n with
    | zero => exact ensures_unexpected _
    | succ n => simp [declaratorsWithin, declarator, bindingTarget, name, arrow]
  · exact ensures_of_leads fun _ _ _ => arrow

theorem keyed_declarationFrom (binder : Binder)
    (found : (origin.tokenAfter 0).lexeme = .word binder.name) :
    (read.declarationFrom first binder).Ensures origin fun statement c =>
      ∀ word ∈ statement.keyword?, Keyed word origin c := by
  have second : origin.second = ((origin.past binder.name.length).tokenAfter 0).lexeme := by
    rw [← Cursor.lexeme_past, found]
    rfl
  rw [declarationFrom, ensures_bind, ensures_pass, ensures_bind, ensures_cursor, ensures_bind]
  refine ((settled_declaratorsWithin _ _).and (noArrow_declaratorsWithin _ _)).mono ?_
  intro declarators c _ holds
  simp only [ensures_bind, ensures_extentFrom, ensures_pure, Statement.keyword?, Option.mem_some_iff]
  rintro word rfl
  exact ⟨found, by rw [second]; exact holds.2, holds.1⟩

end Readers

open Readers in
theorem keyed_readStatement (n : Nat) (origin : Cursor) :
    (reader n .statement).Ensures origin fun statement c =>
      ∀ word ∈ statement.keyword?, Keyed word origin c := by
  cases n with
  | zero => exact Scan.ensures_unexpected _
  | succ n =>
    refine ensures_chosen (passes_readExpression n) (fun _ => by simp [Statement.keyword?]) ?_
    intro scan chosen
    cases chosen with
    | other ends passes =>
      refine (ends origin).mono fun statement c _ known => ?_
      obtain ⟨kind, rfl⟩ := known
      simp [Statement.keyword?]
    | importing found => exact keyed_importDeclaration found
    | declaring binder found => exact keyed_declarationFrom binder found

end ImportRedirect.Script
