import ImportRedirect.Script.Statement

/-!
What a reader ensures when it does not fail: a condition on its result and on the cursor it leaves.
The rules take a reader apart step by step; readers that are not looked into are known to move the
cursor forward, by their type.
-/

namespace ImportRedirect.Script

namespace Cursor

/-- Reading on never takes back where the last token ended. -/
theorem Leads.reached_le {first second : Cursor} (leads : first.Leads second)
    (settled : first.reached ≤ first.offset) :
    first.reached ≤ second.reached ∧ second.reached ≤ second.offset := by
  induction leads with
  | refl => exact ⟨Nat.le_refl _, settled⟩
  | step _ inductionHypothesis =>
    simp only at inductionHypothesis ⊢
    omega
  | settle _ inductionHypothesis =>
    simp only at inductionHypothesis ⊢
    omega

theorem drop_add (first second : Nat) (c : Cursor) :
    c.drop (first + second) = (c.drop first).drop second := by
  induction first generalizing c with
  | zero => simp [drop]
  | succ first inductionHypothesis =>
    obtain ⟨offset, rest, reached, size⟩ := c
    rw [Nat.succ_add]
    cases rest with
    | nil => cases second <;> rfl
    | cons character rest => exact inductionHypothesis _

/-- Passing at least one character of those that are left moves the cursor. -/
theorem offset_lt_drop {c : Cursor} {count : Nat} (some : count ≠ 0) (left : c.rest ≠ []) :
    c.offset < (c.drop count).offset := by
  obtain ⟨offset, rest, reached, size⟩ := c
  cases count with
  | zero => exact absurd rfl some
  | succ count =>
    cases rest with
    | nil => exact absurd rfl left
    | cons character rest =>
      have moved := (leads_drop count ⟨offset + character.utf8Size, rest, reached, size⟩).offset_le
      have positive := character.utf8Size_pos
      simp only [drop] at moved ⊢
      omega

def past (c : Cursor) (count : Nat) : Cursor := (c.drop (triviaLength c.rest + count)).settle

theorem past_eq (c : Cursor) (count : Nat) : c.past count = ((c.tokenAfter 0).drop count).settle := by
  rw [past, drop_add]
  rfl

theorem leads_tokenAfter (c : Cursor) (count : Nat) : c.Leads (c.tokenAfter count) :=
  (c.leads_drop count).trans (leads_drop _ _)

end Cursor

namespace Scan

variable {α β : Type} {origin : Cursor}

/-- When the reader does not fail, its result and the cursor it leaves are like this. -/
def Ensures (scan : Scan α) (origin : Cursor) (post : α → Cursor → Prop) : Prop :=
  ∀ outcome, scan origin = .ok outcome → post outcome.val.1 outcome.val.2

theorem Ensures.mono {scan : Scan α} {post weaker : α → Cursor → Prop}
    (ensures : scan.Ensures origin post)
    (implies : ∀ a c, origin.Leads c → post a c → weaker a c) : scan.Ensures origin weaker :=
  fun outcome succeeds => implies _ _ outcome.property (ensures outcome succeeds)

theorem ensures_leads (scan : Scan α) : scan.Ensures origin fun _ c => origin.Leads c :=
  fun outcome _ => outcome.property

theorem ensures_of_leads {scan : Scan α} {post : α → Cursor → Prop}
    (always : ∀ a c, origin.Leads c → post a c) : scan.Ensures origin post :=
  scan.ensures_leads.mono fun a c leads _ => always a c leads

@[simp] theorem ensures_pure (a : α) (post : α → Cursor → Prop) :
    (pure a : Scan α).Ensures origin post ↔ post a origin := by
  constructor
  · intro ensures
    exact ensures ⟨(a, origin), .refl⟩ rfl
  · intro holds outcome succeeds
    obtain rfl := Except.ok.inj succeeds
    exact holds

section Bind

variable {first : Scan α} {next : α → Scan β} {a : α} {middle : Cursor} {offset : Nat}

theorem bind_of_error (failed : first origin = .error offset) :
    (first >>= next) origin = .error offset := by
  dsimp only [bind]
  rw [failed]

theorem bind_of_later_error {front : origin.Leads middle}
    (read : first origin = .ok ⟨(a, middle), front⟩) (failed : next a middle = .error offset) :
    (first >>= next) origin = .error offset := by
  dsimp only [bind]
  simp only [read, failed]

theorem bind_of_ok {front : origin.Leads middle}
    {last : { outcome : β × Cursor // middle.Leads outcome.2 }}
    (read : first origin = .ok ⟨(a, middle), front⟩) (again : next a middle = .ok last) :
    (first >>= next) origin = .ok ⟨last.val, front.trans last.property⟩ := by
  dsimp only [bind]
  simp only [read, again]

end Bind

@[simp] theorem ensures_bind (first : Scan α) (next : α → Scan β) (post : β → Cursor → Prop) :
    (first >>= next).Ensures origin post ↔
      first.Ensures origin fun a middle => (next a).Ensures middle post := by
  constructor
  · rintro ensures ⟨⟨a, middle⟩, front⟩ firstResult last nextResult
    exact ensures _ (bind_of_ok firstResult nextResult)
  · intro ensures outcome succeeds
    cases firstResult : first origin with
    | error offset =>
      rw [bind_of_error firstResult] at succeeds
      cases succeeds
    | ok middle =>
      obtain ⟨⟨a, middle⟩, front⟩ := middle
      cases nextResult : next a middle with
      | error offset =>
        rw [bind_of_later_error firstResult nextResult] at succeeds
        cases succeeds
      | ok last =>
        rw [bind_of_ok firstResult nextResult] at succeeds
        obtain rfl := Except.ok.inj succeeds
        exact ensures _ firstResult last nextResult

@[simp] theorem ensures_cursor (post : Cursor → Cursor → Prop) :
    cursor.Ensures origin post ↔ post origin origin :=
  ensures_pure origin post

@[simp] theorem ensures_advance (count : Nat) (post : Unit → Cursor → Prop) :
    (advance count).Ensures origin post ↔ post () (origin.drop count) := by
  constructor
  · intro ensures
    exact ensures ⟨((), origin.drop count), origin.leads_drop count⟩ rfl
  · intro holds outcome succeeds
    obtain rfl := Except.ok.inj succeeds
    exact holds

@[simp] theorem ensures_settle (post : Unit → Cursor → Prop) :
    settle.Ensures origin post ↔ post () origin.settle := by
  constructor
  · intro ensures
    exact ensures ⟨((), origin.settle), origin.leads_settle⟩ rfl
  · intro holds outcome succeeds
    obtain rfl := Except.ok.inj succeeds
    exact holds

@[simp] theorem ensures_failAt (offset : Nat) (post : α → Cursor → Prop) :
    (failAt offset : Scan α).Ensures origin post := by
  intro outcome succeeds
  simp [failAt] at succeeds

@[simp] theorem ensures_ahead (post : Cursor → Cursor → Prop) :
    ahead.Ensures origin post ↔ post (origin.tokenAfter 0) origin := by
  simp [ahead]

@[simp] theorem ensures_next (post : Lexeme → Cursor → Prop) :
    next.Ensures origin post ↔ post (origin.tokenAfter 0).lexeme origin := by
  simp [next]

@[simp] theorem ensures_second (post : Lexeme → Cursor → Prop) :
    second.Ensures origin post ↔ post
      ((origin.tokenAfter 0).tokenAfter (origin.tokenAfter 0).lexeme.length).lexeme origin := by
  simp [second]

@[simp] theorem ensures_pass (count : Nat) (post : Unit → Cursor → Prop) :
    (pass count).Ensures origin post ↔ post () (origin.past count) := by
  simp [pass, Cursor.past]

@[simp] theorem ensures_unexpected (post : α → Cursor → Prop) :
    (unexpected : Scan α).Ensures origin post := by
  simp [unexpected]

@[simp] theorem ensures_require (condition : Bool) (post : Unit → Cursor → Prop) :
    (require condition).Ensures origin post ↔ (condition = true → post () origin) := by
  cases condition <;> simp [require]

@[simp] theorem ensures_extentFrom (first : Cursor) (post : Extent → Cursor → Prop) :
    (extentFrom first).Ensures origin post ↔
      post ⟨first.offset, first.rest, origin.reached⟩ origin := by
  simp [extentFrom]

@[simp] theorem ensures_sees (lexeme : Lexeme) (post : Bool → Cursor → Prop) :
    (sees lexeme).Ensures origin post ↔
      post ((origin.tokenAfter 0).lexeme == lexeme) origin := by
  simp [sees]

theorem ensures_accept (lexeme : Lexeme) (post : Bool → Cursor → Prop) :
    (accept lexeme).Ensures origin post ↔
      if (origin.tokenAfter 0).lexeme = lexeme then post true (origin.past lexeme.length)
      else post false origin := by
  by_cases found : (origin.tokenAfter 0).lexeme = lexeme <;> simp [accept, found]

theorem ensures_expect (lexeme : Lexeme) (post : Unit → Cursor → Prop) :
    (expect lexeme).Ensures origin post ↔
      ((origin.tokenAfter 0).lexeme = lexeme → post () (origin.past lexeme.length)) := by
  by_cases found : (origin.tokenAfter 0).lexeme = lexeme <;>
    simp [expect, ensures_accept, found]

/-- One step of `listed`. -/
def itemBefore (closing : String) (item : Scan α) : Scan (Option α) := do
  if ← acceptMark closing then pure none
  else do
    let a ← item
    unless ← sees (.mark closing) do expectMark ","
    pure (some a)

theorem listed_eq (closing : String) (item : Scan α) :
    listed closing item = many (itemBefore closing item) := rfl

/-- One step of `listedOrLeftOut`. -/
def itemOrGapBefore (closing : String) (item : Scan α) : Scan (Option (Option α)) := do
  if ← acceptMark closing then pure none
  else if ← acceptMark "," then pure (some none)
  else do
    let a ← item
    unless ← sees (.mark closing) do expectMark ","
    pure (some (some a))

theorem listedOrLeftOut_eq (closing : String) (item : Scan α) :
    listedOrLeftOut closing item = many (itemOrGapBefore closing item) := rfl

end Scan

namespace Readers

open Scan

variable (read : Readers)

/-- An import after what it imports and where from. -/
def importTail (first : Cursor) (specifiers : List Specifier)
    (source : Extent) : Scan Statement := do
  if ← takeLineEnd false then return .importing (← extentFrom first) specifiers source none
  else do
    let clause ← ahead
    let attributes ←
      if ← acceptWord "with" then do
        let piece ← read.object (← ahead)
        require piece.value
        let place ← extentFrom clause
        pure (some place)
      else pure none
    semicolon false
    return .importing (← extentFrom first) specifiers source attributes

variable {read} {first origin : Cursor}

/-- What follows the source does not depend on how the specifiers were found. -/
theorem ensures_importDeclaration {post : Statement → Cursor → Prop} :
    (read.importDeclaration first).Ensures origin post ↔
      match ((origin.past 6).tokenAfter 0).lexeme with
      | .quote _ => quotedText.Ensures (origin.past 6) fun source c =>
          (read.importTail first [] source).Ensures c post
      | _ => importClause.Ensures (origin.past 6) fun specifiers c =>
          fromClause.Ensures c fun source d =>
            (read.importTail first specifiers source).Ensures d post := by
  rw [importDeclaration, ensures_bind, ensures_pass, ensures_bind, ensures_next]
  cases ((origin.past 6).tokenAfter 0).lexeme <;>
    simp only [importTail, ensures_bind, ensures_pure]

end Readers

end ImportRedirect.Script
