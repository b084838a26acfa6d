import ImportRedirect.Proofs.Script.Follow.Markup
import ImportRedirect.Proofs.Script.Shape

/-!
Statements before a border, and the readers tied together at every depth.
-/

namespace ImportRedirect.Script

open Scan Readers

theorem Expr.extent_eq {expr other : Expr} (same : Script.alone other = Script.alone expr) :
    Script.alone other.extent = Script.alone expr.extent := by
  have kept : ∀ expr : Expr, (Script.alone expr).extent = Script.alone expr.extent := by
    intro expr
    cases expr <;> rfl
  rw [← kept other, same, kept expr]

/-- A declaration after its target and the place of the target. -/
def Readers.declaratorTail (read : Readers) (first : Cursor) (mode : Mode) (target : Expr)
    (place : Extent) (ended : Bool) : Scan (Declarator × Bool) := do
  if ended then return (⟨place, target, none⟩, true)
  else if ← acceptMark "=" then do
    let piece ← read.valueIn mode
    let place ← extentFrom first
    return (⟨place, target, some piece.expr⟩, ← stops mode)
  else return (⟨place, target, none⟩, false)

namespace Border

variable {b : Border} {read read' : Readers} {depth : Nat} {c d first first' : Cursor} {mode : Mode}

section Looking

/-- The same text, or a text before the border that goes on as the other script does. -/
def Beside (b : Border) (text text' : List Char) : Prop :=
  text' = text ∨ Script.Clear b.old text ∧ b.CommentsEnd text ∧ text' = b.swap text

variable {text text' : List Char}

theorem Beside.lexeme (beside : b.Beside text text') :
    Lexeme.first (tokenText text') = Lexeme.first (tokenText text) := by
  rcases beside with rfl | ⟨clear, ends, rfl⟩
  · rfl
  · obtain ⟨front, token⟩ := Script.Clear.tokenText_eq clear
    obtain ⟨blanks, whole, blank⟩ := within_of_tokenText token
    have before := ends _ whole
    rw [whole] at blank
    rw [token, whole, swap_append, tokenText_append b.meets before blank]
    exact Script.Clear.first_append b.meets clear token

theorem Clear.after {lexeme : Lexeme} (clear : Script.Clear b.old text) (ends : b.CommentsEnd text)
    (found : Lexeme.first (tokenText text) = lexeme) (chain : lexeme.chained = true)
    (before : tokenText text ≠ b.old) :
    Script.Clear b.old ((tokenText text).drop lexeme.length) ∧
      (tokenText (b.swap text)).drop lexeme.length = b.swap ((tokenText text).drop lexeme.length) := by
  subst found
  obtain ⟨front, token⟩ := Script.Clear.tokenText_eq clear
  obtain ⟨blanks, whole, blank⟩ := within_of_tokenText token
  have nonempty : front ≠ [] := by
    rintro rfl
    exact before token
  constructor
  · cases clear with
    | reached here => exact absurd here before
    | chained again _ _ later => rwa [again]
    | other again _ apart =>
      rw [again, apart] at chain
      cases chain
  · rw [token] at chain
    have length := clear.length_first_le token nonempty chain
    have comments := ends _ whole
    rw [whole] at blank
    rw [token, whole, swap_append, tokenText_append b.meets comments blank,
      List.drop_append_of_le_length length, List.drop_append_of_le_length length, swap_append]

theorem Beside.after {lexeme : Lexeme} (beside : b.Beside text text')
    (found : Lexeme.first (tokenText text) = lexeme) (chain : lexeme.chained = true)
    (before : tokenText text ≠ b.old) :
    b.Beside ((tokenText text).drop lexeme.length) ((tokenText text').drop lexeme.length) := by
  rcases beside with rfl | ⟨clear, ends, rfl⟩
  · exact .inl rfl
  · obtain ⟨later, same⟩ := Clear.after clear ends found chain before
    exact .inr ⟨later, (ends.drop _).drop _, same⟩

/-- The tokens at a border. -/
def tokens : List Lexeme :=
  [.finish, .mark "\x7d", .word "import", .word "const", .word "let", .word "var"]

theorem first_old_mem (b : Border) : Lexeme.first b.old ∈ tokens := by
  have meets := b.meets
  generalize b.old = old, b.new = new at meets
  cases meets with
  | finish => simp [Lexeme.first, tokens]
  | @token head rest other known completes =>
    by_cases brace : head = ['\x7d']
    · subst brace
      have breaks : isNamePart '\x7d' = false := by decide
      have digit : '\x7d'.isDigit = false := by decide
      simp [Lexeme.first, nameLength, namePartsLength, namePartLength?, breaks, digit, longMarks, tokens]
    · rw [Lexeme.first_of_parting known brace (completes brace).1.ends]
      have words : ∀ head ∈ partingTokens, head ≠ ['\x7d'] → .word (String.ofList head) ∈ tokens := by
        decide
      exact words head known brace

variable {count : Nat} {lexeme : Lexeme}

theorem Beside.lexeme_tokenAfter (beside : b.Beside (first.rest.drop count) (first'.rest.drop count)) :
    (first'.tokenAfter count).lexeme = (first.tokenAfter count).lexeme := by
  have text : ∀ c : Cursor, (c.tokenAfter count).lexeme = Lexeme.first (tokenText (c.rest.drop count)) := by
    intro c
    rw [Cursor.lexeme, Cursor.tokenAfter, Cursor.rest_drop, Cursor.rest_drop]
    rfl
  rw [text, text, beside.lexeme]

theorem Beside.after_tokenAfter
    (beside : b.Beside (first.rest.drop count) (first'.rest.drop count))
    (found : (first.tokenAfter count).lexeme = lexeme) (chain : lexeme.chained = true)
    (other : lexeme ∉ tokens) :
    b.Beside ((first.tokenAfter count).rest.drop lexeme.length)
      ((first'.tokenAfter count).rest.drop lexeme.length) := by
  have text : ∀ c : Cursor, (c.tokenAfter count).rest = tokenText (c.rest.drop count) := by
    intro c
    rw [Cursor.tokenAfter, Cursor.rest_drop, Cursor.rest_drop]
    rfl
  rw [Cursor.lexeme, text] at found
  rw [text, text]
  refine beside.after found chain fun here => ?_
  rw [here] at found
  exact other (found ▸ b.first_old_mem)

/-- A function is named after the same words in both scripts. -/
theorem Beside.namesFunction
    (beside : b.Beside (first.rest.drop count) (first'.rest.drop count)) :
    namesFunction first' count = namesFunction first count := by
  unfold Readers.namesFunction
  dsimp only
  rw [beside.lexeme_tokenAfter]
  cases found : (first.tokenAfter count).lexeme == .word "function" with
  | false => rfl
  | true =>
    have after : b.Beside ((first.tokenAfter count).rest.drop 8)
        ((first'.tokenAfter count).rest.drop 8) :=
      beside.after_tokenAfter (beq_iff_eq.mp found) rfl (by decide)
    simp only [if_true]
    rw [after.lexeme_tokenAfter]
    cases star : ((first.tokenAfter count).tokenAfter 8).lexeme == .mark "*" with
    | false =>
      simp only [Bool.false_eq_true, if_false]
      rw [after.lexeme_tokenAfter]
    | true =>
      have further : b.Beside (((first.tokenAfter count).tokenAfter 8).rest.drop 1)
          (((first'.tokenAfter count).tokenAfter 8).rest.drop 1) :=
        after.after_tokenAfter (beq_iff_eq.mp star) rfl (by decide)
      simp only [if_true]
      rw [further.lexeme_tokenAfter]

theorem Near.beside (near : b.Near first first') : b.Beside first.rest first'.rest := by
  rcases near.rest with ⟨same, _⟩ | ⟨clear, swapped, _⟩
  · exact .inl same
  · exact .inr ⟨clear, near.valid.comments, swapped⟩

theorem Near.namesFunction (near : b.Near first first') :
    namesFunction first' 0 = namesFunction first 0 := Beside.namesFunction near.beside

theorem triviaLength_of_token {text : List Char} (token : tokenText text = text) :
    triviaLength text = 0 := by
  have bound := triviaLength_le text
  have counted := congrArg List.length token
  rw [tokenText, List.length_drop] at counted
  omega

theorem Near.token (near : b.Near (c.tokenAfter 0) first') :
    tokenText (c.tokenAfter 0).rest = (c.tokenAfter 0).rest ∧ tokenText first'.rest = first'.rest := by
  have here : tokenText (c.tokenAfter 0).rest = (c.tokenAfter 0).rest := by
    rw [Cursor.rest_tokenAfter, tokenText_tokenText]
  refine ⟨here, ?_⟩
  rcases near.rest with ⟨same, _⟩ | ⟨clear, swapped, _⟩
  · rw [same, here]
  · obtain ⟨front, token⟩ := Script.Clear.tokenText_eq clear
    rw [here] at token
    have blank := triviaLength_of_token here
    have ends := near.valid.comments front token
    rw [swapped, token, swap_append]
    rw [token] at blank
    exact @tokenText_append b.old b.new b.meets [] front ends blank

/-- After a word that is not at the border the same is ahead in both scripts. -/
theorem Near.after (near : b.Near (c.tokenAfter 0) first')
    (found : (c.tokenAfter 0).lexeme = lexeme) (chain : lexeme.chained = true)
    (before : tokenText c.rest ≠ b.old) :
    b.Beside ((c.tokenAfter 0).rest.drop lexeme.length) (first'.rest.drop lexeme.length) := by
  obtain ⟨here, there⟩ := near.token
  rw [Cursor.lexeme, ← here] at found
  have after := near.beside.after found chain
    (by rw [here, Cursor.rest_tokenAfter]; exact before)
  rwa [here, there] at after

theorem Near.namesAsync (near : b.Near (c.tokenAfter 0) first')
    (found : (c.tokenAfter 0).lexeme = .word "async") (before : tokenText c.rest ≠ b.old) :
    Readers.namesFunction first' 5 = Readers.namesFunction (c.tokenAfter 0) 5 :=
  Beside.namesFunction (near.after found rfl before)

theorem Near.namesClass (near : b.Near (c.tokenAfter 0) first') (before : tokenText c.rest ≠ b.old) :
    Readers.namesClass first' = Readers.namesClass (c.tokenAfter 0) := by
  unfold Readers.namesClass
  rw [near.lexeme]
  cases found : (c.tokenAfter 0).lexeme == .word "class" with
  | false => rfl
  | true =>
    have after : b.Beside ((c.tokenAfter 0).rest.drop 5) (first'.rest.drop 5) :=
      near.after (beq_iff_eq.mp found) rfl before
    rw [after.lexeme_tokenAfter]

theorem Near.mayStandAlone (near : b.Near (c.tokenAfter 0) first')
    (found : (c.tokenAfter 0).lexeme = lexeme) (chain : lexeme.chained = true)
    (before : tokenText c.rest ≠ b.old) :
    Readers.mayStandAlone first' = Readers.mayStandAlone (c.tokenAfter 0) := by
  unfold Readers.mayStandAlone
  rw [near.lexeme, Cursor.rest_drop, Cursor.rest_drop]
  rcases near.rest with ⟨same, size⟩ | ⟨clear, swapped, fits⟩
  · rw [same, size]
  · obtain ⟨here, there⟩ := near.token
    have first : Lexeme.first (tokenText (c.tokenAfter 0).rest) = lexeme := by rw [here]; exact found
    obtain ⟨later, same⟩ := Clear.after clear near.valid.comments first chain
      (by rw [here, Cursor.rest_tokenAfter]; exact before)
    rw [← swapped, here, there] at same
    rw [here] at later
    obtain ⟨front, token⟩ := Script.Clear.tokenText_eq later
    obtain ⟨blanks, whole, blank⟩ := within_of_tokenText token
    have longest := near.valid.length_le
    have valid := near.valid.later ((c.tokenAfter 0).leads_drop (c.tokenAfter 0).lexeme.length)
    have ends := valid.comments (blanks ++ front) (by rw [Cursor.rest_drop, found, whole])
    have counted := congrArg List.length whole
    have counted' := congrArg List.length same
    rw [found, same, whole, swap_append]
    rw [whole, swap_append] at counted'
    simp only [List.length_drop, List.length_append] at counted counted'
    refine lineEndsWithin_append b.meets ends ?_ ?_ ?_
    · rw [← whole, blank, List.length_append]
      exact Nat.le_add_right _ _
    · simp only [List.length_append]
      omega
    · simp only [List.length_append]
      omega

theorem Near.standsAlone (near : b.Near (c.tokenAfter 0) first') (before : tokenText c.rest ≠ b.old)
    (names : Bool) : Readers.standsAlone first' names = Readers.standsAlone (c.tokenAfter 0) names := by
  unfold Readers.standsAlone
  rw [near.lexeme]
  cases found : (c.tokenAfter 0).lexeme == .word "async" || (c.tokenAfter 0).lexeme == .word "let" with
  | false => simp only [Bool.and_false, Bool.false_and]
  | true =>
    have chain : (c.tokenAfter 0).lexeme.chained = true := by
      rcases Bool.or_eq_true_iff.mp found with found | found
      · rw [beq_iff_eq.mp found]
        rfl
      · rw [beq_iff_eq.mp found]
        rfl
    rw [near.mayStandAlone rfl chain before]

/-- Whether a declaration of a function is ahead. -/
theorem Near.namesFunctions (near : b.Near (c.tokenAfter 0) first')
    (before : tokenText c.rest ≠ b.old) :
    (Readers.namesFunction first' 0 ||
        (first'.lexeme == .word "async" && Readers.namesFunction first' 5)) =
      (Readers.namesFunction (c.tokenAfter 0) 0 ||
        ((c.tokenAfter 0).lexeme == .word "async" && Readers.namesFunction (c.tokenAfter 0) 5)) := by
  rw [near.namesFunction, near.lexeme]
  cases found : (c.tokenAfter 0).lexeme == .word "async" with
  | false => rfl
  | true => rw [near.namesAsync (beq_iff_eq.mp found) before]

end Looking

section Plain

/-- A statement of which only the kind is kept. -/
theorem follows_stated (near : b.Near first first') (kind : Kind) :
    b.Follows b.Clear b.Clear (do return Statement.other (← extentFrom first) kind)
      (do return Statement.other (← extentFrom first') kind) c :=
  follows_placed near fun _ _ same => congrArg (Statement.other · kind) same

theorem follows_binder? (before : tokenText c.rest ≠ b.old) :
    b.Follows b.Clear b.Clear binder? binder? c := by
  refine follows_next ?_
  split
  · exact follows_pure rfl
  · exact follows_pure rfl
  · next found =>
    refine follows_second (by rw [found]; rfl) fun again same _ => ?_
    rw [same before]
    split
    · exact follows_pure rfl
    · exact follows_pure rfl
    · exact follows_pure rfl
    · exact follows_pure rfl
  · exact follows_pure rfl

theorem reads_binder? {binder : Binder} (reads : binder?.Reads c (some binder) d) :
    d = c ∧ (c.tokenAfter 0).lexeme = .word binder.name := by
  obtain ⟨same, found⟩ := reads.ensured ensures_binder?
  exact ⟨same, found binder rfl⟩

theorem follows_exportedName : b.Follows b.Clear b.Clear exportedName exportedName c := by
  refine follows_next ?_
  split
  · exact follows_bind follows_quotedText fun _ _ _ _ _ => follows_pure rfl
  · split
    · next found => exact follows_passWord (beq_iff_eq.mp found)
    · exact follows_bind follows_name fun _ _ _ _ _ => follows_pure rfl

theorem passes_exportSpecifier : exportSpecifier.Passes c := by
  refine passes_bind ?_ _
  rw [exportedName, Passes, ensures_bind, ensures_next]
  split
  · exact passes_bind passes_quotedText _
  · split
    · next found => exact passes_passWord (beq_iff_eq.mp found)
    · exact passes_bind passes_name _

theorem follows_exportSpecifier : b.Follows b.Clear b.Clear exportSpecifier exportSpecifier c := by
  refine follows_then follows_exportedName fun _ m _ => ?_
  refine follows_then (follows_acceptWord _) fun renamed n _ => ?_
  cases renamed with
  | true => exact follows_exportedName
  | false => exact follows_pure rfl

theorem follows_fromClause : b.Follows b.Clear b.Clear fromClause fromClause c :=
  follows_then (follows_expectWord _) fun _ _ _ => follows_quotedText

theorem follows_importSpecifier : b.Follows b.Clear b.Clear importSpecifier importSpecifier c := by
  refine follows_ahead fun first' near => ?_
  have renamed : ∀ {imported imported' : Expr} {m : Cursor}, alone imported' = alone imported →
      b.Follows b.Clear b.Clear
        (do
          expectWord "as"
          let localName ← name
          return Specifier.named (← extentFrom (c.tokenAfter 0)) imported localName)
        (do
          expectWord "as"
          let localName ← name
          return Specifier.named (← extentFrom first') imported' localName) m := by
    intro imported imported' m same
    refine follows_then (follows_expectWord _) fun _ _ _ => ?_
    refine follows_bind follows_name fun localName localName' _ _ names => ?_
    refine follows_placed near fun extent extent' place => ?_
    show Specifier.named _ _ _ = Specifier.named _ _ _
    rw [place, same, names]
  rw [near.lexeme]
  dsimp only
  split
  · exact follows_bind follows_quotedText fun _ _ _ _ same => renamed (congrArg Expr.text same)
  · split
    · next found =>
      refine follows_then (follows_passWord (beq_iff_eq.mp found)) fun _ _ _ => ?_
      exact follows_bind (follows_extentFrom near) fun _ _ _ _ same => renamed (congrArg Expr.name same)
    · refine follows_bind follows_name fun imported imported' _ _ same => follows_sees ?_
      have names : alone (Expr.name imported') = alone (Expr.name imported) := congrArg Expr.name same
      split
      · exact renamed names
      · refine follows_pure ?_
        show Specifier.named _ _ _ = Specifier.named _ _ _
        rw [names, same]

theorem passes_importSpecifier : importSpecifier.Passes c := by
  refine passes_ahead ?_
  dsimp only
  split
  · exact passes_bind passes_quotedText _
  · split
    · next found => exact passes_bind (passes_passWord (beq_iff_eq.mp found)) _
    · exact passes_bind passes_name _

theorem follows_importedNames : b.Follows b.Clear b.Clear importedNames importedNames c := by
  refine follows_ahead fun first' near => ?_
  refine follows_then (follows_acceptMark _) fun whole _ _ => ?_
  cases whole with
  | true =>
    refine follows_then (follows_expectWord _) fun _ _ _ => ?_
    refine follows_bind follows_name fun localName localName' _ _ names => ?_
    refine follows_placed near fun extent extent' place => ?_
    show [Specifier.whole _ _] = [Specifier.whole _ _]
    rw [place, names]
  | false =>
    exact follows_then (follows_expectMark _) fun _ _ _ =>
      follows_listed (fun _ _ => passes_importSpecifier.consumes) fun _ _ => follows_importSpecifier

theorem follows_importClause : b.Follows b.Clear b.Clear importClause importClause c := by
  refine follows_next ?_
  split
  · refine follows_bind follows_name fun localName localName' _ _ same => ?_
    have first : alone (Specifier.fallback localName') = alone (Specifier.fallback localName) :=
      congrArg Specifier.fallback same
    refine follows_then (follows_acceptMark _) fun more _ _ => ?_
    cases more with
    | true =>
      exact follows_bind follows_importedNames fun _ _ _ _ rest =>
        follows_pure (congrArg₂ List.cons first rest)
    | false => exact follows_pure (congrArg (fun specifier => [specifier]) first)
  · exact follows_importedNames

theorem follows_jumpTail : b.Follows b.Clear b.Clear jumpTail jumpTail c := by
  refine follows_then (follows_takeLineEnd false) fun ended _ _ => ?_
  cases ended with
  | true => exact follows_pure rfl
  | false =>
    refine follows_next ?_
    split
    · exact follows_bind follows_name fun _ _ _ _ _ => follows_semicolon false
    · exact follows_expectMark _

end Plain

namespace Tied

variable (tied : b.Tied read read' depth)

include tied

section Declarations

theorem condition (room : b.Room depth 0 c) :
    b.Follows b.Clear b.Clear read.condition read'.condition c := by
  refine follows_then (follows_expectMark _) fun _ m opened => ?_
  have room := room.consumed (expectMark_consumed opened)
  exact follows_then (tied.sequence (room.mono (by omega))) fun _ _ _ => follows_expectMark _

theorem body (room : b.Room depth 2 c) : b.Follows b.Clear b.Clear read.body read'.body c :=
  follows_bind (tied.statement c room) fun _ _ _ _ _ => follows_pure rfl

theorem bindingTarget (room : b.Room depth 0 c) :
    b.Follows b.Clear b.Clear read.bindingTarget read'.bindingTarget c := by
  refine follows_ahead fun first' near => ?_
  rw [near.lexeme]
  split
  · refine follows_bind (tied.object near room) fun piece piece' _ _ same => ?_
    rw [Piece.target_eq same]
    refine follows_require fun _ => follows_pure ?_
    exact congrArg (Expr.other · Kind.objectPattern) (Expr.extent_eq (Piece.expr_eq same))
  · refine follows_bind (tied.array near room) fun piece piece' _ _ same => ?_
    rw [Piece.target_eq same]
    refine follows_require fun _ => follows_pure ?_
    exact congrArg (Expr.other · Kind.arrayPattern) (Expr.extent_eq (Piece.expr_eq same))
  · exact follows_bind follows_name fun _ _ _ _ same => follows_pure (congrArg Expr.name same)

theorem declaratorTail {target target' : Expr} {place place' : Extent} {ended : Bool}
    (near : b.Near first first') (targets : alone target' = alone target)
    (places : alone place' = alone place) (room : b.Room depth 0 c) :
    b.Follows b.Clear b.Clear (read.declaratorTail first mode target place ended)
      (read'.declaratorTail first' mode target' place' ended) c := by
  have plain : ∀ (ended : Bool), alone ((⟨place', target', none⟩ : Declarator), ended) =
      alone ((⟨place, target, none⟩ : Declarator), ended) := by
    intro ended
    show (Declarator.mk _ _ _, _) = (Declarator.mk _ _ _, _)
    rw [places, targets]
  cases ended with
  | true => exact follows_pure (plain true)
  | false =>
    refine follows_then (follows_acceptMark _) fun given m equals => ?_
    cases given with
    | false => exact follows_pure (plain false)
    | true =>
      have room := room.consumed (acceptMark_consumed equals)
      refine follows_bind (tied.valueIn (room.mono (by omega))) fun piece piece' _ _ same => ?_
      refine follows_bind (follows_extentFrom near) fun whole whole' _ _ wholes => ?_
      refine follows_then follows_stops fun stopped _ _ => follows_pure ?_
      show (Declarator.mk _ _ (Option.some _), _) = (Declarator.mk _ _ (Option.some _), _)
      rw [wholes, targets, Piece.expr_eq same]

theorem declarator (room : b.Room depth 0 c) :
    b.Follows b.Clear b.Clear (read.declarator mode) (read'.declarator mode) c := by
  refine follows_ahead fun first' near => ?_
  refine follows_bind (tied.bindingTarget room) fun target target' m reads targets => ?_
  refine follows_bind (follows_extentFrom near) fun place place' n placed places => ?_
  have room := room.later (reads.leads.trans placed.leads)
  dsimp only
  split
  · exact follows_then (follows_lineEnd false) fun _ _ line =>
      tied.declaratorTail near targets places (room.later line.leads)
  · exact follows_then (follows_pure rfl) fun _ _ line =>
      tied.declaratorTail near targets places (room.later line.leads)

theorem declaratorsWithin {n other : Nat} (others : (b.moved c).rest.length < other)
    (room : b.Room depth 0 c) :
    b.Follows b.Clear b.Clear (read.declaratorsWithin mode n) (read'.declaratorsWithin mode other) c := by
  induction n generalizing c other with
  | zero => exact follows_unexpected
  | succ n inductionHypothesis =>
    obtain ⟨other, rfl⟩ : ∃ rest, other = rest + 1 := ⟨other - 1, by omega⟩
    refine follows_bind (tied.declarator room) fun result result' m reads same => ?_
    obtain ⟨first, ended⟩ := result
    obtain ⟨first', ended'⟩ := result'
    obtain ⟨firsts, flags⟩ := Prod.mk.inj same
    obtain rfl : ended' = ended := flags
    have single : alone [first'] = alone [first] := congrArg (fun item => [item]) firsts
    dsimp only
    cases ended' with
    | true => exact follows_then follows_settle fun _ _ _ => follows_pure single
    | false =>
      refine follows_then (follows_acceptMark _) fun more o comma => ?_
      cases more with
      | false => exact follows_then (follows_expectMark _) fun _ _ _ => follows_pure single
      | true =>
        refine Follows.assuming_inside (fun _ clear => clear.inside) fun inside => ?_
        have shorter := acceptMark_consumed comma
        have earlier := reads.leads.length_le
        have counted := inside.length_moved
        have before := (inside.earlier (reads.leads.trans comma.leads)).length_moved
        refine follows_bind (inductionHypothesis (by omega)
          (room.later (reads.leads.trans comma.leads))) fun rest rest' _ _ others => ?_
        exact follows_pure (congrArg₂ List.cons firsts others)

theorem declarationFrom {binder : Binder} (near : b.Near first first')
    (found : (c.tokenAfter 0).lexeme = .word binder.name) (room : b.Room depth 0 c) :
    b.Follows b.Clear b.Clear (read.declarationFrom first binder)
      (read'.declarationFrom first' binder) c := by
  refine follows_then (follows_passWord found) fun _ m passed => ?_
  refine follows_sized (fun _ clear => clear.inside) fun _ others => ?_
  refine follows_bind (tied.declaratorsWithin others (room.later passed.leads)) ?_
  intro declarators declarators' _ _ same
  refine follows_placed near fun extent extent' place => ?_
  show Statement.declaration _ _ _ = Statement.declaration _ _ _
  rw [place, same]

theorem functionDeclaration (near : b.Near first first') (room : b.Room depth 0 c) :
    b.Follows b.Clear b.Clear (read.functionDeclaration first) (read'.functionDeclaration first') c := by
  refine follows_then (follows_acceptWord _) fun _ m async => ?_
  refine follows_then (follows_expectWord _) fun _ n keyword => ?_
  have room := room.later (async.leads.trans keyword.leads)
  refine follows_then (tied.function room) fun generator o _ => ?_
  exact follows_then (follows_takeLineEnd false) fun _ _ _ => follows_stated near _

theorem classDeclaration (near : b.Near first first') (room : b.Room depth 0 c) :
    b.Follows b.Clear b.Clear (read.classDeclaration first) (read'.classDeclaration first') c := by
  refine follows_then (tied.decorators room) fun _ m decorated => ?_
  refine follows_then (follows_expectWord _) fun _ n keyword => ?_
  have room := room.later (decorated.leads.trans keyword.leads)
  refine follows_then (tied.classTail room) fun _ o _ => ?_
  exact follows_then (follows_takeLineEnd false) fun _ _ _ => follows_stated near _

theorem declaration? {names : Bool} (near : b.Near (c.tokenAfter 0) first')
    (before : tokenText c.rest ≠ b.old) (room : b.Room depth 0 c) :
    b.Follows b.Clear b.Clear (read.declaration? (c.tokenAfter 0) names)
      (read'.declaration? first' names) c := by
  have given : ∀ {scan scan' : Scan Statement}, b.Follows b.Clear b.Clear scan scan' c →
      b.Follows b.Clear b.Clear (do return some (← scan)) (do return some (← scan')) c :=
    fun follows => follows_bind follows fun _ _ _ _ same => follows_pure (congrArg some same)
  refine follows_if (near.standsAlone before names) (fun _ => follows_pure rfl) fun _ => ?_
  refine follows_if (near.namesFunctions before)
    (fun _ => given (tied.functionDeclaration near room)) fun _ => ?_
  refine follows_if (by rw [near.namesClass before, near.lexeme])
    (fun _ => given (tied.classDeclaration near room)) fun _ => ?_
  refine follows_then (follows_binder? before) fun binder m reads => ?_
  cases binder with
  | none => exact follows_pure rfl
  | some binder =>
    obtain ⟨rfl, found⟩ := reads_binder? reads
    exact given (tied.declarationFrom near found room)

end Declarations

section Modules

omit tied in
/-- A declaration passes a token, so it is enough that what comes in its place does. -/
theorem passes_declared {names : Bool} {next : Option Statement → Scan Unit}
    (missing : (next none).Passes c) :
    (do next (← read.declaration? (← ahead) names)).Passes c := by
  refine passes_ahead ?_
  rw [Passes, ensures_bind]
  refine ensures_declaration? names missing fun scan chosen => ?_
  exact chosen.ensures_read.mono fun _ _ _ read => ensures_beyond _ read.beyond

theorem exportTail (room : b.Room depth 1 c) :
    b.Follows b.Clear b.Clear read.exportTail read'.exportTail c := by
  refine follows_then (follows_acceptMark _) fun whole m star => ?_
  have room := room.later star.leads
  cases whole with
  | true =>
    refine follows_then (follows_acceptWord _) fun renamed n _ => ?_
    cases renamed with
    | true => exact follows_then follows_exportedName fun _ _ _ =>
        follows_bind follows_fromClause fun _ _ _ _ _ => follows_semicolon false
    | false => exact follows_bind follows_fromClause fun _ _ _ _ _ => follows_semicolon false
  | false =>
    refine follows_then (follows_acceptMark _) fun listing n brace => ?_
    have room := room.later brace.leads
    cases listing with
    | true =>
      refine follows_bind (follows_listed (fun _ _ => passes_exportSpecifier.consumes) fun _ _ =>
        follows_exportSpecifier) fun _ _ o _ _ => ?_
      refine follows_then (follows_takeLineEnd false) fun ended p _ => ?_
      cases ended with
      | true => exact follows_pure rfl
      | false =>
        refine follows_sees ?_
        split
        · exact follows_bind follows_fromClause fun _ _ _ _ _ => follows_semicolon false
        · exact follows_semicolon false
    | false =>
      refine follows_then (follows_acceptWord _) fun default o word => ?_
      have room := room.later word.leads
      cases default with
      | true =>
        refine Follows.assuming_before (passes_declared ?_) (fun _ clear => clear.inside) fun before => ?_
        · exact passes_bind (passes_valueIn (fun c mode => tied.expressionPasses c mode) _) _
        · refine follows_ahead fun first' near => ?_
          refine follows_bind (tied.declaration? near before (room.mono (by omega))) ?_
          intro declared declared' p reads same
          cases declared with
          | some statement =>
            obtain ⟨statement', rfl, _⟩ := Option.map_eq_some_iff.mp same
            exact follows_pure rfl
          | none =>
            obtain rfl : declared' = none := Option.map_eq_none_iff.mp same
            exact follows_bind (tied.valueIn (room.later reads.leads)) fun _ _ _ _ _ =>
              follows_semicolon true
      | false =>
        refine Follows.assuming_before (passes_declared passes_unexpected)
          (fun _ clear => clear.inside) fun before => ?_
        refine follows_ahead fun first' near => ?_
        refine follows_bind (tied.declaration? near before (room.mono (by omega))) ?_
        intro declared declared' p reads same
        cases declared with
        | some statement =>
          obtain ⟨statement', rfl, _⟩ := Option.map_eq_some_iff.mp same
          exact follows_pure rfl
        | none => exact follows_unexpected

theorem importTail {specifiers specifiers' : List Specifier} {source source' : Extent}
    (near : b.Near first first') (listed : alone specifiers' = alone specifiers)
    (sources : alone source' = alone source) (room : b.Room depth 0 c) :
    b.Follows b.Clear b.Clear (read.importTail first specifiers source)
      (read'.importTail first' specifiers' source') c := by
  have whole : ∀ {extent extent' : Extent} {attributes attributes' : Option Extent},
      alone extent' = alone extent → alone attributes' = alone attributes →
      alone (Statement.importing extent' specifiers' source' attributes') =
        alone (Statement.importing extent specifiers source attributes) := by
    intro extent extent' attributes attributes' place same
    show Statement.importing _ _ _ _ = Statement.importing _ _ _ _
    rw [place, listed, sources, same]
  have ends : ∀ {attributes attributes' : Option Extent} {m : Cursor},
      alone attributes' = alone attributes → b.Follows b.Clear b.Clear
        (do
          semicolon false
          return Statement.importing (← extentFrom first) specifiers source attributes)
        (do
          semicolon false
          return Statement.importing (← extentFrom first') specifiers' source' attributes') m :=
    fun same => follows_then (follows_semicolon false) fun _ _ _ =>
      follows_placed near fun _ _ place => whole place same
  refine follows_then (follows_takeLineEnd false) fun ended m line => ?_
  have room := room.later line.leads
  cases ended with
  | true => exact follows_placed near fun _ _ place => whole place rfl
  | false =>
    refine follows_ahead fun clause clauses => ?_
    refine follows_then (follows_acceptWord _) fun given n word => ?_
    have room := room.later word.leads
    cases given with
    | false => exact follows_bind (follows_pure rfl) fun _ _ _ _ same => ends same
    | true =>
      refine follows_ahead fun opening openings => ?_
      refine follows_bind (tied.object openings room) fun piece piece' _ _ same => ?_
      rw [Piece.value_eq same]
      refine follows_require fun _ => ?_
      refine follows_bind (follows_extentFrom clauses) fun place place' _ _ same => ?_
      exact follows_bind (follows_pure (congrArg some same)) fun _ _ _ _ same => ends same

theorem importDeclaration (near : b.Near first first')
    (found : (c.tokenAfter 0).lexeme = .word "import") (room : b.Room depth 0 c) :
    b.Follows b.Clear b.Clear (read.importDeclaration first) (read'.importDeclaration first') c := by
  refine follows_then (follows_passWord found) fun _ m passed => ?_
  have tail : ∀ {pair pair' : List Specifier × Extent} {n : Cursor}, m.Leads n →
      alone pair' = alone pair → b.Follows b.Clear b.Clear
        (read.importTail first pair.1 pair.2) (read'.importTail first' pair'.1 pair'.2) n :=
    fun leads same => tied.importTail near (congrArg Prod.fst same) (congrArg Prod.snd same)
      (room.later (passed.leads.trans leads))
  refine follows_next ?_
  dsimp only
  split
  · refine follows_bind follows_quotedText fun source source' n reads same => ?_
    refine follows_bind (follows_pure (congrArg (Prod.mk []) same)) fun pair pair' o pure_ same => ?_
    exact tail (reads.leads.trans pure_.leads) same
  · refine follows_bind follows_importClause fun specifiers specifiers' n reads listed => ?_
    refine follows_bind follows_fromClause fun source source' o from_ same => ?_
    refine follows_bind (follows_pure (congrArg₂ Prod.mk listed same)) fun pair pair' p pure_ same => ?_
    exact tail (reads.leads.trans (from_.leads.trans pure_.leads)) same

end Modules

section Loops

theorem loopTail (room : b.Room depth 2 c) :
    b.Follows b.Clear b.Clear read.loopTail read'.loopTail c := by
  have ends : ∀ {m : Cursor}, c.Leads m → b.Follows b.Clear b.Clear
      (do
        unless ← acceptMark ")" do
          read.sequence .enclosed
          expectMark ")"
        read.body)
      (do
        unless ← acceptMark ")" do
          read'.sequence .enclosed
          expectMark ")"
        read'.body) m := by
    intro m leads
    have room := room.later leads
    refine follows_then (follows_acceptMark _) fun closed n mark => ?_
    have room := room.later mark.leads
    cases closed with
    | true => exact tied.body room
    | false =>
      refine follows_then (tied.sequence (room.mono (by omega))) fun _ o sequence => ?_
      have room := room.later sequence.leads
      exact follows_then (follows_expectMark _) fun _ _ mark => tied.body (room.later mark.leads)
  refine follows_then (follows_acceptMark _) fun closed m mark => ?_
  cases closed with
  | true => exact ends mark.leads
  | false =>
    have room := room.later mark.leads
    refine follows_then (tied.sequence (room.mono (by omega))) fun _ n sequence => ?_
    exact follows_then (follows_expectMark _) fun _ _ semicolon =>
      ends (mark.leads.trans (sequence.leads.trans semicolon.leads))

theorem loopOver? (room : b.Room depth 2 c) :
    b.Follows b.Clear b.Clear read.loopOver? read'.loopOver? c := by
  refine follows_next ?_
  split
  · next word found =>
    split
    · next keyword =>
      have passed : b.Follows b.Clear b.Clear (pass 2) (pass 2) c := by
        rcases Bool.or_eq_true_iff.mp keyword with same | same
        · obtain rfl := beq_iff_eq.mp same
          exact follows_passWord found
        · obtain rfl := beq_iff_eq.mp same
          exact follows_passWord found
      refine follows_then passed fun _ m reads => ?_
      have room := room.later reads.leads
      refine follows_then (tied.sequence (room.mono (by omega))) fun _ n sequence => ?_
      have room := room.later sequence.leads
      refine follows_then (follows_expectMark _) fun _ o closed => ?_
      exact follows_then (tied.body (room.later closed.leads)) fun _ _ _ => follows_pure rfl
    · exact follows_pure rfl
  · exact follows_pure rfl

theorem loop (near : b.Near first first') (found : (c.tokenAfter 0).lexeme = .word "for")
    (room : b.Room depth 1 c) :
    b.Follows b.Clear b.Clear (read.loop first) (read'.loop first') c := by
  refine follows_then (follows_passWord found) fun _ m passed => ?_
  have room := room.consumed (pass_consumed found (by simp) (by decide) passed)
  refine follows_then (follows_acceptWord _) fun _ n await => ?_
  refine follows_then (follows_expectMark _) fun _ o opened => ?_
  have room : b.Room depth 2 o := (room.later (await.leads.trans opened.leads)).mono (by omega)
  refine follows_then (follows_acceptMark _) fun counting p semicolon => ?_
  have room := room.later semicolon.leads
  have counts : ∀ {q : Cursor}, b.Room depth 2 q → b.Follows b.Clear b.Clear
      (do
        read.loopTail
        let overItems ← pure false
        return Statement.other (← extentFrom first) (if overItems = true then .forIn else .forLoop))
      (do
        read'.loopTail
        let overItems ← pure false
        return Statement.other (← extentFrom first') (if overItems = true then .forIn else .forLoop))
      q := fun room => follows_then (tied.loopTail room) fun _ _ _ =>
    follows_then (follows_pure rfl) fun _ _ _ => follows_stated near _
  cases counting with
  | true => exact counts room
  | false =>
    refine Follows.assuming_before ?_ (fun _ clear => clear.inside) fun before => ?_
    · dsimp only
      rw [Passes, if_neg (by simp), ensures_bind]
      refine ensures_binder?.mono fun binder q _ holds => ?_
      obtain ⟨rfl, begun⟩ := holds
      cases binder with
      | none => exact passes_bind (tied.expressionPasses q _) _
      | some binder => exact passes_bind (passes_passWord (begun binder rfl)) _
    · dsimp only
      refine follows_then (follows_binder? before) fun binder q reads => ?_
      cases binder with
      | some binder =>
        obtain ⟨rfl, found⟩ := reads_binder? reads
        refine follows_then (follows_passWord found) fun _ r passed => ?_
        have room := room.later passed.leads
        refine follows_bind (tied.declarator (room.mono (by omega))) fun _ _ s declared _ => ?_
        have room := room.later declared.leads
        refine follows_then (tied.loopOver? room) fun ranged t ranges => ?_
        have room := room.later ranges.leads
        cases ranged with
        | true => exact follows_then (follows_pure rfl) fun _ _ _ => follows_stated near _
        | false =>
          refine follows_then (follows_acceptMark _) fun single u semicolon => ?_
          have room := room.later semicolon.leads
          cases single with
          | true => exact counts room
          | false =>
            refine follows_then (follows_expectMark _) fun _ v comma => ?_
            have room := room.later comma.leads
            refine follows_sized (fun _ clear => clear.inside) fun _ others => ?_
            exact follows_bind (tied.declaratorsWithin others (room.mono (by omega)))
              fun _ _ _ rest _ => counts (room.later rest.leads)
      | none =>
        have room := room.later reads.leads
        refine follows_bind (tied.expression _ q (room.mono (by omega))) fun piece piece' r head same => ?_
        have room := room.later head.leads
        rw [Piece.value_eq same, Piece.target_eq same, Piece.isParenthesized_eq same]
        have tail : ∀ (overItems : Bool) {s : Cursor}, b.Room depth 2 s → b.Follows b.Clear b.Clear
            (if overItems = true then do
              let overItems ← pure true
              return Statement.other (← extentFrom first) (if overItems = true then .forIn else .forLoop)
            else do
              require piece.value
              read.sequenceFrom .enclosed
              expectMark ";"
              read.loopTail
              let overItems ← pure false
              return Statement.other (← extentFrom first) (if overItems = true then .forIn else .forLoop))
            (if overItems = true then do
              let overItems ← pure true
              return Statement.other (← extentFrom first') (if overItems = true then .forIn else .forLoop)
            else do
              require piece.value
              read'.sequenceFrom .enclosed
              expectMark ";"
              read'.loopTail
              let overItems ← pure false
              return Statement.other (← extentFrom first') (if overItems = true then .forIn else .forLoop))
            s := by
          intro overItems s room
          cases overItems with
          | true => exact follows_then (follows_pure rfl) fun _ _ _ => follows_stated near _
          | false =>
            refine follows_require fun _ => ?_
            refine follows_then (tied.sequenceFrom (room.mono (by omega))) fun _ t sequence => ?_
            have room := room.later sequence.leads
            exact follows_then (follows_expectMark _) fun _ _ semicolon =>
              counts (room.later semicolon.leads)
        split
        · exact follows_then (tied.loopOver? room) fun ranged s reads => tail ranged (room.later reads.leads)
        · exact follows_then (follows_pure rfl) fun ranged s reads => tail ranged (room.later reads.leads)

end Loops

section Statements

theorem switchCase (room : b.Room depth 2 c) : b.Follows b.Clear b.Clear
    (do
      expectMark ":"
      let _ ← many (α := Unit) do
        match ← next with
        | .word "case" | .word "default" | .mark "\x7d" => pure none
        | _ => do
          read.body
          pure (some ())
      pure (some ()))
    (do
      expectMark ":"
      let _ ← many (α := Unit) do
        match ← next with
        | .word "case" | .word "default" | .mark "\x7d" => pure none
        | _ => do
          read'.body
          pure (some ())
      pure (some ())) c := by
  refine follows_then (follows_expectMark _) fun _ m colon => ?_
  have room := room.later colon.leads
  refine follows_then (follows_many (fun _ clear => clear.inside) (fun d leads => ?_) fun d leads => ?_)
    fun _ _ _ => follows_pure rfl
  · refine advances_next ?_
    split
    · exact advances_none
    · exact advances_none
    · exact advances_none
    · exact (passes_bind (passes_bind (tied.statementPasses d) _) _).advances
  · refine follows_next ?_
    split
    · exact follows_pure rfl
    · exact follows_pure rfl
    · exact follows_pure rfl
    · exact follows_then (tied.body (room.later leads)) fun _ _ _ => follows_pure rfl

theorem switchTail (room : b.Room depth 0 c) :
    b.Follows b.Clear b.Clear read.switchTail read'.switchTail c := by
  refine follows_then (tied.condition room) fun _ m condition => ?_
  have room := room.later condition.leads
  refine follows_then (follows_expectMark _) fun _ n opened => ?_
  have room := room.consumed (expectMark_consumed opened)
  refine follows_then (follows_many (fun _ clear => clear.inside) (fun d leads => ?_) fun d leads => ?_)
    fun _ _ _ => follows_pure rfl
  · exact advances_acceptMark (passes_acceptWord (passes_bind (passes_expectWord _) _)).advances
  · refine follows_then (follows_acceptMark _) fun closed e closing => ?_
    cases closed with
    | true => exact follows_pure rfl
    | false =>
      have room := room.later (leads.trans closing.leads)
      refine follows_then (follows_acceptWord _) fun case f word => ?_
      have room := room.later word.leads
      cases case with
      | true =>
        refine follows_then (tied.sequence (room.mono (by omega))) fun _ g sequence => ?_
        exact tied.switchCase (room.later sequence.leads)
      | false =>
        exact follows_then (follows_expectWord _) fun _ _ default =>
          tied.switchCase (room.later default.leads)

theorem tryTail (room : b.Room depth 0 c) :
    b.Follows b.Clear b.Clear read.tryTail read'.tryTail c := by
  refine follows_then (tied.block room) fun _ m reads => ?_
  have room := room.later reads.leads
  have ends : ∀ {n : Cursor}, m.Leads n → b.Follows b.Clear b.Clear
      (do if ← acceptWord "finally" then read.block false)
      (do if ← acceptWord "finally" then read'.block false) n := by
    intro n leads
    refine follows_then (follows_acceptWord _) fun given o word => ?_
    cases given with
    | true => exact tied.block (room.later (leads.trans word.leads))
    | false => exact follows_pure rfl
  have caught : ∀ {n : Cursor}, m.Leads n → b.Follows b.Clear b.Clear
      (do
        read.block false
        if ← acceptWord "finally" then read.block false)
      (do
        read'.block false
        if ← acceptWord "finally" then read'.block false) n := fun leads =>
    follows_then (tied.block (room.later leads)) fun _ _ block => ends (leads.trans block.leads)
  refine follows_then (follows_acceptWord _) fun given n word => ?_
  cases given with
  | false => exact ends word.leads
  | true =>
    refine follows_then (follows_acceptMark _) fun bound o mark => ?_
    have leads := word.leads.trans mark.leads
    cases bound with
    | false => exact caught leads
    | true =>
      refine follows_bind (tied.bindingTarget (room.later leads)) fun _ _ p target _ => ?_
      exact follows_then (follows_expectMark _) fun _ _ closed =>
        caught (leads.trans (target.leads.trans closed.leads))

theorem expressionStatement (near : b.Near first first') (room : b.Room depth 1 c) :
    b.Follows b.Clear b.Clear (read.expressionStatement first) (read'.expressionStatement first') c :=
  follows_then (tied.sequence room) fun _ _ _ =>
    follows_then (follows_semicolon true) fun _ _ _ => follows_stated near _

theorem wordStatement {word : String} (near : b.Near (c.tokenAfter 0) first')
    (found : (c.tokenAfter 0).lexeme = .word word) (before : tokenText c.rest ≠ b.old)
    (room : b.Room depth 1 c) :
    b.Follows b.Clear b.Clear (read.wordStatement (c.tokenAfter 0) word)
      (read'.wordStatement first' word) c := by
  have plain : ∀ {kind : Kind} {tail tail' : Scan Unit},
      (∀ m, b.Room depth 3 m → b.Follows b.Clear b.Clear tail tail' m) →
      b.Follows b.Clear b.Clear
        (do
          pass word.length
          tail
          return Statement.other (← extentFrom (c.tokenAfter 0)) kind)
        (do
          pass word.length
          tail'
          return Statement.other (← extentFrom first') kind) c := by
    intro kind tail tail' follows
    have positive := length_ne_zero found (by simp) (by simp) (by simp)
    refine follows_then (follows_passWord found) fun _ m passed => ?_
    have room := room.consumed (pass_consumed found (by simp) positive passed)
    exact follows_then (follows m room) fun _ _ _ => follows_stated near _
  unfold Readers.wordStatement
  dsimp only
  split
  · refine follows_second (by rw [found]; rfl) fun again same _ => ?_
    rw [same before]
    split
    · exact tied.expressionStatement near room
    · exact tied.expressionStatement near room
    · exact tied.importDeclaration near found (room.mono (by omega))
  · exact plain fun m room => tied.exportTail (room.mono (by omega))
  · refine plain fun m room => ?_
    refine follows_then (tied.condition (room.mono (by omega))) fun _ n condition => ?_
    have room := (room.later condition.leads)
    refine follows_then (tied.body (room.mono (by omega))) fun _ o body => ?_
    have room := room.later body.leads
    refine follows_then (follows_acceptWord _) fun other p word => ?_
    cases other with
    | true => exact tied.body ((room.later word.leads).mono (by omega))
    | false => exact follows_pure rfl
  · exact tied.loop near found room
  · refine plain fun m room => ?_
    exact follows_then (tied.condition (room.mono (by omega))) fun _ _ condition =>
      tied.body ((room.later condition.leads).mono (by omega))
  · refine plain fun m room => ?_
    refine follows_then (tied.body (room.mono (by omega))) fun _ n body => ?_
    have room := room.later body.leads
    refine follows_then (follows_expectWord _) fun _ o word => ?_
    refine follows_then (tied.condition ((room.later word.leads).mono (by omega))) fun _ p _ => ?_
    refine follows_then (follows_takeLineEnd false) fun ended _ _ => ?_
    cases ended with
    | true => exact follows_pure rfl
    | false => exact follows_then (follows_acceptMark _) fun _ _ _ => follows_pure rfl
  · exact plain fun m room => tied.switchTail (room.mono (by omega))
  · exact plain fun m room => tied.tryTail (room.mono (by omega))
  · refine plain fun m room => ?_
    exact follows_then (tied.condition (room.mono (by omega))) fun _ _ condition =>
      tied.body ((room.later condition.leads).mono (by omega))
  · exact plain fun m _ => follows_jumpTail
  · exact plain fun m _ => follows_jumpTail
  · exact plain fun m _ => follows_semicolon false
  · refine plain fun m room => ?_
    refine follows_then (follows_takeLineEnd false) fun ended n line => ?_
    cases ended with
    | true => exact follows_pure rfl
    | false =>
      refine follows_then (follows_acceptMark _) fun closed o mark => ?_
      have room := room.later (line.leads.trans mark.leads)
      cases closed with
      | true => exact follows_pure rfl
      | false => exact follows_then (tied.sequence (room.mono (by omega))) fun _ _ _ =>
          follows_semicolon true
  · refine plain fun m room => ?_
    exact follows_then (tied.sequence (room.mono (by omega))) fun _ _ _ => follows_semicolon true
  · refine follows_second (by rw [found]; rfl) fun again same _ => ?_
    rw [same before]
    split
    · refine plain fun m room => ?_
      exact follows_then (follows_expectMark _) fun _ _ colon =>
        tied.body ((room.later colon.leads).mono (by omega))
    · exact tied.expressionStatement near room

theorem nextStatement (room : b.Room depth 1 c) :
    b.Follows b.Clear b.Clear read.statement read'.statement c := by
  have passes : read.statement.Passes c :=
    (ensures_statement (fun c mode => tied.expressionPasses c mode) c).mono fun _ _ _ holds => holds.beyond
  refine Follows.assuming_before passes (fun _ clear => clear.inside) fun before => ?_
  refine follows_ahead fun first' near => ?_
  rw [near.lexeme]
  split
  · next found => exact follows_then (follows_passMark found) fun _ _ _ => follows_pure rfl
  · exact follows_then (tied.block (room.mono (by omega))) fun _ _ _ => follows_stated near _
  · refine follows_then (tied.decorators (room.mono (by omega))) fun _ m decorated => ?_
    have room := room.later decorated.leads
    refine follows_then (follows_acceptWord _) fun exported n word => ?_
    have room := room.later word.leads
    cases exported with
    | true => exact follows_then (tied.exportTail room) fun _ _ _ => follows_stated near _
    | false => exact tied.classDeclaration near (room.mono (by omega))
  · refine follows_bind (tied.declaration? near before (room.mono (by omega))) ?_
    intro declared declared' m reads same
    cases declared with
    | some statement =>
      obtain ⟨statement', rfl, statements⟩ := Option.map_eq_some_iff.mp same
      exact follows_pure statements
    | none =>
      obtain rfl : declared' = none := Option.map_eq_none_iff.mp same
      -- Without a declaration nothing was read.
      have stays : (read.declaration? (c.tokenAfter 0) true).Ensures c
          fun declared m => declared = none → m = c :=
        ensures_declaration? true (fun _ => rfl) fun _ _ => ensures_of_leads (by simp)
      obtain rfl := reads.ensured stays rfl
      dsimp only
      split
      · next found => exact tied.wordStatement near found before room
      · exact tied.expressionStatement near room

end Statements

end Tied

section Readers

theorem progresses_reader (n : Nat) : Progresses (reader n) where
  statementPasses c := (ensures_readStatement n c).mono fun _ _ _ holds => holds.beyond
  expressionPasses := passes_readExpression n
  operandPasses c mode := by
    cases n with
    | zero => exact passes_unexpected
    | succ n => exact passes_operand (passes_readMarkup n) mode
  markupPasses := passes_readMarkup n

theorem Follows.of_no_room {α : Type} [Alone α] {begins ends : Cursor → Prop} {scan scan' : Scan α}
    {levels : Nat} (ending : ∀ d, ends d → b.Inside d) (room : b.Room 0 levels c) :
    b.Follows begins ends scan scan' c := by
  refine Follows.assuming_inside ending fun inside => ?_
  obtain ⟨front, before⟩ := inside
  rw [Room, before, List.length_append] at room
  omega

/-- The readers of two scripts follow each other, as deep as both may go. -/
theorem tied_reader (b : Border) {depth n other : Nat} (enough : depth ≤ n) (others : depth ≤ other) :
    b.Tied (reader n) (reader other) depth := by
  induction depth generalizing n other with
  | zero =>
    have clear : ∀ d, b.Clear d → b.Inside d := fun _ clear => clear.inside
    exact {
      progresses_reader n with
      statement := fun _ room => .of_no_room clear room
      expression := fun _ _ room => .of_no_room clear room
      operand := fun _ _ room => .of_no_room clear room
      creator := fun _ _ room => .of_no_room clear room
      markup := fun _ room => .of_no_room (fun _ inside => inside) room }
  | succ depth inductionHypothesis =>
    obtain ⟨n, rfl⟩ : ∃ rest, n = rest + 1 := ⟨n - 1, by omega⟩
    obtain ⟨other, rfl⟩ : ∃ rest, other = rest + 1 := ⟨other - 1, by omega⟩
    have tied : b.Tied (reader n) (reader other) depth := inductionHypothesis (by omega) (by omega)
    exact {
      progresses_reader (n + 1) with
      statement := fun _ room => tied.nextStatement room.inner
      expression := fun _ _ room => tied.nextExpression room.inner
      operand := fun _ _ room => tied.nextOperand room.inner
      creator := fun _ _ room => tied.nextConstructor room.inner
      markup := fun _ room => tied.nextMarkup room }

end Readers

end Border

end ImportRedirect.Script
