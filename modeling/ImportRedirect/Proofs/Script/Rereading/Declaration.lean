import ImportRedirect.Proofs.Script.Rereading.Import

/-!
Drafted declarations are read as what they mean: a name, and as its value the call of a function with a
quoted text or a member of what it gives.
-/

namespace ImportRedirect.Script

open Node Value

namespace Draft

open Scan Readers

variable {c : Cursor} {rest : List Char}

section Requiring

variable {n : Nat} {read : Readers} {mode : Mode} {first : Cursor} {closing : Char}

/-- A mark that no expression goes on with. -/
def Closes (closing : Char) : Prop := closing = ')' ∨ closing = ';'

theorem Closes.begins (closes : Closes closing) (rest : List Char) :
    Begins (closing :: rest) (.mark (String.singleton closing)) rest := by
  rcases closes with rfl | rfl
  · exact begins_mark (by decide) (by simp [longMarks])
  · exact begins_mark (by decide) (by simp [longMarks])

theorem Closes.goesOn (closes : Closes closing) (rest : List Char) : GoesOn (closing :: rest) := by
  rcases closes with rfl | rfl
  · exact .here (by decide)
  · exact .here (by decide)

section Closing

variable (closes : Closes closing) (before : c.Before (closing :: rest))

include closes before

/-- Before a closing mark nothing follows an operand. -/
theorem finds_followedFrom_closing (calls : Bool) (n : Nat) (left : Piece) :
    (read.followedFrom first mode calls n left).Finds c fun piece d => piece = left ∧ d = c := by
  cases n with
  | zero => exact finds_pure ⟨rfl, rfl⟩
  | succ n =>
    rw [followedFrom]
    split
    · exact finds_pure ⟨rfl, rfl⟩
    · refine finds_stops before (closes.goesOn rest) ?_
      refine finds_next before (closes.begins rest) ?_
      rcases closes with rfl | rfl
      · exact finds_pure ⟨rfl, rfl⟩
      · exact finds_pure ⟨rfl, rfl⟩

theorem finds_assignment_closing (left : Piece) :
    (read.assignment first mode left).Finds c fun piece d => piece = left ∧ d = c := by
  refine finds_stops before (closes.goesOn rest) ?_
  refine finds_next before (closes.begins rest) ?_
  rcases closes with rfl | rfl
  · change (ite (_ && false) _ _ : Scan Piece).Finds c _
    rw [Bool.and_false]
    exact finds_pure ⟨rfl, rfl⟩
  · change (ite (_ && false) _ _ : Scan Piece).Finds c _
    rw [Bool.and_false]
    exact finds_pure ⟨rfl, rfl⟩

theorem finds_binaryTail_closing :
    (read.binaryTail mode).Finds c fun several d => several = false ∧ d = c := by
  have none : (do
      if ← stops mode then pure none
      else do
        let operator ← next
        if isBinary mode operator then do
          pass operator.length
          require (← read (.operand mode)).value
          pure (some ())
        else pure none : Scan (Option Unit)).Finds c fun result d => result = none ∧ d = c := by
    refine finds_stops before (closes.goesOn rest) ?_
    refine finds_next before (closes.begins rest) ?_
    rcases closes with rfl | rfl
    · exact finds_pure ⟨rfl, rfl⟩
    · exact finds_pure ⟨rfl, rfl⟩
  obtain ⟨_, _, reads, rfl, rfl⟩ := none
  exact finds_of_reads (Repeats.stop.many reads (Nat.zero_le _)) (finds_pure ⟨rfl, rfl⟩)

end Closing

/-- A token with which an operand begins that nothing goes before. -/
inductive Heads : Lexeme → Prop where
  | quote (mark : Char) : Heads (.quote mark)
  | word {word : String} (operand : Operand word) : Heads (.word word)

theorem finds_operand {token : Lexeme} {property : Piece → Prop} (closes : Closes closing)
    (found : (c.tokenAfter 0).lexeme = token) (heads : Heads token)
    (front : (do
      let left ← read.primary mode
      read.followed (c.tokenAfter 0) mode true left : Scan Piece).Finds c fun piece d =>
        property piece ∧ d.Passed (closing :: rest)) :
    (read.operand mode).Finds c fun piece d => property piece ∧ d.Passed (closing :: rest) := by
  have plain : (do
      let left ← read.primary mode
      let left ← read.followed (c.tokenAfter 0) mode true left
      read.assignment (c.tokenAfter 0) mode left : Scan Piece).Finds c fun piece d =>
        property piece ∧ d.Passed (closing :: rest) := by
    obtain ⟨piece, d, reads, holds, passed⟩ := front
    obtain ⟨left, m, primary, followed⟩ := reads_bind.mp reads
    refine finds_of_reads primary (finds_of_reads followed ?_)
    refine (finds_assignment_closing closes passed.before piece).mono fun _ _ _ same => ?_
    obtain ⟨rfl, rfl⟩ := same
    exact ⟨holds, passed⟩
  refine finds_ahead ?_
  rw [found]
  cases heads with
  | quote mark => exact plain
  | @word word operand =>
    have noUnary : unaryWords.contains word = false :=
      Bool.eq_false_iff.mpr fun unary => operand.readable.notMem_reservedWords <|
        (by decide : unaryWords ⊆ reservedWords) (List.contains_iff_mem.mp unary)
    have noAwait : (word == "await") = false := beq_false_of_ne operand.plain.2.1
    have noYield : (word == "yield") = false := beq_false_of_ne operand.plain.2.2
    simp only [noUnary, noAwait, noYield, Bool.false_eq_true, if_false]
    exact plain

theorem finds_expression {token : Lexeme} {property : Piece → Prop} (closes : Closes closing)
    (found : (c.tokenAfter 0).lexeme = token) (heads : Heads token)
    (value : ∀ piece, property piece → piece.value = true)
    (front : (do
      let left ← read.primary mode
      read.followed (c.tokenAfter 0) mode true left : Scan Piece).Finds c fun piece d =>
        property piece ∧ d.Passed (closing :: rest)) :
    (read.expression mode).Finds c fun piece d => property piece ∧ d.Passed (closing :: rest) := by
  have operand : (do
      let left ← read.operand mode
      if !left.value then pure left
      else do
        let compound ← read.binaryTail mode
        if ← stops mode then expression.finish (c.tokenAfter 0) left compound
        else if ← acceptMark "?" then do
          let _ ← read.valueIn .enclosed
          expectMark ":"
          let _ ← read.valueIn mode
          return .ofValue (.other (← extentFrom (c.tokenAfter 0)) .ternary)
        else expression.finish (c.tokenAfter 0) left compound : Scan Piece).Finds c fun piece d =>
          property piece ∧ d.Passed (closing :: rest) := by
    refine (finds_operand closes found heads front).bind fun left d _ known => ?_
    obtain ⟨holds, passed⟩ := known
    rw [if_neg (by simp [value left holds])]
    refine (finds_binaryTail_closing closes passed.before).bind fun several e _ same => ?_
    obtain ⟨rfl, rfl⟩ := same
    refine finds_stops passed.before (closes.goesOn rest) ?_
    refine finds_refuse passed.before (closes.begins rest) ?_ (finds_pure ⟨holds, passed⟩)
    rcases closes with rfl | rfl
    · decide
    · decide
  refine finds_ahead ?_
  rw [found]
  cases heads with
  | quote mark => exact operand
  | word _ => exact operand

/-- A value whose node is known, places aside. -/
structure Gives (node : Value) (piece : Piece) : Prop where
  value : piece.value = true
  node : piece.expr.node.unplaced = node

theorem finds_argument (argument : Quotation) (before : c.Before (argument.raw.toList ++ ')' :: rest)) :
    (reader (n + 1) (.expression .enclosed)).Finds c fun piece d =>
      Gives argument.node piece ∧ d.Passed (')' :: rest) := by
  obtain ⟨mark, quotes⟩ := argument.quotes
  have token := quotes.tokenText_append (')' :: rest)
  have quote : (c.tokenAfter 0).lexeme = .quote mark := by
    rw [Cursor.lexeme_tokenAfter, before.rest, token, quotes.first_append]
  have primary : ((reader n).primary .enclosed).Finds c fun piece d =>
      Gives argument.node piece ∧ d.Passed (')' :: rest) := by
    refine finds_ahead ?_
    rw [quote]
    refine finds_quotedText before token quotes fun extent d written passed => finds_pure ?_
    exact ⟨⟨rfl, unplaced_textNode (written.trans String.ofList_toList)⟩, passed⟩
  refine finds_expression (.inl rfl) quote (.quote mark) (fun _ gives => gives.value) ?_
  refine primary.bind fun piece d _ known => finds_cursor ?_
  refine (finds_followedFrom_closing (.inl rfl) known.2.before true _ piece).mono fun _ _ _ same => ?_
  obtain ⟨rfl, rfl⟩ := same
  exact known

theorem finds_arguments (argument : Quotation)
    (before : c.Before ('(' :: (argument.raw.toList ++ ')' :: rest))) :
    (reader (n + 1)).arguments.Finds c fun given d =>
      (∃ piece, given = [some piece] ∧ Gives argument.node piece) ∧ d.Passed rest := by
  obtain ⟨mark, quotes⟩ := argument.quotes
  have closes : Closes ')' := .inl rfl
  have opening : Begins ('(' :: (argument.raw.toList ++ ')' :: rest)) (.mark "(")
      (argument.raw.toList ++ ')' :: rest) := begins_mark (by decide) (by simp [longMarks])
  have quote : Begins (argument.raw.toList ++ ')' :: rest) (.quote mark)
      (argument.raw.toList ++ ')' :: rest) :=
    ⟨by rw [quotes.tokenText_append, quotes.first_append], quotes.tokenText_append _⟩
  refine finds_expect before opening fun m passed => finds_last ?_
  have one : (itemOrGapBefore ")" (reader (n + 1)).spreadable).Finds m fun result d =>
      ∃ piece, result = some (some piece) ∧ Gives argument.node piece ∧ d.Passed (')' :: rest) := by
    refine finds_refuse passed.before quote (by simp) ?_
    refine finds_refuse passed.before quote (by simp) ?_
    have item : ((reader (n + 1)).spreadable).Finds m fun piece d =>
        Gives argument.node piece ∧ d.Passed (')' :: rest) :=
      finds_ahead (finds_refuse passed.before quote (by simp) (finds_argument argument passed.before))
    refine item.bind fun piece d _ known => ?_
    refine finds_sees known.2.before (closes.begins rest) ?_
    exact finds_given (finds_pure ⟨piece, rfl, known⟩)
  obtain ⟨_, d, first, piece, rfl, gives, closing⟩ := one
  have closed : (itemOrGapBefore ")" (reader (n + 1)).spreadable).Finds d fun result e =>
      result = none ∧ e.Passed rest :=
    finds_accept closing.before (closes.begins rest) fun e passed => finds_pure ⟨rfl, passed⟩
  obtain ⟨_, e, last, rfl, ahead⟩ := closed
  have some : 1 ≤ m.size := by
    have within := passed.before.length_le
    rw [passed.before.rest, List.length_append, List.length_cons] at within
    omega
  exact finds_of_reads ((Repeats.more first .stop).many last some)
    (finds_pure ⟨⟨piece, rfl, gives⟩, ahead⟩)

variable {callee : Callee} {argument : Quotation} {member : Option Name}

theorem gives_call {place : Extent} {function : Expr} {piece : Piece}
    (called : function.node.unplaced = identifier (.str callee.text)) (given : Gives argument.node piece) :
    Gives (callNode callee argument) (.ofValue (.call place function [piece.expr] false)) := by
  refine ⟨rfl, ?_⟩
  change (Extent.located place [("type", .str "CallExpression"), ("callee", function.node),
    ("arguments", .arr [piece.expr.node]), ("optional", .bool false)]).unplaced = _
  rw [unplaced_located]
  simp [unplacedFields, isPlace, called, given.node, callNode]

theorem finds_callFrom {function : Expr} (called : function.node.unplaced = identifier (.str callee.text))
    (before : c.Before ('(' :: (argument.raw.toList ++ ')' :: rest))) :
    ((reader (n + 1)).callFrom first function false).Finds c fun piece d =>
      Gives (callNode callee argument) piece ∧ d.Passed rest := by
  refine (finds_arguments argument before).bind fun given d _ known => ?_
  obtain ⟨⟨piece, rfl, gives⟩, passed⟩ := known
  refine finds_require (by simp [gives.value]) (finds_extentFrom fun place _ => finds_pure ?_)
  exact ⟨gives_call called gives, passed⟩

def memberText : Option Name → List Char
  | none => []
  | some member => '.' :: member.text.toList

theorem finds_memberFrom {name : Name} {left : Piece} (gives : Gives (callNode callee argument) left)
    (before : c.Before (name.text.toList ++ ';' :: rest)) :
    (memberFrom first left.expr false).Finds c fun piece d =>
      Gives (valueNode callee argument (some name)) piece ∧ d.Passed (';' :: rest) := by
  have word := name.readable.word
  have begins := word.begins_append (namePartLength?_of_break (c := ';') (by decide) rest)
  have property : property.Finds c fun extent d => extent.text = name.text ∧ d.Passed (';' :: rest) := by
    refine finds_ahead ?_
    rw [before.lexeme begins]
    have passes : (pass name.text.length).Finds c fun _ m => m.Passed (';' :: rest) :=
      finds_last (finds_pass before begins fun m passed => finds_pure passed)
    refine passes.bind fun _ m leads passed => finds_last (finds_extentFrom fun extent known => ?_)
    have written := before.text_passed (word.tokenText_append _) leads passed
    exact finds_pure ⟨by rw [known, written, String.ofList_toList], passed⟩
  refine property.bind fun extent m _ known => finds_extentFrom fun place _ => finds_pure ?_
  refine ⟨⟨rfl, ?_⟩, known.2⟩
  change (Extent.located place [("type", .str "MemberExpression"), ("object", left.expr.node),
    ("property", .obj [("type", .str "Identifier"), ("name", .str extent.text)]),
    ("computed", .bool false), ("optional", .bool false)]).unplaced = _
  rw [unplaced_located]
  simp [unplacedFields, unplaced, isPlace, gives.node, known.1, valueNode, Redirector.memberOf,
    identifier, ofOption]

/-- After the call a member may be asked of what it gives. -/
theorem finds_followedFrom_called {left : Piece} (gives : Gives (callNode callee argument) left)
    (passed : c.Passed (memberText member ++ ';' :: rest)) :
    (read.followedFrom first mode true (n + 1) left).Finds c fun piece d =>
      Gives (valueNode callee argument member) piece ∧ d.Passed (';' :: rest) := by
  cases member with
  | none =>
    refine (finds_followedFrom_closing (.inr rfl) passed.before true _ left).mono fun _ _ _ same => ?_
    obtain ⟨rfl, rfl⟩ := same
    exact ⟨gives, passed⟩
  | some name =>
    have before : c.Before ('.' :: (name.text.toList ++ ';' :: rest)) := passed.before
    have point := name.readable.word.begins_point (';' :: rest)
    rw [followedFrom, if_neg (by simp [gives.value])]
    refine finds_stops before (.here (by decide)) (finds_next before point ?_)
    refine finds_pass before point fun m passed => ?_
    refine (finds_memberFrom gives passed.before).bind fun piece d _ known => ?_
    refine (finds_followedFrom_closing (.inr rfl) known.2.before true _ piece).mono fun _ _ _ same => ?_
    obtain ⟨rfl, rfl⟩ := same
    exact known

theorem begins_call (rest : List Char) (argument : Quotation) :
    Begins ('(' :: (argument.raw.toList ++ rest)) (.mark "(") (argument.raw.toList ++ rest) :=
  begins_mark (by decide) (by simp [longMarks])

/-- A name is an operand by itself, but after `async` the call is read at once. -/
theorem finds_wordOperand (callee : Callee) {mark : String} {after : List Char}
    (follows : Begins rest (.mark mark) after) (noArrow : mark ≠ "=>")
    (before : c.Before (' ' :: (callee.text.toList ++ '(' :: (argument.raw.toList ++ ')' :: rest)))) :
    ((reader (n + 1)).wordOperand (c.tokenAfter 0) mode callee.text).Finds c fun piece d =>
      Gives (callNode callee argument) piece ∧ d.Passed rest ∨
        ∃ extent, piece = .ofTarget (.name extent) ∧ extent.text = callee.text ∧
          d.Passed ('(' :: (argument.raw.toList ++ ')' :: rest)) := by
  obtain ⟨text, operand⟩ := callee
  dsimp only at before ⊢
  have reserved := operand.readable.notMem_reservedWords
  have token := (tokenText_blank _).trans (operand.readable.word.tokenText_append
    ('(' :: (argument.raw.toList ++ ')' :: rest)))
  have begins := (operand.readable.word.begins_append (namePartLength?_of_break (c := '(') (by decide)
    (argument.raw.toList ++ ')' :: rest))).space
  have opening := begins_call (')' :: rest) argument
  unfold wordOperand
  dsimp only
  split
  case h_10 =>
    have passes : (pass 5).Finds c fun _ m => m.Passed ('(' :: (argument.raw.toList ++ ')' :: rest)) :=
      finds_last (finds_pass before begins fun m passed => finds_pure passed)
    refine passes.bind fun _ m leads passed => finds_extentFrom fun extent known => ?_
    have written := before.text_passed token leads passed
    have called : (Expr.name extent).node.unplaced = identifier (.str "async") := by
      rw [Expr.node, unplaced_nameNode, known, written, String.ofList_toList]
    refine finds_sees passed.before opening ?_
    refine finds_stops passed.before (.here (by decide)) (finds_next passed.before opening ?_)
    refine (finds_arguments argument passed.before).bind fun given d _ found => ?_
    obtain ⟨⟨piece, rfl, gives⟩, passed⟩ := found
    refine finds_sees passed.before follows ?_
    rw [if_neg (by simpa using noArrow)]
    refine finds_require (by simp [gives.value]) (finds_extentFrom fun place _ => finds_pure ?_)
    exact .inl ⟨@gives_call ⟨"async", operand⟩ argument _ _ _ called gives, passed⟩
  case h_11 =>
    refine finds_name before begins operand.readable.name fun extent d written passed => ?_
    refine finds_sees passed.before opening ?_
    have known : (extent.text == "undefined") = false := by
      rw [written]
      exact beq_false_of_ne operand.plain.1
    simp only [known]
    exact finds_pure (.inr ⟨extent, rfl, written, passed⟩)
  all_goals exact absurd (by decide) reserved

theorem begins_memberText (member : Option Name) (rest : List Char) :
    ∃ mark after, Begins (memberText member ++ ';' :: rest) (.mark mark) after ∧ mark ≠ "=>" := by
  cases member with
  | none => exact ⟨_, _, begins_semicolon rest, by decide⟩
  | some name => exact ⟨_, _, name.readable.word.begins_point (';' :: rest), by decide⟩

theorem finds_value (callee : Callee) (argument : Quotation) (member : Option Name)
    (before : c.Before (' ' :: (callee.text.toList ++ '(' :: (argument.raw.toList ++
      ')' :: (memberText member ++ ';' :: rest))))) :
    (reader (n + 2) (.expression mode)).Finds c fun piece d =>
      Gives (valueNode callee argument member) piece ∧ d.Passed (';' :: rest) := by
  have begins := (callee.operand.readable.word.begins_append (namePartLength?_of_break (c := '(')
    (by decide) (argument.raw.toList ++ ')' :: (memberText member ++ ';' :: rest)))).space
  obtain ⟨mark, after, follows, noArrow⟩ := begins_memberText member rest
  refine finds_expression (.inr rfl) (before.lexeme begins) (.word callee.operand)
    (fun _ gives => gives.value) ?_
  have primary : ((reader (n + 1)).primary mode).Finds c _ :=
    finds_ahead (by rw [before.lexeme begins]; exact finds_wordOperand callee follows noArrow before)
  refine primary.bind fun left m _ known => finds_cursor ?_
  rcases known with ⟨gives, passed⟩ | ⟨extent, rfl, written, passed⟩
  · exact finds_followedFrom_called gives passed
  · have opening := begins_call (')' :: (memberText member ++ ';' :: rest)) argument
    have called : (Expr.name extent).node.unplaced = identifier (.str callee.text) := by
      rw [Expr.node, unplaced_nameNode, written]
    obtain ⟨size, counted⟩ : ∃ size, m.size = size + 1 := by
      have within := passed.before.length_le
      rw [passed.before.rest, List.length_cons] at within
      exact ⟨m.size - 1, by omega⟩
    rw [counted, followedFrom, if_neg (by simp [Piece.ofTarget])]
    refine finds_stops passed.before (.here (by decide)) (finds_next passed.before opening ?_)
    refine (finds_callFrom called passed.before).bind fun piece d _ known => ?_
    exact finds_followedFrom_called known.1 known.2

def declarationText (target : Name) (callee : Callee) (argument : Quotation) (member : Option Name) :
    List Char :=
  target.text.toList ++ ' ' :: '=' :: ' ' :: (callee.text.toList ++
    '(' :: (argument.raw.toList ++ ')' :: (memberText member ++ [';'])))

theorem finds_declarator (target : Name) (callee : Callee) (argument : Quotation) (member : Option Name)
    (before : c.Before (' ' :: (declarationText target callee argument member ++ rest))) :
    ((reader (n + 2)).declarator .statement).Finds c fun pair d =>
      pair.1.node.unplaced = .obj [("type", .str "VariableDeclarator"), ("id", target.node),
        ("init", valueNode callee argument member)] ∧ pair.2 = false ∧ d.Passed (';' :: rest) := by
  have before : c.Before (' ' :: (target.text.toList ++ ' ' :: '=' :: ' ' :: (callee.text.toList ++
      '(' :: (argument.raw.toList ++ ')' :: (memberText member ++ ';' :: rest))))) := by
    simpa [declarationText] using before
  have begins := target.readable.word.begins_spaced ('=' :: ' ' :: (callee.text.toList ++
      '(' :: (argument.raw.toList ++ ')' :: (memberText member ++ ';' :: rest))))
  have equals : Begins (' ' :: '=' :: ' ' :: (callee.text.toList ++
      '(' :: (argument.raw.toList ++ ')' :: (memberText member ++ ';' :: rest)))) (.mark "=") _ :=
    (begins_mark (by decide) (by simp [longMarks])).space
  have bound : (reader (n + 2)).bindingTarget.Finds c fun expr d =>
      expr.node.unplaced = target.node ∧ d.Passed (' ' :: '=' :: ' ' :: (callee.text.toList ++
        '(' :: (argument.raw.toList ++ ')' :: (memberText member ++ ';' :: rest)))) := by
    refine finds_ahead ?_
    rw [before.lexeme begins]
    refine finds_name before begins target.readable.name fun extent d written passed => finds_pure ?_
    exact ⟨by rw [Expr.node, unplaced_nameNode, written]; rfl, passed⟩
  refine finds_ahead (bound.bind fun expr m _ known => finds_extentFrom fun place _ => ?_)
  obtain ⟨named, passed⟩ := known
  refine finds_lineEnd passed.before (.space (.here (by decide))) ?_
  refine finds_accept passed.before equals fun m passed => ?_
  have value : ((reader (n + 2)).valueIn .statement).Finds m fun piece d =>
      Gives (valueNode callee argument member) piece ∧ d.Passed (';' :: rest) :=
    (finds_value callee argument member passed.before).bind fun piece d _ known =>
      finds_require known.1.value (finds_pure known)
  refine value.bind fun piece d _ known => finds_extentFrom fun whole _ => ?_
  obtain ⟨gives, passed⟩ := known
  refine finds_stops passed.before (goesOn_semicolon rest) (finds_pure ⟨?_, rfl, passed⟩)
  rw [Declarator.node, unplaced_located]
  simp [unplacedFields, isPlace, named, gives.node]

theorem finds_declarationFrom {first : Cursor} {text : List Char} (binder : Binder) (target : Name)
    (callee : Callee) (argument : Quotation) (member : Option Name) (before : c.Before text)
    (keyword : Begins text (.word binder.name)
      (' ' :: (declarationText target callee argument member ++ rest))) :
    ((reader (n + 2)).declarationFrom first binder).Finds c fun statement d =>
      statement.Means (.requiring binder target callee argument member) ∧ d.Passed rest := by
  refine finds_pass before keyword fun m passed => finds_cursor ?_
  have declarators : ((reader (n + 2)).declaratorsWithin .statement (m.size + 1)).Finds m
      fun found d => (∃ declarator, found = [declarator] ∧ declarator.node.unplaced =
        .obj [("type", .str "VariableDeclarator"), ("id", target.node),
          ("init", valueNode callee argument member)]) ∧ d.Passed rest := by
    refine (finds_declarator target callee argument member passed.before).bind
      fun pair d _ known => ?_
    obtain ⟨declarator, ended⟩ := pair
    obtain ⟨node, same, passed⟩ := known
    obtain rfl : ended = false := same
    refine finds_refuse passed.before (begins_semicolon rest) (by decide) ?_
    refine finds_expect passed.before (begins_semicolon rest) fun e passed => finds_pure ?_
    exact ⟨⟨declarator, rfl, node⟩, passed⟩
  refine declarators.bind fun found d _ known => finds_extentFrom fun place _ => finds_pure ?_
  obtain ⟨⟨declarator, rfl, node⟩, passed⟩ := known
  refine ⟨⟨_, rfl, ?_⟩, passed⟩
  rw [unplaced_located]
  simp [unplacedFields, isPlace, node, Draft.node]

end Requiring

end Draft

end ImportRedirect.Script
