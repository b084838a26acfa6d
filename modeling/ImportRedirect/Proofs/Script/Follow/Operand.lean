import ImportRedirect.Proofs.Script.Follow.Expression

/-!
Operands before a border, with what goes before and after them, up to whole expressions.
-/

namespace ImportRedirect.Script

open Scan Readers

namespace Piece

/-- What an operator such as `+=` can change. -/
def isPlace (piece : Piece) : Bool :=
  match piece.expr with
  | .name _ | .member .. | .other _ .subscript | .other _ .parenthesized => true
  | _ => false

theorem isPlace_eq {piece other : Piece} (same : alone other = alone piece) :
    other.isPlace = piece.isPlace := by
  have kept : ∀ piece : Piece, (alone piece).isPlace = piece.isPlace := by
    rintro ⟨expr, _, _, _⟩
    cases expr with
    | other _ kind => cases kind <;> rfl
    | _ => rfl
  rw [← kept other, same, kept piece]

end Piece

namespace Readers

/-- An expression after its first operand. -/
def expressionFrom (read : Readers) (first : Cursor) (mode : Mode) (left : Piece) : Scan Piece := do
  if !left.value then pure left
  else do
    let compound ← read.binaryTail mode
    if ← stops mode then expression.finish first left compound
    else if ← acceptMark "?" then do
      let _ ← read.valueIn .enclosed
      expectMark ":"
      let _ ← read.valueIn mode
      return .ofValue (.other (← extentFrom first) .ternary)
    else expression.finish first left compound

end Readers

namespace Border

variable {b : Border} {read read' : Readers} {depth : Nat} {c d first first' : Cursor} {mode : Mode}

namespace Tied

variable (tied : b.Tied read read' depth)

section Operands

variable {callee callee' : Expr} {optional : Bool}

include tied in
theorem callFrom (near : b.Near first first') (callees : alone callee' = alone callee)
    (room : b.Room depth 0 c) : b.Follows b.Clear b.Clear (read.callFrom first callee optional)
      (read'.callFrom first' callee' optional) c := by
  refine follows_bind (tied.arguments room) fun given given' _ _ same => ?_
  have pieces := alone_filterMap_id same
  dsimp only
  rw [all_alone (fun _ => rfl) pieces]
  refine follows_require fun _ => follows_placed near fun extent extent' place => ?_
  exact congrArg Piece.ofValue (Expr.alone_call place callees (Piece.alone_exprs pieces) optional)

theorem memberFrom (near : b.Near first first') (objects : alone callee' = alone callee) :
    b.Follows b.Clear b.Clear (Readers.memberFrom first callee optional)
      (Readers.memberFrom first' callee' optional) c := by
  refine follows_bind follows_property fun member member' _ _ same => ?_
  refine follows_placed near fun extent extent' place => congrArg Piece.ofTarget ?_
  show Expr.member _ (alone callee') (alone member') optional =
    Expr.member _ (alone callee) (alone member) optional
  rw [place, objects, same]

include tied in
theorem subscriptFrom (near : b.Near first first') (room : b.Room depth 0 c) :
    b.Follows b.Clear b.Clear (read.subscriptFrom first) (read'.subscriptFrom first') c := by
  refine follows_then (follows_expectMark _) fun _ m opened => ?_
  have room := room.consumed (expectMark_consumed opened)
  refine follows_then (tied.sequence (room.mono (by omega))) fun _ _ _ => ?_
  exact follows_then (follows_expectMark _) fun _ _ _ => follows_other near _ _ _ _

include tied in
theorem taggedFrom (near : b.Near first first') (found : (c.tokenAfter 0).lexeme = .mark "\x60")
    (room : b.Room depth 0 c) :
    b.Follows b.Clear b.Clear (read.taggedFrom first) (read'.taggedFrom first') c := by
  refine follows_then (follows_pass_raw found (by simp) (by omega) (by decide)) fun _ m passed => ?_
  exact follows_then (tied.template (room.later passed.leads)).to_clear fun _ _ _ =>
    follows_other near _ _ _ _

end Operands

section Followed

variable {left left' : Piece} {calls : Bool}

include tied in
theorem followedFrom (near : b.Near first first') (same : alone left' = alone left) {n other : Nat}
    (enough : c.rest.length < n) (others : (b.moved c).rest.length < other)
    (room : b.Room depth 0 c) :
    b.Follows b.Clear b.Clear (read.followedFrom first mode calls n left)
      (read'.followedFrom first' mode calls other left') c := by
  induction n generalizing c other left left' with
  | zero => omega
  | succ n inductionHypothesis =>
    obtain ⟨other, rfl⟩ : ∃ rest, other = rest + 1 := ⟨other - 1, by omega⟩
    -- Whatever was read after the operand, it is shorter from there.
    have again : ∀ {m : Cursor} {piece piece' : Piece}, c.Leads m → m.rest.length < c.rest.length →
        alone piece' = alone piece →
        b.Follows b.Clear b.Clear (read.followedFrom first mode calls n piece)
          (read'.followedFrom first' mode calls other piece') m := by
      intro m piece piece' leads shorter same
      refine Follows.assuming_inside (fun _ clear => clear.inside) fun inside => ?_
      have counted := inside.length_moved
      have before := (inside.earlier leads).length_moved
      exact inductionHypothesis same (by omega) (by omega) (room.later leads)
    have further : ∀ {m : Cursor} {step step' : Scan Piece}, c.Leads m → m.rest.length < c.rest.length →
        b.Follows b.Clear b.Clear step step' m → b.Follows b.Clear b.Clear
          (step >>= read.followedFrom first mode calls n)
          (step' >>= read'.followedFrom first' mode calls other) m := by
      intro m step step' leads shorter follows
      refine follows_bind follows fun piece piece' o reads same => ?_
      exact again (leads.trans reads.leads) (Nat.lt_of_le_of_lt reads.leads.length_le shorter) same
    have begins : ∀ {m : Cursor} {step step' : Scan Piece}, c.Leads m → step.Passes m →
        b.Follows b.Clear b.Clear step step' m → b.Follows b.Clear b.Clear
          (step >>= read.followedFrom first mode calls n)
          (step' >>= read'.followedFrom first' mode calls other) m := by
      intro m step step' leads passes follows
      refine follows_bind follows fun piece piece' o reads same => ?_
      have shorter := Nat.lt_of_lt_of_le (reads.ensured passes.consumes) leads.length_le
      exact again (leads.trans reads.leads) shorter same
    unfold Readers.followedFrom
    rw [Piece.value_eq same]
    cases left.value with
    | false => exact follows_pure same
    | true =>
      refine follows_then follows_stops fun stopped m stop => ?_
      cases stopped with
      | true => exact follows_pure same
      | false =>
        have room := room.later stop.leads
        have shorter := stop.leads.length_le
        have updates : ∀ {mark : String}, (m.tokenAfter 0).lexeme = .mark mark →
            (Lexeme.mark mark).chained = false → b.Follows b.Clear b.Clear
              (do
                pass 2
                let extent ← extentFrom first
                read.followedFrom first mode calls n (.ofValue (.other extent .update)))
              (do
                pass 2
                let extent ← extentFrom first'
                read'.followedFrom first' mode calls other (.ofValue (.other extent .update))) m := by
          intro mark found apart
          refine follows_then (follows_pass found (by simp) (by omega) (by simp [apart])) ?_
          intro _ o passed
          have consumed := pass_consumed found (by simp) (by omega) passed
          refine follows_bind (follows_extentFrom near) fun extent extent' p reads place => ?_
          have later := reads.leads.length_le
          refine again (stop.leads.trans (passed.leads.trans reads.leads)) (by omega) ?_
          exact congrArg (fun extent => Piece.ofValue (.other extent .update)) place
        refine follows_next ?_
        split
        · next found =>
          refine follows_then (follows_passMark found) fun _ o passed => ?_
          have consumed := pass_consumed found (by simp) (by decide) passed
          exact further (stop.leads.trans passed.leads) (by omega) (memberFrom near (Piece.expr_eq same))
        · next found =>
          refine follows_then (follows_passMark found) fun _ o passed => ?_
          have consumed := pass_consumed found (by simp) (by decide) passed
          have leads := stop.leads.trans passed.leads
          have room := room.later passed.leads
          refine follows_next ?_
          split
          · exact further leads (by omega) (tied.subscriptFrom near room)
          · split
            · exact further leads (by omega) (tied.callFrom near (Piece.expr_eq same) room)
            · exact follows_unexpected
          · exact further leads (by omega) (memberFrom near (Piece.expr_eq same))
        · exact begins stop.leads (passes_bind (passes_expectMark _) _) (tied.subscriptFrom near room)
        · split
          · exact begins stop.leads (passes_bind (passes_bind (passes_expectMark _) _) _)
              (tied.callFrom near (Piece.expr_eq same) room)
          · exact follows_pure same
        · next found =>
          refine begins stop.leads (passes_bind (passes_passMark found) _) ?_
          exact tied.taggedFrom near found room
        · next found =>
          split
          · exact updates found (by decide)
          · exact follows_pure same
        · next found =>
          split
          · exact updates found (by decide)
          · exact follows_pure same
        · exact follows_pure same

include tied in
theorem followed (near : b.Near first first') (same : alone left' = alone left)
    (room : b.Room depth 0 c) :
    b.Follows b.Clear b.Clear (read.followed first mode calls left)
      (read'.followed first' mode calls left') c :=
  follows_sized (fun _ clear => clear.inside) fun enough others =>
    tied.followedFrom near same enough others room

end Followed

section Words

variable {word word' : Extent}

include tied

theorem creation (near : b.Near first first') (room : b.Room depth 1 c) :
    b.Follows b.Clear b.Clear (read.creation first mode) (read'.creation first' mode) c := by
  refine follows_then (follows_acceptMark _) fun target m point => ?_
  have room := room.later point.leads
  cases target with
  | true => exact follows_then (follows_expectWord _) fun _ _ _ => follows_other near _ _ _ _
  | false =>
    refine follows_bind (tied.creator mode m room) fun callee callee' n reads same => ?_
    have room := room.later reads.leads
    rw [Piece.value_eq same]
    refine follows_require fun _ => follows_then follows_stops fun stopped o stop => ?_
    cases stopped with
    | true => exact follows_other near _ _ _ _
    | false =>
      refine follows_sees ?_
      split
      · have room := room.later stop.leads
        refine follows_bind (tied.arguments (room.mono (by omega))) fun given given' _ _ same => ?_
        rw [all_alone (fun item => by cases item <;> rfl) same]
        exact follows_require fun _ => follows_other near _ _ _ _
      · exact follows_other near _ _ _ _

theorem asyncFrom (near : b.Near first first') (words : alone word' = alone word)
    (room : b.Room depth 0 c) : b.Follows b.Clear b.Clear (read.asyncFrom first word mode)
      (read'.asyncFrom first' word' mode) c := by
  refine follows_sees ?_
  split
  · exact tied.arrowFrom near room
  · refine follows_then follows_stops fun stopped m stop => ?_
    have room := room.later stop.leads
    have itself : ∀ {o : Cursor}, b.Follows b.Clear b.Clear (pure (Piece.ofTarget (.name word)))
        (pure (Piece.ofTarget (.name word'))) o :=
      follows_pure (congrArg (fun extent => Piece.ofTarget (.name extent)) words)
    cases stopped with
    | true => exact itself
    | false =>
      refine follows_next ?_
      split
      · next found =>
        refine follows_then (follows_passWord found) fun _ o passed => ?_
        exact follows_then (tied.function (room.later passed.leads)) fun _ _ _ =>
          follows_other near _ _ _ _
      · next other found =>
        refine follows_second (by rw [found]; rfl) fun again same never => ?_
        have arrow : (again == .mark "=>") = (m.second == .mark "=>") := by
          by_cases here : tokenText m.rest = b.old
          · obtain ⟨none, none'⟩ := never here
            rw [beq_false_of_ne none, beq_false_of_ne none']
          · rw [same here]
        rw [arrow]
        split
        · refine follows_then (follows_passWord found) fun _ o passed => ?_
          exact tied.arrowFrom near (room.later passed.leads)
        · exact itself
      · refine follows_bind (tied.arguments room) fun given given' o reads same => follows_sees ?_
        have room := room.later reads.leads
        split
        · rw [all_alone (fun item => by cases item <;> rfl) same]
          exact follows_require fun _ => tied.arrowFrom near room
        · have pieces := alone_filterMap_id same
          dsimp only
          rw [all_alone (fun _ => rfl) pieces]
          refine follows_require fun _ => follows_placed near fun extent extent' place => ?_
          have callees : alone (Expr.name word') = alone (Expr.name word) := congrArg Expr.name words
          exact congrArg Piece.ofValue
            (Expr.alone_call place callees (Piece.alone_exprs pieces) false)
      · exact itself

theorem importFrom (near : b.Near first first') (words : alone word' = alone word)
    (room : b.Room depth 0 c) : b.Follows b.Clear b.Clear (read.importFrom first word)
      (read'.importFrom first' word') c := by
  have callees : alone (Expr.other word' .importCallee) = alone (Expr.other word .importCallee) :=
    congrArg (Expr.other · Kind.importCallee) words
  refine follows_then (follows_acceptMark _) fun member m point => ?_
  have room := room.later point.leads
  cases member with
  | true =>
    refine follows_then (follows_acceptWord _) fun itself n reads => ?_
    cases itself with
    | true => exact follows_other near _ _ _ _
    | false => exact memberFrom near callees
  | false => exact tied.callFrom near callees room

theorem wordOperand {text : String} (near : b.Near (c.tokenAfter 0) first')
    (found : (c.tokenAfter 0).lexeme = .word text) (room : b.Room depth 0 c) :
    b.Follows b.Clear b.Clear (read.wordOperand (c.tokenAfter 0) mode text)
      (read'.wordOperand first' mode text) c := by
  have plain : ∀ kind : Kind, b.Follows b.Clear b.Clear
      (do
        pass text.length
        return Piece.ofValue (.other (← extentFrom (c.tokenAfter 0)) kind))
      (do
        pass text.length
        return Piece.ofValue (.other (← extentFrom first') kind)) c := fun kind =>
    follows_then (follows_passWord found) fun _ _ _ => follows_other near _ _ _ _
  unfold Readers.wordOperand
  dsimp only
  split
  · exact plain _
  · exact plain _
  · exact plain _
  · exact plain _
  · exact plain _
  · refine follows_then (follows_passWord found) fun _ m passed => ?_
    exact follows_then (tied.function (room.later passed.leads)) fun _ _ _ =>
      follows_other near _ _ _ _
  · refine follows_then (follows_passWord found) fun _ m passed => ?_
    exact follows_then (tied.classTail (room.later passed.leads)) fun _ _ _ =>
      follows_other near _ _ _ _
  · refine follows_then (follows_passWord found) fun _ m passed => ?_
    have room := room.consumed (pass_consumed found (by simp) (by decide) passed)
    exact tied.creation near (room.mono (by omega))
  · refine follows_then (follows_passWord found) fun _ m passed => ?_
    exact follows_bind (follows_extentFrom near) fun _ _ _ reads same =>
      tied.importFrom near same (room.later (passed.leads.trans reads.leads))
  · refine follows_then (follows_passWord found) fun _ m passed => ?_
    exact follows_bind (follows_extentFrom near) fun _ _ _ reads same =>
      tied.asyncFrom near same (room.later (passed.leads.trans reads.leads))
  · refine follows_bind follows_name fun word word' m reads same => follows_sees ?_
    rw [Extent.text_eq same]
    split
    · exact tied.arrowFrom near (room.later reads.leads)
    · split
      · exact follows_pure (congrArg (fun word => Piece.ofTarget (.other word .undefined)) same)
      · exact follows_pure (congrArg (fun word => Piece.ofTarget (.name word)) same)

end Words

section Primary

variable {length : Nat} {mark : String}

theorem regex (near : b.Near (c.tokenAfter 0) first') (found : (c.tokenAfter 0).lexeme = .mark mark)
    (apart : (Lexeme.mark mark).chained = false) :
    b.Follows b.Clear b.Clear
      (match regexLength? ((c.tokenAfter 0).rest.drop 1) with
        | some length => do
          pass (length + 1)
          return Piece.ofValue (.other (← extentFrom (c.tokenAfter 0)) .regex)
        | none => unexpected)
      (match regexLength? (first'.rest.drop 1) with
        | some length => do
          pass (length + 1)
          return Piece.ofValue (.other (← extentFrom first') .regex)
        | none => unexpected) c := by
  split
  · next length measured =>
    have left : tokenText c.rest ≠ [] := tokenText_ne_nil (by simp [found])
    refine follows_inside_past (fun _ clear => clear.inside) fun inside => ?_
    have again : regexLength? (first'.rest.drop 1) = some length := by
      rw [← measured]
      refine near.measured (fun text => regexLength? (text.drop 1)) left (by omega) inside
        fun front nonempty before short => ?_
      obtain ⟨letter, front, rfl⟩ := List.exists_cons_of_ne_nil nonempty
      rw [before] at measured
      exact (regexLength?_append b.meets measured (by rw [List.length_cons] at short; omega)).trans
        measured.symm
    rw [again]
    exact follows_then (follows_pass found (by simp) (by omega) (by simp [apart])) fun _ _ _ =>
      follows_other near _ _ _ _
  · exact follows_unexpected

include tied in
theorem primary (room : b.Room depth 0 c) :
    b.Follows b.Clear b.Clear (read.primary mode) (read'.primary mode) c := by
  refine follows_ahead fun first' near => ?_
  rw [near.lexeme]
  split
  · next found => exact tied.wordOperand near found room
  · next found =>
    exact follows_then (follows_passNumber near found) fun _ _ _ => follows_other near _ _ _ _
  · exact follows_bind follows_quotedText fun _ _ _ _ same =>
      follows_pure (congrArg (fun extent => Piece.ofValue (.text extent)) same)
  · exact tied.parenthesized near room
  · exact tied.array near room
  · exact tied.object near room
  · next found =>
    refine follows_then (follows_pass_raw found (by simp) (by omega) (by decide)) fun _ m passed => ?_
    exact follows_then (tied.template (room.later passed.leads)).to_clear fun _ _ _ =>
      follows_other near _ _ _ _
  · next found => exact regex near found (by decide)
  · next found => exact regex near found (by decide)
  · refine follows_then (tied.decorators room) fun _ m reads => ?_
    refine follows_then (follows_expectWord _) fun _ n word => ?_
    exact follows_then (tied.classTail (room.later (reads.leads.trans word.leads))) fun _ _ _ =>
      follows_other near _ _ _ _
  · split
    · exact (tied.markup c room).to_clear
    · exact follows_unexpected
  · exact follows_unexpected

end Primary

section Whole

include tied

theorem assignment {left left' : Piece} (near : b.Near first first') (same : alone left' = alone left)
    (room : b.Room depth 0 c) :
    b.Follows b.Clear b.Clear (read.assignment first mode left)
      (read'.assignment first' mode left') c := by
  unfold Readers.assignment
  dsimp only
  rw [Piece.target_eq same, Piece.isParenthesized_eq same]
  refine follows_then follows_stops fun stopped m stop => ?_
  have room := room.later stop.leads
  cases stopped with
  | true => exact follows_pure same
  | false =>
    refine follows_next ?_
    split
    · next found =>
      split
      · refine follows_then (follows_passMark found) fun _ n passed => ?_
        have room := room.consumed (pass_consumed found (by simp) (by decide) passed)
        exact follows_bind (tied.valueIn (room.mono (by omega))) fun _ _ _ _ _ =>
          follows_other near _ _ _ _
      · exact follows_pure same
    · next mark _ found =>
      refine follows_if (congrArg (· && _) (Piece.isPlace_eq same)) (fun _ => ?_) fun _ => ?_
      · have positive := length_ne_zero found (by simp) (by simp) (by simp)
        refine follows_then (follows_passMark found) fun _ n passed => ?_
        have room := room.consumed (pass_consumed found (by simp) positive passed)
        exact follows_bind (tied.valueIn (room.mono (by omega))) fun _ _ _ _ _ =>
          follows_other near _ _ _ _
      · exact follows_pure same
    · exact follows_pure same

theorem nextOperand (room : b.Room depth 0 c) :
    b.Follows b.Clear b.Clear (read.operand mode) (read'.operand mode) c := by
  refine follows_ahead fun first' near => ?_
  have plain : b.Follows b.Clear b.Clear
      (do
        let left ← read.primary mode
        let left ← read.followed (c.tokenAfter 0) mode true left
        read.assignment (c.tokenAfter 0) mode left)
      (do
        let left ← read'.primary mode
        let left ← read'.followed first' mode true left
        read'.assignment first' mode left) c := by
    refine follows_bind (tied.primary room) fun left left' m reads same => ?_
    have room := room.later reads.leads
    refine follows_bind (tied.followed near same room) fun left left' n reads same => ?_
    exact tied.assignment near same (room.later reads.leads)
  have before : ∀ {lexeme : Lexeme} (length : Nat) (kind : Kind), (c.tokenAfter 0).lexeme = lexeme →
      lexeme ≠ .finish → length ≠ 0 → (lexeme.chained = true → length = lexeme.length) →
      b.Follows b.Clear b.Clear
        (do
          pass length
          let inner ← read (.operand mode)
          require inner.value
          return Piece.ofValue (.other (← extentFrom (c.tokenAfter 0)) kind))
        (do
          pass length
          let inner ← read' (.operand mode)
          require inner.value
          return Piece.ofValue (.other (← extentFrom first') kind)) c := by
    intro lexeme length kind found finish some whole
    refine follows_then (follows_pass found finish some whole) fun _ m passed => ?_
    have room := room.consumed (pass_consumed found finish some passed)
    refine follows_bind (tied.operand mode m (room.mono (by omega))) fun inner inner' _ _ same => ?_
    rw [Piece.value_eq same]
    exact follows_require fun _ => follows_other near _ _ _ _
  rw [near.lexeme]
  dsimp only
  split
  · next mark found =>
    have positive := length_ne_zero found (by simp) (by simp) (by simp)
    split
    · exact before _ _ found (by simp) positive fun _ => rfl
    · split
      · next update =>
        refine before 2 .update found (by simp) (by omega) fun chain => ?_
        rcases Bool.or_eq_true_iff.mp update with same | same
        all_goals
          obtain rfl := beq_iff_eq.mp same
          rfl
      · exact plain
  · next word found =>
    have positive := length_ne_zero found (by simp) (by simp) (by simp)
    split
    · exact before _ _ found (by simp) positive fun _ => rfl
    · split
      · next same =>
        obtain rfl := beq_iff_eq.mp same
        exact before 5 .awaiting found (by simp) (by omega) fun _ => rfl
      · split
        · next same =>
          obtain rfl := beq_iff_eq.mp same
          refine follows_then (follows_passWord found) fun _ m passed => ?_
          have room := room.consumed (pass_consumed found (by simp) (by decide) passed)
          refine follows_then (follows_acceptMark _) fun delegated n star => ?_
          have room := room.later star.leads
          cases delegated with
          | true => exact follows_bind (tied.valueIn (room.mono (by omega))) fun _ _ _ _ _ =>
              follows_other near _ _ _ _
          | false =>
            refine follows_then follows_stops fun stopped o stop => ?_
            have room := room.later stop.leads
            cases stopped with
            | true => exact follows_other near _ _ _ _
            | false =>
              refine follows_next ?_
              split
              · exact follows_other near _ _ _ _
              · exact follows_bind (tied.valueIn (room.mono (by omega))) fun _ _ _ _ _ =>
                  follows_other near _ _ _ _
        · exact plain
  · exact plain

omit tied in
theorem isBinary_some {operator : Lexeme} (binary : isBinary mode operator = true) :
    operator ≠ .finish ∧ operator ≠ .number ∧ ∀ mark, operator ≠ .quote mark := by
  cases operator <;> simp_all [isBinary]

theorem binaryTail (room : b.Room depth 0 c) :
    b.Follows b.Clear b.Clear (read.binaryTail mode) (read'.binaryTail mode) c := by
  refine follows_then (follows_many (fun _ clear => clear.inside) (fun d leads => ?_) fun d leads => ?_)
    fun _ _ _ => follows_pure rfl
  · refine advances_bind fun stopped m _ => ?_
    cases stopped with
    | true => exact advances_none
    | false =>
      refine advances_next ?_
      split
      · next binary =>
        obtain ⟨finish, number, quote⟩ := isBinary_some binary
        exact (consumes_pass finish (length_ne_zero rfl finish number quote)).advances _
      · exact advances_none
  · refine follows_then follows_stops fun stopped m stop => ?_
    cases stopped with
    | true => exact follows_pure rfl
    | false =>
      refine follows_next ?_
      split
      · next binary =>
        obtain ⟨finish, number, quote⟩ := isBinary_some binary
        have positive := length_ne_zero rfl finish number quote
        refine follows_then (follows_pass rfl finish positive fun _ => rfl) fun _ n passed => ?_
        have room := (room.later (leads.trans stop.leads)).consumed
          (pass_consumed rfl finish positive passed)
        refine follows_bind (tied.operand mode n (room.mono (by omega))) fun piece piece' _ _ same => ?_
        rw [Piece.value_eq same]
        exact follows_require fun _ => follows_pure rfl
      · exact follows_pure rfl

theorem expressionFrom {left left' : Piece} (near : b.Near first first')
    (same : alone left' = alone left) (room : b.Room depth 0 c) :
    b.Follows b.Clear b.Clear (read.expressionFrom first mode left)
      (read'.expressionFrom first' mode left') c := by
  have finish : ∀ {compound : Bool} {m : Cursor}, b.Follows b.Clear b.Clear
      (expression.finish first left compound) (expression.finish first' left' compound) m := by
    intro compound m
    cases compound with
    | true => exact follows_other near _ _ _ _
    | false => exact follows_pure same
  unfold Readers.expressionFrom
  rw [Piece.value_eq same]
  cases left.value with
  | false => exact follows_pure same
  | true =>
    refine follows_then (tied.binaryTail room) fun compound m reads => ?_
    have room := room.later reads.leads
    refine follows_then follows_stops fun stopped n stop => ?_
    cases stopped with
    | true => exact finish
    | false =>
      refine follows_then (follows_acceptMark _) fun asked o mark => ?_
      cases asked with
      | false => exact finish
      | true =>
        have room := (room.later stop.leads).consumed (acceptMark_consumed mark)
        refine follows_bind (tied.valueIn (room.mono (by omega))) fun _ _ p reads _ => ?_
        refine follows_then (follows_expectMark _) fun _ q colon => ?_
        have room := (room.later reads.leads).later colon.leads
        exact follows_bind (tied.valueIn (room.mono (by omega))) fun _ _ _ _ _ =>
          follows_other near _ _ _ _

theorem nextExpression (room : b.Room depth 0 c) :
    b.Follows b.Clear b.Clear (read.expression mode) (read'.expression mode) c := by
  refine follows_ahead fun first' near => ?_
  rw [near.lexeme]
  dsimp only
  split
  · next length found =>
    have positive := length_ne_zero found (by simp) (by simp) (by simp)
    refine follows_then (follows_pass found (by simp) positive fun _ => rfl) fun _ m passed => ?_
    refine follows_sees (follows_require fun _ => ?_)
    have room := room.later passed.leads
    refine follows_bind (follows_extentFrom near) fun extent extent' n reads place => ?_
    have room := room.later reads.leads
    refine follows_bind (follows_pure ?_) fun left left' o reads same => ?_
    · exact congrArg (fun extent => Piece.ofValue (.other extent .binary)) place
    · exact tied.expressionFrom near same (room.later reads.leads)
  · refine follows_bind (tied.nextOperand room) fun left left' m reads same => ?_
    exact tied.expressionFrom near same (room.later reads.leads)

theorem nextConstructor (room : b.Room depth 0 c) :
    b.Follows b.Clear b.Clear (read.constructor mode) (read'.constructor mode) c := by
  refine follows_ahead fun first' near => ?_
  refine follows_bind (tied.primary room) fun left left' m reads same => ?_
  exact tied.followed near same (room.later reads.leads)

end Whole

end Tied

end Border

end ImportRedirect.Script
