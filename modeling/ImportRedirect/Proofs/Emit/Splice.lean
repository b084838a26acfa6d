import ImportRedirect.Emit.Splice
import ImportRedirect.Proofs.Emit.Render
import ImportRedirect.Proofs.Text.Stretch

/-!
Putting statements back into a text. Each statement that is still the same keeps its bytes, every
other one gives way to the statements it was changed into, and what stands before, between and after
the statements is kept byte by byte.
-/

namespace ImportRedirect

open Node Script Text

namespace Emit

/-- The bytes in the place of a statement, which was left as these statements. -/
inductive Block (bytes : List UInt8) (node : Value) (left : List Value) : List UInt8 → Prop where
  | kept {start stop : Nat} (unchanged : left = [node]) (begins : node.peek "start" = .int start)
      (ends : node.peek "end" = .int stop) : Block bytes node left (stretch bytes start stop)
  | printed {texts : List String} (changed : left ≠ [node]) (some : 0 < texts.length)
      (few : texts.length ≤ 3) (printed : left.mapM statement = .ok (texts.map .str)) :
      Block bytes node left (Utf8.encode ("\n".intercalate texts))

/-- What the bytes from a place on become when statements are left as others. -/
inductive Spliced (bytes : List UInt8) (left : Value → List Value) :
    Nat → List Value → List UInt8 → Prop where
  | nil {cursor : Nat} (inside : cursor ≤ bytes.length) :
      Spliced bytes left cursor [] (bytes.drop cursor)
  | cons {cursor start stop : Nat} {node : Value} {rest : List Value} {block after : List UInt8}
      (begins : node.peek "start" = .int start) (ends : node.peek "end" = .int stop)
      (ordered : cursor ≤ start) (nonempty : start < stop) (inside : stop ≤ bytes.length)
      (replaced : Block bytes node (left node) block) (remaining : Spliced bytes left stop rest after) :
      Spliced bytes left cursor (node :: rest) (stretch bytes cursor start ++ block ++ after)

/-- What stands in the place of a statement is given by what it was left as. -/
theorem Block.unique {bytes first second : List UInt8} {node : Value} {left : List Value}
    (block : Block bytes node left first) (again : Block bytes node left second) :
    first = second := by
  cases block with
  | kept unchanged begins ends =>
    cases again with
    | kept _ beginsAgain endsAgain =>
      rw [begins, Value.int.injEq, Int.natCast_inj] at beginsAgain
      rw [ends, Value.int.injEq, Int.natCast_inj] at endsAgain
      rw [beginsAgain, endsAgain]
    | printed changed => exact absurd unchanged changed
  | printed changed _ _ printed =>
    cases again with
    | kept unchanged => exact absurd unchanged changed
    | printed _ _ _ printedAgain =>
      rw [printed, Except.ok.injEq, List.map_inj_right fun _ _ => Value.str.inj] at printedAgain
      rw [printedAgain]

theorem Spliced.unique {bytes first second : List UInt8} {left : Value → List Value} {cursor : Nat}
    {body : List Value} (spliced : Spliced bytes left cursor body first)
    (again : Spliced bytes left cursor body second) : first = second := by
  induction spliced generalizing second with
  | nil =>
    cases again
    rfl
  | cons begins ends _ _ _ replaced _ inductionHypothesis =>
    cases again with
    | cons beginsAgain endsAgain _ _ _ replacedAgain remainingAgain =>
      rw [begins, Value.int.injEq, Int.natCast_inj] at beginsAgain
      rw [ends, Value.int.injEq, Int.natCast_inj] at endsAgain
      subst beginsAgain endsAgain
      rw [replaced.unique replacedAgain, inductionHypothesis remainingAgain]

/-- Statements that stand one after the other in a text, from a place on. -/
inductive Placed (text : List Char) : Nat → List Value → Prop where
  | nil {cursor : Nat} (origin : Boundary text cursor) : Placed text cursor []
  | cons {cursor start stop : Nat} {node : Value} {rest : List Value}
      (origin : Boundary text cursor) (begins : node.peek "start" = .int start)
      (ends : node.peek "end" = .int stop) (ordered : cursor ≤ start) (nonempty : start < stop)
      (first : Boundary text start) (remaining : Placed text stop rest) :
      Placed text cursor (node :: rest)

/-- What is needed of the statements that a statement is left as. -/
structure Replaces (node : Value) (left : List Value) : Prop where
  self : node.same node = true
  place : ∀ statement ∈ left, SamePlace statement node
  some : 0 < left.length
  few : left.length ≤ 3
  apparent : ∀ statement, left = [statement] → node.same statement = true → statement = node
  printed : left ≠ [node] → ∀ statement ∈ left, Printed (Emit.statement statement)

section Spans

variable {node : Value} {start stop : Nat}

def between (start stop : Nat) : Span := ⟨.int start, .int stop⟩

theorem span_of_placed (begins : node.peek "start" = .int start)
    (ends : node.peek "end" = .int stop) : Span.of node = .ok (between start stop) := by
  obtain ⟨fields, isRecord, _⟩ := Value.lookup_of_peek begins (by simp)
  have record : node.IsRecord := ⟨fields, isRecord⟩
  rw [Span.of, Value.get_of_isRecord record, Value.get_of_isRecord record, begins, ends]
  rfl

theorem asKey_between (start stop : Nat) : (between start stop).asKey = .ok (between start stop) :=
  rfl

theorem same_between {otherStart otherStop : Nat} :
    (between start stop).same (between otherStart otherStop) = true ↔
      start = otherStart ∧ stop = otherStop := by
  simp only [between, Span.same, Value.same_int, Bool.and_eq_true, beq_iff_eq]
  omega

theorem clamp_of_le {length place : Nat} (inside : place ≤ length) :
    clamp length place = place := by
  rw [clamp, if_neg (by omega), Int.toNat_natCast, Nat.min_eq_left inside]

theorem bytesBetween_of_le {bytes : List UInt8} (first : start ≤ bytes.length)
    (last : stop ≤ bytes.length) :
    bytesBetween bytes (.int start) (.int stop) = .ok (stretch bytes start stop) := by
  simp [bytesBetween, position, ok_bind, clamp_of_le first, clamp_of_le last, stretch, pure_eq_ok]

theorem bytesFrom_of_le {bytes : List UInt8} (inside : start ≤ bytes.length) :
    bytesFrom bytes (.int start) = .ok (bytes.drop start) := by
  simp [bytesFrom, position, ok_bind, clamp_of_le inside, pure_eq_ok]

end Spans

section Placing

variable {text : List Char} {cursor : Nat} {node other : Value} {body : List Value}

theorem Placed.origin (placed : Placed text cursor body) : Boundary text cursor := by
  cases placed with
  | nil origin => exact origin
  | cons origin => exact origin

theorem Placed.mem (placed : Placed text cursor body) (membership : node ∈ body) :
    ∃ start stop : Nat, node.peek "start" = .int start ∧ node.peek "end" = .int stop ∧
      cursor ≤ start := by
  induction placed with
  | nil => simp at membership
  | @cons cursor start stop first rest origin begins ends ordered nonempty _ _ inductionHypothesis =>
    rcases List.mem_cons.mp membership with rfl | later
    · exact ⟨start, stop, begins, ends, ordered⟩
    · obtain ⟨start, stop, begins, ends, beyond⟩ := inductionHypothesis later
      exact ⟨start, stop, begins, ends, by omega⟩

theorem Placed.unique (placed : Placed text cursor body) (membership : node ∈ body)
    (again : other ∈ body) (same : node.peek "start" = other.peek "start") : node = other := by
  induction placed with
  | nil => simp at membership
  | @cons cursor start stop first rest origin begins ends ordered nonempty _ remaining
      inductionHypothesis =>
    have apart : ∀ later ∈ rest, first.peek "start" ≠ later.peek "start" := by
      intro later among equal
      obtain ⟨place, _, beginsLater, _, beyond⟩ := remaining.mem among
      rw [begins, beginsLater, Value.int.injEq] at equal
      omega
    rcases List.mem_cons.mp membership with rfl | later
    · rcases List.mem_cons.mp again with rfl | later
      · rfl
      · exact absurd same (apart other later)
    · rcases List.mem_cons.mp again with rfl | laterAgain
      · exact absurd same.symm (apart node later)
      · exact inductionHypothesis later laterAgain

theorem knownStatements_of_placed (placed : Placed text cursor body) :
    knownStatements body = .ok
      (body.map fun node => (⟨node.peek "start", node.peek "end"⟩, node)).reverse := by
  have each : ∀ node ∈ body, (do
      let span ← (← Span.of node).asKey
      return (span, node) : Except Fault (Span × Value)) =
        .ok (⟨node.peek "start", node.peek "end"⟩, node) := by
    intro node membership
    obtain ⟨start, stop, begins, ends, _⟩ := placed.mem membership
    rw [span_of_placed begins ends, begins, ends]
    rfl
  rw [knownStatements, mapM_eq_ok each]
  rfl

end Placing

section Groups

variable {start stop : Nat} {node : Value} {left rest : List Value}

/-- The statements with one span are taken together, up to the first with another. -/
theorem takeGroup_of_apart {span : Span}
    (each : ∀ statement ∈ left, ∃ here, Span.of statement = .ok here ∧ span.same here = true)
    (apart : ∀ statement ∈ rest.head?, ∃ other, Span.of statement = .ok other ∧
      span.same other = false) :
    takeGroup span (left ++ rest) = .ok (left, rest) := by
  induction left with
  | nil =>
    cases rest with
    | nil => rfl
    | cons statement rest =>
      obtain ⟨other, place, different⟩ := apart statement rfl
      rw [List.nil_append, takeGroup, place, ok_bind, different]
      rfl
  | cons statement more inductionHypothesis =>
    obtain ⟨here, place, same⟩ := each statement (by simp)
    rw [List.cons_append, takeGroup, place, ok_bind, if_pos same,
      inductionHypothesis fun other membership => each other (by simp [membership])]
    rfl

/-- The statements with one span are taken together, and those that start elsewhere are left. -/
theorem takeGroup_append
    (each : ∀ statement ∈ left, Span.of statement = .ok (between start stop))
    (apart : ∀ statement ∈ rest, ∃ otherStart otherStop : Nat,
      Span.of statement = .ok (between otherStart otherStop) ∧ start ≠ otherStart) :
    takeGroup (between start stop) (left ++ rest) = .ok (left, rest) := by
  refine takeGroup_of_apart (fun statement membership => ⟨_, each statement membership,
    same_between.mpr ⟨rfl, rfl⟩⟩) fun statement first => ?_
  obtain ⟨otherStart, otherStop, place, different⟩ := apart statement (List.mem_of_mem_head? first)
  refine ⟨_, place, ?_⟩
  rw [← Bool.not_eq_true, same_between]
  exact fun equal => different equal.1

/-- Whether statements are one statement that is the same as this one. -/
def keeps (node : Value) : List Value → Bool
  | [statement] => node.same statement
  | _ => false

/-- A group is unchanged exactly when it is a statement that is the same as the one that stood there.
-/
theorem isUnchanged_eq_keeps {known : List (Span × Value)} {span : Span}
    (found : known.find? (fun entry => entry.1.same (between start stop)) = some (span, node)) :
    isUnchanged known (between start stop) left = .ok (keeps node left) := by
  match left with
  | [] => rfl
  | [statement] =>
    rw [isUnchanged, asKey_between, ok_bind]
    simp only [found, pure_eq_ok, keeps]
  | first :: second :: more => rfl

theorem keeps_eq_decide (self : node.same node = true)
    (apparent : ∀ statement, left = [statement] → node.same statement = true → statement = node) :
    keeps node left = decide (left = [node]) := by
  match left with
  | [] => rfl
  | [statement] =>
    by_cases same : statement = node
    · simp [keeps, same, self]
    · have differs : node.same statement = false := by
        rw [← Bool.not_eq_true]
        exact fun alike => same (apparent statement rfl alike)
      simp [keeps, same, differs]
  | first :: second :: more => simp [keeps]

end Groups

section Walk

variable {text : List Char} {bytes gap block after : List UInt8} {known : List (Span × Value)}
  {cursor start stop n : Nat} {first node : Value} {group left body : List Value}

/-- One step of the walk, over the statements that share a span. -/
theorem spliceFrom_group {same : Bool} {rest : List Value}
    (place : Span.of first = .ok (between start stop))
    (taken : takeGroup (between start stop) (group ++ rest) = .ok (group, rest))
    (unchanged : isUnchanged known (between start stop) (first :: group) = .ok same)
    (before : bytesBetween bytes (.int cursor) (.int start) = .ok gap)
    (replaced : (if same then bytesBetween bytes (.int start) (.int stop)
      else (lines (first :: group)).map Utf8.encode) = .ok block)
    (remaining : spliceFrom bytes known n (.int stop) rest = .ok after) :
    spliceFrom bytes known (n + 1) (.int cursor) (first :: group ++ rest) =
      .ok (gap ++ block ++ after) := by
  have closed : (between start stop).isOpen = false := rfl
  rw [List.cons_append, spliceFrom, place, ok_bind, taken, ok_bind]
  dsimp only
  rw [closed, if_neg Bool.false_ne_true]
  simp only [between] at unchanged ⊢
  rw [before, ok_bind, unchanged, ok_bind]
  cases same with
  | true =>
    simp only [if_true] at replaced
    simp only [if_true, replaced, remaining, ok_bind, pure_eq_ok]
  | false =>
    simp only [Bool.false_eq_true, if_false] at replaced
    obtain ⟨printed, written, rfl⟩ := map_eq_ok.mp replaced
    simp only [Bool.false_eq_true, if_false, written, remaining, ok_bind, pure_eq_ok]

/-- What stands in the place of a statement is a block of characters, changed or not. -/
theorem block_of_replaces (replaces : Replaces node left) (begins : node.peek "start" = .int start)
    (ends : node.peek "end" = .int stop) (first : Boundary text start) (last : Boundary text stop)
    (ordered : start ≤ stop) :
    ∃ characters, (if decide (left = [node]) then
        bytesBetween (Utf8.encodeChars text) (.int start) (.int stop)
      else (lines left).map Utf8.encode) = .ok (Utf8.encodeChars characters) ∧
      Block (Utf8.encodeChars text) node left (Utf8.encodeChars characters) := by
  by_cases unchanged : left = [node]
  · obtain ⟨characters, whole⟩ := first.stretch last ordered
    refine ⟨characters, ?_, whole ▸ .kept unchanged begins ends⟩
    rw [if_pos (by simpa using unchanged), bytesBetween_of_le first.le_length last.le_length, whole]
  · obtain ⟨texts, length, printed⟩ := mapM_printed (replaces.printed unchanged)
    refine ⟨("\n".intercalate texts).toList, ?_, .printed unchanged ?_ ?_ printed⟩
    · rw [if_neg (by simpa using unchanged), lines_of_mapM printed]
      rfl
    · rw [length]
      exact replaces.some
    · rw [length]
      exact replaces.few

/-- The walk over statements in their places, each left as some others. -/
theorem spliceFrom_placed {left : Value → List Value} (placed : Placed text cursor body)
    (replaces : ∀ node ∈ body, Replaces node (left node))
    (found : ∀ node ∈ body, ∀ start stop : Nat, node.peek "start" = .int start →
      node.peek "end" = .int stop →
      ∃ span, known.find? (fun entry => entry.1.same (between start stop)) = some (span, node))
    (enough : body.length ≤ n) :
    ∃ characters, spliceFrom (Utf8.encodeChars text) known n (.int cursor) (body.flatMap left) =
        .ok (Utf8.encodeChars characters) ∧
      Spliced (Utf8.encodeChars text) left cursor body (Utf8.encodeChars characters) := by
  -- The cursor of the walk is the end of the last statement, which is where the next ones are placed.
  induction placed generalizing n with
  | nil origin =>
    obtain ⟨characters, rest⟩ := origin.drop
    refine ⟨characters, ?_, rest ▸ .nil origin.le_length⟩
    rw [List.flatMap_nil, spliceFrom, bytesFrom_of_le origin.le_length, rest]
  | @cons cursor start stop node rest origin begins ends ordered nonempty first remaining
      inductionHypothesis =>
    obtain ⟨n, rfl⟩ : ∃ fewer, n = fewer + 1 := ⟨n - 1, by simp at enough; omega⟩
    have replacesNode := replaces node (by simp)
    obtain ⟨span, known⟩ := found node (by simp) start stop begins ends
    obtain ⟨others, continues, spliced⟩ := inductionHypothesis
      (fun other membership => replaces other (by simp [membership]))
      (fun other membership => found other (by simp [membership])) (by simpa using enough)
    obtain ⟨gap, before⟩ := origin.stretch first ordered
    obtain ⟨block, replaced, fits⟩ :=
      block_of_replaces replacesNode begins ends first remaining.origin (Nat.le_of_lt nonempty)
    have here : ∀ statement ∈ left node, Span.of statement = .ok (between start stop) := by
      intro statement membership
      have place := replacesNode.place statement membership
      exact span_of_placed (place.start.trans begins) (place.stop.trans ends)
    -- Later statements start elsewhere, so the group of this one ends before them.
    have elsewhere : ∀ statement ∈ rest.flatMap left, ∃ otherStart otherStop : Nat,
        Span.of statement = .ok (between otherStart otherStop) ∧ start ≠ otherStart := by
      intro statement membership
      obtain ⟨other, among, membership⟩ := List.mem_flatMap.mp membership
      obtain ⟨otherStart, otherStop, otherBegins, otherEnds, beyond⟩ := remaining.mem among
      have place := (replaces other (by simp [among])).place statement membership
      exact ⟨otherStart, otherStop,
        span_of_placed (place.start.trans otherBegins) (place.stop.trans otherEnds), by omega⟩
    have unchanged := @isUnchanged_eq_keeps _ _ _ (left node) _ _ known
    rw [keeps_eq_decide replacesNode.self replacesNode.apparent] at unchanged
    refine ⟨gap ++ block ++ others, ?_, ?_⟩
    · rw [List.flatMap_cons, Utf8.encodeChars_append, Utf8.encodeChars_append, ← before]
      cases statements : left node with
      | nil =>
        have some := replacesNode.some
        simp [statements] at some
      | cons head group =>
        rw [statements] at here unchanged replaced
        refine spliceFrom_group (here head (by simp))
          (takeGroup_append (fun other membership => here other (by simp [membership])) elsewhere)
          unchanged (bytesBetween_of_le origin.le_length first.le_length) replaced continues
    · rw [Utf8.encodeChars_append, Utf8.encodeChars_append, ← before]
      exact .cons begins ends ordered nonempty remaining.origin.le_length fits spliced

/-- Where all statements are left as they are, the bytes stay the same. -/
theorem spliced_of_unchanged {left : Value → List Value} (placed : Placed text cursor body)
    (unchanged : ∀ node ∈ body, left node = [node]) :
    Spliced (Utf8.encodeChars text) left cursor body ((Utf8.encodeChars text).drop cursor) := by
  induction placed with
  | nil origin => exact .nil origin.le_length
  | @cons cursor start stop node rest origin begins ends ordered nonempty first remaining
      inductionHypothesis =>
    have spliced := inductionHypothesis fun other membership => unchanged other (by simp [membership])
    have kept : Block (Utf8.encodeChars text) node (left node)
        (stretch (Utf8.encodeChars text) start stop) :=
      .kept (unchanged node (by simp)) begins ends
    have whole := Spliced.cons begins ends ordered nonempty remaining.origin.le_length kept spliced
    rwa [List.append_assoc, stretch_append_drop (Nat.le_of_lt nonempty),
      stretch_append_drop ordered] at whole

end Walk

theorem find?_of_unique {α : Type} {holds : α → Bool} {items : List α} {item : α}
    (membership : item ∈ items) (found : holds item = true)
    (unique : ∀ other ∈ items, holds other = true → other = item) :
    items.find? holds = some item := by
  cases known : items.find? holds with
  | none => exact absurd found (List.find?_eq_none.mp known item membership)
  | some other =>
    rw [unique other (List.mem_of_find?_eq_some known) (List.find?_some known)]

theorem length_le_flatMap {α β : Type} {items : List α} {expand : α → List β}
    (some : ∀ item ∈ items, 0 < (expand item).length) :
    items.length ≤ (items.flatMap expand).length := by
  induction items with
  | nil => exact Nat.le_refl 0
  | cons item rest inductionHypothesis =>
    have first := some item (by simp)
    have others := inductionHypothesis fun other membership => some other (by simp [membership])
    rw [List.flatMap_cons, List.length_append, List.length_cons]
    omega

theorem find?_of_placed {text : List Char} {cursor start stop : Nat} {node : Value}
    {body : List Value} (placed : Placed text cursor body) (membership : node ∈ body)
    (begins : node.peek "start" = .int start) (ends : node.peek "end" = .int stop) :
    (body.map fun node => ((⟨node.peek "start", node.peek "end"⟩ : Span), node)).reverse.find?
        (fun entry => entry.1.same (between start stop)) =
      some (between start stop, node) := by
  apply find?_of_unique
  · rw [List.mem_reverse, List.mem_map]
    exact ⟨node, membership, by rw [begins, ends]; rfl⟩
  · exact same_between.mpr ⟨rfl, rfl⟩
  · intro entry listed same
    rw [List.mem_reverse, List.mem_map] at listed
    obtain ⟨other, among, rfl⟩ := listed
    obtain ⟨otherStart, otherStop, otherBegins, otherEnds, _⟩ := placed.mem among
    rw [otherBegins, otherEnds] at same ⊢
    obtain ⟨rfl, rfl⟩ := same_between.mp same
    rw [placed.unique among membership (otherBegins.trans begins.symm)]
    rfl

/-- Putting changed statements back keeps all other bytes of the text. -/
theorem splice_placed {source : String} {body : List Value} {left : Value → List Value}
    (placed : Placed source.toList 0 body) (replaces : ∀ node ∈ body, Replaces node (left node)) :
    ∃ converted, splice source body (body.flatMap left) = .ok converted ∧
      Spliced (Utf8.encode source) left 0 body (Utf8.encode converted) := by
  have enough : body.length ≤ (body.flatMap left).length :=
    length_le_flatMap fun node membership => (replaces node membership).some
  obtain ⟨characters, walked, spliced⟩ := spliceFrom_placed placed replaces
    (fun node membership start stop begins ends =>
      ⟨_, find?_of_placed placed membership begins ends⟩) enough
  refine ⟨String.ofList characters, ?_, ?_⟩
  · have origin : Value.int 0 = .int (0 : Nat) := rfl
    rw [splice, knownStatements_of_placed placed, ok_bind, origin, Utf8.encode, walked, ok_bind,
      Utf8.decode_encodeChars]
    rfl
  · rw [Utf8.encode, Utf8.encode, String.toList_ofList]
    exact spliced

end Emit

end ImportRedirect
