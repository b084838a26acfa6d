import ImportRedirect.Proofs.Script.Nesting

/-!
Every expression that is read stands between the token ahead and the last one that was passed, and so
do the parts that are kept of it. Once a first token was passed, reading on is enough.
-/

namespace ImportRedirect.Script

variable {text : List Char} {low : Nat}

namespace Readers

open Scan Cursor

variable {read : Readers} {first origin : Cursor}

/-- The readers of the goals that give expressions which are kept. -/
structure Nests (read : Readers) (text : List Char) : Prop where
  expression : ∀ mode {origin}, (start text).Leads origin →
    (read (.expression mode)).Nests text (origin.tokenAfter 0).offset origin
  operand : ∀ mode {origin}, (start text).Leads origin →
    (read (.operand mode)).Nests text (origin.tokenAfter 0).offset origin
  markup : ∀ {origin}, (start text).Leads origin →
    (read .markup).Nests text (origin.tokenAfter 0).offset origin

variable (reads : read.Nests text)
include reads

theorem nests_valueIn (mode : Mode) (front : (start text).Leads origin) :
    (read.valueIn mode).Nests text (origin.tokenAfter 0).offset origin := by
  rw [Scan.Nests, valueIn, ensures_bind]
  refine (reads.expression mode front).mono fun piece c _ nested => ?_
  rw [ensures_bind, ensures_require, ensures_pure]
  exact fun _ => nested

theorem nests_spreadable (front : (start text).Leads origin) :
    read.spreadable.Nests text (origin.tokenAfter 0).offset origin := by
  refine nests_ahead ?_
  rw [Scan.Nests, ensures_bind, acceptMark, ensures_accept]
  split
  · next found =>
    have since := (beyond_past_mark found).since front (origin.leads_past _)
    exact nests_since since fun piece c since => nests_other since fun _ => rfl
  · exact reads.expression _ front

omit reads in
theorem nests_arrowFrom (mode : Mode) (since : Since text first origin) :
    (read.arrowFrom first mode).Nests text first.offset origin := by
  refine nests_since since fun _ c since => nests_since since fun _ c since => ?_
  split
  all_goals exact nests_since since fun _ c since => nests_other since fun _ => rfl

omit reads in
theorem nests_collection (since : Since text first origin) (kind : Kind) (closing : String)
    (item : Scan Piece) : (collection first kind closing item).Nests text first.offset origin :=
  nests_since since fun _ _ since => nests_other since fun _ => rfl

omit reads in
theorem nests_object (front : (start text).Leads origin) :
    (read.object (origin.tokenAfter 0)).Nests text (origin.tokenAfter 0).offset origin :=
  nests_passing front (passes_expectMark _) fun _ _ since => nests_collection since _ _ _

omit reads in
theorem nests_array (front : (start text).Leads origin) :
    (read.array (origin.tokenAfter 0)).Nests text (origin.tokenAfter 0).offset origin :=
  nests_passing front (passes_expectMark _) fun _ _ since => nests_collection since _ _ _

omit reads in
theorem nests_parenthesized (mode : Mode) (front : (start text).Leads origin) :
    (read.parenthesized (origin.tokenAfter 0) mode).Nests text (origin.tokenAfter 0).offset
      origin := by
  refine nests_passing front (passes_expectMark _) fun _ _ since => ?_
  refine nests_since since fun pieces _ since => nests_since since fun arrow _ since => ?_
  split
  · exact nests_since since fun _ _ since => nests_arrowFrom mode since
  · exact nests_since since fun _ _ since => nests_other since fun _ => rfl

/-- An argument of a call stands after the call began and before the last token. -/
theorem ensures_arguments (since : Since text first origin) :
    read.arguments.Ensures origin fun given c => Since text first c ∧
      ∀ piece ∈ given.filterMap id, piece.expr.Nested text first.offset c.reached := by
  refine Ensures.and (ensures_of_leads fun _ _ leads => since.later leads) ?_
  refine ensures_since since fun _ c since => ?_
  refine ensures_listedOrLeftOut (fun _ _ _ front leads nested => nested.wider (Nat.le_refl _)
    (front.reached_mono leads)) since.leads fun d front leads => ?_
  refine (nests_spreadable reads front).mono fun piece e _ nested => ?_
  refine nested.wider ?_ (Nat.le_refl _)
  exact Nat.le_trans (since.later leads).offset_le (d.leads_tokenAfter 0).offset_le

theorem nests_callFrom {callee : Expr} {optional : Bool} (since : Since text first origin)
    (nested : callee.Nested text first.offset origin.reached) :
    (read.callFrom first callee optional).Nests text first.offset origin := by
  rw [Scan.Nests, callFrom, ensures_bind]
  refine (ensures_arguments reads since).mono fun given c leads holds => ?_
  obtain ⟨since', given⟩ := holds
  simp only [ensures_bind, ensures_require, ensures_extentFrom, ensures_pure]
  intro _
  refine .call since'.within (nested.wider (Nat.le_refl _)
    (since.leads.reached_mono leads)) fun argument membership => ?_
  obtain ⟨piece, among, rfl⟩ := List.mem_map.mp membership
  exact given piece among

omit reads in
theorem nests_memberFrom {object : Expr} {optional : Bool} (since : Since text first origin)
    (nested : object.Nested text first.offset origin.reached) :
    (memberFrom first object optional).Nests text first.offset origin := by
  rw [Scan.Nests, memberFrom, ensures_bind]
  refine (property_within since.leads).mono fun member c leads within => ?_
  rw [ensures_bind, ensures_extentFrom, ensures_pure]
  have begun := Nat.le_trans since.offset_le (origin.leads_tokenAfter 0).offset_le
  exact .member (since.later leads).within
    (nested.wider (Nat.le_refl _) (since.leads.reached_mono leads)) (within.wider begun (Nat.le_refl _))

omit reads in
theorem nests_subscriptFrom (since : Since text first origin) :
    (read.subscriptFrom first).Nests text first.offset origin :=
  nests_since since fun _ _ since => nests_since since fun _ _ since => nests_since since
    fun _ _ since => nests_other since fun _ => rfl

omit reads in
theorem nests_taggedFrom (since : Since text first origin) :
    (read.taggedFrom first).Nests text first.offset origin :=
  nests_since since fun _ _ since => nests_since since fun _ _ since => nests_other since fun _ => rfl

theorem nests_followedFrom (mode : Mode) (calls : Bool) (n : Nat) {left : Piece}
    (since : Since text first origin) (nested : left.expr.Nested text first.offset origin.reached) :
    (read.followedFrom first mode calls n left).Nests text first.offset origin := by
  induction n generalizing origin left with
  | zero => exact nests_pure nested
  | succ n inductionHypothesis =>
    -- Whatever is read next is nested, and so is what follows it.
    have onward : ∀ {scan : Scan Piece} {c : Cursor}, Since text first c →
        scan.Nests text first.offset c → (scan >>= read.followedFrom first mode calls n).Nests text
          first.offset c := by
      intro scan c since nests
      rw [Scan.Nests, ensures_bind]
      exact Ensures.mono nests fun piece d leads nested =>
        inductionHypothesis (since.later leads) nested
    have kept : ∀ {c : Cursor}, origin.Leads c → left.expr.Nested text first.offset c.reached :=
      fun leads => nested.wider (Nat.le_refl _) (since.leads.reached_mono leads)
    have updated : ∀ {c : Cursor}, Since text first c → (do
        pass 2
        read.followedFrom first mode calls n
          (.ofValue (.other (← extentFrom first) .update)) : Scan Piece).Nests text first.offset c := by
      intro c since
      refine nests_since since fun _ d since => ?_
      rw [Scan.Nests, ensures_bind, ensures_extentFrom]
      exact inductionHypothesis since (.other since.within)
    rw [followedFrom]
    split
    · exact nests_pure nested
    · rw [Scan.Nests, ensures_bind]
      refine ensures_of_leads fun stopped c leads => ?_
      have since := since.later leads
      split
      · exact nests_pure (kept leads)
      · rw [ensures_bind, ensures_next]
        split
        · rw [ensures_bind]
          refine ensures_of_leads fun _ d further => ?_
          have since := since.later further
          exact onward since (nests_memberFrom since (kept (leads.trans further)))
        · rw [ensures_bind]
          refine ensures_of_leads fun _ d further => ?_
          have since := since.later further
          have object := kept (leads.trans further)
          rw [ensures_bind, ensures_next]
          split
          · exact onward since (nests_subscriptFrom since)
          · split
            · exact onward since (nests_callFrom reads since object)
            · exact nests_unexpected
          · exact onward since (nests_memberFrom since object)
        · exact onward since (nests_subscriptFrom since)
        · split
          · exact onward since (nests_callFrom reads since (kept leads))
          · exact nests_pure (kept leads)
        · exact onward since (nests_taggedFrom since)
        · split
          · exact updated since
          · exact nests_pure (kept leads)
        · split
          · exact updated since
          · exact nests_pure (kept leads)
        · exact nests_pure (kept leads)

theorem nests_followed (mode : Mode) (calls : Bool) {left : Piece} (since : Since text first origin)
    (nested : left.expr.Nested text first.offset origin.reached) :
    (read.followed first mode calls left).Nests text first.offset origin := by
  rw [Scan.Nests, followed, ensures_bind, ensures_cursor]
  exact nests_followedFrom reads mode calls _ since nested

omit reads in
theorem nests_creation (mode : Mode) (since : Since text first origin) :
    (read.creation first mode).Nests text first.offset origin := by
  refine nests_since since fun dotted _ since => ?_
  split
  · exact nests_since since fun _ _ since => nests_other since fun _ => rfl
  · refine nests_since since fun _ _ since => nests_since since fun _ _ since =>
      nests_since since fun stopped _ since => ?_
    dsimp only
    split
    · exact nests_other since fun _ => rfl
    · refine nests_since since fun given _ since => ?_
      split
      · exact nests_since since fun _ _ since => nests_since since fun _ _ since =>
          nests_other since fun _ => rfl
      · exact nests_other since fun _ => rfl

theorem nests_asyncFrom {word : Extent} (mode : Mode) (since : Since text first origin)
    (place : word.Within text first.offset origin.reached) (operand : Operand word.text) :
    (read.asyncFrom first word mode).Nests text first.offset origin := by
  have named : ∀ {c : Cursor}, origin.Leads c →
      (Expr.name word).Nested text first.offset c.reached := fun leads =>
    .name (place.wider (Nat.le_refl _) (since.leads.reached_mono leads)) operand
  rw [asyncFrom, Scan.Nests, ensures_bind]
  refine ensures_of_leads fun arrow c leads => ?_
  have since := since.later leads
  split
  · exact nests_arrowFrom mode since
  · rw [ensures_bind]
    refine ensures_of_leads fun stopped d further => ?_
    have since := since.later further
    have leads := leads.trans further
    split
    · exact nests_pure (named leads)
    · rw [ensures_bind, ensures_next]
      split
      · refine nests_since since fun _ _ since => nests_since since fun _ _ since => ?_
        exact nests_other since fun _ => rfl
      · rw [ensures_bind, ensures_second]
        split
        · exact nests_since since fun _ _ since => nests_arrowFrom mode since
        · exact nests_pure (named leads)
      · rw [ensures_bind]
        refine (ensures_arguments reads since).mono fun given e again holds => ?_
        obtain ⟨since, given⟩ := holds
        have leads := leads.trans again
        rw [ensures_bind, ensures_sees]
        split
        · exact nests_since since fun _ _ since => nests_arrowFrom mode since
        · simp only [ensures_bind, ensures_require, ensures_extentFrom, ensures_pure]
          refine fun _ => .call since.within (named leads) fun argument membership => ?_
          obtain ⟨piece, among, rfl⟩ := List.mem_map.mp membership
          exact given piece among
      · exact nests_pure (named leads)

theorem nests_importFrom {word : Extent} (since : Since text first origin)
    (place : word.Within text first.offset origin.reached) :
    (read.importFrom first word).Nests text first.offset origin := by
  have callee : ∀ {c : Cursor}, origin.Leads c →
      (Expr.other word .importCallee).Nested text first.offset c.reached := fun leads =>
    .other (place.wider (Nat.le_refl _) (since.leads.reached_mono leads))
  rw [importFrom, Scan.Nests, ensures_bind]
  refine ensures_of_leads fun dotted c leads => ?_
  have since := since.later leads
  split
  · rw [ensures_bind]
    refine ensures_of_leads fun isMeta d further => ?_
    have since := since.later further
    split
    · exact nests_other since fun _ => rfl
    · exact nests_memberFrom since (callee (leads.trans further))
  · exact nests_callFrom reads since (callee leads)

theorem nests_wordOperand (mode : Mode) {word : String} (front : (start text).Leads origin)
    (found : (origin.tokenAfter 0).lexeme = .word word) (plain : word ≠ "await" ∧ word ≠ "yield") :
    (read.wordOperand (origin.tokenAfter 0) mode word).Nests text (origin.tokenAfter 0).offset
      origin := by
  have passes := fun {count : Nat} (some : count ≠ 0) =>
    passes_pass (beyond_past_of_lexeme found (by simp) some)
  have passesWord : (pass word.length).Passes origin := passes_pass (beyond_past_word found)
  unfold wordOperand
  dsimp only
  split
  iterate 5 exact nests_passing front passesWord fun _ _ since => nests_other since fun _ => rfl
  · exact nests_passing front (passes (by decide)) fun _ _ since => nests_since since
      fun _ _ since => nests_other since fun _ => rfl
  · exact nests_passing front (passes (by decide)) fun _ _ since => nests_since since
      fun _ _ since => nests_other since fun _ => rfl
  · exact nests_passing front (passes (by decide)) fun _ _ since => nests_creation mode since
  · refine nests_passing front (passes (by decide)) fun _ _ since => ?_
    rw [Scan.Nests, ensures_bind, ensures_extentFrom]
    exact nests_importFrom reads since since.within
  · have first : Lexeme.first (tokenText origin.rest) = .word "async" := by
      rw [← lexeme_tokenAfter, found]
    have characters := text_past_word first
    rw [show "async".length = 5 from rfl] at characters
    have since := (beyond_past_of_lexeme found (by simp) (by decide)).since front
      (origin.leads_past 5)
    rw [Scan.Nests, ensures_bind, ensures_pass, ensures_bind, ensures_extentFrom]
    refine nests_asyncFrom reads mode since since.within ?_
    rw [characters]
    exact ⟨by decide +kernel, by decide⟩
  · rw [Scan.Nests, ensures_bind]
    refine ((name_within front).and passes_name).mono fun named c leads holds => ?_
    obtain ⟨⟨⟨place, readable⟩, same⟩, beyond⟩ := holds
    have since := beyond.since front leads
    rw [ensures_bind, ensures_sees]
    split
    · exact nests_arrowFrom mode since
    · split
      · exact nests_pure (.other place)
      · next other =>
        obtain rfl := Lexeme.word.inj (found.symm.trans same)
        exact nests_pure (.name place ⟨readable, by simpa using other, plain⟩)

theorem nests_primary (mode : Mode) (front : (start text).Leads origin)
    (plain : ∀ word, (origin.tokenAfter 0).lexeme = .word word → word ≠ "await" ∧ word ≠ "yield") :
    (read.primary mode).Nests text (origin.tokenAfter 0).offset origin := by
  refine nests_ahead ?_
  split
  · next found => exact nests_wordOperand reads mode front found (plain _ found)
  · next found =>
    exact nests_passing front (passes_pass (beyond_past_number found)) fun _ _ since =>
      nests_other since fun _ => rfl
  · rw [Scan.Nests, ensures_bind]
    refine (quotedText_within front).mono fun extent c _ holds => ?_
    exact nests_pure (.text holds.1 holds.2)
  · exact nests_parenthesized mode front
  · exact nests_array front
  · exact nests_object front
  · next found =>
    exact nests_passing front (passes_pass (beyond_past_mark found)) fun _ _ since =>
      nests_since since fun _ _ since => nests_other since fun _ => rfl
  · next found =>
    split
    · exact nests_passing front (passes_pass (beyond_past_of_lexeme found (by simp) (by omega)))
        fun _ _ since => nests_other since fun _ => rfl
    · exact nests_unexpected
  · next found =>
    split
    · exact nests_passing front (passes_pass (beyond_past_of_lexeme found (by simp) (by omega)))
        fun _ _ since => nests_other since fun _ => rfl
    · exact nests_unexpected
  · next found =>
    exact nests_passing front (passes_decorators found) fun _ _ since => nests_since since
      fun _ _ since => nests_since since fun _ _ since => nests_other since fun _ => rfl
  · split
    · exact reads.markup front
    · exact nests_unexpected
  · exact nests_unexpected

omit reads in
theorem nests_assignment (mode : Mode) {left : Piece} (since : Since text first origin)
    (nested : left.expr.Nested text first.offset origin.reached) :
    (read.assignment first mode left).Nests text first.offset origin := by
  have kept : ∀ {c : Cursor}, origin.Leads c → left.expr.Nested text first.offset c.reached :=
    fun leads => nested.wider (Nat.le_refl _) (since.leads.reached_mono leads)
  rw [assignment, Scan.Nests, ensures_bind]
  refine ensures_of_leads fun stopped c leads => ?_
  have since := since.later leads
  split
  · exact nests_pure (kept leads)
  · rw [ensures_bind, ensures_next]
    split
    · split
      · exact nests_since since fun _ _ since => nests_since since fun _ _ since =>
          nests_other since fun _ => rfl
      · exact nests_pure (kept leads)
    -- Whatever stands on the left, the operator is one of the list or nothing is assigned.
    · split
      all_goals
        split
        · exact nests_since since fun _ _ since => nests_since since fun _ _ since =>
            nests_other since fun _ => rfl
        · exact nests_pure (kept leads)
    · exact nests_pure (kept leads)

theorem nests_operand (mode : Mode) (front : (start text).Leads origin) :
    (read.operand mode).Nests text (origin.tokenAfter 0).offset origin := by
  have plain : (∀ word, (origin.tokenAfter 0).lexeme = .word word → word ≠ "await" ∧ word ≠ "yield") →
      (do
      let left ← read.primary mode
      let left ← read.followed (origin.tokenAfter 0) mode true left
      read.assignment (origin.tokenAfter 0) mode left : Scan Piece).Nests text
        (origin.tokenAfter 0).offset origin := by
    intro plain
    rw [Scan.Nests, ensures_bind]
    refine (nests_primary reads mode front plain).mono fun left c leads nested => ?_
    have since : Since text (origin.tokenAfter 0) c :=
      ⟨front.trans (origin.leads_tokenAfter 0), front.trans leads, nested.le⟩
    rw [ensures_bind]
    refine (nests_followed reads mode true since nested).mono fun left d further nested => ?_
    exact nests_assignment mode (since.later further) nested
  have before : ∀ {count : Nat} {kind : Kind}, (pass count).Passes origin → (do
      pass count
      let inner ← read (.operand mode)
      require inner.value
      return .ofValue (.other (← extentFrom (origin.tokenAfter 0)) kind) : Scan Piece).Nests text
        (origin.tokenAfter 0).offset origin := fun passes =>
    nests_passing front passes fun _ _ since => nests_since since fun _ _ since =>
      nests_since since fun _ _ since => nests_other since fun _ => rfl
  refine nests_ahead ?_
  dsimp only
  split
  · next mark found =>
    split
    · exact before (passes_pass (beyond_past_mark found))
    · split
      · exact before (passes_pass (beyond_past_of_lexeme found (by simp) (by omega)))
      · exact plain fun _ same => absurd (found.symm.trans same) (by simp)
  · next word found =>
    have passes := fun {count : Nat} (some : count ≠ 0) =>
      passes_pass (beyond_past_of_lexeme found (by simp) some)
    split
    · exact before (passes_pass (beyond_past_word found))
    · split
      · exact before (passes (by omega))
      · next noAwait =>
        split
        · refine nests_passing front (passes (by omega)) fun _ _ since =>
            nests_since since fun starred _ since => ?_
          split
          · exact nests_since since fun _ _ since => nests_other since fun _ => rfl
          · refine nests_since since fun stopped _ since => ?_
            split
            · exact nests_other since fun _ => rfl
            · refine nests_since since fun following _ since => ?_
              split
              · exact nests_other since fun _ => rfl
              · exact nests_since since fun _ _ since => nests_other since fun _ => rfl
        · next noYield =>
          refine plain fun other same => ?_
          obtain rfl := Lexeme.word.inj (found.symm.trans same)
          exact ⟨by simpa using noAwait, by simpa using noYield⟩
  · next noWord => exact plain fun word same => absurd same (noWord word)

theorem nests_expression (mode : Mode) (front : (start text).Leads origin) :
    (read.expression mode).Nests text (origin.tokenAfter 0).offset origin := by
  -- Once the left side is read, it is what is read or a part of it.
  have compounded : ∀ {left : Piece} {c : Cursor}, Since text (origin.tokenAfter 0) c →
      left.expr.Nested text (origin.tokenAfter 0).offset c.reached → (do
        if !left.value then pure left
        else do
          let compound ← read.binaryTail mode
          if ← stops mode then expression.finish (origin.tokenAfter 0) left compound
          else if ← acceptMark "?" then do
            let _ ← read.valueIn .enclosed
            expectMark ":"
            let _ ← read.valueIn mode
            return .ofValue (.other (← extentFrom (origin.tokenAfter 0)) .ternary)
          else expression.finish (origin.tokenAfter 0) left compound : Scan Piece).Nests text
        (origin.tokenAfter 0).offset c := by
    intro left c since nested
    have finished : ∀ {d : Cursor} (compound : Bool), c.Leads d →
        (expression.finish (origin.tokenAfter 0) left compound).Nests text
          (origin.tokenAfter 0).offset d := by
      intro d compound leads
      rw [expression.finish]
      split
      · exact nests_other (since.later leads) fun _ => rfl
      · exact nests_pure (nested.wider (Nat.le_refl _)
          (since.leads.reached_mono leads))
    split
    · exact nests_pure nested
    · rw [Scan.Nests, ensures_bind]
      refine ensures_of_leads fun compound d leads => ?_
      rw [ensures_bind]
      refine ensures_of_leads fun stopped e further => ?_
      have leads := leads.trans further
      split
      · exact finished compound leads
      · rw [ensures_bind]
        refine ensures_of_leads fun ternary f again => ?_
        have leads := leads.trans again
        split
        · exact nests_since (since.later leads) fun _ _ since => nests_since since
            fun _ _ since => nests_since since fun _ _ since => nests_other since fun _ => rfl
        · exact finished compound leads
  refine nests_ahead ?_
  dsimp only
  split
  · next length found =>
    refine nests_passing front (passes_pass (beyond_past_length found (by simp) (by simp) (by simp)))
      fun _ _ since => nests_since since fun _ _ since => nests_since since fun _ _ since => ?_
    rw [Scan.Nests, ensures_bind, ensures_extentFrom, ensures_bind, ensures_pure]
    exact compounded since (.other since.within)
  · rw [Scan.Nests, ensures_bind]
    refine (nests_operand reads mode front).mono fun left c leads nested => ?_
    exact compounded
      ⟨front.trans (origin.leads_tokenAfter 0), front.trans leads, nested.le⟩ nested

omit reads in
theorem nests_acceptText {tag : String} {next : Bool → Scan Piece} (nonempty : tag.toList ≠ [])
    (front : (start text).Leads origin) (missing : (next false).Nests text low origin)
    (found : ∀ c, Since text (origin.tokenAfter 0) c → (next true).Nests text low c) :
    (acceptText tag >>= next).Nests text low origin := by
  simp only [Scan.Nests, acceptText, seesText, ensures_bind, ensures_ahead, ensures_pure]
  split
  · next starts =>
    simp only [ensures_bind, ensures_pass, ensures_pure]
    refine found _ ((beyond_past ?_ ?_).since front (origin.leads_past _))
    · intro none
      exact nonempty (by simpa using none)
    · intro none
      rw [none] at starts
      exact nonempty (by simpa using starts)
  · rw [ensures_pure]
    exact missing

omit reads in
theorem nests_markup (front : (start text).Leads origin) :
    read.markup.Nests text (origin.tokenAfter 0).offset origin := by
  refine nests_ahead ?_
  refine nests_acceptText (by decide) front ?_ fun c since => ?_
  · rw [Scan.Nests, ensures_bind, ensures_require]
    exact fun impossible => absurd impossible (by decide)
  · refine nests_since since fun _ _ since => nests_since since fun empty _ since => ?_
    split
    · exact nests_since since fun _ _ since => nests_other since fun _ => rfl
    · refine nests_since since fun _ _ since => nests_since since fun _ _ since =>
        nests_since since fun closed _ since => ?_
      split
      · exact nests_other since fun _ => rfl
      · exact nests_since since fun _ _ since => nests_since since fun _ _ since =>
          nests_since since fun _ _ since => nests_other since fun _ => rfl

end Readers

open Readers in
theorem nests_reader (depth : Nat) : (reader depth).Nests text := by
  induction depth with
  | zero => exact ⟨fun _ _ _ => Scan.nests_unexpected, fun _ _ _ => Scan.nests_unexpected,
      fun _ => Scan.nests_unexpected⟩
  | succ depth inductionHypothesis =>
    exact ⟨fun mode _ => nests_expression inductionHypothesis mode,
      fun mode _ => nests_operand inductionHypothesis mode, fun {_} => nests_markup⟩

end ImportRedirect.Script
