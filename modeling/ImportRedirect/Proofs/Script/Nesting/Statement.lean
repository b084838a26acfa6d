import ImportRedirect.Proofs.Script.Nesting.Expression

/-!
The parts of imports and declarations stand within them, in whole characters. Other statements have no
parts that anyone asks for.
-/

namespace ImportRedirect.Script

variable {text : List Char} {low high : Nat}

/-- What is imported under a local name: a name, the one word that is none, or a quoted text. -/
inductive Expr.Exports (text : List Char) (low high : Nat) : Expr → Prop where
  | name {extent : Extent} (named : extent.Named text low high) : Exports text low high (.name extent)
  | default {extent : Extent} (place : extent.Within text low high) (word : extent.text = "default") :
      Exports text low high (.name extent)
  | text {extent : Extent} (place : extent.Within text low high) (quoted : extent.Quoted) :
      Exports text low high (.text extent)

theorem Expr.Exports.wider {expr : Expr} {lower higher : Nat} (exports : expr.Exports text low high)
    (front : lower ≤ low) (back : high ≤ higher) : expr.Exports text lower higher := by
  cases exports with
  | name named => exact .name (named.wider front back)
  | default place word => exact .default (place.wider front back) word
  | text place quoted => exact .text (place.wider front back) quoted

/-- What a specifier is made of stands within it. -/
inductive Specifier.Nested (text : List Char) (low high : Nat) : Specifier → Prop where
  | whole {extent localName : Extent} (place : extent.Within text low high)
      (bound : localName.Named text extent.start extent.stop) :
      Nested text low high (.whole extent localName)
  | named {extent localName : Extent} {imported : Expr} (place : extent.Within text low high)
      (exported : imported.Exports text extent.start extent.stop)
      (bound : localName.Named text extent.start extent.stop) :
      Nested text low high (.named extent imported localName)
  | fallback {localName : Extent} (bound : localName.Named text low high) :
      Nested text low high (.fallback localName)

theorem Specifier.Nested.wider {specifier : Specifier} {lower higher : Nat}
    (nested : specifier.Nested text low high) (front : lower ≤ low) (back : high ≤ higher) :
    specifier.Nested text lower higher := by
  cases nested with
  | whole place bound => exact .whole (place.wider front back) bound
  | named place exported bound => exact .named (place.wider front back) exported bound
  | fallback bound => exact .fallback (bound.wider front back)

/-- What a declaration gives a value: a name, or a pattern, which is not looked into. -/
inductive Expr.Binds (text : List Char) (low high : Nat) : Expr → Prop where
  | name {extent : Extent} (named : extent.Named text low high) : Binds text low high (.name extent)
  | pattern {extent : Extent} {kind : Kind} (place : extent.Within text low high) :
      Binds text low high (.other extent kind)

theorem Expr.Binds.place {expr : Expr} (binds : expr.Binds text low high) :
    expr.extent.Within text low high := by
  cases binds with
  | name named => exact named.place
  | pattern place => exact place

theorem Expr.Binds.le {expr : Expr} (binds : expr.Binds text low high) : low ≤ high :=
  Nat.le_trans binds.place.after (Nat.le_trans binds.place.cut.le binds.place.before)

theorem Expr.Binds.wider {expr : Expr} {lower higher : Nat} (binds : expr.Binds text low high)
    (front : lower ≤ low) (back : high ≤ higher) : expr.Binds text lower higher := by
  cases binds with
  | name named => exact .name (named.wider front back)
  | pattern place => exact .pattern (place.wider front back)

structure Declarator.Nested (text : List Char) (low high : Nat) (declarator : Declarator) : Prop where
  place : declarator.extent.Within text low high
  target : declarator.target.Binds text declarator.extent.start declarator.extent.stop
  value : ∀ value ∈ declarator.value,
    value.Nested text declarator.extent.start declarator.extent.stop

theorem Declarator.Nested.wider {declarator : Declarator} {lower higher : Nat}
    (nested : declarator.Nested text low high) (front : lower ≤ low) (back : high ≤ higher) :
    declarator.Nested text lower higher :=
  ⟨nested.place.wider front back, nested.target, nested.value⟩

/-- Specifiers, and the source that they are imported from, between two places. -/
structure Specifier.From (text : List Char) (low high : Nat) (specifiers : List Specifier)
    (source : Extent) : Prop where
  nested : ∀ specifier ∈ specifiers, specifier.Nested text low high
  place : source.Within text low high
  quoted : source.Quoted

theorem Specifier.From.wider {specifiers : List Specifier} {source : Extent} {higher : Nat}
    (stand : Specifier.From text low high specifiers source) (back : high ≤ higher) :
    Specifier.From text low higher specifiers source :=
  ⟨fun specifier membership => (stand.nested specifier membership).wider (Nat.le_refl _) back,
    stand.place.wider (Nat.le_refl _) back, stand.quoted⟩

/-- The parts of a statement stand within it. -/
def Statement.Parts (text : List Char) : Statement → Prop
  | .importing extent specifiers source _ =>
    Specifier.From text extent.start extent.stop specifiers source
  | .declaration extent _ declarators =>
    ∀ declarator ∈ declarators, declarator.Nested text extent.start extent.stop
  | .empty | .other _ _ => True

namespace Readers

open Scan Cursor

variable {α : Type} {read : Readers} {first origin : Cursor}

section Specifiers

theorem nested_renamed {imported : Expr} (since : Since text first origin)
    (exports : imported.Exports text first.offset origin.reached) :
    (do
      expectWord "as"
      let localName ← name
      return .named (← extentFrom first) imported localName : Scan Specifier).Ensures origin
      fun specifier c => specifier.Nested text first.offset c.reached := by
  rw [ensures_bind]
  refine ensures_of_leads fun _ c leads => ?_
  have begun := since.later leads
  rw [ensures_bind]
  refine (name_within begun.leads).mono fun localName d further holds => ?_
  rw [ensures_bind, ensures_extentFrom, ensures_pure]
  refine .named (begun.later further).within (exports.wider (Nat.le_refl _)
    (since.leads.reached_mono (leads.trans further))) (holds.1.wider ?_ (Nat.le_refl _))
  exact Nat.le_trans begun.offset_le (c.leads_tokenAfter 0).offset_le

theorem nested_importSpecifier (front : (start text).Leads origin) :
    importSpecifier.Ensures origin fun specifier c =>
      specifier.Nested text (origin.tokenAfter 0).offset c.reached := by
  rw [importSpecifier, ensures_bind, ensures_ahead]
  dsimp only
  split
  · rw [ensures_bind]
    refine ((quotedText_within front).and passes_quotedText).mono fun extent c leads holds => ?_
    exact nested_renamed (holds.2.since front leads) (.text holds.1.1 holds.1.2)
  · split
    · next found =>
      have found := beq_iff_eq.mp found
      have characters := text_past_word ((lexeme_tokenAfter origin).symm.trans found)
      rw [show "default".length = 7 from rfl] at characters
      have since := (beyond_past_of_lexeme found (by simp) (by decide)).since front
        (origin.leads_past 7)
      rw [ensures_bind, ensures_pass, ensures_bind, ensures_extentFrom]
      exact nested_renamed since (.default since.within characters)
    · rw [ensures_bind]
      refine ((name_within front).and passes_name).mono fun extent c leads holds => ?_
      obtain ⟨⟨named, _⟩, beyond⟩ := holds
      rw [ensures_bind, ensures_sees]
      split
      · exact nested_renamed (beyond.since front leads) (.name named)
      · exact (ensures_pure _ _).mpr (.named named.place (.name named.within) named.within)

theorem nested_importedNames (since : Since text first origin) :
    importedNames.Ensures origin fun specifiers c =>
      ∀ specifier ∈ specifiers, specifier.Nested text first.offset c.reached := by
  have begun : first.offset ≤ (origin.tokenAfter 0).offset :=
    Nat.le_trans since.offset_le (origin.leads_tokenAfter 0).offset_le
  rw [importedNames, ensures_bind, ensures_ahead, ensures_bind, acceptMark, ensures_accept]
  split
  · next found =>
    have own := (beyond_past_mark found).since since.leads (origin.leads_past _)
    simp only [if_true]
    refine ensures_since own fun _ c own => ?_
    rw [ensures_bind]
    refine (name_within own.leads).mono fun localName d further holds => ?_
    rw [ensures_bind, ensures_extentFrom, ensures_pure]
    intro specifier membership
    obtain rfl := List.mem_singleton.mp membership
    refine .whole ((own.later further).within.wider begun (Nat.le_refl _))
      (holds.1.wider ?_ (Nat.le_refl _))
    exact Nat.le_trans own.offset_le (c.leads_tokenAfter 0).offset_le
  · simp only [Bool.false_eq_true, if_false]
    refine ensures_since since fun _ c since => ?_
    refine ensures_listed (fun _ _ _ front leads nested => nested.wider (Nat.le_refl _)
      (front.reached_mono leads)) since.leads fun d front leads => ?_
    refine (nested_importSpecifier front).mono fun specifier e _ nested => ?_
    refine nested.wider ?_ (Nat.le_refl _)
    exact Nat.le_trans (since.later leads).offset_le (d.leads_tokenAfter 0).offset_le

theorem nested_importClause (since : Since text first origin) :
    importClause.Ensures origin fun specifiers c =>
      ∀ specifier ∈ specifiers, specifier.Nested text first.offset c.reached := by
  rw [importClause, ensures_bind, ensures_next]
  split
  · rw [ensures_bind]
    refine (name_within since.leads).mono fun localName c leads holds => ?_
    have begun : first.offset ≤ (origin.tokenAfter 0).offset :=
      Nat.le_trans since.offset_le (origin.leads_tokenAfter 0).offset_le
    have since := since.later leads
    have default : ∀ {d : Cursor}, c.Leads d →
        (Specifier.fallback localName).Nested text first.offset d.reached := fun further =>
      .fallback (holds.1.wider begun (since.leads.reached_mono further))
    rw [ensures_bind]
    refine ensures_of_leads fun more d further => ?_
    split
    · rw [ensures_bind]
      refine (nested_importedNames (since.later further)).mono fun specifiers e again nested => ?_
      refine (ensures_pure _ _).mpr fun specifier membership => ?_
      rcases List.mem_cons.mp membership with rfl | membership
      · exact default (further.trans again)
      · exact nested specifier membership
    · refine (ensures_pure _ _).mpr fun specifier membership => ?_
      obtain rfl := List.mem_singleton.mp membership
      exact default further
  · exact nested_importedNames since

end Specifiers

theorem fromClause_within (since : Since text first origin) :
    fromClause.Ensures origin fun source c =>
      source.Within text first.offset c.reached ∧ source.Quoted := by
  refine ensures_since since fun _ c since => ?_
  refine (quotedText_within since.leads).mono fun source d _ holds => ⟨?_, holds.2⟩
  exact holds.1.wider (Nat.le_trans since.offset_le (c.leads_tokenAfter 0).offset_le) (Nat.le_refl _)

/-- The parts of the statement that is read stand within it. -/
def Parts (scan : Scan Statement) (text : List Char) (origin : Cursor) : Prop :=
  scan.Ensures origin fun statement _ => statement.Parts text

/-- At a cursor behind them, specifiers and their source were read. -/
structure Imported (text : List Char) (first : Cursor) (specifiers : List Specifier)
    (source : Extent) (c : Cursor) : Prop where
  since : Since text first c
  stand : Specifier.From text first.offset c.reached specifiers source

section Importing

variable {specifiers : List Specifier} {source : Extent}

theorem parts_past {scan : Scan α} {next : α → Scan Statement}
    (imported : Imported text first specifiers source origin)
    (parts : ∀ a c, Imported text first specifiers source c → Parts (next a) text c) :
    Parts (scan >>= next) text origin := by
  rw [Parts, ensures_bind]
  refine ensures_of_leads fun a c leads => parts a c ⟨imported.since.later leads, ?_⟩
  exact imported.stand.wider (imported.since.leads.reached_mono leads)

theorem parts_importing {attributes : Option Extent}
    (imported : Imported text first specifiers source origin) :
    Parts (extentFrom first >>= fun extent =>
      pure (.importing extent specifiers source attributes)) text origin := by
  rw [Parts, ensures_bind, ensures_extentFrom, ensures_pure]
  exact imported.stand

end Importing

theorem parts_importTail {specifiers : List Specifier} {source : Extent}
    (imported : Imported text first specifiers source origin) :
    Parts (read.importTail first specifiers source) text origin := by
  refine parts_past imported fun ended c imported => ?_
  split
  · exact parts_importing imported
  · refine parts_past imported fun _ c imported => parts_past imported fun attributed c imported => ?_
    split
    · exact parts_past imported fun _ _ imported => parts_past imported fun _ _ imported =>
        parts_past imported fun _ _ imported => parts_past imported fun _ _ imported =>
        parts_past imported fun _ _ imported => parts_past imported fun _ _ imported =>
        parts_importing imported
    · exact parts_past imported fun _ _ imported => parts_past imported fun _ _ imported =>
        parts_importing imported

theorem parts_importDeclaration (front : (start text).Leads origin)
    (found : (origin.tokenAfter 0).lexeme = .word "import") :
    Parts (read.importDeclaration (origin.tokenAfter 0)) text origin := by
  have since : Since text (origin.tokenAfter 0) (origin.past 6) :=
    (beyond_past_of_lexeme found (by simp) (by decide)).since front (origin.leads_past 6)
  rw [Parts, ensures_importDeclaration]
  split
  · refine (quotedText_within since.leads).mono fun source d leads holds => ?_
    have begun : (origin.tokenAfter 0).offset ≤ ((origin.past 6).tokenAfter 0).offset :=
      Nat.le_trans since.offset_le ((origin.past 6).leads_tokenAfter 0).offset_le
    exact parts_importTail ⟨since.later leads, by simp, holds.1.wider begun (Nat.le_refl _), holds.2⟩
  · refine (nested_importClause since).mono fun specifiers d leads nested => ?_
    have since := since.later leads
    refine (fromClause_within since).mono fun source e further holds => ?_
    exact parts_importTail ⟨since.later further, fun specifier membership =>
      (nested specifier membership).wider (Nat.le_refl _) (since.leads.reached_mono further),
      holds.1, holds.2⟩

section Declaring

theorem binds_bindingTarget (front : (start text).Leads origin) :
    read.bindingTarget.Ensures origin fun target c =>
      target.Binds text (origin.tokenAfter 0).offset c.reached := by
  rw [bindingTarget, ensures_bind, ensures_ahead]
  split
  case' h_1 => refine (ensures_bind _ _ _).mpr ((nests_object front).mono fun piece c _ nested => ?_)
  case' h_2 => refine (ensures_bind _ _ _).mpr ((nests_array front).mono fun piece c _ nested => ?_)
  iterate 2
    rw [ensures_bind, ensures_require, ensures_pure]
    exact fun _ => .pattern nested.place
  rw [ensures_bind]
  exact (name_within front).mono fun extent c _ holds => (ensures_pure _ _).mpr (.name holds.1)

variable (reads : read.Nests text)
include reads

theorem nested_declarator (mode : Mode) (front : (start text).Leads origin) :
    (read.declarator mode).Ensures origin fun result c =>
      result.1.Nested text (origin.tokenAfter 0).offset c.reached := by
  rw [declarator, ensures_bind, ensures_ahead, ensures_bind]
  refine (binds_bindingTarget front).mono fun target c leads binds => ?_
  have since : Since text (origin.tokenAfter 0) c :=
    ⟨front.trans (origin.leads_tokenAfter 0), front.trans leads, binds.le⟩
  rw [ensures_bind, ensures_extentFrom]
  -- Without a value the declarator is the target alone.
  have bare : ∀ {d : Cursor}, c.Leads d → Declarator.Nested text (origin.tokenAfter 0).offset d.reached
      ⟨⟨(origin.tokenAfter 0).offset, (origin.tokenAfter 0).rest, c.reached⟩, target, none⟩ :=
    fun leads => ⟨since.within.wider (Nat.le_refl _) (since.leads.reached_mono leads), binds,
      by simp⟩
  dsimp only
  split
  all_goals
    rw [ensures_bind]
    refine ensures_of_leads fun ended d further => ?_
    split
    · exact (ensures_pure _ _).mpr (bare further)
    · rw [ensures_bind]
      refine ensures_of_leads fun given e again => ?_
      have leads := further.trans again
      split
      · rw [ensures_bind]
        refine (nests_valueIn reads mode (since.later leads).leads).mono fun piece f onward value => ?_
        have leads := leads.trans onward
        rw [ensures_bind, ensures_extentFrom, ensures_bind]
        refine ensures_of_leads fun stopped g last => (ensures_pure _ _).mpr ?_
        refine ⟨(since.later leads).within.wider (Nat.le_refl _)
          ((since.later leads).leads.reached_mono last), ?_, ?_⟩
        · exact binds.wider (Nat.le_refl _) (since.leads.reached_mono leads)
        · intro expr found
          obtain rfl := Option.some.inj found
          refine value.wider ?_ (Nat.le_refl _)
          exact Nat.le_trans (since.later (further.trans again)).offset_le
            (e.leads_tokenAfter 0).offset_le
      · exact (ensures_pure _ _).mpr (bare leads)

theorem nested_declaratorsWithin (mode : Mode) (n : Nat) (since : Since text first origin) :
    (read.declaratorsWithin mode n).Ensures origin fun declarators c =>
      ∀ declarator ∈ declarators, declarator.Nested text first.offset c.reached := by
  induction n generalizing origin with
  | zero => exact ensures_unexpected _
  | succ n inductionHypothesis =>
    rw [declaratorsWithin, ensures_bind]
    refine (nested_declarator reads mode since.leads).mono fun result c leads nested => ?_
    have since' := since.later leads
    have kept : ∀ {d : Cursor}, c.Leads d → result.1.Nested text first.offset d.reached :=
      fun further => nested.wider
        (Nat.le_trans since.offset_le (origin.leads_tokenAfter 0).offset_le)
        (since'.leads.reached_mono further)
    have one : ∀ {d : Cursor}, c.Leads d →
        ∀ declarator ∈ [result.1], declarator.Nested text first.offset d.reached :=
      fun further => List.forall_mem_singleton.mpr (kept further)
    dsimp only
    split
    · rw [ensures_bind]
      exact ensures_of_leads fun _ d further => (ensures_pure _ _).mpr (one further)
    · rw [ensures_bind]
      refine ensures_of_leads fun more d further => ?_
      split
      · rw [ensures_bind]
        refine (inductionHypothesis (since'.later further)).mono fun others e again nested => ?_
        exact (ensures_pure _ _).mpr (List.forall_mem_cons.mpr ⟨kept (further.trans again), nested⟩)
      · rw [ensures_bind]
        exact ensures_of_leads fun _ e again => (ensures_pure _ _).mpr (one (further.trans again))

theorem parts_declarationFrom {binder : Binder} (front : (start text).Leads origin)
    (begun : (origin.tokenAfter 0).lexeme ≠ .finish) :
    Parts (read.declarationFrom (origin.tokenAfter 0) binder) text origin := by
  have named : binder.name.length ≠ 0 := by cases binder <;> decide
  refine ensures_passing front (passes_pass (beyond_past_of_lexeme rfl begun named)) fun _ c since => ?_
  rw [ensures_bind, ensures_cursor, ensures_bind]
  refine (nested_declaratorsWithin reads _ _ since).mono fun declarators d _ nested => ?_
  rw [ensures_bind, ensures_extentFrom]
  exact (ensures_pure _ _).mpr nested

end Declaring

theorem Chosen.parts {scan : Scan Statement} (chosen : read.Chosen origin scan)
    (reads : read.Nests text) (front : (start text).Leads origin) : Parts scan text origin := by
  cases chosen with
  | other ends passes =>
    refine (ends origin).mono fun statement c _ known => ?_
    obtain ⟨kind, rfl⟩ := known
    trivial
  | importing found => exact parts_importDeclaration front found
  | declaring binder found => exact parts_declarationFrom reads front (by simp [found])

end Readers

open Readers in
theorem parts_readStatement (depth : Nat) {origin : Cursor}
    (front : (Cursor.start text).Leads origin) : Parts (reader depth .statement) text origin := by
  cases depth with
  | zero => exact Scan.ensures_unexpected _
  | succ depth =>
    exact ensures_chosen (passes_readExpression depth) (fun _ => trivial)
      fun _ chosen => chosen.parts (nests_reader depth) front

theorem Statement.Read.cut {statement : Statement} {origin c : Cursor}
    (read : statement.Read (origin.tokenAfter 0) c) (front : (Cursor.start text).Leads origin)
    (leads : origin.Leads c) : ∀ extent ∈ statement.extent?, extent.Of text := by
  intro extent found
  obtain rfl := read.extent extent found
  exact (read.beyond.since front leads).within.cut

/-- The statements of a script are whole characters, and their parts stand within them. -/
theorem parts_of_parse {code : String} {tree : Tree} (parsed : parse code = .ok tree) :
    ∀ statement ∈ tree.statements,
      (∀ extent ∈ statement.extent?, extent.Of code.toList) ∧ statement.Parts code.toList := by
  refine forall_of_parse parsed fun depth c _ front => ?_
  exact ((ensures_readStatement depth c).and (parts_readStatement depth front)).mono
    fun _ _ leads holds => ⟨holds.1.cut front leads, holds.2⟩

end ImportRedirect.Script
