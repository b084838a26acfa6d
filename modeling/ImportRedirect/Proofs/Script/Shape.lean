import ImportRedirect.Proofs.Script.Progress

/-!
What a statement looks like once it was read: where it starts and stops, and which forms its parts
have.
-/

namespace ImportRedirect.Script

/-- A name as modules export it. -/
inductive Expr.Exported : Expr → Prop where
  | name (extent : Extent) : Exported (.name extent)
  | text (extent : Extent) : Exported (.text extent)

/-- What a declaration can give a value: a name or a pattern. -/
inductive Expr.Target : Expr → Prop where
  | name {extent : Extent} (nonempty : extent.text ≠ "") : Target (.name extent)
  | pattern (extent : Extent) (kind : Kind) : Target (.other extent kind)

namespace Specifier

def localName : Specifier → Extent
  | .whole _ localName | .named _ _ localName | .fallback localName => localName

inductive Named : Specifier → Prop where
  | intro {extent localName : Extent} {imported : Expr} (exported : imported.Exported) :
      Named (.named extent imported localName)

/-- All that may follow the default of an import: names, or everything at once. -/
inductive Tail : List Specifier → Prop where
  | names {specifiers : List Specifier} (named : ∀ specifier ∈ specifiers, specifier.Named) :
      Tail specifiers
  | whole (extent localName : Extent) : Tail [.whole extent localName]

inductive Clause : List Specifier → Prop where
  | tail {specifiers : List Specifier} (tail : Tail specifiers) : Clause specifiers
  | fallback {specifiers : List Specifier} (localName : Extent) (tail : Tail specifiers) :
      Clause (.fallback localName :: specifiers)

/-- The specifiers of one import. -/
structure Listed (specifiers : List Specifier) : Prop where
  clause : Clause specifiers
  nonempty : ∀ specifier ∈ specifiers, specifier.localName.text ≠ ""

end Specifier

namespace Statement

/-- The place of a statement, unless there is nothing in it. -/
def extent? : Statement → Option Extent
  | .empty => none
  | .importing extent _ _ _ | .declaration extent _ _ | .other extent _ => some extent

/-- The parts of a statement have the forms that can be read. -/
def Regular : Statement → Prop
  | .importing _ specifiers _ _ => Specifier.Listed specifiers
  | .declaration _ _ declarators => ∀ declarator ∈ declarators, declarator.target.Target
  | .empty | .other _ _ => True

/-- A statement that was read from a token on, up to a cursor. -/
structure Read (first : Cursor) (statement : Statement) (c : Cursor) : Prop where
  extent : ∀ extent ∈ statement.extent?, extent = ⟨first.offset, first.rest, c.reached⟩
  regular : statement.Regular
  beyond : c.Beyond first.offset

end Statement

namespace Scan

variable {α β : Type} {origin : Cursor}

theorem Ensures.and {scan : Scan α} {first second : α → Cursor → Prop}
    (ensuresFirst : scan.Ensures origin first) (ensuresSecond : scan.Ensures origin second) :
    scan.Ensures origin fun a c => first a c ∧ second a c :=
  fun outcome succeeds => ⟨ensuresFirst outcome succeeds, ensuresSecond outcome succeeds⟩

/-- Whatever is read has this property. -/
def Gives (scan : Scan α) (property : α → Prop) : Prop :=
  ∀ origin, scan.Ensures origin fun a _ => property a

theorem gives_pure {property : α → Prop} {a : α} (holds : property a) :
    (pure a : Scan α).Gives property := fun _ => (ensures_pure _ _).mpr holds

theorem gives_unexpected {property : α → Prop} : (unexpected : Scan α).Gives property :=
  fun _ => ensures_unexpected _

theorem gives_bind {first : Scan α} {next : α → Scan β} {middle : α → Prop} {property : β → Prop}
    (gives : first.Gives middle) (implies : ∀ a, middle a → (next a).Gives property) :
    (first >>= next).Gives property := by
  intro origin
  rw [ensures_bind]
  exact (gives origin).mono fun a c _ holds => implies a holds c

/-- What is read last decides. -/
theorem gives_last {first : Scan α} {next : α → Scan β} {property : β → Prop}
    (gives : ∀ a, (next a).Gives property) : (first >>= next).Gives property :=
  fun _ => (ensures_bind _ _ _).mpr (ensures_of_leads fun a c _ => gives a c)

theorem gives_manyWithin {step : Scan (Option α)} {property : α → Prop}
    (each : step.Gives fun result => ∀ a ∈ result, property a) (n : Nat) :
    (manyWithin step n).Gives fun results => ∀ a ∈ results, property a := by
  induction n with
  | zero => exact gives_pure (by simp)
  | succ n inductionHypothesis =>
    refine gives_bind each fun result holds => ?_
    cases result with
    | none => exact gives_pure (by simp)
    | some a =>
      refine gives_bind inductionHypothesis fun results others => gives_pure ?_
      intro other membership
      rcases List.mem_cons.mp membership with rfl | membership
      · exact holds other rfl
      · exact others other membership

theorem gives_many {step : Scan (Option α)} {property : α → Prop}
    (each : step.Gives fun result => ∀ a ∈ result, property a) :
    (many step).Gives fun results => ∀ a ∈ results, property a :=
  gives_last fun _ => gives_manyWithin each _

theorem gives_listed {closing : String} {item : Scan α} {property : α → Prop}
    (each : item.Gives property) :
    (listed closing item).Gives fun results => ∀ a ∈ results, property a := by
  refine gives_many (gives_last fun closed => ?_)
  cases closed with
  | true => exact gives_pure (by simp)
  | false =>
    refine gives_bind each fun a holds => gives_last fun last => ?_
    cases last with
    | true => exact gives_pure (by simpa using holds)
    | false => exact gives_last fun _ => gives_pure (by simpa using holds)

theorem gives_name : name.Gives fun extent => extent.text ≠ "" :=
  fun _ => ensures_name.mono fun _ _ _ holds => holds.1

end Scan

namespace Readers

open Scan

variable {read : Readers}

theorem gives_importSpecifier : importSpecifier.Gives fun specifier =>
    specifier.Named ∧ specifier.localName.text ≠ "" := by
  have renamed : ∀ (first : Cursor) (imported : Expr), imported.Exported →
      (do
        expectWord "as"
        let localName ← name
        return Specifier.named (← extentFrom first) imported localName : Scan Specifier).Gives
        fun specifier => specifier.Named ∧ specifier.localName.text ≠ "" :=
    fun first imported exported => gives_last fun _ => gives_bind gives_name fun _ nonempty =>
      gives_last fun _ => gives_pure ⟨.intro exported, nonempty⟩
  refine gives_last fun first => ?_
  dsimp only
  split
  · exact gives_last fun _ => renamed first _ (.text _)
  · split
    · exact gives_last fun _ => gives_last fun _ => renamed first _ (.name _)
    · refine gives_bind gives_name fun imported nonempty => gives_last fun again => ?_
      split
      · exact renamed first _ (.name _)
      · exact gives_pure ⟨.intro (.name _), nonempty⟩

theorem gives_importedNames : importedNames.Gives fun specifiers =>
    Specifier.Tail specifiers ∧ ∀ specifier ∈ specifiers, specifier.localName.text ≠ "" := by
  refine gives_last fun first => gives_last fun everything => ?_
  cases everything with
  | true =>
    refine gives_last fun _ => gives_bind gives_name fun localName nonempty =>
      gives_last fun extent => gives_pure ⟨.whole extent localName, fun specifier membership => ?_⟩
    obtain rfl := List.mem_singleton.mp membership
    exact nonempty
  | false =>
    refine gives_last fun _ => fun origin => ?_
    refine (gives_listed gives_importSpecifier origin).mono fun specifiers _ _ each => ?_
    exact ⟨.names fun specifier membership => (each specifier membership).1,
      fun specifier membership => (each specifier membership).2⟩

theorem gives_importClause : importClause.Gives Specifier.Listed := by
  refine gives_last fun lexeme => ?_
  split
  · refine gives_bind gives_name fun localName nonempty => gives_last fun more => ?_
    split
    · refine gives_bind gives_importedNames fun specifiers holds => gives_pure ?_
      refine ⟨.fallback localName holds.1, fun specifier membership => ?_⟩
      rcases List.mem_cons.mp membership with rfl | membership
      · exact nonempty
      · exact holds.2 specifier membership
    · refine gives_pure ⟨.fallback localName (.names (by simp)), fun specifier membership => ?_⟩
      obtain rfl := List.mem_singleton.mp membership
      exact nonempty
  · exact fun origin => (gives_importedNames origin).mono fun _ _ _ holds => ⟨.tail holds.1, holds.2⟩

theorem gives_bindingTarget : read.bindingTarget.Gives Expr.Target := by
  refine gives_last fun first => ?_
  split
  · exact gives_last fun piece => gives_last fun _ => gives_pure (.pattern _ _)
  · exact gives_last fun piece => gives_last fun _ => gives_pure (.pattern _ _)
  · exact gives_bind gives_name fun extent nonempty => gives_pure (.name nonempty)

theorem gives_declarator (mode : Mode) :
    (read.declarator mode).Gives fun result => result.1.target.Target := by
  refine gives_last fun first => gives_bind gives_bindingTarget fun target holds =>
    gives_last fun place => ?_
  dsimp only
  split
  all_goals
    refine gives_last fun ended => ?_
    split
    · exact gives_pure holds
    · refine gives_last fun given => ?_
      split
      · exact gives_last fun _ => gives_last fun _ => gives_last fun _ => gives_pure holds
      · exact gives_pure holds

theorem gives_declaratorsWithin (mode : Mode) (n : Nat) :
    (read.declaratorsWithin mode n).Gives fun declarators =>
      ∀ declarator ∈ declarators, declarator.target.Target := by
  induction n with
  | zero => exact gives_unexpected
  | succ n inductionHypothesis =>
    refine gives_bind (gives_declarator mode) fun result holds => ?_
    have one : ∀ declarator ∈ [result.1], declarator.target.Target := by simpa using holds
    dsimp only
    split
    · exact gives_last fun _ => gives_pure one
    · refine gives_last fun more => ?_
      split
      · refine gives_bind inductionHypothesis fun others hold => gives_pure ?_
        intro declarator membership
        rcases List.mem_cons.mp membership with rfl | membership
        · exact holds
        · exact hold declarator membership
      · exact gives_last fun _ => gives_pure one

end Readers

namespace Scan

variable {α : Type} {first origin : Cursor}

/-- A reader whose statement ends where the last token ended, and has the forms that can be read. -/
def Closes (scan : Scan Statement) (first : Cursor) : Prop :=
  ∀ origin, scan.Ensures origin fun statement c =>
    (∀ extent ∈ statement.extent?, extent = ⟨first.offset, first.rest, c.reached⟩) ∧
      statement.Regular

theorem closes_last {scan : Scan α} {next : α → Scan Statement}
    (closes : ∀ a, (next a).Closes first) : (scan >>= next).Closes first :=
  fun _ => (ensures_bind _ _ _).mpr (ensures_of_leads fun a c _ => closes a c)

theorem closes_bind {scan : Scan α} {property : α → Prop} {next : α → Scan Statement}
    (gives : scan.Gives property) (closes : ∀ a, property a → (next a).Closes first) :
    (scan >>= next).Closes first := by
  intro origin
  rw [ensures_bind]
  exact (gives origin).mono fun a c _ holds => closes a holds c

theorem closes_extentFrom {statement : Extent → Statement}
    (place : ∀ extent, (statement extent).extent? = some extent)
    (regular : ∀ extent, (statement extent).Regular) :
    (extentFrom first >>= fun extent => pure (statement extent)).Closes first := by
  intro origin
  rw [ensures_bind, ensures_extentFrom, ensures_pure]
  refine ⟨fun extent found => ?_, regular _⟩
  rw [place] at found
  exact (Option.some.inj found).symm

/-- A reader whose statement is known by its kind alone, and ends where the last token ended. -/
def Ends (scan : Scan Statement) (first : Cursor) : Prop :=
  ∀ origin, scan.Ensures origin fun statement c =>
    ∃ kind, statement = .other ⟨first.offset, first.rest, c.reached⟩ kind

theorem ends_last {scan : Scan α} {next : α → Scan Statement}
    (ends : ∀ a, (next a).Ends first) : (scan >>= next).Ends first :=
  fun _ => (ensures_bind _ _ _).mpr (ensures_of_leads fun a c _ => ends a c)

theorem ends_other (kind : Kind) :
    (extentFrom first >>= fun extent => pure (Statement.other extent kind)).Ends first := by
  intro origin
  rw [ensures_bind, ensures_extentFrom, ensures_pure]
  exact ⟨kind, rfl⟩

theorem Ends.closes {scan : Scan Statement} (ends : scan.Ends first) : scan.Closes first := by
  intro origin
  refine (ends origin).mono fun statement c _ known => ?_
  obtain ⟨kind, rfl⟩ := known
  exact ⟨fun extent found => (Option.some.inj found).symm, trivial⟩

theorem read_of_closes {scan : Scan Statement} (closes : scan.Closes (origin.tokenAfter 0))
    (passes : scan.Passes origin) : scan.Ensures origin (Statement.Read (origin.tokenAfter 0)) :=
  ((closes origin).and passes).mono fun _ _ _ holds => ⟨holds.1.1, holds.1.2, holds.2⟩

end Scan

namespace Readers

open Scan

variable {read : Readers} {first : Cursor}

theorem closes_declarationFrom (binder : Binder) :
    (read.declarationFrom first binder).Closes first := by
  refine closes_last fun _ => closes_last fun c => ?_
  refine closes_bind (gives_declaratorsWithin _ _) fun declarators targets => ?_
  exact closes_extentFrom (fun _ => rfl) fun _ => targets

theorem closes_importTail {specifiers : List Specifier} (source : Extent)
    (listed : Specifier.Listed specifiers) : (read.importTail first specifiers source).Closes first := by
  have closed : ∀ attributes, (extentFrom first >>= fun extent =>
      pure (Statement.importing extent specifiers source attributes)).Closes first :=
    fun _ => closes_extentFrom (fun _ => rfl) fun _ => listed
  refine closes_last fun ended => ?_
  split
  · exact closed _
  · refine closes_last fun _ => closes_last fun attributed => ?_
    split
    · exact closes_last fun _ => closes_last fun _ => closes_last fun _ => closes_last fun _ =>
        closes_last fun _ => closes_last fun _ => closed _
    · exact closes_last fun _ => closes_last fun _ => closed _

theorem closes_importDeclaration : (read.importDeclaration first).Closes first := by
  have bare : Specifier.Listed [] := ⟨.tail (.names (by simp)), by simp⟩
  intro origin
  rw [ensures_importDeclaration]
  split
  · exact ensures_of_leads fun source c _ => closes_importTail source bare c
  · refine (gives_importClause _).mono fun specifiers c _ listed => ?_
    exact ensures_of_leads fun source d _ => closes_importTail source listed d

theorem ends_functionDeclaration : (read.functionDeclaration first).Ends first :=
  ends_last fun _ => ends_last fun _ => ends_last fun _ => ends_last fun _ => ends_other _

theorem ends_classDeclaration : (read.classDeclaration first).Ends first :=
  ends_last fun _ => ends_last fun _ => ends_last fun _ => ends_last fun _ => ends_other _

theorem ends_loop : (read.loop first).Ends first := by
  refine ends_last fun _ => ends_last fun _ => ends_last fun _ => ends_last fun counts => ?_
  -- Whatever the head of the loop is, its kind is known once its end is reached.
  have ended : ∀ overItems : Bool, (do
      let overItems ← pure overItems
      return Statement.other (← extentFrom first)
        (if overItems then .forIn else .forLoop) : Scan Statement).Ends first :=
    fun _ => ends_last fun _ => ends_other _
  split
  · exact ends_last fun _ => ended false
  · refine ends_last fun binder => ?_
    split
    · refine ends_last fun _ => ends_last fun _ => ends_last fun _ => ?_
      split
      · exact ended true
      · refine ends_last fun step => ?_
        split
        · exact ends_last fun _ => ended false
        · exact ends_last fun _ => ends_last fun _ => ends_last fun _ => ends_last fun _ =>
            ended false
    · refine ends_last fun piece => ?_
      split
      all_goals
        refine ends_last fun _ => ?_
        dsimp only
        split
        · exact ended true
        · exact ends_last fun _ => ends_last fun _ => ends_last fun _ => ends_last fun _ =>
            ended false

theorem ends_expressionStatement : (read.expressionStatement first).Ends first :=
  ends_last fun _ => ends_last fun _ => ends_other _

variable {origin : Cursor}

theorem passes_expressionStatement
    (expression : ∀ origin mode, (read (.expression mode)).Passes origin) :
    (read.expressionStatement first).Passes origin :=
  passes_bind (passes_sequence expression _) _

theorem ensures_decorators : read.decorators.Ensures origin fun _ c =>
    c = origin ∨ c.Beyond (origin.tokenAfter 0).offset := by
  by_cases found : (origin.tokenAfter 0).lexeme = .mark "@"
  · exact (passes_decorators found).mono fun _ _ _ beyond => .inr beyond
  · simp [decorators, many, manyWithin, acceptMark, ensures_accept, found]

theorem passes_functionDeclaration : (read.functionDeclaration first).Passes origin := by
  rw [Passes, functionDeclaration, ensures_bind, acceptWord, ensures_accept]
  split
  · next found => exact ensures_beyond _ (Cursor.beyond_past_word found)
  · exact passes_bind (passes_expectWord _) _

theorem passes_classDeclaration : (read.classDeclaration first).Passes origin := by
  rw [Passes, classDeclaration, ensures_bind]
  refine ensures_decorators.mono fun _ c _ moved => ?_
  rcases moved with rfl | beyond
  · exact passes_bind (passes_expectWord _) _
  · exact ensures_beyond _ beyond

theorem ensures_binder? : binder?.Ensures origin fun found c =>
    c = origin ∧ ∀ binder ∈ found, (origin.tokenAfter 0).lexeme = .word binder.name := by
  simp only [binder?, ensures_bind, ensures_next]
  split
  · next found => simp [found, Binder.name]
  · next found => simp [found, Binder.name]
  · next found =>
    simp only [ensures_bind, ensures_second]
    split
    · split <;> simp [found, Binder.name]
    all_goals simp [found, Binder.name]
  · simp

theorem passes_declarationFrom {binder : Binder}
    (begun : (origin.tokenAfter 0).lexeme ≠ .finish) :
    (read.declarationFrom first binder).Passes origin := by
  have named : binder.name.length ≠ 0 := by cases binder <;> decide
  exact passes_bind (passes_pass (Cursor.beyond_past_of_lexeme rfl begun named)) _

/-- The readers between which the first tokens of a statement decide. -/
inductive Chosen (read : Readers) (origin : Cursor) : Scan Statement → Prop where
  | other {scan : Scan Statement} (ends : scan.Ends (origin.tokenAfter 0))
      (passes : scan.Passes origin) : Chosen read origin scan
  | importing (found : (origin.tokenAfter 0).lexeme = .word "import") :
      Chosen read origin (read.importDeclaration (origin.tokenAfter 0))
  | declaring (binder : Binder) (found : (origin.tokenAfter 0).lexeme = .word binder.name) :
      Chosen read origin (read.declarationFrom (origin.tokenAfter 0) binder)

theorem Chosen.ensures_read {scan : Scan Statement} (chosen : read.Chosen origin scan) :
    scan.Ensures origin (Statement.Read (origin.tokenAfter 0)) := by
  cases chosen with
  | other ends passes => exact read_of_closes ends.closes passes
  | importing found =>
    exact read_of_closes closes_importDeclaration
      (passes_bind (passes_pass (Cursor.beyond_past_of_lexeme found (by simp) (by omega))) _)
  | declaring binder found =>
    exact read_of_closes (closes_declarationFrom binder) (passes_declarationFrom (by simp [found]))

theorem ensures_wordStatement
    (expression : ∀ origin mode, (read (.expression mode)).Passes origin) {word : String}
    (found : (origin.tokenAfter 0).lexeme = .word word) {post : Statement → Cursor → Prop}
    (each : ∀ scan, read.Chosen origin scan → scan.Ensures origin post) :
    (read.wordStatement (origin.tokenAfter 0) word).Ensures origin post := by
  have expressed := each _ (.other ends_expressionStatement (passes_expressionStatement expression))
  have plain : ∀ (kind : Kind) (tail : Scan Unit), (do
      pass word.length
      tail
      return Statement.other (← extentFrom (origin.tokenAfter 0)) kind :
        Scan Statement).Ensures origin post :=
    fun kind _ => each _ (.other (ends_last fun _ => ends_last fun _ => ends_other kind)
      (passes_bind (passes_pass (Cursor.beyond_past_word found)) _))
  unfold wordStatement
  dsimp only
  split
  · rw [ensures_bind, ensures_second]
    split
    · exact expressed
    · exact expressed
    · exact each _ (.importing found)
  · exact plain _ _
  · exact plain _ _
  · exact each _ (.other ends_loop
      (passes_bind (passes_pass (Cursor.beyond_past_of_lexeme found (by simp) (by omega))) _))
  iterate 10 exact plain _ _
  rw [ensures_bind, ensures_second]
  split
  · exact plain _ _
  · exact expressed

/-- A declaration is read from the token ahead on; without one nothing is read. -/
theorem ensures_declaration? (names : Bool) {post : Option Statement → Cursor → Prop}
    (none : post none origin)
    (each : ∀ scan, read.Chosen origin scan → scan.Ensures origin fun statement c =>
      post (some statement) c) :
    (read.declaration? (origin.tokenAfter 0) names).Ensures origin post := by
  have begun : ∀ scan : Scan Statement, read.Chosen origin scan →
      (scan >>= fun statement => pure (some statement)).Ensures origin post := by
    intro scan chosen
    simp only [ensures_bind, ensures_pure]
    exact each scan chosen
  unfold declaration?
  split
  · exact (ensures_pure _ _).mpr none
  · split
    · exact begun _ (.other ends_functionDeclaration passes_functionDeclaration)
    · split
      · exact begun _ (.other ends_classDeclaration passes_classDeclaration)
      · rw [ensures_bind]
        refine ensures_binder?.mono fun binder c _ holds => ?_
        obtain ⟨rfl, word⟩ := holds
        cases binder with
        | none => exact (ensures_pure _ _).mpr none
        | some binder => exact begun _ (.declaring binder (word binder rfl))

/-- Nothing is read of a statement but an empty one before the reader for it is chosen. -/
theorem ensures_chosen (expression : ∀ origin mode, (read (.expression mode)).Passes origin)
    {post : Statement → Cursor → Prop}
    (empty : (origin.tokenAfter 0).lexeme = .mark ";" → post .empty (origin.past 1))
    (each : ∀ scan, read.Chosen origin scan → scan.Ensures origin post) :
    read.statement.Ensures origin post := by
  unfold statement
  rw [ensures_bind, ensures_ahead]
  split
  · next found =>
    simp only [ensures_bind, ensures_pass, ensures_pure]
    exact empty found
  · exact each _ (.other (ends_last fun _ => ends_other _) (passes_bind
      (passes_bind (passes_expectMark _) _) _))
  · next found =>
    refine each _ (.other (ends_last fun _ => ends_last fun exported => ?_)
      (passes_bind (passes_decorators found) _))
    split
    · exact ends_last fun _ => ends_other _
    · exact ends_classDeclaration
  · rw [ensures_bind]
    refine ensures_declaration? true ?_ fun scan chosen => ?_
    · dsimp only
      split
      · next found => exact ensures_wordStatement expression found each
      · exact each _ (.other ends_expressionStatement (passes_expressionStatement expression))
    · exact (each scan chosen).mono fun _ _ _ holds => (ensures_pure _ _).mpr holds

/-- A statement is read from the token ahead on. -/
theorem ensures_statement (expression : ∀ origin mode, (read (.expression mode)).Passes origin)
    (origin : Cursor) : read.statement.Ensures origin (Statement.Read (origin.tokenAfter 0)) := by
  refine ensures_chosen expression (fun found => ?_) fun _ chosen => chosen.ensures_read
  exact ⟨by simp [Statement.extent?], trivial,
    Cursor.beyond_past_of_lexeme found (by simp) (by omega)⟩

end Readers

open Readers in
theorem ensures_readStatement (depth : Nat) (origin : Cursor) :
    (reader depth .statement).Ensures origin (Statement.Read (origin.tokenAfter 0)) := by
  cases depth with
  | zero => exact Scan.ensures_unexpected _
  | succ depth => exact ensures_statement (passes_readExpression depth) origin

end ImportRedirect.Script
