import ImportRedirect.Proofs.Pass.Idempotence
import ImportRedirect.Proofs.Statement.Account

/-!
The pass as a loop over one list that grows while the loop goes through it. Nothing bounds the visits
here: that the loop ends, and after how many of them, follows from a measure that every visit lowers.
-/

namespace ImportRedirect

/-- How far the cursor moves after a visit. -/
def Outcome.distance : Outcome → Nat
  | .advance => 1
  | .reprocess => 0
  | .skipInserted => 2

/-- The pass between two visits: all the statements, the place of the next visit, and what was done. -/
structure Standing where
  body : List Value
  position : Nat
  progress : Progress

/-- The cursor after the statements in `done`, last first, and before those in `todo`. -/
def Standing.between (done todo : List Value) (progress : Progress) : Standing :=
  ⟨done.reverse ++ todo, done.length, progress⟩

/-- The statements with what a visit leaves in the place of the one visited. -/
def Standing.replaced (standing : Standing) (site : Site) : List Value :=
  standing.body.take standing.position ++ site.statements ++
    standing.body.drop (standing.position + 1)

namespace Redirector

open Node

variable (redirector : Redirector)

/-- A visit that completes, from where the pass stands to where it stands after it. -/
inductive Moves (standing : Standing) (node : Value) : Standing → Prop where
  | visit {outcome : Outcome} {site : Site} (here : standing.body[standing.position]? = some node)
      (visited : redirector.visit node = (.ok outcome, site)) :
      Moves standing node ⟨standing.replaced site, standing.position + outcome.distance,
        standing.progress.add site⟩

/-- What a pass visits from where it stands, one after the other, and its end. A visit classifies its
statement, once. -/
inductive Runs : Standing → List Value → Walked → Prop where
  | ended {standing : Standing} (past : standing.body.length ≤ standing.position) :
      Runs standing [] ⟨standing.body, standing.progress, none⟩
  | stopped {standing : Standing} {node : Value} {fault : Fault} {site : Site}
      (here : standing.body[standing.position]? = some node)
      (visited : redirector.visit node = (.error fault, site)) :
      Runs standing [node] ⟨standing.replaced site, standing.progress.add site, some fault⟩
  | moved {standing next : Standing} {node : Value} {visits : List Value} {walked : Walked}
      (moves : redirector.Moves standing node next) (rest : Runs next visits walked) :
      Runs standing (node :: visits) walked

/-- The visits that a statement takes. -/
def visitsOf (node : Value) : Nat :=
  if redirector.classifier.shape? node = some .combinedImport then 3 else 1

/-- The visits that the statements from the cursor on take. -/
def visitsLeft (standing : Standing) : Nat :=
  total redirector.visitsOf (standing.body.drop standing.position)

variable {redirector} {node : Value} {outcome : Outcome} {site : Site} {standing next : Standing}

theorem classify_of_shape? {shape : Shape} (known : redirector.classifier.shape? node = some shape) :
    ∃ c, redirector.classifier.classify node = .ok c ∧ c.shape = shape := by
  rw [Classifier.shape?] at known
  cases classified : redirector.classifier.classify node with
  | error fault => simp [classified, Except.toOption] at known
  | ok c => exact ⟨c, rfl, by simpa [classified, Except.toOption] using known⟩

/-- Only an import of both a default and names is visited again. -/
theorem once_iff : (∀ site, redirector.visit node ≠ (.ok .reprocess, site)) ↔
    redirector.classifier.shape? node ≠ some .combinedImport := by
  constructor
  · intro once known
    obtain ⟨c, classified, shape⟩ := classify_of_shape? known
    have cases := redirector.visited node
    generalize visit : redirector.visit node = result at cases
    cases cases with
    | combined => exact once _ visit
    | failed other | unrecognized other | default _ _ _ _ _ other | named _ _ _ _ _ other
    | requireModule _ _ _ _ _ other =>
      rw [classified] at other
      simp_all
    | @singleImport _ _ _ _ form _ _ _ _ _ _ other
    | @singleRequire _ _ _ _ form _ _ _ _ _ _ other =>
      rw [classified] at other
      cases form <;> simp_all [SingleForm.importShape, SingleForm.requireShape]
  · intro different site again
    cases accounts_of_visit again with
    | halved known => exact different known

theorem names_of_shape? (known : redirector.classifier.shape? node = some .namedImport) :
    ∃ source specifiers, Imports node source specifiers ∧ specifiers ≠ [] ∧
      ∀ specifier ∈ specifiers, specifier.peek "type" = namedSpecifier := by
  obtain ⟨c, classified, shape⟩ := classify_of_shape? known
  have cases := redirector.visited node
  generalize visit : redirector.visit node = result at cases
  cases cases with
  | named imports _ _ nonempty types => exact ⟨_, _, imports, nonempty, types⟩
  | failed other | unrecognized other | default _ _ _ _ _ other | combined _ _ _ _ _ other
  | requireModule _ _ _ _ _ other =>
    rw [classified] at other
    simp_all
  | @singleImport _ _ _ _ form _ _ _ _ _ _ other
  | @singleRequire _ _ _ _ form _ _ _ _ _ _ other =>
    rw [classified] at other
    cases form <;> simp_all [SingleForm.importShape, SingleForm.requireShape]

/-- The second half of an import of both is no import of names. -/
theorem noNames_of_defaults {source : Value} {specifiers : List Value}
    (imports : Imports node source specifiers) :
    redirector.classifier.shape? (node.put "specifiers" (.arr (defaultSpecifiers specifiers))) ≠
      some .namedImport := by
  intro known
  obtain ⟨_, found, namesImports, nonempty, types⟩ := names_of_shape? known
  obtain ⟨rfl, rfl⟩ := (imports.withSome (defaults_subset specifiers)).unique namesImports
  obtain ⟨specifier, membership⟩ := List.exists_mem_of_ne_nil _ nonempty
  have isDefault := (mem_defaults.mp membership).2
  rw [types specifier membership] at isDefault
  simp [namedSpecifier, defaultSpecifier] at isDefault

/-- Where a visit does not come back it moves the cursor past all that it left. Where it does, it left
two statements that are visited once each. -/
theorem passed_or_halved (visited : redirector.visit node = (.ok outcome, site)) :
    (redirector.visitsOf node = 1 ∧ outcome.distance = site.statements.length) ∨
      (redirector.visitsOf node = 3 ∧ outcome = .reprocess ∧
        ∃ others defaults, site.statements = [others, defaults] ∧
          redirector.visitsOf others = 1 ∧ redirector.visitsOf defaults = 1) := by
  cases accounts_of_visit visited with
  | passed known => exact .inl ⟨by simp [visitsOf, known], rfl⟩
  | kept known _ noPair => exact .inl ⟨by simp [visitsOf, known, noPair], rfl⟩
  | warned known _ noPair => exact .inl ⟨by simp [visitsOf, known, noPair], rfl⟩
  | moved known _ noPair => exact .inl ⟨by simp [visitsOf, known, noPair], rfl⟩
  | parted known => exact .inl ⟨by simp [visitsOf, known], rfl⟩
  | halved known specifiers =>
    obtain ⟨others, defaults, halves, othersOnce, defaultsOnce⟩ := redirector.halves_once visited
    refine .inr ⟨by simp [visitsOf, known], rfl, others, defaults, halves, ?_, ?_⟩
    · simp [visitsOf, once_iff.mp othersOnce]
    · simp [visitsOf, once_iff.mp defaultsOnce]

theorem drop_replaced (here : standing.body[standing.position]? = some node) {count : Nat}
    (within : count ≤ site.statements.length) :
    (standing.replaced site).drop (standing.position + count) =
      site.statements.drop count ++ standing.body.drop (standing.position + 1) := by
  obtain ⟨inside, _⟩ := List.getElem?_eq_some_iff.mp here
  have front : (standing.body.take standing.position).length = standing.position :=
    List.length_take_of_le (Nat.le_of_lt inside)
  rw [Standing.replaced, ← List.drop_drop, List.append_assoc, List.drop_left' front,
    List.drop_append_of_le_length within]

theorem drop_position (here : standing.body[standing.position]? = some node) :
    standing.body.drop standing.position = node :: standing.body.drop (standing.position + 1) := by
  obtain ⟨inside, rfl⟩ := List.getElem?_eq_some_iff.mp here
  exact List.drop_eq_getElem_cons inside

/-- Every visit takes one off the visits to come. -/
theorem visitsLeft_of_moves (moves : redirector.Moves standing node next) :
    redirector.visitsLeft standing = redirector.visitsLeft next + 1 := by
  obtain @⟨outcome, site, here, visited⟩ := moves
  rw [visitsLeft, visitsLeft, drop_position here]
  show _ = total _ ((standing.replaced site).drop (standing.position + outcome.distance)) + 1
  rcases passed_or_halved visited with
    ⟨once, passed⟩ | ⟨thrice, rfl, others, defaults, halves, first, second⟩
  · rw [drop_replaced here (Nat.le_of_eq passed), passed, List.drop_length, List.nil_append]
    simp [total, once, Nat.add_comm]
  · show _ = total _ ((standing.replaced site).drop (standing.position + 0)) + 1
    rw [drop_replaced here (Nat.zero_le _), List.drop_zero, halves]
    simp only [total, List.cons_append, List.nil_append, List.foldr_cons, first, second, thrice]
    omega

/-- No pass makes visits for ever, wherever it starts. -/
theorem wellFounded_moves :
    WellFounded fun next standing => ∃ node, redirector.Moves standing node next :=
  Subrelation.wf (fun ⟨_, moves⟩ => Nat.le_of_eq (visitsLeft_of_moves moves).symm)
    (measure redirector.visitsLeft).wf

theorem Moves.unique (moves : redirector.Moves standing node next) {other : Value}
    {after : Standing} (again : redirector.Moves standing other after) :
    other = node ∧ after = next := by
  obtain ⟨here, visited⟩ := moves
  obtain ⟨there, same⟩ := again
  obtain rfl := Option.some.inj (here.symm.trans there)
  cases visited.symm.trans same
  exact ⟨rfl, rfl⟩

/-- A pass has one run from where it stands. -/
theorem Runs.unique {visits others : List Value} {walked other : Walked}
    (runs : redirector.Runs standing visits walked) (again : redirector.Runs standing others other) :
    others = visits ∧ other = walked := by
  have past : ∀ {standing : Standing} {node : Value}, standing.body.length ≤ standing.position →
      standing.body[standing.position]? ≠ some node := by
    intro standing node past here
    obtain ⟨inside, _⟩ := List.getElem?_eq_some_iff.mp here
    omega
  induction runs generalizing others other with
  | ended beyond =>
    cases again with
    | ended => exact ⟨rfl, rfl⟩
    | stopped here => exact absurd here (past beyond)
    | moved moves =>
      obtain ⟨here, _⟩ := moves
      exact absurd here (past beyond)
  | stopped here visited =>
    cases again with
    | ended beyond => exact absurd here (past beyond)
    | stopped there same =>
      obtain rfl := Option.some.inj (here.symm.trans there)
      cases visited.symm.trans same
      exact ⟨rfl, rfl⟩
    | moved moves =>
      obtain ⟨there, same⟩ := moves
      obtain rfl := Option.some.inj (here.symm.trans there)
      cases visited.symm.trans same
  | moved moves _ inductionHypothesis =>
    cases again with
    | ended beyond =>
      obtain ⟨here, _⟩ := moves
      exact absurd here (past beyond)
    | stopped there same =>
      obtain ⟨here, visited⟩ := moves
      obtain rfl := Option.some.inj (here.symm.trans there)
      cases visited.symm.trans same
    | moved others rest =>
      obtain ⟨rfl, rfl⟩ := moves.unique others
      obtain ⟨rfl, rfl⟩ := inductionHypothesis rest
      exact ⟨rfl, rfl⟩

section Walk

variable (done todo : List Value) (progress : Progress)

theorem getElem?_between (node : Value) :
    (Standing.between done (node :: todo) progress).body[
      (Standing.between done (node :: todo) progress).position]? = some node := by
  simp [Standing.between]

theorem replaced_between (node : Value) (site : Site) :
    (Standing.between done (node :: todo) progress).replaced site =
      done.reverse ++ site.statements ++ todo := by
  simp [Standing.replaced, Standing.between, List.drop_append]

theorem visitsLeft_between :
    redirector.visitsLeft (.between done todo progress) = total redirector.visitsOf todo := by
  rw [visitsLeft, Standing.between, List.drop_left' (by simp)]

/-- Between two visits that complete, the walk goes to where the loop stands. -/
theorem walk_moves (visits : Nat) (visited : redirector.visit node = (.ok outcome, site)) :
    ∃ past ahead, redirector.walk (visits + 1) done (node :: todo) progress =
        redirector.walk visits past ahead (progress.add site) ∧
      redirector.Moves (.between done (node :: todo) progress) node
        (.between past ahead (progress.add site)) := by
  have moves := Moves.visit (getElem?_between done todo progress node) visited
  rw [replaced_between] at moves
  have onward : outcome.distance = site.statements.length →
      redirector.Moves (.between done (node :: todo) progress) node
        (.between (site.statements.reverse ++ done) todo (progress.add site)) := by
    intro passed
    rw [passed] at moves
    simpa [Standing.between, Nat.add_comm] using moves
  rw [walk_cons, visited]
  rcases passed_or_halved visited with ⟨_, passed⟩ | ⟨_, rfl, others, defaults, halves, _⟩
  · cases outcome with
    | reprocess =>
      obtain ⟨others, defaults, halves, _⟩ := redirector.halves_once visited
      rw [halves] at passed
      cases passed
    | _ => exact ⟨_, _, rfl, onward passed⟩
  · refine ⟨_, _, rfl, ?_⟩
    simpa [Standing.between, Outcome.distance] using moves

/-- The walk with enough visits is the run from where it stands. Unless a fault stops it, it takes all
the visits that are left. -/
theorem runs_walk (visits : Nat) (enough : total redirector.visitsOf todo ≤ visits) :
    ∃ nodes, redirector.Runs (.between done todo progress) nodes
        (redirector.walk visits done todo progress) ∧
      ((redirector.walk visits done todo progress).fault = none →
        nodes.length = total redirector.visitsOf todo) := by
  induction visits generalizing done todo progress with
  | zero =>
    cases todo with
    | nil => exact ⟨[], by simpa [walk, Standing.between] using Runs.ended (by simp), fun _ => rfl⟩
    | cons node rest =>
      simp only [total, List.foldr_cons, visitsOf] at enough
      split at enough <;> omega
  | succ visits inductionHypothesis =>
    cases todo with
    | nil => exact ⟨[], by simpa [walk, Standing.between] using Runs.ended (by simp), fun _ => rfl⟩
    | cons node rest =>
      rcases visited : redirector.visit node with ⟨fault | outcome, site⟩
      · have stopped := Runs.stopped (getElem?_between done rest progress node) visited
        rw [replaced_between] at stopped
        rw [walk_cons, visited]
        exact ⟨[node], stopped, by simp⟩
      · obtain ⟨past, ahead, walked, moves⟩ := walk_moves done rest progress visits visited
        have left := visitsLeft_of_moves moves
        rw [visitsLeft_between, visitsLeft_between] at left
        obtain ⟨nodes, runs, counted⟩ := inductionHypothesis past ahead (progress.add site) (by omega)
        rw [walked]
        refine ⟨node :: nodes, .moved moves runs, fun faultless => ?_⟩
        rw [List.length_cons, counted faultless, left]

end Walk

theorem total_visitsOf (body : List Value) : total redirector.visitsOf body =
    body.length + 2 * body.countP (redirector.classifier.shape? · = some .combinedImport) := by
  induction body with
  | nil => rfl
  | cons node rest inductionHypothesis =>
    rw [total, List.foldr_cons, ← total, inductionHypothesis, List.length_cons, List.countP_cons,
      visitsOf]
    by_cases pair : redirector.classifier.shape? node = some .combinedImport
    · simp only [pair, if_true, decide_true]
      omega
    · simp only [pair, if_false, decide_false, Bool.false_eq_true]
      omega

theorem total_visitsOf_le (body : List Value) :
    total redirector.visitsOf body ≤ 3 * body.length := by
  have pairs := List.countP_le_length (l := body)
    (p := (redirector.classifier.shape? · = some .combinedImport))
  rw [total_visitsOf]
  omega

/-- A visit leaves one statement more than it makes splits. -/
theorem length_settle (faultless : (redirector.settle node).fault = none) :
    (redirector.settle node).statements.length = 1 + (redirector.settle node).split ∧
      (redirector.settle node).split ≤ 1 := by
  obtain ⟨outcome, site, visited, left⟩ := redirector.visit_of_settle faultless
  rw [left]
  cases accounts_of_visit visited with
  | halved | parted => exact ⟨rfl, Nat.le_refl 1⟩
  | _ => exact ⟨rfl, Nat.zero_le 1⟩

theorem split_settle (once : ∀ site, redirector.visit node ≠ (.ok .reprocess, site))
    (noNames : redirector.classifier.shape? node ≠ some .namedImport)
    (faultless : (redirector.settle node).fault = none) : (redirector.settle node).split = 0 := by
  obtain ⟨outcome, site, visited, left⟩ := redirector.visit_of_settle faultless
  rw [left]
  cases accounts_of_visit visited with
  | halved => exact absurd visited (once _)
  | parted known => exact absurd known noNames
  | _ => rfl

/-- A statement becomes one more than it is split, and it is split twice at most. -/
theorem length_expand (faultless : (redirector.expand node).fault = none) :
    (redirector.expand node).statements.length = 1 + (redirector.expand node).split ∧
      (redirector.expand node).split ≤ 2 := by
  rcases redirector.once_or_again node with once | ⟨site, again⟩
  · rw [redirector.expand_of_ne once] at faultless ⊢
    obtain ⟨counted, few⟩ := length_settle faultless
    exact ⟨counted, by omega⟩
  · obtain ⟨source, specifiers, module, imports, _, _, _, _, rfl⟩ :=
      redirector.combined_of_reprocess again
    obtain ⟨othersFaultless, defaultsFaultless⟩ := redirector.faultless_halves again faultless
    obtain ⟨othersCounted, othersFew⟩ := length_settle othersFaultless
    obtain ⟨defaultsCounted, _⟩ := length_settle defaultsFaultless
    have whole := split_settle (redirector.once_defaults imports) (noNames_of_defaults imports)
      defaultsFaultless
    rw [redirector.expand_of_halves again othersFaultless]
    simp only [Expansion.after, Expansion.append, splitSite, List.length_append]
    omega

theorem length_expandAll {body : List Value} (faultless : (redirector.expandAll body).fault = none) :
    (redirector.expandAll body).statements.length =
      body.length + (redirector.expandAll body).split := by
  induction body with
  | nil => rfl
  | cons node rest inductionHypothesis =>
    have here := (Expansion.ofList_faultless faultless).1 node (by simp)
    rw [expandAll, Expansion.ofList_cons_of_faultless here] at faultless ⊢
    have later := inductionHypothesis faultless
    rw [expandAll] at later
    simp only [Expansion.append, List.length_append, later, (length_expand here).1, List.length_cons]
    omega

/-- Wherever a pass stands, no chain of visits is endless. A pass over a list has one run, and ends as
it is defined to. Unless a fault stops it, an import of both a default and names takes two visits more
than another statement, and every statement becomes one, two or three. -/
theorem run_ends (redirector : Redirector) (body : List Value) (trace : Trace) :
    let start : Standing := ⟨body, 0, .start trace⟩
    let walked := redirector.run body trace
    (WellFounded fun next standing => ∃ node, redirector.Moves standing node next) ∧
    ∃ visits, redirector.Runs start visits walked ∧
      (∀ others other, redirector.Runs start others other → others = visits ∧ other = walked) ∧
      (walked.fault = none →
        visits.length = body.length +
          2 * body.countP (redirector.classifier.shape? · = some .combinedImport) ∧
        walked.body.length = body.length + walked.progress.split ∧
        walked.body = body.flatMap (fun node => (redirector.run [node] trace).body) ∧
        ∀ node ∈ body, (redirector.run [node] trace).body.length ∈ [1, 2, 3]) := by
  intro start walked
  obtain ⟨visits, runs, counted⟩ :=
    runs_walk [] body (.start trace) (3 * body.length) (total_visitsOf_le body)
  refine ⟨wellFounded_moves, visits, runs, fun _ _ again => runs.unique again, fun completes => ?_⟩
  have expanded : walked = _ := redirector.run_eq body trace
  have faultless : (redirector.expandAll body).fault = none := by simpa [expanded] using completes
  obtain ⟨each, statements, _⟩ := Expansion.ofList_faultless faultless
  refine ⟨(counted completes).trans (total_visitsOf body), ?_, ?_, fun node membership => ?_⟩
  · simpa [expanded, Progress.extend, Progress.start] using length_expandAll faultless
  · simpa [expanded, run_singleton, expandAll] using statements
  · obtain ⟨grown, few⟩ := length_expand (each node membership)
    simp only [run_singleton, List.mem_cons, List.not_mem_nil, or_false]
    omega

/-- An import that is split twice takes three visits. -/
theorem run_ends_combinedImport :
    (mapRedirector.run [combinedImport] .empty).fault = none ∧
      ∃ visits, mapRedirector.Runs ⟨[combinedImport], 0, .start .empty⟩ visits
          (mapRedirector.run [combinedImport] .empty) ∧ visits.length = 3 := by
  have completes : (mapRedirector.run [combinedImport] .empty).fault = none := by decide
  obtain ⟨_, visits, runs, _, counts⟩ := run_ends mapRedirector [combinedImport] .empty
  exact ⟨completes, visits, runs, (counts completes).1.trans (by decide)⟩

end Redirector

end ImportRedirect
