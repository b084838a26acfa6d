import ImportRedirect.Trace

/-!
The phases of a trace, as its events alone show them. Whatever calls made a trace, each event refers to
the phase that was started last among those open at its time. So a phase ends at most once, and not
before the phases that were started within it.
-/

namespace ImportRedirect.Trace

/-- The trace after one more call. A call is known by what it has to say: that a phase starts, that the
innermost one ends, or an entry. -/
def tell (trace : Trace) : Happening → Trace
  | .phaseStart name detail => trace.start name detail
  | .phaseEnd => trace.finish
  | entry => trace.record entry

def ofCalls (calls : List Happening) : Trace := calls.foldl tell empty

/-- The event at this position starts a phase, which is known by the position. -/
def Starts (events : List Event) (phase : Nat) : Prop :=
  ∃ name detail parent, events[phase]? = some ⟨.phaseStart name detail, parent⟩

def Ends (events : List Event) (position phase : Nat) : Prop :=
  events[position]? = some ⟨.phaseEnd, some phase⟩

/-- Before the event at this position, the phase has started and not ended. -/
structure IsOpen (events : List Event) (position phase : Nat) : Prop where
  earlier : phase < position
  starts : Starts events phase
  goesOn : ∀ before < position, ¬ Ends events before phase

/-- Of the phases that are open, the one that was started last. -/
def IsInnermost (events : List Event) (position phase : Nat) : Prop :=
  IsOpen events position phase ∧ ∀ other, IsOpen events position other → other ≤ phase

/-- An event at this position refers to the innermost phase. If none is open it refers to none, and is
not the end of a phase. -/
def Refers (events : List Event) (position : Nat) (event : Event) : Prop :=
  match event.parent with
  | some phase => IsInnermost events position phase
  | none => (∀ phase, ¬ IsOpen events position phase) ∧ event.happening ≠ .phaseEnd

structure Nested (events : List Event) : Prop where
  refers : ∀ position event, events[position]? = some event → Refers events position event
  once : ∀ first second phase, Ends events first phase → Ends events second phase → first = second
  within : ∀ outer inner stop, Starts events inner → outer < inner → inner < stop →
    Ends events stop outer → ∃ before, inner < before ∧ before < stop ∧ Ends events before inner

section Order

variable {events : List Event} {position phase : Nat}
  (refers : ∀ position event, events[position]? = some event → Refers events position event)

include refers

theorem isInnermost_of_ends (ends : Ends events position phase) :
    IsInnermost events position phase :=
  refers position _ ends

/-- That phases end once and within each other follows from what their ends refer to. -/
theorem nested_of_refers : Nested events := by
  have notLater : ∀ {first second phase}, Ends events first phase → Ends events second phase →
      ¬ first < second := fun one again before =>
    (isInnermost_of_ends refers again).1.goesOn _ before one
  refine ⟨refers, fun first second phase one again => ?_, ?_⟩
  · have := notLater one again
    have := notLater again one
    omega
  · intro outer inner stop starts later before ends
    refine Classical.byContradiction fun goesOn => ?_
    have isOpen : IsOpen events stop inner := by
      refine ⟨before, starts, fun position earlier stops => goesOn ⟨position, ?_, earlier, stops⟩⟩
      exact (isInnermost_of_ends refers stops).1.earlier
    have := (isInnermost_of_ends refers ends).2 inner isOpen
    omega

end Order

section Append

variable {events : List Event} {event : Event} {position phase : Nat}

theorem starts_append (inside : phase < events.length) :
    Starts (events ++ [event]) phase ↔ Starts events phase := by
  rw [Starts, Starts, List.getElem?_append_left inside]

theorem ends_append (inside : position < events.length) :
    Ends (events ++ [event]) position phase ↔ Ends events position phase := by
  rw [Ends, Ends, List.getElem?_append_left inside]

theorem isOpen_append (inside : position ≤ events.length) :
    IsOpen (events ++ [event]) position phase ↔ IsOpen events position phase := by
  constructor
  · rintro ⟨earlier, starts, goesOn⟩
    refine ⟨earlier, (starts_append (by omega)).mp starts, fun before lower ends => ?_⟩
    exact goesOn before lower ((ends_append (by omega)).mpr ends)
  · rintro ⟨earlier, starts, goesOn⟩
    refine ⟨earlier, (starts_append (by omega)).mpr starts, fun before lower ends => ?_⟩
    exact goesOn before lower ((ends_append (by omega)).mp ends)

theorem refers_append (inside : position ≤ events.length) {other : Event} :
    Refers (events ++ [event]) position other ↔ Refers events position other := by
  rw [Refers, Refers]
  cases other.parent <;> simp only [IsInnermost, isOpen_append inside]

/-- The phases that are open after one more event. -/
theorem isOpen_append_last
    (refers : ∀ position event, events[position]? = some event → Refers events position event) :
    IsOpen (events ++ [event]) (events.length + 1) phase ↔
      IsOpen events events.length phase ∧ event ≠ ⟨.phaseEnd, some phase⟩ ∨
      phase = events.length ∧ ∃ name detail parent, event = ⟨.phaseStart name detail, parent⟩ := by
  have last : (events ++ [event])[events.length]? = some event := by simp
  constructor
  · rintro ⟨earlier, starts, goesOn⟩
    rcases Nat.lt_succ_iff_lt_or_eq.mp earlier with inside | rfl
    · refine .inl ⟨⟨inside, (starts_append inside).mp starts, fun before lower ends => ?_⟩, ?_⟩
      · exact goesOn before (by omega) ((ends_append lower).mpr ends)
      · rintro rfl
        exact goesOn events.length (by omega) last
    · obtain ⟨name, detail, parent, found⟩ := starts
      exact .inr ⟨rfl, name, detail, parent, Option.some.inj (last.symm.trans found)⟩
  · rintro (⟨⟨earlier, starts, goesOn⟩, different⟩ | ⟨rfl, name, detail, parent, rfl⟩)
    · refine ⟨by omega, (starts_append earlier).mpr starts, fun before lower ends => ?_⟩
      rcases Nat.lt_succ_iff_lt_or_eq.mp lower with inside | rfl
      · exact goesOn before inside ((ends_append inside).mp ends)
      · exact different (Option.some.inj (last.symm.trans ends))
    · refine ⟨by omega, ⟨name, detail, parent, last⟩, fun before lower ends => ?_⟩
      rcases Nat.lt_succ_iff_lt_or_eq.mp lower with inside | rfl
      · -- No earlier event refers to a phase that had not started.
        have refersAhead := isInnermost_of_ends refers ((ends_append inside).mp ends)
        exact absurd refersAhead.1.earlier (by omega)
      · cases last.symm.trans ends

end Append

/-- The trace lists the phases that its events leave open, the last one first. -/
structure Sound (trace : Trace) : Prop where
  refers : ∀ position event, trace.events[position]? = some event →
    Refers trace.events position event
  opens : ∀ phase, phase ∈ trace.openPhases ↔ IsOpen trace.events trace.events.length phase
  descending : trace.openPhases.Pairwise (· > ·)

namespace Sound

theorem empty : Sound empty where
  refers := by simp [Trace.empty]
  opens phase := by
    simp only [Trace.empty, List.not_mem_nil, List.length_nil, false_iff]
    exact fun isOpen => absurd isOpen.earlier (Nat.not_lt_zero _)
  descending := .nil

variable {trace : Trace} {happening : Happening}

theorem nested (sound : Sound trace) : Nested trace.events := nested_of_refers sound.refers

/-- The first phase in the list is the innermost one. -/
theorem refers_head (sound : Sound trace) (ends : happening = .phaseEnd → trace.openPhases ≠ []) :
    Refers trace.events trace.events.length ⟨happening, trace.openPhases.head?⟩ := by
  have opens := sound.opens
  have descending := sound.descending
  cases known : trace.openPhases with
  | nil =>
    rw [known] at opens
    exact ⟨fun phase isOpen => by simpa using (opens phase).mpr isOpen, fun end? => ends end? known⟩
  | cons first outer =>
    rw [known] at opens descending
    refine ⟨(opens first).mp List.mem_cons_self, fun other isOpen => ?_⟩
    rcases List.mem_cons.mp ((opens other).mpr isOpen) with rfl | further
    · exact Nat.le_refl _
    · exact Nat.le_of_lt (List.rel_of_pairwise_cons descending further)

/-- One more event keeps a trace sound, if the phases listed after it are those it leaves open. -/
theorem append (sound : Sound trace) (ends : happening = .phaseEnd → trace.openPhases ≠ [])
    {left : List Nat} (descending : left.Pairwise (· > ·))
    (opens : ∀ phase, phase ∈ left ↔
      phase ∈ trace.openPhases ∧
        (⟨happening, trace.openPhases.head?⟩ : Event) ≠ ⟨.phaseEnd, some phase⟩ ∨
      phase = trace.events.length ∧ ∃ name detail, happening = .phaseStart name detail) :
    Sound ⟨trace.append happening, left⟩ where
  refers position event found := by
    rw [Trace.append] at found ⊢
    have inside := (List.getElem?_eq_some_iff.mp found).1
    rw [List.length_append, List.length_singleton] at inside
    apply (refers_append (Nat.lt_succ_iff.mp inside)).mpr
    rcases Nat.lt_succ_iff_lt_or_eq.mp inside with earlier | rfl
    · exact sound.refers position event (by rwa [List.getElem?_append_left earlier] at found)
    · obtain rfl : _ = event := by simpa using found
      exact sound.refers_head ends
  opens phase := by
    show phase ∈ left ↔ IsOpen (trace.events ++ [_]) (trace.events ++ [_]).length phase
    rw [List.length_append, List.length_singleton, isOpen_append_last sound.refers,
      ← sound.opens, opens]
    simp
  descending := descending

theorem start (sound : Sound trace) (name detail : String) : Sound (trace.start name detail) := by
  apply sound.append (by simp)
  · refine List.pairwise_cons.mpr ⟨fun phase isOpen => ?_, sound.descending⟩
    exact ((sound.opens phase).mp isOpen).earlier
  · intro phase
    simp [or_comm]

theorem finish (sound : Sound trace) : Sound trace.finish := by
  have descending := sound.descending
  cases known : trace.openPhases with
  | nil => simpa [Trace.finish, known] using sound
  | cons first outer =>
    rw [Trace.finish, known]
    rw [known, List.pairwise_cons] at descending
    refine sound.append (by simp [known]) descending.2 fun phase => ?_
    have apart : phase ∈ outer → phase ≠ first := fun further => by
      have := descending.1 phase further
      omega
    simp only [known, List.head?_cons, List.mem_cons]
    constructor
    · intro further
      have := apart further
      exact .inl ⟨.inr further, by simpa [eq_comm] using this⟩
    · rintro (⟨rfl | further, different⟩ | ⟨_, _, _, impossible⟩)
      · exact absurd rfl different
      · exact further
      · cases impossible

theorem record (sound : Sound trace) (noStart : ∀ name detail, happening ≠ .phaseStart name detail)
    (noEnd : happening ≠ .phaseEnd) : Sound (trace.record happening) := by
  refine sound.append (fun ends => absurd ends noEnd) sound.descending fun phase => ?_
  simp [noStart, noEnd]

theorem tell (sound : Sound trace) (call : Happening) : Sound (trace.tell call) := by
  cases call with
  | phaseStart name detail => exact sound.start name detail
  | phaseEnd => exact sound.finish
  | _ => exact sound.record (by simp) (by simp)

end Sound

theorem sound_ofCalls (calls : List Happening) : Sound (ofCalls calls) := by
  have further : ∀ {trace : Trace}, Sound trace → Sound (calls.foldl tell trace) := by
    induction calls with
    | nil => exact id
    | cons call rest inductionHypothesis => exact fun sound => inductionHypothesis (sound.tell call)
  exact further .empty

/-- One phase goes from the first event to the last. Everything else happens within it, and every phase
ends once. -/
structure Balanced (events : List Event) : Prop where
  nested : Nested events
  root : Starts events 0
  within : ∀ position event, events[position]? = some event → (event.parent = none ↔ position = 0)
  ends : ∀ phase, Starts events phase →
    ∃ position, Ends events position phase ∧ ∀ other, Ends events other phase → other = position
  last : Ends events (events.length - 1) 0

/-- A trace in which only the first phase is left open is balanced when that ends. -/
theorem balanced_finish {trace : Trace} (sound : Sound trace) (outermost : trace.openPhases = [0]) :
    Balanced trace.finish.events := by
  have finished := sound.finish
  have nested := finished.nested
  have events : trace.finish.events = trace.events ++ [⟨.phaseEnd, some 0⟩] := by
    simp [Trace.finish, outermost, Trace.append]
  have noneLeft : trace.finish.openPhases = [] := by simp [Trace.finish, outermost]
  have isOpen := (sound.opens 0).mp (by simp [outermost])
  have last : Ends trace.finish.events trace.events.length 0 := by simp [Ends, events]
  have root : Starts trace.finish.events 0 := by
    rw [events]
    exact (starts_append isOpen.earlier).mpr isOpen.starts
  refine ⟨nested, root, fun position event found => ⟨fun alone => ?_, ?_⟩, fun phase starts => ?_,
    by simpa [events] using last⟩
  · -- Until the last event the root is open, so nothing else stands alone.
    refine Classical.byContradiction fun later => ?_
    have refers := finished.refers position event found
    rw [Refers, alone] at refers
    refine refers.1 0 ⟨by omega, root, fun before earlier ends => ?_⟩
    have inside := (List.getElem?_eq_some_iff.mp found).1
    rw [nested.once _ _ _ ends last] at earlier
    rw [events, List.length_append, List.length_singleton] at inside
    omega
  · rintro rfl
    have refers := finished.refers 0 event found
    rw [Refers] at refers
    cases parent : event.parent with
    | none => rfl
    | some phase =>
      rw [parent] at refers
      exact absurd refers.1.earlier (Nat.not_lt_zero _)
  · have closed : ¬ IsOpen trace.finish.events trace.finish.events.length phase := by
      rw [← finished.opens, noneLeft]
      exact List.not_mem_nil
    obtain ⟨_, _, _, found⟩ := id starts
    have inside := (List.getElem?_eq_some_iff.mp found).1
    refine Classical.byContradiction fun goesOn => closed ⟨inside, starts, fun position _ ends => ?_⟩
    exact goesOn ⟨position, ends, fun other again => nested.once _ _ _ again ends⟩

end ImportRedirect.Trace
