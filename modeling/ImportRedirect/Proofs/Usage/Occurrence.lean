import ImportRedirect.Usage

/-!
What the scan for uses of a binding finds. Where the binding stands at the start of a name and a point
and a name follow, it occurs with that name. The scan goes from one occurrence to the next one that
begins where the last one ended or later, so it misses only those that begin inside another.
-/

namespace ImportRedirect

theorem Text.isNameChar_of_isNameStart {c : Char} (start : isNameStart c = true) :
    isNameChar c = true := by
  simp only [isNameStart, Bool.or_eq_true, beq_iff_eq] at start
  rcases start with (letter | rfl) | rfl
  · have small : c.toNat < 128 := by
      have letter : (c.isUpper || c.isLower) = true := letter
      rcases (Bool.or_eq_true _ _).mp letter with upper | lower
      · have most : c.val ≤ 90 := (of_decide_eq_true upper).2
        exact Nat.lt_of_le_of_lt (UInt32.le_iff_toNat_le.mp most) (by decide)
      · have lower : (decide (97 ≤ c.val) && decide (c.val ≤ 122)) = true := lower
        have most : c.val ≤ 122 := of_decide_eq_true ((Bool.and_eq_true _ _).mp lower).2
        exact Nat.lt_of_le_of_lt (UInt32.le_iff_toNat_le.mp most) (by decide)
    simp [isNameChar, isWord_of_isAlphanum small (by simp [Char.isAlphanum, letter])]
  · decide
  · decide

namespace Usage

open Text

variable {binding text member other : List Char} {position cursor : Nat}

/-- No name goes on at this position. -/
def AtBoundary (text : List Char) (position : Nat) : Prop :=
  (text.take position).getLast?.any isNameChar = false

/-- The characters are all of a name that begins a text, and it is one that can be accessed. -/
structure Leads (member text : List Char) : Prop where
  start : member.head?.any isNameStart = true
  whole : text.takeWhile isNameChar = member

/-- The binding stands at this position, which begins a name, and the member is accessed of it. -/
structure Occurs (binding text : List Char) (position : Nat) (member : List Char) : Prop where
  boundary : AtBoundary text position
  stands : ∃ after, text.drop position = binding ++ '.' :: after ∧ Leads member after

/-- The binding stands right before this position, at the start of a name and with a point after it.
-/
def Chained (binding text : List Char) (position : Nat) : Prop :=
  ∃ before, AtBoundary text before ∧ before + (binding.length + 1) = position ∧
    binding ++ ['.'] <+: text.drop before

theorem after?_eq_some_iff {front after : List Char} :
    after? front text = some after ↔ text = front ++ after := by
  induction front generalizing text with
  | nil => simp [after?, eq_comm]
  | cons a front inductionHypothesis =>
    cases text with
    | nil => simp [after?]
    | cons b text =>
      by_cases same : a = b
      · simp [after?, same, inductionHypothesis]
      · simp [after?, same, Ne.symm same]

theorem leads_cons_iff {c : Char} {rest : List Char} :
    Leads member (c :: rest) ↔
      isNameStart c = true ∧ member = c :: rest.takeWhile isNameChar := by
  constructor
  · rintro ⟨start, rfl⟩
    by_cases part : isNameChar c = true
    · simp_all
    · simp [List.takeWhile_cons_of_neg part] at start
  · rintro ⟨start, rfl⟩
    exact ⟨by simpa using start, by simp [isNameChar_of_isNameStart start]⟩

/-- What is read at a position is the occurrence there. -/
theorem memberAt?_eq_some_iff :
    memberAt? binding (text.take position).getLast? (text.drop position) = some member ↔
      Occurs binding text position member := by
  rw [memberAt?]
  split
  · next inside =>
    refine ⟨by simp, fun occurs => ?_⟩
    have boundary := occurs.boundary
    simp [AtBoundary, inside] at boundary
  · next boundary =>
    have boundary : AtBoundary text position := (Bool.not_eq_true _).mp boundary
    split
    · next c rest found =>
      have stands := after?_eq_some_iff.mp found
      rw [List.append_assoc] at stands
      constructor
      · intro read
        split at read
        · next start =>
          exact ⟨boundary, c :: rest, stands, leads_cons_iff.mpr ⟨start, (Option.some.inj read).symm⟩⟩
        · simp at read
      · rintro ⟨_, after, again, leads⟩
        obtain rfl : c :: rest = after := by simpa [stands] using again
        obtain ⟨start, rfl⟩ := leads_cons_iff.mp leads
        rw [if_pos start]
    · next missing =>
      refine ⟨by simp, ?_⟩
      rintro ⟨_, after, stands, leads⟩
      cases after with
      | nil =>
        have start := leads.start
        simp [← leads.whole] at start
      | cons c rest => exact absurd (after?_eq_some_iff.mpr (by simp [stands])) (missing c rest)

theorem Leads.isNameChar (leads : Leads member text) : ∀ c ∈ member, isNameChar c = true := by
  rw [← leads.whole]
  exact List.all_eq_true.mp List.all_takeWhile

/-- There is one way to read an occurrence. -/
theorem Occurs.unique (occurs : Occurs binding text position member)
    (again : Occurs binding text position other) : member = other := by
  rw [← memberAt?_eq_some_iff] at occurs again
  exact Option.some.inj (occurs.symm.trans again)

theorem Occurs.lt_length (occurs : Occurs binding text position member) :
    position < text.length := by
  obtain ⟨after, stands, _⟩ := occurs.stands
  have length := congrArg List.length stands
  simp only [List.length_drop, List.length_append, List.length_cons] at length
  omega

theorem drop_eq_cons {c : Char} {rest : List Char} (here : text.drop cursor = c :: rest) :
    rest = text.drop (cursor + 1) ∧ (text.take (cursor + 1)).getLast? = some c := by
  have inside : text[cursor]? = some c := by
    rw [← List.head?_drop, here, List.head?_cons]
  constructor
  · rw [← List.tail_drop, here, List.tail_cons]
  · rw [List.getLast?_take]
    simp [inside]

/-- The members found from a position on. -/
def membersAt (binding text : List Char) (cursor : Nat) : List (List Char) :=
  membersFrom binding (text.take cursor).getLast? 0 (text.drop cursor)

theorem membersFrom_skip (skip : Nat) :
    membersFrom binding (text.take cursor).getLast? skip (text.drop cursor) =
      membersAt binding text (cursor + skip) := by
  induction skip generalizing cursor with
  | zero => rfl
  | succ skip inductionHypothesis =>
    cases here : text.drop cursor with
    | nil =>
      have beyond : text.drop (cursor + (skip + 1)) = [] := by
        rw [← List.drop_drop, here, List.drop_nil]
      rw [membersAt, beyond, membersFrom, membersFrom]
    | cons c rest =>
      obtain ⟨rfl, last⟩ := drop_eq_cons here
      rw [membersFrom, ← last, inductionHypothesis, Nat.add_assoc, Nat.add_comm 1 skip]

/-- An occurrence is found and passed as a whole. -/
theorem membersAt_of_occurs (occurs : Occurs binding text cursor member) :
    membersAt binding text cursor =
      member :: membersAt binding text (cursor + (binding.length + 1 + member.length)) := by
  have inside := occurs.lt_length
  have read := memberAt?_eq_some_iff.mpr occurs
  rw [membersAt]
  cases here : text.drop cursor with
  | nil =>
    rw [List.drop_eq_nil_iff] at here
    omega
  | cons c rest =>
    obtain ⟨rfl, last⟩ := drop_eq_cons here
    rw [here] at read
    rw [membersFrom, read, ← last]
    simp only [membersFrom_skip, List.cons.injEq, true_and]
    congr 1
    omega

/-- A position without an occurrence is passed. -/
theorem membersAt_succ (inside : cursor < text.length)
    (none : ∀ member, ¬ Occurs binding text cursor member) :
    membersAt binding text cursor = membersAt binding text (cursor + 1) := by
  have unread : memberAt? binding (text.take cursor).getLast? (text.drop cursor) = .none := by
    cases read : memberAt? binding (text.take cursor).getLast? (text.drop cursor) with
    | none => rfl
    | some member => exact absurd (memberAt?_eq_some_iff.mp read) (none member)
  rw [membersAt]
  cases here : text.drop cursor with
  | nil =>
    rw [List.drop_eq_nil_iff] at here
    omega
  | cons c rest =>
    obtain ⟨rfl, last⟩ := drop_eq_cons here
    rw [here] at unread
    rw [membersFrom, unread, ← last]
    rfl

theorem membersAt_end (outside : text.length ≤ cursor) : membersAt binding text cursor = [] := by
  rw [membersAt, List.drop_eq_nil_of_le outside, membersFrom]

/-- The scan from a position ends, goes on after what occurs there, or goes on with the next one. -/
theorem scan_induction (binding text : List Char) {motive : Nat → Prop}
    (ended : ∀ cursor, text.length ≤ cursor → motive cursor)
    (found : ∀ cursor member, Occurs binding text cursor member →
      motive (cursor + (binding.length + 1 + member.length)) → motive cursor)
    (passed : ∀ cursor, cursor < text.length → (∀ member, ¬ Occurs binding text cursor member) →
      motive (cursor + 1) → motive cursor) (cursor : Nat) : motive cursor := by
  induction remaining : text.length - cursor using Nat.strongRecOn generalizing cursor with
  | ind fewer inductionHypothesis =>
    subst remaining
    rcases Nat.lt_or_ge cursor text.length with inside | outside
    · by_cases occurs : ∃ member, Occurs binding text cursor member
      · obtain ⟨member, occurs⟩ := occurs
        exact found cursor member occurs (inductionHypothesis _ (by omega) _ rfl)
      · exact passed cursor inside (not_exists.mp occurs) (inductionHypothesis _ (by omega) _ rfl)
    · exact ended cursor outside

/-- What is found occurs. -/
theorem occurs_of_mem (found : member ∈ membersAt binding text cursor) :
    ∃ position, Occurs binding text position member := by
  induction cursor using scan_induction binding text with
  | ended cursor outside => simp [membersAt_end outside] at found
  | found cursor first occurs inductionHypothesis =>
    rw [membersAt_of_occurs occurs] at found
    rcases List.mem_cons.mp found with rfl | later
    · exact ⟨cursor, occurs⟩
    · exact inductionHypothesis later
  | passed cursor inside none inductionHypothesis =>
    rw [membersAt_succ inside none] at found
    exact inductionHypothesis found

/-- Where something occurs, something is found. -/
theorem membersAt_ne_nil (occurs : Occurs binding text position member) (ahead : cursor ≤ position) :
    membersAt binding text cursor ≠ [] := by
  induction cursor using scan_induction binding text with
  | ended cursor outside =>
    have beyond := occurs.lt_length
    omega
  | found cursor first here _ => simp [membersAt_of_occurs here]
  | passed cursor inside none inductionHypothesis =>
    have later : cursor ≠ position := by
      rintro rfl
      exact none member occurs
    rw [membersAt_succ inside none]
    exact inductionHypothesis (by omega)

section Names

variable (name : ∀ c ∈ binding, isNameChar c = true)
include name

/-- A binding that is a name occurs inside another occurrence only right after its point. -/
theorem chained_of_inside (here : Occurs binding text cursor other)
    (occurs : Occurs binding text position member) (later : cursor < position)
    (inside : position < cursor + (binding.length + 1 + other.length)) :
    Chained binding text position := by
  obtain ⟨after, stands, leads⟩ := here.stands
  obtain ⟨before, rfl⟩ : ∃ before, position = cursor + before + 1 :=
    ⟨position - cursor - 1, by omega⟩
  -- The character before an occurrence belongs to no name, so it is the point.
  have boundary := occurs.boundary
  obtain ⟨tail, split⟩ : ∃ tail, after = other ++ tail :=
    ⟨_, (leads.whole ▸ List.takeWhile_append_dropWhile).symm⟩
  have last : (text.take (cursor + before + 1)).getLast? =
      (binding ++ '.' :: (other ++ tail))[before]? := by
    have within := occurs.lt_length
    rw [List.getLast?_take, ← split, ← stands, List.getElem?_drop]
    simp [List.getElem?_eq_getElem (show cursor + before < text.length by omega)]
  rw [AtBoundary, last] at boundary
  rcases Nat.lt_trichotomy before binding.length with short | rfl | long
  · rw [List.getElem?_append_left short, List.getElem?_eq_getElem short, Option.any_some,
      name _ (List.getElem_mem short)] at boundary
    simp at boundary
  · refine ⟨cursor, here.boundary, by omega, after, ?_⟩
    rw [stands, List.append_assoc]
    rfl
  · obtain ⟨index, rfl⟩ : ∃ index, before = binding.length + (index + 1) :=
      ⟨before - binding.length - 1, by omega⟩
    have short : index < other.length := by omega
    rw [List.getElem?_append_right (by omega), Nat.add_sub_cancel_left, List.getElem?_cons_succ,
      List.getElem?_append_left short, List.getElem?_eq_getElem short, Option.any_some,
      leads.isNameChar _ (List.getElem_mem short)] at boundary
    simp at boundary

/-- All other occurrences are found. -/
theorem mem_membersAt (occurs : Occurs binding text position member)
    (free : ¬ Chained binding text position) (ahead : cursor ≤ position) :
    member ∈ membersAt binding text cursor := by
  induction cursor using scan_induction binding text with
  | ended cursor outside =>
    have beyond := occurs.lt_length
    omega
  | found cursor first here inductionHypothesis =>
    rw [membersAt_of_occurs here]
    rcases Nat.eq_or_lt_of_le ahead with rfl | later
    · rw [here.unique occurs]
      exact List.mem_cons_self
    · refine List.mem_cons_of_mem _ (inductionHypothesis ?_)
      exact Nat.le_of_not_lt fun inside => free (chained_of_inside name here occurs later inside)
  | passed cursor inside none inductionHypothesis =>
    have later : cursor ≠ position := by
      rintro rfl
      exact none member occurs
    rw [membersAt_succ inside none]
    exact inductionHypothesis (by omega)

end Names

theorem members_eq (text binding : String) :
    members text binding = (membersAt binding.toList text.toList 0).map String.ofList := rfl

/-- What the scan of a text for a binding tells. It tells nothing when the binding does not occur, and
otherwise names, each of which is one that the binding occurs with. The names that a binding made of
name characters occurs with are all told, except where the occurrence stands right after another use
of the binding as a name. -/
theorem scan_occurrences (text binding : String) (given : binding ≠ "") :
    ∃ found, scan text (.str binding) = .ok found ∧
      (found = none ↔ ∀ position member, ¬ Occurs binding.toList text.toList position member) ∧
      found ≠ some [] ∧
      (∀ names, found = some names → ∀ name ∈ names,
        ∃ position, Occurs binding.toList text.toList position name.toList) ∧
      ((∀ c ∈ binding.toList, isNameChar c = true) → ∀ position name,
        Occurs binding.toList text.toList position name.toList →
        ¬ Chained binding.toList text.toList position →
        ∃ names, found = some names ∧ name ∈ names) := by
  have present : (Value.str binding).isPresent = true := by simpa [Value.isPresent] using given
  cases found : members text binding with
  | nil =>
    have nothing : membersAt binding.toList text.toList 0 = [] := by
      simpa [members_eq] using found
    refine ⟨none, by simp [scan, present, found], ?_, by simp, by simp, ?_⟩
    · refine ⟨fun _ position member occurs => ?_, fun _ => rfl⟩
      exact membersAt_ne_nil occurs (Nat.zero_le _) nothing
    · intro _ position name occurs _
      exact absurd nothing (membersAt_ne_nil occurs (Nat.zero_le _))
  | cons first rest =>
    have listed : ∀ {name : String},
        name ∈ first :: rest ↔ name.toList ∈ membersAt binding.toList text.toList 0 := by
      intro name
      rw [← found, members_eq, List.mem_map]
      constructor
      · rintro ⟨member, membership, rfl⟩
        simpa using membership
      · intro membership
        exact ⟨name.toList, membership, String.ofList_toList⟩
    have occurs : ∀ name ∈ first :: rest,
        ∃ position, Occurs binding.toList text.toList position name.toList :=
      fun name membership => occurs_of_mem (listed.mp membership)
    refine ⟨some (first :: rest), by simp [scan, present, found], ?_, by simp, ?_, ?_⟩
    · refine ⟨by simp, fun never => ?_⟩
      obtain ⟨position, here⟩ := occurs first List.mem_cons_self
      exact absurd here (never position _)
    · intro names same
      obtain rfl := Option.some.inj same
      exact occurs
    · intro name position member here free
      exact ⟨_, rfl, listed.mpr (mem_membersAt name here free (Nat.zero_le _))⟩

/-- A chain of uses: the second one stands right after the first, and only its name is not told. -/
theorem scan_occurrences_chain :
    let binding := "lodash"
    let text := "lodash.lodash.map(x.lodash.omit)"
    binding ≠ "" ∧ (∀ c ∈ binding.toList, isNameChar c = true) ∧
      Occurs binding.toList text.toList 7 "map".toList ∧ Chained binding.toList text.toList 7 ∧
      Occurs binding.toList text.toList 20 "omit".toList ∧
      ¬ Chained binding.toList text.toList 20 ∧
      ∃ names, scan text (.str binding) = .ok (some names) ∧ names ≠ [] ∧ "omit" ∈ names ∧
        "map" ∉ names := by
  intro binding text
  have given : binding ≠ "" := by decide
  have name : ∀ c ∈ binding.toList, isNameChar c = true :=
    List.all_eq_true.mp (by decide)
  have second : Occurs binding.toList text.toList 7 "map".toList :=
    memberAt?_eq_some_iff.mp (by decide)
  have third : Occurs binding.toList text.toList 20 "omit".toList :=
    memberAt?_eq_some_iff.mp (by decide)
  have chained : Chained binding.toList text.toList 7 := ⟨0, rfl, by decide, by decide⟩
  have free : ¬ Chained binding.toList text.toList 20 := by
    rintro ⟨before, _, place, stands⟩
    obtain rfl : before = 13 := by simpa [binding] using place
    exact absurd stands (by decide)
  obtain ⟨found, scanned, _, nonempty, _, told⟩ := scan_occurrences text binding given
  obtain ⟨names, rfl, omitted⟩ := told name 20 "omit" third free
  refine ⟨given, name, second, chained, third, free, names, scanned, ?_, omitted, ?_⟩
  · rintro rfl
    exact nonempty rfl
  · have found : members text binding = ["lodash", "omit"] := by decide +kernel
    obtain rfl : ["lodash", "omit"] = names := by
      simpa [scan, found, Value.isPresent, given] using scanned
    decide

end Usage

end ImportRedirect
