import ImportRedirect.Proofs.Script.Alone
import ImportRedirect.Proofs.Script.Border
import ImportRedirect.Proofs.Script.Parting.Length

/-!
Readers on both sides of a border. One follows the other when it reads the same and stops at the same
place, provided that the other stops before the border. The rules take readers apart step by step.
-/

namespace ImportRedirect.Script

namespace Scan

variable {α β : Type} {c d : Cursor}

/-- The reader gives this result and leaves the cursor there. -/
def Reads (scan : Scan α) (c : Cursor) (a : α) (d : Cursor) : Prop :=
  ∃ leads, scan c = .ok ⟨(a, d), leads⟩

theorem Reads.leads {scan : Scan α} {a : α} (reads : scan.Reads c a d) : c.Leads d := reads.1

theorem Reads.ensured {scan : Scan α} {a : α} {post : α → Cursor → Prop}
    (reads : scan.Reads c a d) (ensures : scan.Ensures c post) : post a d := by
  obtain ⟨_, succeeds⟩ := reads
  exact ensures _ succeeds

@[simp] theorem reads_pure {a b : α} : (pure a : Scan α).Reads c b d ↔ b = a ∧ d = c := by
  constructor
  · rintro ⟨_, succeeds⟩
    have same := congrArg Subtype.val (Except.ok.inj succeeds)
    exact ⟨(Prod.mk.inj same).1.symm, (Prod.mk.inj same).2.symm⟩
  · rintro ⟨rfl, rfl⟩
    exact ⟨.refl, rfl⟩

theorem reads_bind {first : Scan α} {next : α → Scan β} {b : β} :
    (first >>= next).Reads c b d ↔ ∃ a m, first.Reads c a m ∧ (next a).Reads m b d := by
  constructor
  · rintro ⟨leads, succeeds⟩
    cases firstResult : first c with
    | error offset =>
      rw [bind_of_error firstResult] at succeeds
      cases succeeds
    | ok middle =>
      obtain ⟨⟨a, m⟩, front⟩ := middle
      cases nextResult : next a m with
      | error offset =>
        rw [bind_of_later_error firstResult nextResult] at succeeds
        cases succeeds
      | ok last =>
        rw [bind_of_ok firstResult nextResult] at succeeds
        have same := congrArg Subtype.val (Except.ok.inj succeeds)
        obtain ⟨outcome, back⟩ := last
        subst same
        exact ⟨a, m, ⟨front, firstResult⟩, back, nextResult⟩
  · rintro ⟨a, m, ⟨front, firstResult⟩, back, nextResult⟩
    exact ⟨front.trans back, bind_of_ok firstResult nextResult⟩

@[simp] theorem reads_cursor {a : Cursor} : cursor.Reads c a d ↔ a = c ∧ d = c := reads_pure

@[simp] theorem reads_advance {count : Nat} {a : Unit} :
    (advance count).Reads c a d ↔ d = c.drop count := by
  constructor
  · rintro ⟨_, succeeds⟩
    have same := congrArg Subtype.val (Except.ok.inj succeeds)
    exact (Prod.mk.inj same).2.symm
  · rintro rfl
    exact ⟨c.leads_drop count, rfl⟩

@[simp] theorem reads_settle {a : Unit} : settle.Reads c a d ↔ d = c.settle := by
  constructor
  · rintro ⟨_, succeeds⟩
    have same := congrArg Subtype.val (Except.ok.inj succeeds)
    exact (Prod.mk.inj same).2.symm
  · rintro rfl
    exact ⟨c.leads_settle, rfl⟩

@[simp] theorem reads_failAt {offset : Nat} {a : α} : ¬(failAt offset : Scan α).Reads c a d := by
  rintro ⟨_, succeeds⟩
  cases succeeds

@[simp] theorem reads_ahead {a : Cursor} : ahead.Reads c a d ↔ a = c.tokenAfter 0 ∧ d = c := by
  simp [ahead, reads_bind, and_comm]

@[simp] theorem reads_next {a : Lexeme} :
    next.Reads c a d ↔ a = (c.tokenAfter 0).lexeme ∧ d = c := by
  simp [next, reads_bind, and_comm]

@[simp] theorem reads_second {a : Lexeme} : second.Reads c a d ↔
    a = ((c.tokenAfter 0).tokenAfter (c.tokenAfter 0).lexeme.length).lexeme ∧ d = c := by
  simp [second, reads_bind, and_comm]

@[simp] theorem reads_pass {count : Nat} {a : Unit} :
    (pass count).Reads c a d ↔ d = c.past count := by
  simp [pass, reads_bind, Cursor.past]

@[simp] theorem reads_unexpected {a : α} : ¬(unexpected : Scan α).Reads c a d := by
  simp [unexpected, reads_bind]

@[simp] theorem reads_require {condition : Bool} {a : Unit} :
    (require condition).Reads c a d ↔ condition = true ∧ d = c := by
  cases condition <;> simp [require]

@[simp] theorem reads_extentFrom {first : Cursor} {a : Extent} :
    (extentFrom first).Reads c a d ↔ a = ⟨first.offset, first.rest, c.reached⟩ ∧ d = c := by
  simp [extentFrom, reads_bind, and_comm]

@[simp] theorem reads_sees {lexeme : Lexeme} {a : Bool} :
    (sees lexeme).Reads c a d ↔ a = ((c.tokenAfter 0).lexeme == lexeme) ∧ d = c := by
  simp [sees, reads_bind, and_comm]

theorem reads_accept {lexeme : Lexeme} {a : Bool} : (accept lexeme).Reads c a d ↔
    if (c.tokenAfter 0).lexeme = lexeme then a = true ∧ d = c.past lexeme.length
    else a = false ∧ d = c := by
  by_cases found : (c.tokenAfter 0).lexeme = lexeme <;> simp [accept, reads_bind, found]

theorem reads_expectMark {mark : String} {a : Unit} : (expectMark mark).Reads c a d ↔
    (c.tokenAfter 0).lexeme = .mark mark ∧ d = c.past mark.length := by
  by_cases found : (c.tokenAfter 0).lexeme = .mark mark <;>
    simp [expectMark, expect, reads_bind, reads_accept, found, Lexeme.length]

end Scan

/-- The token after the next one. -/
def Cursor.second (c : Cursor) : Lexeme :=
  ((c.tokenAfter 0).tokenAfter (c.tokenAfter 0).lexeme.length).lexeme

namespace Cursor

theorem lexeme_tokenAfter (c : Cursor) :
    (c.tokenAfter 0).lexeme = Lexeme.first (tokenText c.rest) := by
  rw [lexeme, rest_tokenAfter]

theorem second_eq (c : Cursor) : c.second = Lexeme.first (tokenText ((tokenText c.rest).drop
    (Lexeme.first (tokenText c.rest)).length)) := by
  rw [second, tokenAfter, lexeme, rest_drop, rest_drop, lexeme, rest_tokenAfter]
  rfl

/-- When the next token was passed, the second one is next. -/
theorem lexeme_past (c : Cursor) :
    ((c.past (c.tokenAfter 0).lexeme.length).tokenAfter 0).lexeme = c.second := by
  rw [lexeme_tokenAfter, rest_past, second_eq, lexeme_tokenAfter]

end Cursor

theorem Cursor.Leads.length_le {c d : Cursor} (leads : c.Leads d) : d.rest.length ≤ c.rest.length := by
  obtain ⟨passed, characters, _⟩ := leads.passed
  rw [characters, List.length_append]
  exact Nat.le_add_left _ _

theorem Cursor.Leads.length_lt {c d : Cursor} (leads : c.Leads d) (further : c.offset < d.offset) :
    d.rest.length < c.rest.length := by
  obtain ⟨passed, characters, bytes⟩ := leads.passed
  cases passed with
  | nil =>
    rw [byteLength_nil] at bytes
    omega
  | cons first passed =>
    rw [characters, List.length_append, List.length_cons]
    omega

namespace Scan

variable {α β : Type} {c : Cursor}

/-- The reader leaves less than it found. -/
def Consumes (scan : Scan α) (c : Cursor) : Prop :=
  scan.Ensures c fun _ d => d.rest.length < c.rest.length

/-- The reader leaves less than it found, or says that there is nothing more to come. -/
def Advances (scan : Scan (Option α)) (c : Cursor) : Prop :=
  scan.Ensures c fun result d => result.isSome = true → d.rest.length < c.rest.length

theorem Passes.consumes {scan : Scan α} (passes : scan.Passes c) : scan.Consumes c := by
  refine Ensures.mono passes fun _ d leads beyond => leads.length_lt ?_
  have token := (c.leads_tokenAfter 0).offset_le
  have further := beyond.passed
  have settled := beyond.settled
  omega

theorem Consumes.bind {first : Scan α} (consumes : first.Consumes c) (next : α → Scan β) :
    (first >>= next).Consumes c := by
  rw [Consumes, ensures_bind]
  refine Ensures.mono consumes fun a m _ shorter => ?_
  exact ensures_of_leads fun _ d leads => Nat.lt_of_le_of_lt leads.length_le shorter

theorem Consumes.advances {first : Scan α} (consumes : first.Consumes c)
    (next : α → Scan (Option β)) : (first >>= next).Advances c :=
  Ensures.mono (consumes.bind next) fun _ _ _ shorter _ => shorter

theorem Passes.advances {scan : Scan (Option α)} (passes : scan.Passes c) : scan.Advances c :=
  Ensures.mono passes.consumes fun _ _ _ shorter _ => shorter

theorem advances_none : (pure none : Scan (Option α)).Advances c := by
  simp [Advances]

theorem advances_bind {first : Scan α} {next : α → Scan (Option β)}
    (advances : ∀ a m, c.Leads m → (next a).Advances m) : (first >>= next).Advances c := by
  rw [Advances, ensures_bind]
  refine ensures_of_leads fun a m leads => ?_
  refine Ensures.mono (advances a m leads) fun _ _ _ shorter more => ?_
  exact Nat.lt_of_lt_of_le (shorter more) leads.length_le

theorem advances_next {next : Lexeme → Scan (Option β)}
    (advances : (next (c.tokenAfter 0).lexeme).Advances c) : (Scan.next >>= next).Advances c := by
  rw [Advances, ensures_bind, ensures_next]
  exact advances

theorem consumes_pass {count : Nat} (finish : (c.tokenAfter 0).lexeme ≠ .finish) (some : count ≠ 0) :
    (pass count).Consumes c :=
  (passes_pass (Cursor.beyond_past some (Cursor.rest_ne_nil finish))).consumes

/-- When nothing is passed at first, what is read next passes the token. -/
theorem passes_bind_after {first : Scan α} {next : α → Scan β}
    (stays : first.Ensures c fun _ d => d = c ∨ d.Beyond (c.tokenAfter 0).offset)
    (passes : ∀ a, (next a).Passes c) : (first >>= next).Passes c := by
  rw [Passes, ensures_bind]
  refine Ensures.mono stays fun a d _ moved => ?_
  rcases moved with rfl | beyond
  · exact passes a
  · exact ensures_beyond _ beyond

theorem passes_passWord {word : String} (found : (c.tokenAfter 0).lexeme = .word word) :
    (pass word.length).Passes c := passes_pass (Cursor.beyond_past_word found)

theorem passes_passMark {mark : String} (found : (c.tokenAfter 0).lexeme = .mark mark) :
    (pass mark.length).Passes c := passes_pass (Cursor.beyond_past_mark found)

theorem passes_property : property.Passes c := by
  refine passes_ahead ?_
  split
  · next found => exact passes_bind (passes_passWord found) _
  · next found =>
    exact passes_bind (passes_pass (Cursor.beyond_past_length found (by simp) (by simp) (by simp))) _
  · exact passes_unexpected

/-- After a name the token that was second is next. -/
theorem lexeme_of_name {a : Extent} {d : Cursor} (reads : name.Reads c a d) :
    (d.tokenAfter 0).lexeme = c.second := by
  obtain ⟨first, m, here, reads⟩ := reads_bind.mp reads
  obtain ⟨rfl, rfl⟩ := reads_ahead.mp here
  split at reads
  · next word found =>
    obtain ⟨_, n, required, reads⟩ := reads_bind.mp reads
    obtain ⟨_, rfl⟩ := reads_require.mp required
    obtain ⟨_, o, passed, reads⟩ := reads_bind.mp reads
    obtain rfl := reads_pass.mp passed
    obtain ⟨_, rfl⟩ := reads_extentFrom.mp reads
    rw [← Cursor.lexeme_past, found]
    rfl
  · exact absurd reads reads_unexpected

theorem passes_acceptMark {mark : String} {next : Bool → Scan β} (refused : (next false).Passes c) :
    (acceptMark mark >>= next).Passes c := by
  rw [Passes, ensures_bind, acceptMark, ensures_accept]
  split
  · next found => exact ensures_beyond _ (Cursor.beyond_past_mark found)
  · exact refused

theorem passes_acceptWord {word : String} {next : Bool → Scan β} (refused : (next false).Passes c) :
    (acceptWord word >>= next).Passes c := by
  rw [Passes, ensures_bind, acceptWord, ensures_accept]
  split
  · next found => exact ensures_beyond _ (Cursor.beyond_past_word found)
  · exact refused

theorem advances_acceptMark {mark : String} {next : Bool → Scan (Option β)}
    (refused : (next false).Advances c) : (acceptMark mark >>= next).Advances c := by
  rw [Advances, ensures_bind, acceptMark, ensures_accept]
  split
  · next found =>
    have passes : (pass mark.length).Passes c := passes_pass (Cursor.beyond_past_mark found)
    have consumed := passes.consumes
    rw [Consumes, ensures_pass] at consumed
    exact ensures_of_leads fun _ d leads _ => Nat.lt_of_le_of_lt leads.length_le consumed
  · exact refused

theorem advances_itemBefore {closing : String} {item : Scan α} (consumes : item.Consumes c) :
    (itemBefore closing item).Advances c :=
  advances_acceptMark (consumes.advances _)

theorem advances_itemOrGapBefore {closing : String} {item : Scan α} (consumes : item.Consumes c) :
    (itemOrGapBefore closing item).Advances c :=
  advances_acceptMark (advances_acceptMark (consumes.advances _))

end Scan

section Bytes

theorem takeBytes_append {n : Nat} {front : List Char} (within : n ≤ byteLength front)
    (rest : List Char) : takeBytes n (front ++ rest) = takeBytes n front := by
  induction front generalizing n with
  | nil =>
    obtain rfl : n = 0 := by simpa using within
    cases rest <;> rfl
  | cons c front inductionHypothesis =>
    cases n with
    | zero => rfl
    | succ n =>
      rw [byteLength_cons] at within
      rw [List.cons_append, takeBytes, takeBytes, inductionHypothesis (by omega)]

theorem length_le_byteLength (text : List Char) : text.length ≤ byteLength text := by
  induction text with
  | nil => exact Nat.le_refl 0
  | cons c rest inductionHypothesis =>
    have positive := c.utf8Size_pos
    rw [List.length_cons, byteLength_cons]
    omega

end Bytes

namespace Border

open Scan

variable {α β : Type} [Alone α] [Alone β] {b : Border} {begins middle ends : Cursor → Prop}
variable {c : Cursor}

/-- When the first reader stops where `ends` holds, it started where `begins` holds, and the second
reader does the same in the other script. -/
def Follows (b : Border) (begins ends : Cursor → Prop) (scan scan' : Scan α) (c : Cursor) : Prop :=
  ∀ a d, b.Valid c → scan.Reads c a d → ends d →
    begins c ∧ ∃ a', scan'.Reads (b.moved c) a' (b.moved d) ∧ alone a' = alone a

theorem Follows.ending {scan scan' : Scan α} {stronger : Cursor → Prop}
    (follows : b.Follows begins ends scan scan' c) (implies : ∀ d, stronger d → ends d) :
    b.Follows begins stronger scan scan' c :=
  fun a d valid reads ended => follows a d valid reads (implies d ended)

theorem Follows.beginning {scan scan' : Scan α} {weaker : Cursor → Prop}
    (follows : b.Follows begins ends scan scan' c) (implies : begins c → weaker c) :
    b.Follows weaker ends scan scan' c := by
  intro a d valid reads ended
  obtain ⟨begun, result⟩ := follows a d valid reads ended
  exact ⟨implies begun, result⟩

/-- What lies before the border after the reader may be clear of it as well. -/
theorem Follows.to_clear {scan scan' : Scan α} (follows : b.Follows begins b.Inside scan scan' c) :
    b.Follows begins b.Clear scan scan' c :=
  follows.ending fun _ clear => clear.inside

theorem Follows.of_inside {scan scan' : Scan α} (follows : b.Follows b.Clear ends scan scan' c) :
    b.Follows b.Inside ends scan scan' c :=
  follows.beginning fun clear => clear.inside

theorem follows_pure {a a' : α} (same : alone a' = alone a) :
    b.Follows ends ends (pure a) (pure a') c := by
  intro result d _ reads ended
  obtain ⟨rfl, rfl⟩ := reads_pure.mp reads
  exact ⟨ended, a', reads_pure.mpr ⟨rfl, rfl⟩, same⟩

theorem follows_bind {first first' : Scan α} {next next' : α → Scan β}
    (front : b.Follows begins middle first first' c)
    (back : ∀ a a' m, first.Reads c a m → alone a' = alone a →
      b.Follows middle ends (next a) (next' a') m) :
    b.Follows begins ends (first >>= next) (first' >>= next') c := by
  intro result d valid reads ended
  obtain ⟨a, m, firstReads, nextReads⟩ := reads_bind.mp reads
  have later := valid.later firstReads.leads
  -- Only the last reader knows that the border is not passed, so it is asked first.
  have halfway := (back a a m firstReads rfl result d later nextReads ended).1
  obtain ⟨begun, a', firstReads', same⟩ := front a m valid firstReads halfway
  obtain ⟨_, result', nextReads', sameResult⟩ :=
    back a a' m firstReads same result d later nextReads ended
  exact ⟨begun, result', reads_bind.mpr ⟨a', _, firstReads', nextReads'⟩, sameResult⟩

theorem follows_then [Placeless α] {first first' : Scan α} {next next' : α → Scan β}
    (front : b.Follows begins middle first first' c)
    (back : ∀ a m, first.Reads c a m → b.Follows middle ends (next a) (next' a) m) :
    b.Follows begins ends (first >>= next) (first' >>= next') c := by
  refine follows_bind front fun a a' m reads same => ?_
  rw [Placeless.alone_eq, Placeless.alone_eq] at same
  subst same
  exact back a' m reads

/-- What is left of a script is not longer than the script. -/
theorem Valid.length_le (valid : b.Valid c) : c.rest.length ≤ c.size := by
  have ends := valid.ends
  have bytes := length_le_byteLength c.rest
  rw [valid.size]
  omega

theorem Valid.length_moved_le (valid : b.Valid c) (inside : b.Inside c) :
    (b.moved c).rest.length ≤ (b.moved c).size := by
  obtain ⟨front, left⟩ := inside
  have ends := valid.ends
  have sizes := b.sizes
  have begun := Nat.le_trans valid.begun valid.settled
  have bytes := length_le_byteLength (front ++ b.new)
  simp only [moved, left, swap_append]
  rw [left, byteLength_append] at ends
  rw [byteLength_append] at bytes
  omega

theorem Clear.congr {text other : List Char} (clear : Script.Clear b.old text)
    (same : tokenText other = tokenText text) : Script.Clear b.old other := by
  cases clear with
  | reached here => exact .reached (same.trans here)
  | chained token before chain later => exact .chained (same.trans token) before chain later
  | other token before apart => exact .other (same.trans token) before apart

/-- Cursors from which the same is read up to the border. -/
structure Near (b : Border) (first first' : Cursor) : Prop where
  valid : b.Valid first
  offset : first'.offset = b.shift first.offset
  lexeme : first'.lexeme = first.lexeme
  rest : first'.rest = first.rest ∧ first'.size = first.size ∨
    Script.Clear b.old first.rest ∧ first'.rest = b.swap first.rest ∧
      first'.rest.length ≤ first'.size

theorem Near.rest_cases {first first' : Cursor} (near : b.Near first first') :
    first'.rest = first.rest ∨
      ∃ front, first.rest = front ++ b.old ∧ first'.rest = front ++ b.new := by
  rcases near.rest with ⟨same, _⟩ | ⟨clear, swapped, _⟩
  · exact .inl same
  · obtain ⟨front, token⟩ := Script.Clear.tokenText_eq clear
    obtain ⟨blanks, whole, _⟩ := within_of_tokenText token
    exact .inr ⟨blanks ++ front, whole, by rw [swapped, whole, swap_append]⟩

theorem follows_ahead {next next' : Cursor → Scan β}
    (follows : ∀ first', b.Near (c.tokenAfter 0) first' →
      b.Follows b.Clear ends (next (c.tokenAfter 0)) (next' first') c) :
    b.Follows b.Clear ends (ahead >>= next) (ahead >>= next') c := by
  intro a d valid reads ended
  have token := valid.later (c.leads_tokenAfter 0)
  obtain ⟨first, m, found, nextReads⟩ := reads_bind.mp reads
  obtain ⟨rfl, rfl⟩ := reads_ahead.mp found
  by_cases clear : b.Clear m
  · have place := clear.tokenAfter_moved valid
    have near : b.Near (m.tokenAfter 0) (b.moved (m.tokenAfter 0)) := by
      refine ⟨token, rfl, ?_, .inr ⟨?_, rfl, token.length_moved_le clear.inside_token⟩⟩
      · rw [← place]
        exact clear.lexeme_moved valid
      · refine Clear.congr clear ?_
        rw [Cursor.rest_tokenAfter, tokenText_tokenText]
    obtain ⟨_, a', reads', same⟩ := follows _ near a d valid nextReads ended
    exact ⟨clear, a', reads_bind.mpr ⟨_, _, reads_ahead.mpr ⟨place.symm, rfl⟩, reads'⟩, same⟩
  · -- From a cursor that is not moved the same is read, which shows that there is nothing to do.
    have near : b.Near (m.tokenAfter 0)
        ⟨b.shift (m.tokenAfter 0).offset, (m.tokenAfter 0).rest, 0, (m.tokenAfter 0).size⟩ :=
      ⟨token, rfl, rfl, .inl ⟨rfl, rfl⟩⟩
    exact absurd (follows _ near a d valid nextReads ended).1 clear

theorem follows_next {next next' : Lexeme → Scan β}
    (follows : b.Follows b.Clear ends (next (c.tokenAfter 0).lexeme)
      (next' (c.tokenAfter 0).lexeme) c) :
    b.Follows b.Clear ends (Scan.next >>= next) (Scan.next >>= next') c := by
  intro a d valid reads ended
  obtain ⟨lexeme, m, found, nextReads⟩ := reads_bind.mp reads
  obtain ⟨rfl, rfl⟩ := reads_next.mp found
  obtain ⟨clear, a', reads', same⟩ := follows a d valid nextReads ended
  exact ⟨clear, a', reads_bind.mpr ⟨_, _, reads_next.mpr ⟨(clear.lexeme_moved valid).symm, rfl⟩,
    reads'⟩, same⟩

theorem follows_sees {lexeme : Lexeme} {next next' : Bool → Scan β}
    (follows : b.Follows b.Clear ends (next ((c.tokenAfter 0).lexeme == lexeme))
      (next' ((c.tokenAfter 0).lexeme == lexeme)) c) :
    b.Follows b.Clear ends (sees lexeme >>= next) (sees lexeme >>= next') c := by
  intro a d valid reads ended
  have begun : b.start ≤ c.offset := Nat.le_trans valid.begun valid.settled
  obtain ⟨seen, m, found, nextReads⟩ := reads_bind.mp reads
  obtain ⟨rfl, rfl⟩ := reads_sees.mp found
  obtain ⟨clear, a', reads', same⟩ := follows a d valid nextReads ended
  have lexeme := clear.lexeme_moved valid
  exact ⟨clear, a', reads_bind.mpr ⟨_, _, reads_sees.mpr ⟨by rw [lexeme], rfl⟩, reads'⟩, same⟩

theorem follows_require {condition : Bool} {next next' : Unit → Scan β}
    (follows : condition = true → b.Follows begins ends (next ()) (next' ()) c) :
    b.Follows begins ends (require condition >>= next) (require condition >>= next') c := by
  intro a d valid reads ended
  obtain ⟨_, m, found, nextReads⟩ := reads_bind.mp reads
  obtain ⟨holds, rfl⟩ := reads_require.mp found
  obtain ⟨begun, a', reads', same⟩ := follows holds a d valid nextReads ended
  exact ⟨begun, a', reads_bind.mpr ⟨(), _, reads_require.mpr ⟨holds, rfl⟩, reads'⟩, same⟩

theorem follows_required (condition : Bool) :
    b.Follows ends ends (require condition) (require condition) c := by
  intro a d _ reads ended
  obtain ⟨holds, rfl⟩ := reads_require.mp reads
  exact ⟨ended, (), reads_require.mpr ⟨holds, rfl⟩, rfl⟩

theorem follows_if {condition condition' : Bool} {yes yes' no no' : Scan α}
    (same : condition' = condition)
    (holds : condition = true → b.Follows begins ends yes yes' c)
    (fails : condition = false → b.Follows begins ends no no' c) :
    b.Follows begins ends (if condition then yes else no) (if condition' then yes' else no') c := by
  subst same
  cases condition' with
  | true => exact holds rfl
  | false => exact fails rfl

/-- What follows from the run of the first reader may be assumed. -/
theorem Follows.assuming_reads {scan scan' : Scan α}
    (follows : ∀ a d, scan.Reads c a d → ends d → b.Follows begins ends scan scan' c) :
    b.Follows begins ends scan scan' c :=
  fun a d valid reads ended => follows a d reads ended a d valid reads ended

theorem follows_unexpected {scan' : Scan β} : b.Follows begins ends unexpected scan' c :=
  fun _ _ _ reads _ => absurd reads reads_unexpected

omit [Alone α] in
theorem follows_unexpected_bind {next : α → Scan β} {scan' : Scan β} :
    b.Follows begins ends (unexpected >>= next) scan' c := by
  intro a d _ reads _
  obtain ⟨_, _, failed, _⟩ := reads_bind.mp reads
  exact absurd failed reads_unexpected

theorem follows_extentFrom_raw {first first' : Cursor} (ending : ∀ d, ends d → b.Inside d)
    (near : b.Near first first') :
    b.Follows ends ends (extentFrom first) (extentFrom first') c := by
  intro extent d valid reads ended
  obtain ⟨rfl, rfl⟩ := reads_extentFrom.mp reads
  refine ⟨ended, _, reads_extentFrom.mpr ⟨rfl, rfl⟩, ?_⟩
  have length : (b.moved d).reached - first'.offset = d.reached - first.offset := by
    have begun := valid.begun
    have firstBegun := Nat.le_trans near.valid.begun near.valid.settled
    rw [near.offset]
    simp only [moved, shift]
    omega
  have characters : takeBytes (d.reached - first.offset) first'.rest =
      takeBytes (d.reached - first.offset) first.rest := by
    rcases near.rest_cases with same | ⟨front, before, after⟩
    · rw [same]
    · obtain ⟨further, left⟩ := ending d ended
      have here := valid.ends
      have firstEnds := near.valid.ends
      have settled := valid.settled
      rw [left, byteLength_append] at here
      rw [before, byteLength_append] at firstEnds
      rw [before, after, takeBytes_append (by omega), takeBytes_append (by omega)]
  simp only [alone, length, characters]

theorem follows_extentFrom {first first' : Cursor} (near : b.Near first first') :
    b.Follows b.Clear b.Clear (extentFrom first) (extentFrom first') c :=
  follows_extentFrom_raw (fun _ clear => clear.inside) near

theorem tokenText_ne_nil (finish : (c.tokenAfter 0).lexeme ≠ .finish) : tokenText c.rest ≠ [] := by
  rw [← Cursor.rest_tokenAfter]
  exact Cursor.rest_ne_nil finish

/-- When some of the next token is passed and the border is not, the token begins before it. -/
theorem token_of_past {count : Nat} (nonempty : tokenText c.rest ≠ []) (some : count ≠ 0)
    (inside : b.Inside (c.past count)) :
    ∃ front, tokenText c.rest = front ++ b.old ∧ front ≠ [] := by
  obtain ⟨further, left⟩ := inside
  rw [Cursor.rest_past] at left
  refine ⟨(tokenText c.rest).take count ++ further, ?_, fun none => ?_⟩
  · rw [List.append_assoc, ← left, List.take_append_drop]
  · rw [List.append_eq_nil_iff, List.take_eq_nil_iff] at none
    exact none.1.elim some nonempty

theorem moved_past {count : Nat} (valid : b.Valid c) (clear : b.Clear c)
    (inside : b.Inside (c.past count)) : b.moved (c.past count) = (b.moved c).past count := by
  have token := valid.later (c.leads_tokenAfter 0)
  rw [Cursor.past_eq, Cursor.past_eq, moved_settle, clear.tokenAfter_moved valid]
  rw [Cursor.past_eq] at inside
  rw [moved_drop (Nat.le_trans token.begun token.settled) inside]

/-- Passing a token, the whole of it if it may be looked past. -/
theorem follows_pass {count : Nat} {lexeme : Lexeme} (found : (c.tokenAfter 0).lexeme = lexeme)
    (finish : lexeme ≠ .finish) (some : count ≠ 0)
    (whole : lexeme.chained = true → count = lexeme.length) :
    b.Follows b.Clear b.Clear (pass count) (pass count) c := by
  intro a d valid reads later
  obtain rfl := reads_pass.mp reads
  obtain ⟨front, token, before⟩ := token_of_past (tokenText_ne_nil (by rw [found]; exact finish)) some later.inside
  have lexeme_eq : Lexeme.first (front ++ b.old) = lexeme := by
    rw [← token, ← Cursor.rest_tokenAfter]
    exact found
  have clear : b.Clear c := by
    cases chain : lexeme.chained with
    | false => exact .other token before (by rw [lexeme_eq]; exact chain)
    | true =>
      refine .chained token before (by rw [lexeme_eq]; exact chain) ?_
      rw [lexeme_eq, ← token, ← whole chain, ← Cursor.rest_past]
      exact later
  exact ⟨clear, (), reads_pass.mpr (moved_past valid clear later.inside), rfl⟩

/-- After a token that may not be looked past, what comes next need not be tokens. -/
theorem follows_pass_raw {count : Nat} {lexeme : Lexeme}
    (found : (c.tokenAfter 0).lexeme = lexeme) (finish : lexeme ≠ .finish) (some : count ≠ 0)
    (apart : lexeme.chained = false) : b.Follows b.Clear b.Inside (pass count) (pass count) c := by
  intro a d valid reads inside
  obtain rfl := reads_pass.mp reads
  obtain ⟨front, token, before⟩ := token_of_past (tokenText_ne_nil (by rw [found]; exact finish)) some inside
  have clear : b.Clear c := by
    refine .other token before ?_
    rw [← token, ← Cursor.rest_tokenAfter]
    exact (congrArg Lexeme.chained found).trans apart
  exact ⟨clear, (), reads_pass.mpr (moved_past valid clear inside), rfl⟩

theorem length_ne_zero {lexeme : Lexeme} (found : (c.tokenAfter 0).lexeme = lexeme)
    (finish : lexeme ≠ .finish) (number : lexeme ≠ .number) (quote : ∀ mark, lexeme ≠ .quote mark) :
    lexeme.length ≠ 0 := by
  subst found
  exact Lexeme.length_first_ne_zero finish number quote

theorem follows_accept (lexeme : Lexeme) (finish : lexeme ≠ .finish) (number : lexeme ≠ .number)
    (quote : ∀ mark, lexeme ≠ .quote mark) :
    b.Follows b.Clear b.Clear (accept lexeme) (accept lexeme) c := by
  refine follows_sees ?_
  cases found : (c.tokenAfter 0).lexeme == lexeme with
  | false => exact follows_pure rfl
  | true =>
    have found := beq_iff_eq.mp found
    have positive := length_ne_zero found finish number quote
    exact follows_then (follows_pass found finish positive fun _ => rfl) fun _ _ _ => follows_pure rfl

theorem follows_acceptMark (mark : String) :
    b.Follows b.Clear b.Clear (acceptMark mark) (acceptMark mark) c :=
  follows_accept _ (by simp) (by simp) (by simp)

theorem follows_acceptWord (word : String) :
    b.Follows b.Clear b.Clear (acceptWord word) (acceptWord word) c :=
  follows_accept _ (by simp) (by simp) (by simp)

theorem follows_expectMark (mark : String) :
    b.Follows b.Clear b.Clear (expectMark mark) (expectMark mark) c :=
  follows_then (follows_acceptMark mark) fun accepted _ _ => by
    cases accepted with
    | true => exact follows_pure rfl
    | false => exact follows_unexpected

theorem follows_expectWord (word : String) :
    b.Follows b.Clear b.Clear (expectWord word) (expectWord word) c :=
  follows_then (follows_acceptWord word) fun accepted _ _ => by
    cases accepted with
    | true => exact follows_pure rfl
    | false => exact follows_unexpected

theorem follows_passWord {word : String} (found : (c.tokenAfter 0).lexeme = .word word) :
    b.Follows b.Clear b.Clear (pass word.length) (pass word.length) c :=
  follows_pass found (by simp) (length_ne_zero found (by simp) (by simp) (by simp)) fun _ => rfl

theorem follows_passMark {mark : String} (found : (c.tokenAfter 0).lexeme = .mark mark) :
    b.Follows b.Clear b.Clear (pass mark.length) (pass mark.length) c :=
  follows_pass found (by simp) (length_ne_zero found (by simp) (by simp) (by simp)) fun _ => rfl

theorem follows_name : b.Follows b.Clear b.Clear name name c := by
  refine follows_ahead fun first' near => ?_
  rw [near.lexeme]
  split
  · next found =>
    refine follows_require fun _ => ?_
    exact follows_then (follows_passWord found) fun _ _ _ => follows_extentFrom near
  · exact follows_unexpected

theorem follows_property : b.Follows b.Clear b.Clear property property c := by
  refine follows_ahead fun first' near => ?_
  rw [near.lexeme]
  split
  · next found => exact follows_then (follows_passWord found) fun _ _ _ => follows_extentFrom near
  · next length found =>
    have positive := length_ne_zero found (by simp) (by simp) (by simp)
    exact follows_then (follows_pass found (by simp) positive fun _ => rfl) fun _ _ _ =>
      follows_extentFrom near
  · exact follows_unexpected

theorem follows_inside_past {count : Nat} {next : Unit → Scan β} {scan' : Scan β}
    (ending : ∀ d, ends d → b.Inside d)
    (follows : b.Inside (c.past count) → b.Follows begins ends (pass count >>= next) scan' c) :
    b.Follows begins ends (pass count >>= next) scan' c := by
  refine Follows.assuming_reads fun a d reads ended => ?_
  obtain ⟨_, m, passes, later⟩ := reads_bind.mp reads
  obtain rfl := reads_pass.mp passes
  exact follows ((ending d ended).earlier later.leads)

/-- Passing so many characters passes nothing beyond the border, or there is nothing beyond it. -/
theorem count_le_of_drop {count : Nat} {front further : List Char}
    (left : (front ++ b.old).drop count = further ++ b.old) :
    count ≤ front.length ∨ front ++ b.new = front ++ b.old := by
  have counted := congrArg List.length left
  simp only [List.length_drop, List.length_append] at counted
  by_cases short : count ≤ front.length
  · exact .inl short
  · right
    have none : b.old = [] := List.eq_nil_of_length_eq_zero (by omega)
    rcases b.meets.nil_or_cons with ⟨_, other⟩ | ⟨_, _, _, _, begins, _⟩
    · rw [none, other]
    · rw [none] at begins
      cases begins

/-- What is measured from the next token on and lies before the border as a whole. -/
theorem Near.measured {α : Type} (measure : List Char → α) {count : Nat} {first' : Cursor}
    (near : b.Near (c.tokenAfter 0) first') (left : tokenText c.rest ≠ []) (some : count ≠ 0)
    (inside : b.Inside (c.past count))
    (kept : ∀ front, front ≠ [] → (c.tokenAfter 0).rest = front ++ b.old → count ≤ front.length →
      measure (front ++ b.new) = measure (front ++ b.old)) :
    measure first'.rest = measure (c.tokenAfter 0).rest := by
  rcases near.rest_cases with same | ⟨front, before, after⟩
  · rw [same]
  · obtain ⟨again, token, nonempty⟩ := token_of_past left some inside
    rw [← Cursor.rest_tokenAfter, before] at token
    obtain rfl := List.append_cancel_right token
    obtain ⟨further, left⟩ := inside
    rw [Cursor.rest_past, ← Cursor.rest_tokenAfter, before] at left
    rcases count_le_of_drop left with short | same
    · rw [before, after, kept front nonempty before short]
    · rw [before, after, same]

/-- What is measured from the cursor on and lies before the border as a whole. -/
theorem Inside.measured {α : Type} (measure : List Char → α) {count : Nat}
    (inside : b.Inside (c.drop count))
    (kept : ∀ front, c.rest = front ++ b.old → count ≤ front.length →
      measure (front ++ b.new) = measure (front ++ b.old)) :
    measure (b.moved c).rest = measure c.rest := by
  obtain ⟨front, before⟩ := inside.earlier (c.leads_drop count)
  obtain ⟨further, left⟩ := inside
  rw [Cursor.rest_drop, before] at left
  rw [moved, before, swap_append]
  rcases count_le_of_drop left with short | same
  · exact kept front before short
  · rw [same]

theorem follows_quotedText : b.Follows b.Clear b.Clear quotedText quotedText c := by
  refine follows_ahead fun first' near => ?_
  rw [near.lexeme]
  split
  · next mark found =>
    split
    · next length measured =>
      have left : tokenText c.rest ≠ [] := tokenText_ne_nil (by simp [found])
      have positive : length ≠ 0 := by
        rintro rfl
        exact quotedLength?_ne_zero _ _ _ _ measured
      refine follows_inside_past (fun _ clear => clear.inside) fun inside => ?_
      have again : quotedLength? mark 1 0 (first'.rest.drop 1) = some length := by
        rw [← measured]
        refine near.measured (fun text => quotedLength? mark 1 0 (text.drop 1)) left positive inside
          fun front nonempty before short => ?_
        obtain ⟨letter, front, rfl⟩ := List.exists_cons_of_ne_nil nonempty
        rw [before] at measured
        exact (quotedLength?_append b.meets measured (by rw [List.length_cons] at short; omega)).trans
          measured.symm
      rw [again]
      exact follows_then (follows_pass found (by simp) positive (by simp [Lexeme.chained]))
        fun _ _ _ => follows_extentFrom near
    · exact follows_unexpected
  · exact follows_unexpected

theorem follows_passNumber {first' : Cursor} (near : b.Near (c.tokenAfter 0) first')
    (found : (c.tokenAfter 0).lexeme = .number) :
    b.Follows b.Clear b.Clear (pass (numberLength (c.tokenAfter 0).rest))
      (pass (numberLength first'.rest)) c := by
  have left : tokenText c.rest ≠ [] := tokenText_ne_nil (by simp [found])
  have positive : numberLength (c.tokenAfter 0).rest ≠ 0 := by
    intro zero
    have beyond := (Cursor.beyond_past_number found).passed
    rw [zero, Cursor.past_eq] at beyond
    exact absurd beyond (Nat.lt_irrefl _)
  refine Follows.assuming_reads fun a d reads clear => ?_
  obtain rfl := reads_pass.mp reads
  have same := near.measured numberLength left positive clear.inside fun front nonempty before short =>
    numberLength_append b.meets nonempty (before ▸ short)
  rw [same]
  exact follows_pass found (by simp) positive (by simp [Lexeme.chained])

theorem follows_cursor {next next' : Cursor → Scan β}
    (follows : b.Follows begins ends (next c) (next' (b.moved c)) c) :
    b.Follows begins ends (cursor >>= next) (cursor >>= next') c := by
  intro a d valid reads ended
  obtain ⟨_, m, here, nextReads⟩ := reads_bind.mp reads
  obtain ⟨rfl, rfl⟩ := reads_cursor.mp here
  obtain ⟨begun, a', reads', same⟩ := follows a d valid nextReads ended
  exact ⟨begun, a', reads_bind.mpr ⟨_, _, reads_cursor.mpr ⟨rfl, rfl⟩, reads'⟩, same⟩

theorem follows_inside_drop {count : Nat} {next : Unit → Scan β} {scan' : Scan β}
    (ending : ∀ d, ends d → b.Inside d)
    (follows : b.Inside (c.drop count) → b.Follows begins ends (advance count >>= next) scan' c) :
    b.Follows begins ends (advance count >>= next) scan' c := by
  refine Follows.assuming_reads fun a d reads ended => ?_
  obtain ⟨_, m, advances, later⟩ := reads_bind.mp reads
  obtain rfl := reads_advance.mp advances
  exact follows ((ending d ended).earlier later.leads)

theorem follows_advance {count : Nat} :
    b.Follows b.Inside b.Inside (advance count) (advance count) c := by
  intro a d valid reads inside
  obtain rfl := reads_advance.mp reads
  have begun : b.start ≤ c.offset := Nat.le_trans valid.begun valid.settled
  exact ⟨inside.earlier (c.leads_drop count), (), reads_advance.mpr (moved_drop begun inside), rfl⟩

theorem follows_settle : b.Follows b.Clear b.Clear settle settle c := by
  intro a d _ reads clear
  obtain rfl := reads_settle.mp reads
  exact ⟨clear, (), reads_settle.mpr rfl, rfl⟩

theorem follows_settle_raw : b.Follows b.Inside b.Inside settle settle c := by
  intro a d _ reads inside
  obtain rfl := reads_settle.mp reads
  exact ⟨inside, (), reads_settle.mpr rfl, rfl⟩

section Sizes

theorem Inside.length_moved (inside : b.Inside c) :
    (b.moved c).rest.length + b.old.length = c.rest.length + b.new.length := by
  obtain ⟨front, left⟩ := inside
  simp only [moved, left, swap_append, List.length_append]
  omega

/-- A loop that is bounded by the size of the script goes on as long as there are characters. -/
theorem follows_sized (ending : ∀ d, ends d → b.Inside d) {next next' : Cursor → Scan β}
    (follows : c.rest.length < c.size + 1 → (b.moved c).rest.length < (b.moved c).size + 1 →
      b.Follows begins ends (next c) (next' (b.moved c)) c) :
    b.Follows begins ends (cursor >>= next) (cursor >>= next') c := by
  intro a d valid reads ended
  have inside := (ending d ended).earlier reads.leads
  exact follows_cursor (follows (Nat.lt_succ_of_le valid.length_le)
    (Nat.lt_succ_of_le (valid.length_moved_le inside))) a d valid reads ended

end Sizes

section LineEnds

theorem Clear.lineEnds (clear : b.Clear c) (valid : b.Valid c) (complete : Bool) :
    lineEndsFrom complete ((b.moved c).size + 1) (b.moved c).rest =
      lineEndsFrom complete (c.size + 1) c.rest ∧
    commentLength? (b.moved c).rest = commentLength? c.rest := by
  have longest := valid.length_le
  have longest' := valid.length_moved_le clear.inside
  obtain ⟨front, token⟩ := Script.Clear.tokenText_eq clear
  obtain ⟨blanks, whole, blank⟩ := within_of_tokenText token
  have ends := valid.comments _ whole
  simp only [moved, whole, swap_append] at longest longest' ⊢
  rw [whole] at blank
  have within : triviaLength (blanks ++ front ++ b.old) ≤ (blanks ++ front).length := by
    rw [blank, List.length_append]
    exact Nat.le_add_right _ _
  exact ⟨lineEndsFrom_append b.meets ends within (Nat.lt_succ_of_le longest)
    (Nat.lt_succ_of_le longest'), commentLength?_append b.meets ends within⟩

theorem follows_lineEndWithin (complete : Bool) {n other : Nat} (enough : c.rest.length < n)
    (others : (b.moved c).rest.length < other) :
    b.Follows b.Clear b.Clear (lineEndWithin complete n) (lineEndWithin complete other) c := by
  induction n generalizing c other with
  | zero => omega
  | succ n inductionHypothesis =>
    obtain ⟨other, rfl⟩ : ∃ rest, other = rest + 1 := ⟨other - 1, by omega⟩
    intro a d valid whole later
    have begun : b.start ≤ c.offset := Nat.le_trans valid.begun valid.settled
    obtain ⟨_, m, here, reads⟩ := reads_bind.mp whole
    obtain ⟨rfl, rfl⟩ := reads_cursor.mp here
    clear whole
    -- Whatever comes next is known once the cursor is known to be clear.
    have again : ∀ {a' : Bool} {d' : Cursor}, b.Clear m →
        ((if lineEndsFrom complete (m.size + 1) m.rest then pure true
          else (commentLength? m.rest).elim (pure false) fun length => do
            advance length
            lineEndWithin complete other) : Scan Bool).Reads (b.moved m) a' d' →
        (lineEndWithin complete (other + 1)).Reads (b.moved m) a' d' := by
      intro a' d' clear reads
      obtain ⟨ends, comment⟩ := clear.lineEnds valid complete
      refine reads_bind.mpr ⟨_, _, reads_cursor.mpr ⟨rfl, rfl⟩, ?_⟩
      rw [ends, comment]
      cases passed : commentLength? m.rest with
      | none => rwa [passed] at reads
      | some length => rwa [passed] at reads
    split at reads
    · next ends =>
      obtain ⟨rfl, rfl⟩ := reads_pure.mp reads
      exact ⟨later, true, again later (by rw [if_pos ends]; exact reads_pure.mpr ⟨rfl, rfl⟩), rfl⟩
    · next open_ =>
      split at reads
      · next length comment =>
        obtain ⟨_, _, advanced, reads⟩ := reads_bind.mp reads
        obtain rfl := reads_advance.mp advanced
        have positive := commentLength?_pos comment
        have total := triviaLength_of_comment comment
        have bound := triviaLength_le m.rest
        have leads := m.leads_drop length
        have inside := later.inside.earlier reads.leads
        have counted := inside.length_moved
        have before := (inside.earlier leads).length_moved
        rw [Cursor.rest_drop, List.length_drop] at counted
        have shorter : (b.moved (m.drop length)).rest.length < other := by omega
        obtain ⟨clear, a', reads', same⟩ := inductionHypothesis
          (by rw [Cursor.rest_drop, List.length_drop]; omega) shorter a d (valid.later leads) reads later
        have clear : b.Clear m := by
          refine Clear.congr clear ?_
          rw [Cursor.rest_drop]
          exact (tokenText_drop_comment comment).symm
        refine ⟨clear, a', again clear ?_, same⟩
        rw [if_neg open_, comment]
        exact reads_bind.mpr ⟨(), _, reads_advance.mpr (moved_drop begun inside), reads'⟩
      · next none =>
        obtain ⟨rfl, rfl⟩ := reads_pure.mp reads
        refine ⟨later, false, again later ?_, rfl⟩
        rw [if_neg open_, none]
        exact reads_pure.mpr ⟨rfl, rfl⟩

theorem follows_lineEnd (complete : Bool) :
    b.Follows b.Clear b.Clear (lineEnd complete) (lineEnd complete) c :=
  follows_sized (fun _ clear => clear.inside) fun enough others =>
    follows_lineEndWithin complete enough others

theorem follows_takeLineEnd (complete : Bool) :
    b.Follows b.Clear b.Clear (takeLineEnd complete) (takeLineEnd complete) c :=
  follows_then (follows_lineEnd complete) fun ended _ _ => by
    cases ended with
    | true => exact follows_then follows_settle fun _ _ _ => follows_pure rfl
    | false => exact follows_pure rfl

theorem follows_semicolon (complete : Bool) :
    b.Follows b.Clear b.Clear (semicolon complete) (semicolon complete) c :=
  follows_then (follows_takeLineEnd complete) fun ended _ _ => by
    cases ended with
    | true => exact follows_pure rfl
    | false => exact follows_expectMark _

end LineEnds

section Assumptions

variable {scan scan' : Scan α}

theorem Follows.assuming_inside (ending : ∀ d, ends d → b.Inside d)
    (follows : b.Inside c → b.Follows begins ends scan scan' c) :
    b.Follows begins ends scan scan' c :=
  Follows.assuming_reads fun _ d reads ended => follows ((ending d ended).earlier reads.leads)

/-- A reader that passes the next token and stops before the border does not start at it. -/
theorem Follows.assuming_before (passes : scan.Passes c) (ending : ∀ d, ends d → b.Inside d)
    (follows : tokenText c.rest ≠ b.old → b.Follows begins ends scan scan' c) :
    b.Follows begins ends scan scan' c := by
  intro a d valid reads ended
  refine follows (fun here => ?_) a d valid reads ended
  have beyond := reads.ensured passes
  obtain ⟨front, left⟩ := ending d ended
  have tokenEnds := (valid.later (c.leads_tokenAfter 0)).ends
  have endsLater := (valid.later reads.leads).ends
  rw [Cursor.rest_tokenAfter, here] at tokenEnds
  rw [left, byteLength_append] at endsLater
  have passed := beyond.passed
  have settled := beyond.settled
  omega

end Assumptions

/-- Few names stand at a border. -/
theorem before_of_word {word : String} (found : (c.tokenAfter 0).lexeme = .word word)
    (other : word ∉ ["import", "const", "let", "var"]) : tokenText c.rest ≠ b.old := by
  intro here
  rw [Cursor.lexeme, Cursor.rest_tokenAfter, here] at found
  exact other (b.meets.word_first found)

theorem Clear.later (clear : b.Clear c) (chain : (c.tokenAfter 0).lexeme.chained = true)
    (before : tokenText c.rest ≠ b.old) :
    b.Clear ((c.tokenAfter 0).drop (c.tokenAfter 0).lexeme.length) := by
  have lexeme : (c.tokenAfter 0).lexeme = Lexeme.first (tokenText c.rest) :=
    congrArg Lexeme.first (Cursor.rest_tokenAfter c)
  rw [Border.Clear, Cursor.rest_drop, Cursor.rest_tokenAfter, lexeme]
  rw [lexeme] at chain
  cases clear with
  | reached here => exact absurd here before
  | chained token _ _ later => rw [token]; exact later
  | other token _ apart =>
    rw [token, apart] at chain
    cases chain

theorem Clear.second_moved (clear : b.Clear c) (valid : b.Valid c)
    (chain : (c.tokenAfter 0).lexeme.chained = true) (before : tokenText c.rest ≠ b.old) :
    (b.moved c).second = c.second := by
  have later := clear.later chain before
  have token := valid.later (c.leads_tokenAfter 0)
  have after := token.later ((c.tokenAfter 0).leads_drop (c.tokenAfter 0).lexeme.length)
  rw [Cursor.second, clear.lexeme_moved valid, clear.tokenAfter_moved valid, Cursor.tokenAfter,
    ← moved_drop (Nat.le_trans token.begun token.settled) later.inside]
  exact later.lexeme_moved after

/-- After a name at the border no arrow follows in either script. -/
theorem noArrow_second (valid : b.Valid c) (chain : (c.tokenAfter 0).lexeme.chained = true)
    (here : tokenText c.rest = b.old) :
    c.second ≠ .mark "=>" ∧ (b.moved c).second ≠ .mark "=>" := by
  have clear : b.Clear c := .reached here
  have moved : tokenText (b.moved c).rest = b.new := by
    have place := congrArg Cursor.rest (clear.tokenAfter_moved valid)
    rw [Cursor.rest_tokenAfter] at place
    rw [place, Border.moved, Cursor.rest_tokenAfter, here]
    exact swap_append []
  rw [Cursor.lexeme, Cursor.rest_tokenAfter, here] at chain
  rw [Cursor.second_eq, Cursor.second_eq, here, moved]
  exact b.meets.noArrow chain

theorem follows_second {next next' : Lexeme → Scan β}
    (chain : (c.tokenAfter 0).lexeme.chained = true)
    (follows : ∀ again, (tokenText c.rest ≠ b.old → again = c.second) →
      (tokenText c.rest = b.old → c.second ≠ .mark "=>" ∧ again ≠ .mark "=>") →
      b.Follows b.Clear ends (next c.second) (next' again) c) :
    b.Follows b.Clear ends (Scan.second >>= next) (Scan.second >>= next') c := by
  intro a d valid reads ended
  obtain ⟨_, m, found, nextReads⟩ := reads_bind.mp reads
  obtain ⟨rfl, rfl⟩ := reads_second.mp found
  by_cases clear : b.Clear m
  · obtain ⟨_, a', reads', same⟩ := follows (b.moved m).second
      (fun before => clear.second_moved valid chain before)
      (fun here => noArrow_second valid chain here) a d valid nextReads ended
    exact ⟨clear, a', reads_bind.mpr ⟨_, _, reads_second.mpr ⟨rfl, rfl⟩, reads'⟩, same⟩
  · have nowhere : tokenText m.rest ≠ b.old := fun here => clear (.reached here)
    exact absurd (follows m.second (fun _ => rfl) (fun here => absurd here nowhere)
      a d valid nextReads ended).1 clear

/-- A result that is made of a place. -/
theorem follows_placed {first first' : Cursor} {build build' : Extent → β}
    (near : b.Near first first')
    (same : ∀ extent extent', alone extent' = alone extent →
      alone (build' extent') = alone (build extent)) :
    b.Follows b.Clear b.Clear (extentFrom first >>= fun extent => pure (build extent))
      (extentFrom first' >>= fun extent => pure (build' extent)) c :=
  follows_bind (follows_extentFrom near) fun extent extent' _ _ place =>
    follows_pure (same extent extent' place)

/-- A result of which only the kind is kept. -/
theorem follows_other {first first' : Cursor} (near : b.Near first first') (kind : Kind)
    (value target element : Bool) :
    b.Follows b.Clear b.Clear
      (extentFrom first >>= fun extent => pure (Piece.mk (.other extent kind) value target element))
      (extentFrom first' >>= fun extent => pure (Piece.mk (.other extent kind) value target element))
      c := by
  refine follows_placed near fun extent extent' same => ?_
  exact congrArg (fun extent => Piece.mk (.other extent kind) value target element) same

section Loops

variable {step step' : Scan (Option α)} {among : Cursor → Prop}

theorem follows_manyWithin (ending : ∀ d, among d → b.Inside d)
    (advances : ∀ m, c.Leads m → step.Advances m)
    (each : ∀ m, c.Leads m → b.Follows among among step step' m) {n other : Nat}
    (enough : c.rest.length < n) (others : (b.moved c).rest.length < other) :
    b.Follows among among (manyWithin step n) (manyWithin step' other) c := by
  induction n generalizing c other with
  | zero => omega
  | succ n inductionHypothesis =>
    obtain ⟨other, rfl⟩ : ∃ rest, other = rest + 1 := ⟨other - 1, by omega⟩
    refine follows_bind (each c .refl) fun result result' m reads same => ?_
    cases result with
    | none =>
      obtain rfl : result' = none := Option.map_eq_none_iff.mp same
      exact follows_pure rfl
    | some a =>
      obtain ⟨a', rfl, sameItem⟩ := Option.map_eq_some_iff.mp same
      have shorter := reads.ensured (advances c .refl) rfl
      refine Follows.assuming_inside ending fun inside => ?_
      have counted := inside.length_moved
      have before := (inside.earlier reads.leads).length_moved
      refine follows_bind (inductionHypothesis (fun d leads => advances d (reads.leads.trans leads))
        (fun d leads => each d (reads.leads.trans leads)) (by omega) (by omega)) ?_
      intro items items' _ _ sameItems
      refine follows_pure ?_
      exact congrArg₂ List.cons sameItem sameItems

theorem follows_many (ending : ∀ d, among d → b.Inside d)
    (advances : ∀ m, c.Leads m → step.Advances m)
    (each : ∀ m, c.Leads m → b.Follows among among step step' m) :
    b.Follows among among (many step) (many step') c :=
  follows_sized ending fun enough others =>
    follows_manyWithin ending advances each enough others

theorem follows_itemBefore {closing : String} {item item' : Scan α}
    (each : ∀ d, c.Leads d → b.Follows b.Clear b.Clear item item' d) :
    b.Follows b.Clear b.Clear (itemBefore closing item) (itemBefore closing item') c := by
  refine follows_then (follows_acceptMark closing) fun closed d read => ?_
  cases closed with
  | true => exact follows_pure rfl
  | false =>
    refine follows_bind (each d read.leads) fun a a' _ _ same => follows_sees ?_
    have item : alone (some a') = alone (some a) := congrArg some same
    split
    · exact follows_pure item
    · exact follows_then (follows_expectMark _) fun _ _ _ => follows_pure item

theorem follows_itemOrGapBefore {closing : String} {item item' : Scan α}
    (each : ∀ d, c.Leads d → b.Follows b.Clear b.Clear item item' d) :
    b.Follows b.Clear b.Clear (itemOrGapBefore closing item) (itemOrGapBefore closing item') c := by
  refine follows_then (follows_acceptMark closing) fun closed d read => ?_
  cases closed with
  | true => exact follows_pure rfl
  | false =>
    refine follows_then (follows_acceptMark ",") fun leftOut e again => ?_
    cases leftOut with
    | true => exact follows_pure rfl
    | false =>
      refine follows_bind (each e (read.leads.trans again.leads)) fun a a' _ _ same => follows_sees ?_
      have item : alone (some (some a')) = alone (some (some a)) :=
        congrArg (fun a => some (some a)) same
      split
      · exact follows_pure item
      · exact follows_then (follows_expectMark _) fun _ _ _ => follows_pure item

theorem follows_listed {closing : String} {item item' : Scan α}
    (consumes : ∀ m, c.Leads m → item.Consumes m)
    (each : ∀ m, c.Leads m → b.Follows b.Clear b.Clear item item' m) :
    b.Follows b.Clear b.Clear (listed closing item) (listed closing item') c := by
  rw [listed_eq, listed_eq]
  exact follows_many (fun _ clear => clear.inside)
    (fun m leads => advances_itemBefore (consumes m leads))
    fun m leads => follows_itemBefore fun d further => each d (leads.trans further)

theorem follows_listedOrLeftOut {closing : String} {item item' : Scan α}
    (consumes : ∀ m, c.Leads m → item.Consumes m)
    (each : ∀ m, c.Leads m → b.Follows b.Clear b.Clear item item' m) :
    b.Follows b.Clear b.Clear (listedOrLeftOut closing item) (listedOrLeftOut closing item') c := by
  rw [listedOrLeftOut_eq, listedOrLeftOut_eq]
  exact follows_many (fun _ clear => clear.inside)
    (fun m leads => advances_itemOrGapBefore (consumes m leads))
    fun m leads => follows_itemOrGapBefore fun d further => each d (leads.trans further)

end Loops

/-- How deep readers may still be nested: a token opens two levels at most. -/
def Room (b : Border) (depth levels : Nat) (c : Cursor) : Prop :=
  2 * c.rest.length + levels < depth + 2 * b.old.length

theorem Room.later {depth levels : Nat} {d : Cursor} (room : b.Room depth levels c)
    (leads : c.Leads d) : b.Room depth levels d := by
  have shorter := leads.length_le
  unfold Room at room ⊢
  omega

theorem Room.mono {depth levels fewer : Nat} (room : b.Room depth levels c)
    (less : fewer ≤ levels) : b.Room depth fewer c := by
  unfold Room at room ⊢
  omega

/-- One level down. -/
theorem Room.inner {depth levels : Nat} (room : b.Room (depth + 1) (levels + 1) c) :
    b.Room depth levels c := by
  unfold Room at room ⊢
  omega

theorem Room.consumed {depth levels : Nat} {d : Cursor} (room : b.Room depth levels c)
    (shorter : d.rest.length < c.rest.length) : b.Room depth (levels + 2) d := by
  unfold Room at room ⊢
  omega

end Border

end ImportRedirect.Script
