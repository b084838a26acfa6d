import ImportRedirect.Proofs.Script.Follow.Operand

/-!
Markup before a border. Text between tags is not made of tokens, so what comes after a tag has to lie
before the border but need not be clear of it.
-/

namespace ImportRedirect.Script

open Scan Readers

/-- The texts by which tags and braces are told. -/
def tagTexts : List String := ["<", ">", "/>", "=", "\x7d"]

section Texts

variable {old new : List Char} {text : String}

theorem isPrefixOf_tagText (meets : Meets old new) (known : text ∈ tagTexts) (front : List Char) :
    text.toList.isPrefixOf (front ++ new) = text.toList.isPrefixOf (front ++ old) := by
  by_cases brace : text = "\x7d"
  · subst brace
    have head : ∀ text : List Char, "\x7d".toList.isPrefixOf text = (text.head? == some '\x7d') := by
      intro text
      cases text <;> simp [List.isPrefixOf, eq_comm]
    rw [head, head, meets.head?_append]
  · have foreign : ∀ text ∈ tagTexts, text ≠ "\x7d" → isForeign text.toList = true := by decide
    have apart := foreign text known brace
    rw [isPrefixOf_append meets apart (.inr rfl), isPrefixOf_append meets apart (.inl rfl)]

theorem Lexeme.chained_first {c : Char} {rest : List Char}
    (chain : (Lexeme.first (c :: rest)).chained = true) :
    nameLength (c :: rest) ≠ 0 ∨ c = '#' ∨ c = '*' := by
  simp only [Lexeme.first] at chain
  split at chain
  · next name => exact .inl (by simpa using name)
  · split at chain
    · cases chain
    · split at chain
      · cases chain
      · split at chain
        · next hash =>
          rw [Bool.and_eq_true, beq_iff_eq] at hash
          exact .inr (.inl hash.1)
        · split at chain
          · split at chain <;> simp [chained] at chain
          · next found _ first =>
            have text : String.ofList found = "*" := beq_iff_eq.mp chain
            have star : found = ['*'] := by simpa using congrArg String.toList text
            have begins := List.find?_some first
            rw [star] at begins
            simp only [List.isPrefixOf, Bool.and_true, beq_iff_eq] at begins
            exact .inr (.inr begins.symm)
          · have text : String.singleton c = "*" := beq_iff_eq.mp chain
            have star : [c] = ['*'] := by simpa using congrArg String.toList text
            exact .inr (.inr (List.cons.inj star).1)

/-- The characters such texts begin with, and the hyphen inside a name. -/
def tagLetters : List Char := ['<', '>', '/', '=', '\x7d', '-']

/-- A token that begins with such a character may not be looked past. -/
theorem Lexeme.first_tagLetter {c : Char} (known : c ∈ tagLetters) (rest : List Char) :
    (Lexeme.first (c :: rest)).chained = false := by
  have marks : ∀ c ∈ tagLetters, isNamePart c = false ∧ c ≠ '\\' ∧ c.isDigit = false ∧ c ≠ '#' ∧
      c ≠ '*' := by
    have each : tagLetters.all (fun c => !isNamePart c && c != '\\' && !c.isDigit && c != '#' &&
        c != '*') = true := by decide
    simpa [and_assoc] using each
  obtain ⟨breaks, escape, digit, hash, star⟩ := marks c known
  rw [Bool.eq_false_iff]
  intro chain
  rcases Lexeme.chained_first chain with name | same | same
  · have part : namePartLength? (c :: rest) = none := by
      rw [namePartLength?]
      · rw [breaks]
        rfl
      · rintro _ rfl
        exact absurd rfl escape
    simp [nameLength, namePartsLength, digit, part] at name
  · exact hash same
  · exact star same

theorem Lexeme.first_tagText (known : text ∈ tagTexts) {ahead : List Char}
    (starts : text.toList.isPrefixOf ahead = true) : (Lexeme.first ahead).chained = false := by
  obtain ⟨rest, rfl⟩ := List.isPrefixOf_iff_prefix.mp starts
  have begins : ∀ text ∈ tagTexts, ∃ c ∈ tagLetters, ∃ tail, text.toList = c :: tail := by
    simp [tagTexts, tagLetters]
  obtain ⟨c, among, tail, characters⟩ := begins text known
  rw [characters]
  exact Lexeme.first_tagLetter among _

theorem Lexeme.first_ne_finish (c : Char) (rest : List Char) : Lexeme.first (c :: rest) ≠ .finish := by
  simp only [Lexeme.first]
  repeat' split
  all_goals simp

/-- No blank or comment begins with the mark of a tag. -/
theorem tokenText_tag (rest : List Char) : tokenText ('<' :: rest) = '<' :: rest := by
  have blank : isSpace '<' = false := by decide
  simp [tokenText, triviaLength, Trivia.lengthFrom, blank]

theorem Lexeme.first_of_nameLength {ahead : List Char} (name : nameLength ahead ≠ 0) :
    Lexeme.first ahead = .word (String.ofList (ahead.take (nameLength ahead))) := by
  cases ahead with
  | nil => exact absurd rfl name
  | cons c rest => simp [Lexeme.first, name]

theorem nameLength_of_markupPart {ahead : List Char} (part : markupNameLength ahead ≠ 0) :
    nameLength ahead ≠ 0 := by
  intro none
  simp [markupNameLength, none] at part

/-- A name of an element is a name, or goes on after a hyphen. -/
theorem markupNameLength_cases (ahead : List Char) :
    markupNameLength ahead = nameLength ahead ∨
      ∃ tail, ahead.drop (nameLength ahead) = '-' :: tail ∧ nameLength ahead < markupNameLength ahead := by
  unfold markupNameLength
  dsimp only
  split
  · next both =>
    right
    rw [Bool.and_eq_true, beq_iff_eq, List.head?_eq_some_iff] at both
    obtain ⟨_, tail, hyphen⟩ := both
    refine ⟨tail, hyphen, ?_⟩
    simp [hyphen]
  · exact .inl rfl

theorem tokenText_of_markupPart {ahead : List Char} (part : markupNameLength ahead ≠ 0) :
    ahead ≠ [] := by
  rintro rfl
  exact part rfl

end Texts

namespace Readers

variable (read : Readers)

/-- What is read where text ends: a closing tag, an element, braces or a reference. -/
def markupChildAt (ahead : List Char) : Scan (Option Unit) :=
  if "</".toList.isPrefixOf ahead then do
    pass 2
    unless ← seesText ">" do markupName
    require (← acceptText ">")
    pure none
  else if "<".toList.isPrefixOf ahead then do
    let _ ← read .markup
    pure (some ())
  else if "\x7b".toList.isPrefixOf ahead then do
    read.markupBraces
    pure (some ())
  else if "&".toList.isPrefixOf ahead then
    match referenceLength? (ahead.drop 1) with
    | some length => do
      advance (length + 1)
      pure (some ())
    | none => unexpected
  else unexpected

theorem markupChildren_eq : read.markupChildren = (do
    let _ ← many (α := Unit) do
      let here ← cursor
      advance (here.rest.takeWhile (!"<>&\x7b\x7d".toList.contains ·)).length
      read.markupChildAt (← cursor).rest) := by
  refine congrArg (many · >>= fun _ => pure ()) (congrArg (cursor >>= ·) (funext fun here => ?_))
  refine congrArg (advance _ >>= ·) (funext fun _ => congrArg (cursor >>= ·) (funext fun here => ?_))
  generalize here.rest = ahead
  split
  · rfl
  · next tail other =>
    have open_ : "</".toList.isPrefixOf ('<' :: tail) = false := by
      cases tail with
      | nil => rfl
      | cons letter tail =>
        have apart : letter ≠ '/' := fun same => other tail (same ▸ rfl)
        simpa [List.isPrefixOf] using apart.symm
    rw [markupChildAt, open_]
    rfl
  · rfl
  · rfl
  · next closing opening braces reference =>
    cases ahead with
    | nil => rfl
    | cons letter tail =>
      have others : '<' ≠ letter ∧ '\x7b' ≠ letter ∧ '&' ≠ letter :=
        ⟨fun same => opening tail (same ▸ rfl), fun same => braces tail (same ▸ rfl),
          fun same => reference tail (same ▸ rfl)⟩
      simp [markupChildAt, List.isPrefixOf, others]

end Readers

namespace Scan

variable {c d : Cursor} {text : String} {a : Bool}

theorem reads_seesText :
    (seesText text).Reads c a d ↔ a = text.toList.isPrefixOf (tokenText c.rest) ∧ d = c := by
  simp [seesText, reads_bind, Cursor.rest_tokenAfter, and_comm]

theorem reads_acceptText : (acceptText text).Reads c a d ↔
    if text.toList.isPrefixOf (tokenText c.rest) = true then a = true ∧ d = c.past text.length
    else a = false ∧ d = c := by
  by_cases starts : text.toList.isPrefixOf (tokenText c.rest) = true <;>
    simp [acceptText, reads_bind, reads_seesText, starts]

end Scan

namespace Border

variable {b : Border} {read read' : Readers} {depth : Nat} {c d first first' : Cursor} {mode : Mode}
variable {α : Type} [Alone α] {ends : Cursor → Prop} {text : String}

theorem Clear.tagText (clear : b.Clear c) (valid : b.Valid c) (known : text ∈ tagTexts) :
    text.toList.isPrefixOf (tokenText (b.moved c).rest) =
      text.toList.isPrefixOf (tokenText c.rest) := by
  obtain ⟨front, token⟩ := Script.Clear.tokenText_eq clear
  obtain ⟨blanks, whole, blank⟩ := within_of_tokenText token
  have ends := valid.comments _ whole
  rw [whole] at blank
  rw [token, moved, whole, swap_append, tokenText_append b.meets ends blank]
  exact isPrefixOf_tagText b.meets known front

theorem follows_seesText {next next' : Bool → Scan α} (known : text ∈ tagTexts)
    (follows : b.Follows b.Clear ends (next (text.toList.isPrefixOf (tokenText c.rest)))
      (next' (text.toList.isPrefixOf (tokenText c.rest))) c) :
    b.Follows b.Clear ends (seesText text >>= next) (seesText text >>= next') c := by
  intro a d valid reads ended
  obtain ⟨seen, m, found, nextReads⟩ := reads_bind.mp reads
  obtain ⟨rfl, rfl⟩ := reads_seesText.mp found
  obtain ⟨clear, a', reads', same⟩ := follows a d valid nextReads ended
  exact ⟨clear, a', reads_bind.mpr ⟨_, _, reads_seesText.mpr ⟨(clear.tagText valid known).symm, rfl⟩, reads'⟩,
    same⟩

/-- After such a text, what comes next need not be tokens. -/
theorem follows_acceptText {next next' : Bool → Scan α} (known : text ∈ tagTexts)
    (accepted : ∀ m, c.Leads m → m.rest.length < c.rest.length →
      b.Follows b.Inside ends (next true) (next' true) m)
    (refused : b.Follows b.Clear ends (next false) (next' false) c) :
    b.Follows b.Clear ends (acceptText text >>= next) (acceptText text >>= next') c := by
  intro a d valid reads ended
  obtain ⟨found, m, here, nextReads⟩ := reads_bind.mp reads
  have texts := reads_acceptText.mp here
  split at texts
  · next starts =>
    obtain ⟨rfl, rfl⟩ := texts
    have positive : ∀ text ∈ tagTexts, text.length ≠ 0 := by decide
    have left : tokenText c.rest ≠ [] := by
      intro none
      have nonempty : ∀ text ∈ tagTexts, text.toList.isPrefixOf [] = false := by decide
      rw [none, nonempty text known] at starts
      cases starts
    have passes : (pass text.length).Passes c := passes_pass
      (Cursor.beyond_past (positive text known) (by rw [Cursor.rest_tokenAfter]; exact left))
    have shorter := (reads_pass.mpr rfl : (pass text.length).Reads c () _).ensured passes.consumes
    obtain ⟨inside, a', reads', same⟩ := accepted _ here.leads shorter a d (valid.later here.leads)
      nextReads ended
    obtain ⟨front, token, before⟩ := token_of_past left (positive text known) inside
    have clear : b.Clear c := .other token before (by rw [← token]; exact Lexeme.first_tagText known starts)
    refine ⟨clear, a', reads_bind.mpr ⟨true, _, reads_acceptText.mpr ?_, reads'⟩, same⟩
    rw [clear.tagText valid known, if_pos starts]
    exact ⟨rfl, moved_past valid clear inside⟩
  · next starts =>
    obtain ⟨rfl, rfl⟩ := texts
    obtain ⟨clear, a', reads', same⟩ := refused a d valid nextReads ended
    refine ⟨clear, a', reads_bind.mpr ⟨false, _, reads_acceptText.mpr ?_, reads'⟩, same⟩
    rw [clear.tagText valid known, if_neg starts]
    exact ⟨rfl, rfl⟩

/-- Of the part of a name that goes on after a hyphen, the first word is a token of its own. -/
theorem follows_pass_markupPart (part : markupNameLength (c.tokenAfter 0).rest ≠ 0) :
    b.Follows b.Clear b.Clear (pass (markupNameLength (c.tokenAfter 0).rest))
      (pass (markupNameLength (c.tokenAfter 0).rest)) c := by
  intro a d valid reads later
  obtain rfl := reads_pass.mp reads
  rw [Cursor.rest_tokenAfter] at part later ⊢
  obtain ⟨front, token, before⟩ := token_of_past (tokenText_of_markupPart part) part later.inside
  have clear : b.Clear c := by
    have name := nameLength_of_markupPart part
    have first := Lexeme.first_of_nameLength name
    have length : (Lexeme.first (front ++ b.old)).length = nameLength (tokenText c.rest) := by
      rw [← token, first, Lexeme.length, String.length_ofList, List.length_take,
        Nat.min_eq_left (nameLength_le _)]
    refine .chained token before (by rw [← token, first]; rfl) ?_
    rw [length, ← token]
    rcases markupNameLength_cases (tokenText c.rest) with whole | ⟨tail, hyphen, longer⟩
    · rw [Border.Clear, Cursor.rest_past, whole] at later
      exact later
    · have inside := later.inside
      obtain ⟨further, left⟩ := inside
      rw [Cursor.rest_past] at left
      have counted := congrArg List.length left
      have total := congrArg List.length hyphen
      have sum := congrArg List.length token
      simp only [List.length_drop, List.length_append, List.length_cons] at counted total sum
      have short : nameLength (tokenText c.rest) < front.length := by omega
      have rest : (tokenText c.rest).drop (nameLength (tokenText c.rest)) =
          front.drop (nameLength (tokenText c.rest)) ++ b.old := by
        conv_lhs => rw [token, List.drop_append_of_le_length (token ▸ Nat.le_of_lt short)]
        rw [token]
      have text : tokenText ('-' :: tail) = '-' :: tail := by
        have blank : isSpace '-' = false := by decide
        simp [tokenText, triviaLength, Trivia.lengthFrom, blank]
      rw [hyphen]
      refine .other (text.trans (hyphen.symm.trans rest)) (by simpa using short) ?_
      rw [← rest, hyphen]
      exact Lexeme.first_tagLetter (by decide) tail
  exact ⟨clear, (), reads_pass.mpr (moved_past valid clear later.inside), rfl⟩

theorem follows_markupPart : b.Follows b.Clear b.Clear markupPart markupPart c := by
  refine follows_ahead fun first' near => ?_
  dsimp only
  refine Follows.assuming_reads fun a d reads clear => ?_
  obtain ⟨_, m, required, reads⟩ := reads_bind.mp reads
  obtain ⟨given, rfl⟩ := reads_require.mp required
  obtain rfl := reads_pass.mp reads
  have part : markupNameLength (m.tokenAfter 0).rest ≠ 0 := by simpa using given
  have left : tokenText m.rest ≠ [] := by
    rw [Cursor.rest_tokenAfter] at part
    exact tokenText_of_markupPart part
  have same := near.measured markupNameLength left part clear.inside fun front _ before short =>
    markupNameLength_append b.meets (before ▸ short)
  rw [same]
  exact follows_require fun _ => follows_pass_markupPart part

theorem follows_markupName : b.Follows b.Clear b.Clear markupName markupName c := by
  refine follows_then follows_markupPart fun _ m _ => ?_
  refine follows_then (follows_many (fun _ clear => clear.inside) (fun d _ => ?_) fun d _ => ?_)
    fun _ _ _ => follows_pure rfl
  · refine advances_next ?_
    split
    · next found => exact (passes_passMark found).consumes.advances _
    · next found => exact (passes_passMark found).consumes.advances _
    · exact advances_none
  · refine follows_next ?_
    split
    · next found =>
      exact follows_then (follows_passMark found) fun _ _ _ =>
        follows_then follows_markupPart fun _ _ _ => follows_pure rfl
    · next found =>
      exact follows_then (follows_passMark found) fun _ _ _ =>
        follows_then follows_markupPart fun _ _ _ => follows_pure rfl
    · exact follows_pure rfl

/-- After a text that has to come. -/
theorem follows_requireText {next next' : Scan α} (known : text ∈ tagTexts)
    (follows : ∀ m, c.Leads m → m.rest.length < c.rest.length →
      b.Follows b.Inside ends next next' m) :
    b.Follows b.Clear ends (do require (← acceptText text); next)
      (do require (← acceptText text); next') c :=
  follows_acceptText known (fun m leads shorter => follows_require fun _ => follows m leads shorter)
    follows_unexpected_bind

theorem passes_markupPart : markupPart.Passes c := by
  refine passes_ahead ?_
  refine passes_require fun given => ?_
  have part : markupNameLength (c.tokenAfter 0).rest ≠ 0 := by simpa using given
  exact passes_pass (Cursor.beyond_past part (tokenText_of_markupPart part))

namespace Tied

variable (tied : b.Tied read read' depth)

include tied

theorem markupBraces (room : b.Room depth 1 c) :
    b.Follows b.Clear b.Inside read.markupBraces read'.markupBraces c := by
  refine follows_then (follows_expectMark _) fun _ m opened => ?_
  have room := room.later opened.leads
  refine follows_acceptText (by decide) (fun _ _ _ => follows_pure rfl) ?_
  refine follows_bind (tied.spreadable room) fun piece piece' n reads same => ?_
  rw [Piece.value_eq same]
  refine follows_require fun _ => ?_
  have room := room.later reads.leads
  refine follows_then (tied.sequenceFrom (room.mono (by omega))) fun _ o _ => ?_
  exact follows_acceptText (by decide) (fun _ _ _ => follows_required _) follows_unexpected

theorem markupAttributeValue (room : b.Room depth 1 c) :
    b.Follows b.Clear b.Clear read.markupAttributeValue read'.markupAttributeValue c := by
  refine follows_ahead fun first' near => ?_
  rw [near.lexeme]
  dsimp only
  split
  · next mark found =>
    refine Follows.assuming_reads fun a d reads clear => ?_
    obtain ⟨_, m, required, reads⟩ := reads_bind.mp reads
    obtain ⟨given, rfl⟩ := reads_require.mp required
    obtain rfl := reads_pass.mp reads
    have left : tokenText m.rest ≠ [] := tokenText_ne_nil (by simp [found])
    have both := near.measured (fun text => (((text.drop 1).takeWhile (· != mark)).length,
        decide (((text.drop 1).takeWhile (· != mark)).length + 1 < text.length))) left (by omega)
        clear.inside fun front nonempty before short => ?_
    · obtain ⟨length, longer⟩ := Prod.mk.inj both
      rw [longer, length]
      exact follows_require fun _ => follows_pass found (by simp) (by omega) (by simp [Lexeme.chained])
    · obtain ⟨letter, front, rfl⟩ := List.exists_cons_of_ne_nil nonempty
      rw [before] at short
      simp only [List.cons_append, List.drop_succ_cons, List.drop_zero, List.length_cons,
        List.length_append] at short ⊢
      have within : ((front ++ b.old).takeWhile (· != mark)).length ≤ front.length := by omega
      rw [takeWhile_append_of_within b.meets within]
      simp only [Prod.mk.injEq, decide_eq_decide, true_and]
      omega
  · split
    · exact (tied.markupBraces room).to_clear
    · exact follows_bind (tied.markup c (room.mono (by omega))).to_clear fun _ _ _ _ _ =>
        follows_pure rfl

theorem markupAttributes (room : b.Room depth 1 c) :
    b.Follows b.Clear b.Clear read.markupAttributes read'.markupAttributes c := by
  refine follows_then (follows_many (fun _ clear => clear.inside) (fun d leads => ?_) fun d leads => ?_)
    fun _ _ _ => follows_pure rfl
  · refine advances_bind fun closes m _ => advances_bind fun closed n _ => ?_
    split
    · exact advances_none
    · refine advances_bind fun braces o _ => ?_
      split
      · exact (passes_bind (passes_expectMark _) _).consumes.advances _
      · exact (passes_bind passes_markupPart _).consumes.advances _
  · refine follows_seesText (by decide) (follows_seesText (by decide) ?_)
    split
    · exact follows_pure rfl
    · refine follows_sees ?_
      split
      · exact follows_then (tied.markupBraces (room.later leads)).to_clear fun _ _ _ =>
          follows_pure rfl
      · refine follows_then follows_markupName fun _ m named => ?_
        refine follows_acceptText (by decide) (fun n further _ => ?_) (follows_pure rfl)
        have room := room.later (leads.trans (named.leads.trans further))
        exact follows_then (tied.markupAttributeValue room).of_inside fun _ _ _ => follows_pure rfl

theorem markupChildAdvances : (read.markupChildAt c.rest).Advances c := by
  unfold Readers.markupChildAt
  split
  · have closes : ∀ o : Cursor, (acceptText ">" >>= fun closed => do
        require closed
        pure (none : Option Unit)).Advances o := fun o =>
      advances_bind fun _ _ _ => advances_bind fun _ _ _ => advances_none
    refine advances_bind fun _ m _ => advances_bind fun closed n _ => ?_
    cases closed with
    | true => exact closes n
    | false => exact advances_bind fun _ o _ => closes o
  · split
    · exact (tied.markupPasses c).consumes.advances _
    · split
      · exact (passes_bind (passes_expectMark _) _).consumes.advances _
      · split
        · next starts =>
          split
          · next length _ =>
            have left : c.rest ≠ [] := by
              intro none
              simp [none] at starts
            rw [Advances, ensures_bind, ensures_advance]
            exact ensures_of_leads fun _ d leads _ =>
              Nat.lt_of_le_of_lt leads.length_le (drop_shorter (Nat.succ_ne_zero length) left)
          · exact ensures_unexpected _
        · exact ensures_unexpected _

theorem markupChild (room : b.Room depth 1 c) :
    b.Follows b.Inside b.Inside (read.markupChildAt c.rest) (read'.markupChildAt (b.moved c).rest) c := by
  refine Follows.assuming_inside (fun _ inside => inside) fun inside => ?_
  obtain ⟨front, before⟩ := inside
  have after : (b.moved c).rest = front ++ b.new := by rw [moved, before, swap_append]
  have kept : ∀ {mark : List Char}, isForeign mark = true →
      mark.isPrefixOf (b.moved c).rest = mark.isPrefixOf c.rest := by
    intro mark foreign
    rw [before, after, isPrefixOf_append b.meets foreign (.inr rfl),
      isPrefixOf_append b.meets foreign (.inl rfl)]
  unfold Readers.markupChildAt
  refine follows_if (kept (by decide)) (fun starts => ?_) fun _ => ?_
  · obtain ⟨tail, characters⟩ := List.isPrefixOf_iff_prefix.mp starts
    have token : (c.tokenAfter 0).lexeme = Lexeme.first ('<' :: '/' :: tail) := by
      rw [Cursor.lexeme_tokenAfter, ← characters]
      exact congrArg Lexeme.first (tokenText_tag _)
    have apart := Lexeme.first_tagLetter (c := '<') (by decide) ('/' :: tail)
    have finish := Lexeme.first_ne_finish '<' ('/' :: tail)
    refine follows_then (follows_pass token finish (by omega) (by simp [apart])).of_inside ?_
    intro _ m _
    refine follows_seesText (by decide) ?_
    split
    · exact follows_requireText (by decide) fun _ _ _ => follows_pure rfl
    · exact follows_then follows_markupName fun _ _ _ =>
        follows_requireText (by decide) fun _ _ _ => follows_pure rfl
  · refine follows_if (kept (by decide)) (fun _ => ?_) fun _ => ?_
    · exact follows_bind (tied.markup c (room.mono (by omega))).of_inside fun _ _ _ _ _ =>
        follows_pure rfl
    · refine follows_if (kept (by decide)) (fun _ => ?_) fun _ => ?_
      · exact follows_then (tied.markupBraces room).of_inside fun _ _ _ => follows_pure rfl
      · refine follows_if (kept (by decide)) (fun starts => ?_) fun _ => ?_
        · split
          · next length measured =>
            refine follows_inside_drop (fun _ inside => inside) fun inside => ?_
            have again : referenceLength? ((b.moved c).rest.drop 1) = some length := by
              rw [← measured]
              refine inside.measured (fun text => referenceLength? (text.drop 1)) fun front before short => ?_
              obtain ⟨letter, front, rfl⟩ := List.exists_cons_of_length_pos (Nat.zero_lt_of_lt short)
              rw [before] at measured
              exact (referenceLength?_append b.meets measured
                (Nat.le_of_succ_le_succ short)).trans measured.symm
            rw [again]
            exact follows_then follows_advance fun _ _ _ => follows_pure rfl
          · exact follows_unexpected
        · exact follows_unexpected

theorem markupChildren (room : b.Room depth 1 c) :
    b.Follows b.Inside b.Inside read.markupChildren read'.markupChildren c := by
  rw [markupChildren_eq, markupChildren_eq]
  refine follows_then (follows_many (fun _ inside => inside) (fun d leads => ?_) fun d leads => ?_)
    fun _ _ _ => follows_pure rfl
  · refine advances_bind fun here m _ => advances_bind fun _ n _ => ?_
    rw [Advances, ensures_bind, ensures_cursor]
    exact tied.markupChildAdvances
  · refine follows_cursor ?_
    refine follows_inside_drop (fun _ inside => inside) fun inside => ?_
    have again := inside.measured
      (fun text => (text.takeWhile (!"<>&\x7b\x7d".toList.contains ·)).length) fun front before short => by
        rw [before] at short
        exact congrArg List.length (takeWhile_append_of_within b.meets short)
    rw [again]
    refine follows_then follows_advance fun _ m advanced => follows_cursor ?_
    exact tied.markupChild (room.later (leads.trans advanced.leads))

theorem nextMarkup (room : b.Room (depth + 1) 0 c) :
    b.Follows b.Clear b.Inside read.markup read'.markup c := by
  refine follows_ahead fun first' near => ?_
  have element : ∀ {kind : Kind} {m : Cursor}, b.Follows b.Inside b.Inside
      (do return Piece.ofValue (.other (← extentFrom (c.tokenAfter 0)) kind))
      (do return Piece.ofValue (.other (← extentFrom first') kind)) m := fun {kind} _ =>
    follows_bind (follows_extentFrom_raw (fun _ inside => inside) near) fun _ _ _ _ place =>
      follows_pure (congrArg (fun extent => Piece.ofValue (.other extent kind)) place)
  refine follows_requireText (by decide) fun m _ shorter => ?_
  have room : b.Room depth 1 m := (room.consumed shorter).inner
  refine (follows_acceptText (by decide) (fun n leads _ => ?_) ?_).of_inside
  · exact follows_then (tied.markupChildren (room.later leads)) fun _ _ _ => element
  · refine follows_then follows_markupName fun _ n named => ?_
    have room := room.later named.leads
    refine follows_then (tied.markupAttributes room) fun _ o attributes => ?_
    have room := room.later attributes.leads
    refine follows_acceptText (by decide) (fun _ _ _ => element) ?_
    refine follows_requireText (by decide) fun p leads _ => ?_
    exact follows_then (tied.markupChildren (room.later leads)) fun _ _ _ => element

end Tied

end Border

end ImportRedirect.Script
