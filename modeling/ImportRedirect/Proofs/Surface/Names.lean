import ImportRedirect.Surface
import Mathlib.Data.Finset.Card

/-!
What a surface is when it is built from names and from others that it leaves out: the names that are
left, each of them once and where it comes first. Looking a name up without regard to the case of its
letters finds the first of them that fits.
-/

namespace ImportRedirect

variable {seen names excludes : List String} {name other first found : String}

/-- Places in a list with one more name at its front come in the same order for all other names. -/
theorem pairwise_idxOf_cons {some : List String} (others : ∀ name ∈ some, name ≠ first)
    (ordered : some.Pairwise fun x y => names.idxOf x < names.idxOf y) :
    some.Pairwise fun x y => (first :: names).idxOf x < (first :: names).idxOf y := by
  refine ordered.imp_of_mem fun {x y} membership later before => ?_
  rw [List.idxOf_cons_ne _ (others x membership).symm, List.idxOf_cons_ne _ (others y later).symm]
  exact Nat.succ_lt_succ before

/-- Names that were seen before are gone, so that each of the others stands where it comes first. -/
theorem pairwise_idxOf_distinctNames (seen names : List String) :
    (distinctNames seen names).Pairwise fun x y => names.idxOf x < names.idxOf y := by
  induction names generalizing seen with
  | nil => exact .nil
  | cons first rest inductionHypothesis =>
    have apart : ∀ {seen}, first ∈ seen → ∀ name ∈ distinctNames seen rest, name ≠ first := by
      rintro seen known name membership rfl
      exact (mem_distinctNames.mp membership).2 known
    by_cases known : first ∈ seen
    · rw [distinctNames, if_pos (by simpa using known)]
      exact pairwise_idxOf_cons (apart known) (inductionHypothesis seen)
    · rw [distinctNames, if_neg (by simpa using known)]
      have others := @apart (first :: seen) List.mem_cons_self
      refine .cons (fun name membership => ?_) (pairwise_idxOf_cons others (inductionHypothesis _))
      rw [List.idxOf_cons_self, List.idxOf_cons_ne _ (others name membership).symm]
      exact Nat.succ_pos _

/-- A name that comes again is not the first of its kind, so leaving it out changes no search. -/
theorem find?_distinctNames (p : String → Bool) (seen names : List String) :
    (distinctNames seen names).find? p = names.find? fun name => !seen.contains name && p name := by
  induction names generalizing seen with
  | nil => rfl
  | cons first rest inductionHypothesis =>
    by_cases known : first ∈ seen
    · rw [distinctNames, if_pos (by simpa using known), List.find?_cons_of_neg (by simp [known]),
        inductionHypothesis]
    · rw [distinctNames, if_neg (by simpa using known)]
      cases fits : p first with
      | true => rw [List.find?_cons_of_pos fits, List.find?_cons_of_pos (by simp [known, fits])]
      | false =>
        rw [List.find?_cons_of_neg (by simp [fits]), List.find?_cons_of_neg (by simp [fits]),
          inductionHypothesis]
        -- The name just passed does not fit, so it makes no difference that it has been seen.
        refine congrArg (rest.find? ·) (funext fun name => ?_)
        by_cases same : name = first
        · simp [same, fits]
        · simp [same]

namespace Surface

variable {surface : Surface} {module : Option String}

theorem covers_iff_mem : surface.covers name = true ↔ name ∈ surface.names := List.contains_iff_mem

theorem size_ofNames :
    (ofNames names excludes module).size = (names.toFinset \ excludes.toFinset).card := by
  have distinct : (distinctNames excludes names).toFinset = names.toFinset \ excludes.toFinset := by
    ext name
    simp [mem_distinctNames]
  rw [← distinct, List.toFinset_card_of_nodup (nodup_distinctNames excludes names)]
  rfl

theorem resolveCasing_eq_some_iff :
    surface.resolveCasing name = some found ↔
      Text.lower found = Text.lower name ∧ ∃ earlier later,
        surface.names = earlier ++ found :: later ∧
        ∀ before ∈ earlier, Text.lower before ≠ Text.lower name := by
  simp [resolveCasing, List.find?_eq_some_iff_append]

theorem resolveCasing_eq_none_iff :
    surface.resolveCasing name = none ↔
      ∀ other ∈ surface.names, Text.lower other ≠ Text.lower name := by
  simp [resolveCasing]

theorem covers_of_resolveCasing (resolved : surface.resolveCasing name = some found) :
    surface.covers found = true ∧ Text.lower found = Text.lower name := by
  obtain ⟨alike, earlier, later, listed, _⟩ := resolveCasing_eq_some_iff.mp resolved
  exact ⟨covers_iff_mem.mpr (by simp [listed]), alike⟩

/-- A covered name is found whatever the case of its letters, though another one may come first. -/
theorem resolveCasing_of_covers (covered : surface.covers other = true)
    (alike : Text.lower other = Text.lower name) : ∃ found, surface.resolveCasing name = some found := by
  rw [← Option.isSome_iff_exists, resolveCasing, List.find?_isSome]
  exact ⟨other, covers_iff_mem.mp covered, beq_iff_eq.mpr alike⟩

/-- No name that stands before the one that was found would have fitted as well. -/
theorem lower_ne_of_before (resolved : surface.resolveCasing name = some found)
    (precedes : surface.names.idxOf other < surface.names.idxOf found) :
    Text.lower other ≠ Text.lower name := by
  obtain ⟨_, earlier, later, listed, first⟩ := resolveCasing_eq_some_iff.mp resolved
  have nodup := surface.nodup
  rw [listed] at nodup precedes
  have fresh : found ∉ earlier := fun membership =>
    (List.nodup_append.mp nodup).2.2 found membership found List.mem_cons_self rfl
  rw [List.idxOf_append_of_notMem fresh, List.idxOf_cons_self] at precedes
  refine first other ?_
  by_contra missing
  rw [List.idxOf_append_of_notMem missing] at precedes
  omega

/-- A surface that is built from names has the ones that are not left out, each once and in the order
in which they come first, and finds the first of them that differs from a name only in the case of its
letters. -/
theorem ofNames_registers (names excludes : List String) (module : Option String) :
    let surface := ofNames names excludes module
    (∀ name, surface.covers name = true ↔ name ∈ names ∧ name ∉ excludes) ∧
      (∀ name, surface.names.count name = if surface.covers name then 1 else 0) ∧
      (surface.names.Pairwise fun x y => names.idxOf x < names.idxOf y) ∧
      surface.size = (names.toFinset \ excludes.toFinset).card ∧
      (∀ name found, surface.resolveCasing name = some found →
        surface.covers found = true ∧ Text.lower found = Text.lower name ∧
          ∀ other, surface.covers other = true →
            surface.names.idxOf other < surface.names.idxOf found →
              Text.lower other ≠ Text.lower name) ∧
      (∀ name, surface.resolveCasing name = none ↔
        ∀ other, surface.covers other = true → Text.lower other ≠ Text.lower name) ∧
      (∀ name, surface.covers name = true → surface.resolveCasing name ≠ none) ∧
      ∀ name, surface.resolveCasing name = names.find? fun other =>
        !excludes.contains other && Text.lower other == Text.lower name := by
  intro surface
  refine ⟨fun name => covers_ofNames, fun name => ?_, pairwise_idxOf_distinctNames excludes names,
    size_ofNames, fun name found resolved => ?_, fun name => ?_, fun name covered => ?_, fun name => ?_⟩
  · rw [surface.nodup.count]
    simp only [covers_iff_mem]
  · obtain ⟨covered, alike⟩ := covers_of_resolveCasing resolved
    exact ⟨covered, alike, fun other _ precedes => lower_ne_of_before resolved precedes⟩
  · simp only [resolveCasing_eq_none_iff, covers_iff_mem]
  · obtain ⟨found, resolved⟩ := resolveCasing_of_covers covered rfl
    simp [resolved]
  · exact find?_distinctNames _ excludes names

end Surface

end ImportRedirect
