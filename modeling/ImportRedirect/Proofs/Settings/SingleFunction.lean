import ImportRedirect.Proofs.Surface.Names
import ImportRedirect.Statement.Classify

/-!
The modules that hold a single function. Their names form a small language: a file below a legacy
module, or a package of a legacy family, in both cases with one newline allowed at the end. The
classifier reads this language and no more, and a package's function is looked up in the surface
whatever the case of its letters.
-/

namespace ImportRedirect

namespace Settings

variable {settings : Settings} {module legacy package function other : String}

/-- A name of word characters. -/
structure IsWord (name : String) : Prop where
  some : name ≠ ""
  word : ∀ c ∈ name.toList, Text.isWord c = true

/-- The module is spelled like this; one newline may follow. -/
def IsSpelled (module spelling : String) : Prop := module = spelling ∨ module = spelling ++ "\n"

/-- The module is the file of a function below a legacy module. -/
structure IsFile (settings : Settings) (module legacy function : String) : Prop where
  word : IsWord function
  spelled : ∃ extension ∈ settings.singleFileExtensions,
    IsSpelled module (legacy ++ "/" ++ function ++ "." ++ extension)

/-- The module is the package of a function of a legacy family. -/
structure IsPackage (module package function : String) : Prop where
  word : IsWord function
  spelled : IsSpelled module (package ++ "." ++ function)

/-- The module is the file of a function below a legacy module, and of no function below an earlier
one. -/
def HoldsFile (settings : Settings) (module function : String) : Prop :=
  ∃ earlier legacy later, settings.legacyModules = earlier ++ legacy :: later ∧
    settings.IsFile module legacy function ∧
    ∀ before ∈ earlier, ∀ other, ¬ settings.IsFile module before other

/-- The module is the package of a function. -/
def HoldsPackage (settings : Settings) (module function : String) : Prop :=
  ∃ package ∈ settings.dottedPrefixes, IsPackage module package function

section Reading

variable {text front rest word tail : List Char}

theorem afterText?_eq_some_iff {front : String} :
    afterText? front text = some rest ↔ text = front.toList ++ rest := by
  rw [afterText?, ← String.length_toList]
  split
  · next fits =>
    obtain ⟨after, rfl⟩ := List.isPrefixOf_iff_prefix.mp fits
    simp [eq_comm]
  · next differs =>
    refine ⟨by simp, fun same => absurd ?_ differs⟩
    rw [same]
    exact List.isPrefixOf_iff_prefix.mpr (List.prefix_append _ _)

theorem wordFront?_eq_some_iff : wordFront? text = some (word, rest) ↔
    word ≠ [] ∧ (∀ c ∈ word, Text.isWord c = true) ∧ rest.head?.any Text.isWord = false ∧
      text = word ++ rest := by
  have split : text = text.takeWhile Text.isWord ++ text.dropWhile Text.isWord :=
    List.takeWhile_append_dropWhile.symm
  constructor
  · intro read
    rw [wordFront?] at read
    cases front : text.takeWhile Text.isWord with
    | nil => simp [front] at read
    | cons c others =>
      obtain ⟨rfl, rfl⟩ : c :: others = word ∧ text.dropWhile Text.isWord = rest := by
        simpa [front] using read
      refine ⟨by simp, ?_, ?_, front ▸ split⟩
      · rw [← front]
        exact List.all_eq_true.mp List.all_takeWhile
      · have last := List.head?_dropWhile_not Text.isWord text
        cases first : (text.dropWhile Text.isWord).head? with
        | none => rfl
        | some c => simpa [first] using last
  · rintro ⟨nonempty, isWord, ends, rfl⟩
    have front : (word ++ rest).takeWhile Text.isWord = word := by
      rw [List.takeWhile_append_of_pos isWord]
      cases rest with
      | nil => simp
      | cons c others => simp_all
    have back : (word ++ rest).dropWhile Text.isWord = rest := by
      rw [List.dropWhile_append_of_pos isWord]
      cases rest with
      | nil => rfl
      | cons c others => simp_all
    rw [wordFront?, front, back]
    cases word with
    | nil => exact absurd rfl nonempty
    | cons c others => rfl

theorem isWhole_iff {characters : List Char} :
    isWhole text characters = true ↔ characters = text ∨ characters = text ++ ['\n'] := by
  simp [isWhole]

end Reading

/-- The function whose file below this legacy module the module is. -/
def fileFunction? (settings : Settings) (module legacy : String) : Option String :=
  match afterText? (legacy ++ "/") module.toList with
  | none => none
  | some rest =>
    match wordFront? rest with
    | some (word, '.' :: extension) =>
      if settings.singleFileExtensions.any fun known => isWhole known.toList extension then
        some (String.ofList word)
      else none
    | _ => none

/-- The function whose package of this family the module is. -/
def packageFunction? (module package : String) : Option String :=
  match afterText? (package ++ ".") module.toList with
  | none => none
  | some rest =>
    match wordFront? rest with
    | some (word, tail) => if isWhole [] tail then some (String.ofList word) else none
    | none => none

theorem deepName?_eq (someLegacy : settings.legacyModules ≠ [])
    (someExtension : settings.singleFileExtensions ≠ []) :
    settings.deepName? module = settings.legacyModules.findSome? (settings.fileFunction? module) := by
  have legacy : alternatives settings.legacyModules = settings.legacyModules := by
    simp [alternatives, someLegacy]
  have extensions : alternatives settings.singleFileExtensions = settings.singleFileExtensions := by
    simp [alternatives, someExtension]
  rw [deepName?, legacy, extensions]
  rfl

theorem dottedName?_eq (somePrefix : settings.dottedPrefixes ≠ []) :
    settings.dottedName? module = settings.dottedPrefixes.findSome? (packageFunction? module) := by
  have packages : alternatives settings.dottedPrefixes = settings.dottedPrefixes := by
    simp [alternatives, somePrefix]
  rw [dottedName?, packages]
  rfl

theorem isSpelled_iff {spelling : String} :
    IsSpelled module spelling ↔
      module.toList = spelling.toList ∨ module.toList = spelling.toList ++ ['\n'] := by
  simp [IsSpelled, ← String.toList_inj]

theorem fileFunction?_eq_some_iff :
    settings.fileFunction? module legacy = some function ↔ settings.IsFile module legacy function := by
  constructor
  · intro read
    rw [fileFunction?] at read
    split at read
    · cases read
    · next rest after =>
      split at read
      · next word extension front =>
        split at read
        · next known =>
          obtain ⟨nonempty, isWord, _, rfl⟩ := wordFront?_eq_some_iff.mp front
          obtain rfl := Option.some.inj read
          obtain ⟨spelled, listed, whole⟩ := List.any_eq_true.mp known
          refine ⟨⟨by simpa using nonempty, by simpa using isWord⟩, spelled, listed, ?_⟩
          rw [isSpelled_iff, afterText?_eq_some_iff.mp after]
          rcases isWhole_iff.mp whole with rfl | rfl
          · exact .inl (by simp)
          · exact .inr (by simp)
        · cases read
      · cases read
  · rintro ⟨⟨nonempty, isWord⟩, extension, listed, spelled⟩
    obtain ⟨tail, whole, after⟩ : ∃ tail, isWhole extension.toList tail = true ∧
        module.toList = (legacy ++ "/").toList ++ (function.toList ++ '.' :: tail) := by
      rcases isSpelled_iff.mp spelled with same | same
      · exact ⟨_, isWhole_iff.mpr (.inl rfl), by simp [same]⟩
      · exact ⟨_, isWhole_iff.mpr (.inr rfl), by simp [same]⟩
    have front : wordFront? (function.toList ++ '.' :: tail) = some (function.toList, '.' :: tail) :=
      wordFront?_eq_some_iff.mpr ⟨by simpa using nonempty, isWord, rfl, rfl⟩
    have known : settings.singleFileExtensions.any
        (fun known => isWhole known.toList tail) = true :=
      List.any_eq_true.mpr ⟨extension, listed, whole⟩
    simp [fileFunction?, afterText?_eq_some_iff.mpr after, front, known]

theorem packageFunction?_eq_some_iff :
    packageFunction? module package = some function ↔ IsPackage module package function := by
  constructor
  · intro read
    rw [packageFunction?] at read
    split at read
    · cases read
    · next rest after =>
      split at read
      · next word tail front =>
        split at read
        · next whole =>
          obtain ⟨nonempty, isWord, _, rfl⟩ := wordFront?_eq_some_iff.mp front
          obtain rfl := Option.some.inj read
          refine ⟨⟨by simpa using nonempty, by simpa using isWord⟩, ?_⟩
          rw [isSpelled_iff, afterText?_eq_some_iff.mp after]
          rcases isWhole_iff.mp whole with rfl | rfl
          · exact .inl (by simp)
          · exact .inr (by simp)
        · cases read
      · cases read
  · rintro ⟨⟨nonempty, isWord⟩, spelled⟩
    obtain ⟨tail, ends, whole, after⟩ : ∃ tail, tail.head?.any Text.isWord = false ∧
        isWhole [] tail = true ∧
        module.toList = (package ++ ".").toList ++ (function.toList ++ tail) := by
      rcases isSpelled_iff.mp spelled with same | same
      · exact ⟨[], rfl, rfl, by simp [same]⟩
      · exact ⟨['\n'], by decide, rfl, by simp [same]⟩
    have front : wordFront? (function.toList ++ tail) = some (function.toList, tail) :=
      wordFront?_eq_some_iff.mpr ⟨by simpa using nonempty, isWord, ends, rfl⟩
    simp [packageFunction?, afterText?_eq_some_iff.mpr after, front, whole]

/-- A package has one function, since no word has a point in it. -/
theorem IsPackage.unique {family : String} (names : IsPackage module package function)
    (again : IsPackage module family other) : function = other := by
  have read : ∀ {package function : String}, IsPackage module package function →
      (module.toList.reverse.dropWhile (· == '\n')).takeWhile Text.isWord =
        function.toList.reverse := by
    rintro package function ⟨⟨nonempty, isWord⟩, spelled⟩
    have word : ∀ c ∈ function.toList.reverse, Text.isWord c = true := by simpa using isWord
    obtain ⟨last, others, reversed⟩ := List.exists_cons_of_ne_nil
      (show function.toList.reverse ≠ [] by simpa using nonempty)
    have noNewline : last ≠ '\n' := by
      rintro rfl
      exact absurd (word '\n' (by simp [reversed])) (by decide)
    have whole : (function.toList.reverse ++ '.' :: package.toList.reverse).takeWhile Text.isWord =
        function.toList.reverse := by
      rw [List.takeWhile_append_of_pos word]
      simp [show Text.isWord '.' = false by decide]
    rw [reversed] at whole ⊢
    rcases isSpelled_iff.mp spelled with same | same
    · simpa [same, reversed, noNewline] using whole
    · simpa [same, reversed, noNewline] using whole
  rw [← String.toList_inj, ← List.reverse_inj, ← read names, ← read again]

theorem deepName?_eq_some_iff (someLegacy : settings.legacyModules ≠ [])
    (someExtension : settings.singleFileExtensions ≠ []) :
    settings.deepName? module = some function ↔ settings.HoldsFile module function := by
  rw [deepName?_eq someLegacy someExtension, List.findSome?_eq_some_iff]
  simp only [HoldsFile, fileFunction?_eq_some_iff, Option.eq_none_iff_forall_ne_some, ne_eq]

theorem dottedName?_eq_some_iff (somePrefix : settings.dottedPrefixes ≠ []) :
    settings.dottedName? module = some function ↔ settings.HoldsPackage module function := by
  rw [dottedName?_eq somePrefix]
  constructor
  · intro read
    obtain ⟨package, listed, found⟩ := List.exists_of_findSome?_eq_some read
    exact ⟨package, listed, packageFunction?_eq_some_iff.mp found⟩
  · rintro ⟨package, listed, names⟩
    cases read : settings.dottedPrefixes.findSome? (packageFunction? module) with
    | none =>
      have unread := List.findSome?_eq_none_iff.mp read package listed
      rw [packageFunction?_eq_some_iff.mpr names] at unread
      cases unread
    | some other =>
      obtain ⟨family, _, found⟩ := List.exists_of_findSome?_eq_some read
      rw [names.unique (packageFunction?_eq_some_iff.mp found)]

end Settings

namespace Surface

/-- The first name of a surface that differs from a function at most in the case of letters, or the
function itself when there is none. -/
inductive Canonical (surface : Surface) (function : String) : String → Prop where
  | known {earlier later : List String} {name : String}
      (listed : surface.names = earlier ++ name :: later)
      (alike : Text.lower name = Text.lower function)
      (first : ∀ before ∈ earlier, Text.lower before ≠ Text.lower function) :
      Canonical surface function name
  | unknown (none : ∀ name ∈ surface.names, Text.lower name ≠ Text.lower function) :
      Canonical surface function function

variable {surface : Surface} {function canonical : String}

theorem canonical_iff :
    surface.Canonical function canonical ↔
      (surface.resolveCasing function).getD function = canonical := by
  constructor
  · rintro (⟨listed, alike, first⟩ | none)
    · rw [resolveCasing_eq_some_iff.mpr ⟨alike, _, _, listed, first⟩, Option.getD_some]
    · rw [resolveCasing_eq_none_iff.mpr none, Option.getD_none]
  · rintro rfl
    cases found : surface.resolveCasing function with
    | none => exact .unknown (resolveCasing_eq_none_iff.mp found)
    | some name =>
      obtain ⟨alike, _, _, listed, first⟩ := resolveCasing_eq_some_iff.mp found
      exact .known listed alike first

/-- A function is covered under its canonical name when it is covered in some case. -/
theorem Canonical.covers_iff (named : surface.Canonical function canonical) :
    surface.covers canonical = true ↔
      ∃ name ∈ surface.names, Text.lower name = Text.lower function := by
  rw [covers, List.contains_iff_mem]
  cases named with
  | known listed alike first =>
    have covered : canonical ∈ surface.names := by simp [listed]
    exact ⟨fun _ => ⟨canonical, covered, alike⟩, fun _ => covered⟩
  | unknown none =>
    refine ⟨fun covered => absurd rfl (none _ covered), ?_⟩
    rintro ⟨name, covered, alike⟩
    exact absurd alike (none name covered)

end Surface

namespace Classifier

/-- The single function that a module holds: that of the file it is, else that of the package it is,
under its canonical name, which is covered when the surface has the name in some case. -/
theorem singleFunction?_language (classifier : Classifier) (module : String)
    (someLegacy : classifier.settings.legacyModules ≠ [])
    (somePrefix : classifier.settings.dottedPrefixes ≠ [])
    (someExtension : classifier.settings.singleFileExtensions ≠ []) :
    (∀ function, classifier.singleFunction? module = some (.deepPath, function) ↔
      classifier.settings.HoldsFile module function) ∧
    (∀ function, classifier.singleFunction? module = some (.dottedPackage, function) ↔
      (∀ other, ¬ classifier.settings.HoldsFile module other) ∧
        ∃ written, classifier.settings.HoldsPackage module written ∧
          classifier.surface.Canonical written function) ∧
    (classifier.singleFunction? module = none ↔
      (∀ other, ¬ classifier.settings.HoldsFile module other) ∧
        ∀ other, ¬ classifier.settings.HoldsPackage module other) ∧
    ∀ function written, classifier.singleFunction? module = some (.dottedPackage, function) →
      classifier.settings.HoldsPackage module written →
      (classifier.surface.covers function = true ↔
        ∃ name ∈ classifier.surface.names, Text.lower name = Text.lower written) := by
  have file : ∀ {function}, classifier.settings.deepName? module = some function ↔
      classifier.settings.HoldsFile module function :=
    Settings.deepName?_eq_some_iff someLegacy someExtension
  have package : ∀ {function}, classifier.settings.dottedName? module = some function ↔
      classifier.settings.HoldsPackage module function := Settings.dottedName?_eq_some_iff somePrefix
  have covered : ∀ function written,
      classifier.singleFunction? module = some (.dottedPackage, function) →
      classifier.settings.HoldsPackage module written →
      classifier.surface.Canonical written function := by
    intro function written single holds
    cases deep : classifier.settings.deepName? module with
    | some other => simp [singleFunction?, deep] at single
    | none =>
      rw [Surface.canonical_iff]
      simpa [singleFunction?, deep, package.mpr holds] using single
  refine ⟨fun function => ?_, fun function => ?_, ?_, fun function written single holds =>
    (covered function written single holds).covers_iff⟩
  · rw [← file, singleFunction?]
    cases deep : classifier.settings.deepName? module with
    | some other => simp
    | none => cases classifier.settings.dottedName? module <;> simp
  · simp only [← file, ← package, Surface.canonical_iff, singleFunction?]
    cases deep : classifier.settings.deepName? module with
    | some other => simp
    | none => cases classifier.settings.dottedName? module <;> simp
  · simp only [← file, ← package, singleFunction?]
    cases deep : classifier.settings.deepName? module with
    | some other => simp
    | none => cases classifier.settings.dottedName? module <;> simp

/-- Two legacy modules that both fit, as one extension is a path itself: the first in the list counts.
-/
theorem singleFunction?_language_overlap :
    let settings : Settings := { Settings.default with
      legacyModules := ["lodash/map.js", "lodash"], singleFileExtensions := ["js/omit.js", "js"] }
    let classifier : Classifier := ⟨settings, .ofNames ["isEqual"] [] none⟩
    settings.legacyModules ≠ [] ∧ settings.dottedPrefixes ≠ [] ∧
      settings.singleFileExtensions ≠ [] ∧
      settings.HoldsFile "lodash/map.js/omit.js" "omit" ∧
      settings.IsFile "lodash/map.js/omit.js" "lodash" "map" ∧
      classifier.singleFunction? "lodash/map.js/omit.js" = some (.deepPath, "omit") ∧
      settings.HoldsPackage "lodash.isequal\n" "isequal" ∧
      classifier.singleFunction? "lodash.isequal\n" = some (.dottedPackage, "isEqual") ∧
      classifier.surface.covers "isEqual" = true := by
  intro settings classifier
  have someLegacy : settings.legacyModules ≠ [] := by decide
  have somePrefix : settings.dottedPrefixes ≠ [] := by decide
  have someExtension : settings.singleFileExtensions ≠ [] := by decide
  have file : settings.HoldsFile "lodash/map.js/omit.js" "omit" :=
    ⟨[], "lodash/map.js", ["lodash"], rfl,
      ⟨⟨by decide, List.all_eq_true.mp (by decide)⟩, "js", by decide, .inl (by decide)⟩, by simp⟩
  have second : settings.IsFile "lodash/map.js/omit.js" "lodash" "map" :=
    ⟨⟨by decide, List.all_eq_true.mp (by decide)⟩, "js/omit.js", by decide, .inl (by decide)⟩
  have package : settings.HoldsPackage "lodash.isequal\n" "isequal" :=
    ⟨"lodash", by decide, ⟨by decide, List.all_eq_true.mp (by decide)⟩, .inr (by decide)⟩
  have single : classifier.singleFunction? "lodash.isequal\n" =
      some (.dottedPackage, "isEqual") := by decide +kernel
  obtain ⟨files, _⟩ := singleFunction?_language classifier "lodash/map.js/omit.js" someLegacy
    somePrefix someExtension
  obtain ⟨_, _, _, covered⟩ := singleFunction?_language classifier "lodash.isequal\n" someLegacy
    somePrefix someExtension
  have alike : ∃ name ∈ classifier.surface.names, Text.lower name = Text.lower "isequal" :=
    ⟨"isEqual", by decide, by decide +kernel⟩
  exact ⟨someLegacy, somePrefix, someExtension, file, second, (files "omit").mpr file, package, single,
    (covered "isEqual" "isequal" single package).mpr alike⟩

end Classifier

end ImportRedirect
