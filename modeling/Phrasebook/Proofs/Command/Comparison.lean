import Phrasebook.Command.Comparison
import Phrasebook.Proofs.Coverage
import Phrasebook.Proofs.Except
import Phrasebook.Proofs.Tree.DottedNames
import Phrasebook.Proofs.Tree.Loading

/-!
# What a comparison lists as missing

A language misses a key of the source if the key is not listed for its file.  For a key with a message in the source
this says that there is no message in the file, except for a key that is listed for a way with a dot in a name
(`missing_iff_not_found`).
-/

namespace Phrasebook

namespace Command

theorem LocaleFile.ordered_of_load {files : Files} {path : String} {tree : Tree} (h : load files path = .ok tree) :
    tree.Ordered := by
  unfold load at h
  obtain ⟨text, -, htree⟩ := Except.bind_eq_ok_iff.1 h
  exact Tree.ordered_of_load (Except.mapError_eq_ok_iff.1 htree)

theorem LocaleFile.isPresent_of_load {files : Files} {path : String} {tree : Tree} (h : load files path = .ok tree) :
    (files path).isPresent = true := by
  unfold load at h
  obtain ⟨text, hcontents, -⟩ := Except.bind_eq_ok_iff.1 h
  rw [Except.mapError_eq_ok_iff] at hcontents
  cases hstate : files path with
  | absent | belowFile =>
    rw [hstate] at hcontents
    cases hcontents
  | directory | unreadable | file => rfl

namespace Comparison

variable {files : Files} {source : String} {languages : List String} {directory : Option String}

theorem fileKeys_of_load {path : String} {tree : Tree} (h : LocaleFile.load files path = .ok tree) :
    fileKeys files path = .ok (Coverage.keySet tree.leafKeys) := by
  unfold fileKeys
  rw [h]
  rfl

theorem languageKeys_of_load {path : String} {tree : Tree} (h : LocaleFile.load files path = .ok tree) :
    languageKeys files path = .ok (Coverage.keySet tree.leafKeys) := by
  unfold languageKeys
  rw [if_pos (LocaleFile.isPresent_of_load h), fileKeys_of_load h]

theorem exists_languageKeys {language : String}
    (h : (files (languagePath source directory language)).isPresent = true →
      ∃ translation, LocaleFile.load files (languagePath source directory language) = .ok translation) :
    ∃ keys, languageKeys files (languagePath source directory language) = .ok keys := by
  by_cases hpresent : (files (languagePath source directory language)).isPresent = true
  · obtain ⟨translation, htranslation⟩ := h hpresent
    exact ⟨_, languageKeys_of_load htranslation⟩
  · refine ⟨[], ?_⟩
    unfold languageKeys
    rw [if_neg hpresent]

/-- There is a row for each language, in the order of the languages. -/
theorem exists_ofFiles {sourceKeys : List String} (hsource : fileKeys files source = .ok sourceKeys)
    (hlanguages : ∀ language ∈ languages,
      ∃ keys, languageKeys files (languagePath source directory language) = .ok keys) :
    ∃ rows, ofFiles files source languages directory = .ok ⟨sourceKeys.length, rows⟩ ∧
      List.Forall₂ (fun language row => ∃ keys, languageKeys files (languagePath source directory language) = .ok keys ∧
        row = Coverage.compare language sourceKeys keys) languages rows := by
  obtain ⟨rows, hrows⟩ : ∃ rows, List.Forall₂ (fun language row =>
      ∃ keys, languageKeys files (languagePath source directory language) = .ok keys ∧
        row = Coverage.compare language sourceKeys keys) languages rows := by
    refine Except.exists_forall₂_iff.2 fun language hmem => ?_
    obtain ⟨keys, hkeys⟩ := hlanguages language hmem
    exact ⟨_, keys, hkeys, rfl⟩
  have hmapM : (languages.mapM fun language => do
      let keys ← languageKeys files (languagePath source directory language)
      return Coverage.compare language sourceKeys keys) = .ok rows := by
    refine Except.mapM_eq_ok_iff.2 (hrows.imp ?_)
    rintro language _ ⟨keys, hkeys, rfl⟩
    rw [hkeys]
    rfl
  refine ⟨rows, ?_, hrows⟩
  unfold ofFiles
  exact Except.bind_eq_ok_iff.2 ⟨sourceKeys, hsource, Except.bind_eq_ok_iff.2 ⟨rows, hmapM, rfl⟩⟩

private theorem mem_missing_iff_of_raw? {tree translation : Tree} {language key : String}
    (hordered : translation.Ordered) (hkey : (tree.raw? key).isSome) :
    key ∈ (Coverage.compare language (Coverage.keySet tree.leafKeys) (Coverage.keySet translation.leafKeys)).missing ↔
      translation.raw? key = none ∧ ¬ translation.HasDottedWay key := by
  have hsource : key ∈ tree.leafKeys := by
    obtain ⟨text, htext⟩ := Option.isSome_iff_exists.1 hkey
    exact Tree.mem_leafKeys_of_raw? htext
  have htarget := Tree.mem_leafKeys_iff hordered (Tree.isSome_parse?_of_raw? hkey)
  rw [Coverage.mem_missing_iff, Coverage.mem_keySet_iff, Coverage.mem_keySet_iff, htarget, not_or]
  simp [hsource]

/-- If the source and the files of the languages that have one hold trees, there is a row for each language.  A key with
a message in the source is missing in a language with a file if it has no message there and is not listed for a way with
a dot in a name, hence just if it has no message there where no name has a dot. -/
theorem missing_iff_not_found {tree : Tree} (hsource : LocaleFile.load files source = .ok tree)
    (hlanguages : ∀ language ∈ languages, (files (languagePath source directory language)).isPresent = true →
      ∃ translation, LocaleFile.load files (languagePath source directory language) = .ok translation) :
    ∃ comparison, ofFiles files source languages directory = .ok comparison ∧
      List.Forall₂ (fun language row => row.language = language ∧
        ∀ translation, LocaleFile.load files (languagePath source directory language) = .ok translation →
          ∀ key, (tree.raw? key).isSome →
            (key ∈ row.missing ↔ translation.raw? key = none ∧ ¬ translation.HasDottedWay key) ∧
              (translation.EveryName (fun name => '.' ∉ name.toList) →
                (key ∈ row.missing ↔ translation.raw? key = none)))
        languages comparison.rows := by
  obtain ⟨rows, hok, hrows⟩ := exists_ofFiles (fileKeys_of_load hsource) fun language hmem =>
    exists_languageKeys (hlanguages language hmem)
  refine ⟨_, hok, hrows.imp ?_⟩
  rintro language _ ⟨keys, hkeys, rfl⟩
  refine ⟨rfl, fun translation htranslation key hkey => ?_⟩
  obtain rfl : Coverage.keySet translation.leafKeys = keys :=
    Except.ok.inj ((languageKeys_of_load htranslation).symm.trans hkeys)
  have hordered := LocaleFile.ordered_of_load htranslation
  have hmissing := @mem_missing_iff_of_raw? tree translation language key hordered hkey
  refine ⟨hmissing, fun hnames => ?_⟩
  rw [hmissing]
  exact and_iff_left (Tree.not_hasDottedWay_of_everyName hnames key)

/-- A name with a dot in the file of a language: a lookup does not find the key, but it counts as translated. -/
theorem dotted_name_not_missing :
    let folder : Folder := ⟨[("en.json", "\x7b\"a\": \x7b\"b\": \"x\"\x7d\x7d"), ("fr.json", "\x7b\"a.b\": \"y\"\x7d")]⟩
    let tree : Tree := .object [("a", .object [("b", .scalar "x")])]
    let translation : Tree := .object [("a.b", .scalar "y")]
    LocaleFile.load folder.files "en.json" = .ok tree ∧
      LocaleFile.load folder.files (languagePath "en.json" none "fr") = .ok translation ∧
      (tree.raw? "a.b").isSome ∧ translation.raw? "a.b" = none ∧
      ofFiles folder.files "en.json" ["fr"] none = .ok ⟨1, [⟨"fr", 1, [], []⟩]⟩ := by
  intro folder tree translation
  exact ⟨rfl, rfl, by decide +kernel, by decide +kernel, by decide +kernel⟩

/-- One key has a message in the file of the language, the other one is above a message there. -/
theorem missing_iff_not_found_two_keys :
    let folder : Folder := ⟨[("en.json", "\x7b\"a\": \x7b\"b\": \"x\"\x7d, \"c\": \"z\"\x7d"),
      ("fr.json", "\x7b\"a\": \x7b\"b\": \"y\"\x7d, \"c\": \x7b\"d.e\": \"w\"\x7d\x7d")]⟩
    let tree : Tree := .object [("a", .object [("b", .scalar "x")]), ("c", .scalar "z")]
    LocaleFile.load folder.files "en.json" = .ok tree ∧
      (∀ language ∈ ["fr", "de"], (folder.files (languagePath "en.json" none language)).isPresent = true →
        ∃ translation, LocaleFile.load folder.files (languagePath "en.json" none language) = .ok translation) ∧
      ∃ comparison row other, ofFiles folder.files "en.json" ["fr", "de"] none = .ok comparison ∧
        comparison.rows = [row, other] ∧ "a.b" ∉ row.missing ∧ "c" ∈ row.missing := by
  intro folder tree
  let translation : Tree := .object [("a", .object [("b", .scalar "y")]), ("c", .object [("d.e", .scalar "w")])]
  have hsource : LocaleFile.load folder.files "en.json" = .ok tree := rfl
  have htranslation : LocaleFile.load folder.files (languagePath "en.json" none "fr") = .ok translation := rfl
  have hlanguages : ∀ language ∈ ["fr", "de"],
      (folder.files (languagePath "en.json" none language)).isPresent = true →
        ∃ translation, LocaleFile.load folder.files (languagePath "en.json" none language) = .ok translation := by
    intro language hmem hpresent
    rcases List.mem_pair.1 hmem with rfl | rfl
    · exact ⟨translation, htranslation⟩
    · exact absurd hpresent (by decide +kernel)
  obtain ⟨comparison, hok, hrows⟩ := missing_iff_not_found hsource hlanguages
  obtain ⟨row, rows, ⟨-, hrow⟩, hrest, heq⟩ := List.forall₂_cons_left_iff.1 hrows
  obtain ⟨other, more, -, hnil, rfl⟩ := List.forall₂_cons_left_iff.1 hrest
  obtain rfl := List.forall₂_nil_left_iff.1 hnil
  have hfirst := (hrow translation htranslation "a.b" (by decide +kernel)).1
  have hsecond := (hrow translation htranslation "c" (by decide +kernel)).1
  refine ⟨hsource, hlanguages, comparison, row, other, hok, heq, ?_, ?_⟩
  · rw [hfirst]
    decide +kernel
  · rw [hsecond]
    decide +kernel

end Comparison

end Command

end Phrasebook
