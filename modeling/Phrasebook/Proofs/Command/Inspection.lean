import Phrasebook.Proofs.Command.Run

/-!
# What the inspection of files prints

Each file is reported, whatever became of the others: as JSON by a report that is read back, as text by a line for each
of its warnings.  The exit code tells whether anything is wrong with any file (`every_file_reported`).
-/

namespace Phrasebook.Command

/-- A file gives no tree just if it cannot be read or its text is no tree. -/
theorem LocaleFile.exists_load_eq_error_iff {files : Files} {path : String} :
    (∃ error, load files path = .error error) ↔
      (∃ reason, (files path).contents = .error reason) ∨
        ∃ text fault, (files path).contents = .ok text ∧ Tree.load text = .error fault := by
  unfold load
  cases (files path).contents with
  | error reason => simp
  | ok text => simp

namespace Inspection

variable {files : Files} {path : String}

/-! ### Faulty files -/

/-- Something is wrong with a file. -/
inductive IsFaulty (files : Files) (path : String) : Prop
  | unreadable {reason : String} (h : (files path).contents = .error reason)
  | malformed {text : String} {fault : Tree.LoadError} (h : (files path).contents = .ok text)
      (hload : Tree.load text = .error fault)
  | warned {tree : Tree} (h : LocaleFile.load files path = .ok tree) (hwarnings : Lint.warnings tree ≠ [])

/-- Something is wrong with a file just if its inspection says so. -/
theorem isFailed_iff : (ofFile files path).isFailed = true ↔ IsFaulty files path := by
  cases h : LocaleFile.load files path with
  | error error =>
    have hfailed : (ofFile files path).isFailed = true := by
      simp [isFailed, ofFile, error?, h, Except.map]
    refine iff_of_true hfailed ?_
    rcases LocaleFile.exists_load_eq_error_iff.1 ⟨error, h⟩ with ⟨reason, hreason⟩ | ⟨text, fault, htext, hload⟩
    · exact .unreadable hreason
    · exact .malformed htext hload
  | ok tree =>
    have hfailed : (ofFile files path).isFailed = true ↔ Lint.warnings tree ≠ [] := by
      simp [isFailed, ofFile, error?, warnings, h, Except.map]
    have hloaded : ¬ ∃ error, LocaleFile.load files path = .error error := by
      simp [h]
    rw [hfailed]
    refine ⟨.warned h, fun hfaulty => ?_⟩
    cases hfaulty with
    | unreadable hreason => exact absurd (LocaleFile.exists_load_eq_error_iff.2 (.inl ⟨_, hreason⟩)) hloaded
    | malformed htext hload => exact absurd (LocaleFile.exists_load_eq_error_iff.2 (.inr ⟨_, _, htext, hload⟩)) hloaded
    | warned hother hwarnings =>
      rw [h] at hother
      rwa [Except.ok.inj hother]

private theorem any_isFailed_iff (paths : List String) :
    (paths.map (ofFile files)).any isFailed = true ↔ ∃ path ∈ paths, IsFaulty files path := by
  simp only [List.any_map, List.any_eq_true, Function.comp_apply, isFailed_iff]

private theorem code_status (paths : List String) :
    (status (paths.map (ofFile files))).code = if (paths.map (ofFile files)).any isFailed then 65 else 0 := by
  unfold status
  split <;> rfl

/-! ### Reports -/

/-- The entry of a report tells a warning. -/
structure IsEntry (warning : Warning) (entry : Json) : Prop where
  key : entry.get? "key" = some (.string warning.key)
  kind : entry.get? "kind" = some (.string (kindWord warning))
  message : entry.get? "message" = some (.string warning.message)

/-- The report names the file.  If it gives no tree, the report holds why, and no warnings; else it holds no error, and
an entry for each warning about the tree, in their order. -/
def IsReport (files : Files) (path : String) (report : Json) : Prop :=
  report.get? "file" = some (.string path) ∧
    match LocaleFile.load files path with
    | .error error =>
      report.get? "error" = some (.string error.message) ∧ report.get? "warnings" = some (.array [])
    | .ok tree =>
      report.get? "error" = none ∧
        ∃ entries, report.get? "warnings" = some (.array entries) ∧ List.Forall₂ IsEntry (Lint.warnings tree) entries

private theorem toJson_of_error {error : LocaleFile.Error} (h : LocaleFile.load files path = .error error) :
    (ofFile files path).toJson =
      .object [("file", .string path), ("error", .string error.message), ("warnings", .array [])] := by
  simp [toJson, ofFile, error?, warnings, h, Except.map]

private theorem toJson_of_ok {tree : Tree} (h : LocaleFile.load files path = .ok tree) :
    (ofFile files path).toJson =
      .object [("file", .string path), ("warnings", .array ((Lint.warnings tree).map warningJson))] := by
  simp [toJson, ofFile, error?, warnings, h, Except.map]

private theorem isEntry_fold_warningJson (warning : Warning) :
    IsEntry warning ((warningJson warning).fold Json.builder) := by
  constructor
  all_goals rw [warningJson, Json.get?_fold_builder]; rfl

private theorem isReport_fold_toJson (files : Files) (path : String) :
    IsReport files path ((ofFile files path).toJson.fold Json.builder) := by
  unfold IsReport
  cases h : LocaleFile.load files path with
  | error error =>
    rw [toJson_of_error h, Json.get?_fold_builder, Json.get?_fold_builder, Json.get?_fold_builder]
    exact ⟨rfl, rfl, rfl⟩
  | ok tree =>
    rw [toJson_of_ok h, Json.get?_fold_builder, Json.get?_fold_builder, Json.get?_fold_builder]
    refine ⟨rfl, rfl, (Lint.warnings tree).map fun warning => (warningJson warning).fold Json.builder, ?_, ?_⟩
    · refine congrArg some ?_
      rw [Json.fold_array, List.map_map]
      rfl
    · rw [List.forall₂_map_right_iff, List.forall₂_same]
      exact fun warning _ => isEntry_fold_warningJson warning

private theorem isDocument_warningJson (depth : Nat) (warning : Warning) :
    Json.IsDocument (depth + 1) (warningJson warning) := by
  refine .object ?_
  simp only [List.forall_mem_cons]
  exact ⟨.text _ _, .text _ _, .text _ _, nofun⟩

private theorem isDocument_toJson (files : Files) (path : String) :
    Json.IsDocument (Json.depthLimit - 1) (ofFile files path).toJson := by
  show Json.IsDocument (123 + 1 + 1 + 1) (ofFile files path).toJson
  cases h : LocaleFile.load files path with
  | error error =>
    rw [toJson_of_error h]
    refine .object ?_
    simp only [List.forall_mem_cons]
    exact ⟨.text _ _, .text _ _, .array nofun, nofun⟩
  | ok tree =>
    rw [toJson_of_ok h]
    refine .object ?_
    simp only [List.forall_mem_cons]
    refine ⟨.text _ _, .array fun entry hentry => ?_, nofun⟩
    obtain ⟨warning, -, rfl⟩ := List.mem_map.1 hentry
    exact isDocument_warningJson 123 warning

/-- The reports are read back from the text they are printed as. -/
private theorem exists_parse_jsonReport (files : Files) (paths : List String) :
    ∃ reports, Json.parse (jsonReport (paths.map (ofFile files))).output = .ok (.array reports) ∧
      List.Forall₂ (IsReport files) paths reports := by
  rw [jsonReport, List.map_map]
  exact exists_parse_prettyLine (fun path _ => isDocument_toJson files path)
    fun path _ => isReport_fold_toJson files path

/-! ### Lines -/

/-- The warnings about the tree of a file, each with the file. -/
def foundIn (files : Files) (path : String) : List (String × Warning) :=
  match LocaleFile.load files path with
  | .error _ => []
  | .ok tree => (Lint.warnings tree).map fun warning => (path, warning)

/-- The warnings about the trees of several files. -/
def found (files : Files) (paths : List String) : List (String × Warning) :=
  paths.flatMap (foundIn files)

/-- The line on a warning about a file. -/
def warningLine (colored : Bool) (found : String × Warning) : String :=
  styled colored "1" "0" found.1 ++ ": " ++ styled colored "33" "39" "warning:" ++ " " ++ found.2.message

/-- The line that ends the text, after so many files and warnings. -/
def summaryLine (colored : Bool) (status : Status) (files warnings : Nat) : String :=
  styled colored (if status = .ok then "32" else "31") "39"
    (files.repr ++ " file(s) checked, " ++ warnings.repr ++ " warning(s)")

private theorem foundIn_eq (files : Files) (path : String) :
    foundIn files path = (ofFile files path).warnings.map fun warning => (path, warning) := by
  unfold foundIn
  cases h : LocaleFile.load files path with
  | error error => simp [ofFile, warnings, h, Except.map]
  | ok tree => simp [ofFile, warnings, h, Except.map]

private theorem toLines_ofFile (colored : Bool) (files : Files) (path : String) :
    toLines colored (ofFile files path) = (foundIn files path).map (warningLine colored) := by
  rw [foundIn_eq, List.map_map]
  rfl

private theorem flatMap_toLines (colored : Bool) (paths : List String) :
    (paths.map (ofFile files)).flatMap (toLines colored) = (found files paths).map (warningLine colored) := by
  rw [found, List.flatMap_map, List.map_flatMap]
  simp only [toLines_ofFile]

private theorem length_flatMap_warnings (paths : List String) :
    ((paths.map (ofFile files)).flatMap warnings).length = (found files paths).length := by
  rw [found, List.flatMap_map, List.length_flatMap, List.length_flatMap]
  simp only [foundIn_eq, List.length_map]

private theorem output_textReport (colored : Bool) (files : Files) (paths : List String) :
    (textReport colored (paths.map (ofFile files))).output =
      lines ((found files paths).map (warningLine colored) ++
        [summaryLine colored (status (paths.map (ofFile files))) paths.length (found files paths).length]) := by
  have hcolor : (if status (paths.map (ofFile files)) = .ok then "32" else "31") =
      if (paths.map (ofFile files)).any isFailed then "31" else "32" := by
    unfold status
    split <;> rfl
  have hsummary : summary (paths.map (ofFile files)) =
      paths.length.repr ++ " file(s) checked, " ++ (found files paths).length.repr ++ " warning(s)" := by
    rw [summary, List.length_map, length_flatMap_warnings]
  rw [textReport, flatMap_toLines, summaryLine, hcolor, hsummary]

private theorem not_mem_styled {colored : Bool} {start finish text : String} (hstart : '\n' ∉ start.toList)
    (hfinish : '\n' ∉ finish.toList) (htext : '\n' ∉ text.toList) :
    '\n' ∉ (styled colored start finish text).toList := by
  cases colored with
  | false => exact htext
  | true => simp [styled, hstart, hfinish, htext]

private theorem not_mem_warningLine {colored : Bool} {item : String × Warning} (hpath : '\n' ∉ item.1.toList)
    (hmessage : '\n' ∉ item.2.message.toList) : '\n' ∉ (warningLine colored item).toList := by
  have hfile : '\n' ∉ (styled colored "1" "0" item.1).toList := not_mem_styled (by decide) (by decide) hpath
  have hword : '\n' ∉ (styled colored "33" "39" "warning:").toList :=
    not_mem_styled (by decide) (by decide) (by decide)
  simp [warningLine, hfile, hword, hmessage]

private theorem not_mem_summaryLine (colored : Bool) (status : Status) (files warnings : Nat) :
    '\n' ∉ (summaryLine colored status files warnings).toList := by
  have hnumber (n : Nat) : '\n' ∉ n.repr.toList := by
    intro hmem
    rw [Nat.repr, String.toList_ofList] at hmem
    exact absurd (Nat.isDigit_of_mem_toDigits (by omega) (by omega) hmem) (by decide)
  refine not_mem_styled ?_ (by decide) ?_
  · split <;> decide
  · simp only [String.toList_append, List.mem_append, hnumber, false_or, or_false]
    decide

/-! ### Runs -/

/-- Each file is reported in its place, whatever became of the others.  As JSON, the reports are read back from what is
printed.  As text, there is a line for each warning, and one that counts the files and the warnings; the lines are cut
apart at line feeds if no path and no message holds one, which would be printed as it stands.  Either way the exit code
is 65 if something is wrong with a file, and else 0. -/
theorem every_file_reported (files : Files) (paths : List String) (terminal : Bool) (color : ColorChoice)
    (verbose : Bool) :
    let report (json : Bool) : Report := Invocation.run files terminal ⟨color, verbose, .check paths json⟩
    let texts :=
      (found files paths).map (warningLine (color.isColored terminal)) ++
        [summaryLine (color.isColored terminal) (report false).status paths.length (found files paths).length]
    (∃ reports, Json.parse (report true).output = .ok (.array reports) ∧
      List.Forall₂ (IsReport files) paths reports) ∧
    (report false).output = lines texts ∧
    ((∀ item ∈ found files paths, '\n' ∉ item.1.toList ∧ '\n' ∉ item.2.message.toList) →
      (report false).output.toList.splitOn '\n' = texts.map String.toList ++ [[]]) ∧
    ∀ json,
      ((report json).status.code = 65 ↔ ∃ path ∈ paths, IsFaulty files path) ∧
      ((report json).status.code = 0 ↔ ¬ ∃ path ∈ paths, IsFaulty files path) := by
  intro report texts
  have hstatus (json : Bool) : (report json).status = status (paths.map (ofFile files)) := by
    rw [Invocation.status_run, Action.run, runCheck]
    cases json <;> rfl
  have hreports : (report true).output = (jsonReport (paths.map (ofFile files))).output := by
    rw [Invocation.output_run, Action.run, runCheck, if_pos rfl]
  have houtput : (report false).output = lines texts := by
    rw [Invocation.output_run, Action.run, runCheck, if_neg Bool.false_ne_true, output_textReport, ← hstatus false]
  refine ⟨?_, houtput, fun hlines => ?_, fun json => ?_⟩
  · rw [hreports]
    exact exists_parse_jsonReport files paths
  · rw [houtput]
    refine splitOn_lines fun text htext => ?_
    rcases List.mem_append.1 htext with hwarning | hsummary
    · obtain ⟨item, hitem, rfl⟩ := List.mem_map.1 hwarning
      exact not_mem_warningLine (hlines item hitem).1 (hlines item hitem).2
    · rw [List.mem_singleton.1 hsummary]
      exact not_mem_summaryLine _ _ _ _
  · rw [hstatus, code_status, ← any_isFailed_iff]
    split <;> simp [*]

/-- A file that is no tree, one with a warning that is named twice, and one that is not there. -/
theorem every_file_reported_repeated :
    let folder : Folder := ⟨[("en.json", "\x7b\"a\": \"$t(b)\"\x7d"), ("it.json", "\x7b")]⟩
    let paths := ["it.json", "en.json", "de.json", "en.json"]
    let report (json : Bool) : Report := Invocation.run folder.files false ⟨.auto, false, .check paths json⟩
    let warning := "en.json: warning: a: reference $t(b) does not resolve; did you mean: a?"
    (∀ item ∈ found folder.files paths, '\n' ∉ item.1.toList ∧ '\n' ∉ item.2.message.toList) ∧
      (∃ reports, reports.length = 4 ∧ Json.parse (report true).output = .ok (.array reports)) ∧
      (report false).output.toList.splitOn '\n' =
        [warning, warning, "4 file(s) checked, 2 warning(s)", ""].map String.toList ∧
      (report false).status.code = 65 ∧ (report true).status.code = 65 := by
  intro folder paths report warning
  have hfound : found folder.files paths =
      [("en.json", .danglingReference "a" "b" ["a"]), ("en.json", .danglingReference "a" "b" ["a"])] := by
    decide +kernel
  have hlines : ∀ item ∈ found folder.files paths, '\n' ∉ item.1.toList ∧ '\n' ∉ item.2.message.toList := by
    rw [hfound]
    decide +kernel
  have hfaulty : ∃ path ∈ paths, IsFaulty folder.files path :=
    ⟨"it.json", List.mem_cons_self, isFailed_iff.1 (by decide +kernel)⟩
  obtain ⟨⟨reports, hparse, hreports⟩, -, htexts, hcode⟩ := every_file_reported folder.files paths false .auto false
  refine ⟨hlines, ⟨reports, hreports.length_eq.symm, hparse⟩, ?_, (hcode false).1.2 hfaulty, (hcode true).1.2 hfaulty⟩
  rw [htexts hlines, hfound]
  decide +kernel

end Inspection

end Phrasebook.Command
