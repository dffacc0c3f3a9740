import Phrasebook.Json.Reader
import Phrasebook.Json.Text
import Phrasebook.Proofs.Except

/-!
# Reading what was written

A string in quotes is read back as it was (`readString_quoted`).  `Answers` says what a reading step makes of a text
that it meets, whatever follows: the value written there, or a refusal if the text nests too deep.  A step that answers
for each part answers for the parts between brackets (`answers_readEnclosed`) and for a member
(`answers_readMember`).
-/

namespace Phrasebook.Json

/-! ### Strings -/

private theorem hexUnit?_control {n : Nat} (h : n < 0x20) :
    hexUnit? '0' '0' (Nat.digitChar (n / 16)) (Nat.digitChar (n % 16)) = some n := by
  have hdigit : ∀ d < 16, hexDigit? (Nat.digitChar d) = some d := by decide
  have hhigh := hdigit (n / 16) (by omega)
  have hlow := hdigit (n % 16) (by omega)
  have hzero : hexDigit? '0' = some 0 := by decide
  simp only [hexUnit?, hzero, hhigh, hlow, Option.some.injEq]
  omega

/-- A character is read back from its escaped form. -/
private theorem readString_escaped (c : Char) (done rest : List Char) :
    readString done (escaped c ++ rest) = readString (c :: done) rest := by
  unfold escaped
  split
  · next h => simp [h, readString, unescape?]
  split
  · next h => simp [h, readString, unescape?]
  split
  · next h => simp [h, readString, unescape?]
  split
  · next h => simp [h, readString, unescape?]
  split
  · next h => simp [h, readString, unescape?]
  split
  · next h => simp [h, readString, unescape?]
  split
  · next h => simp [h, readString, unescape?]
  split
  · next h =>
    -- A control character is written as a unit below the surrogates.
    have hhigh : isHighSurrogate c.toNat = false := by
      simp only [isHighSurrogate, Bool.and_eq_false_iff, decide_eq_false_iff_not]
      omega
    have hlow : isLowSurrogate c.toNat = false := by
      simp only [isLowSurrogate, Bool.and_eq_false_iff, decide_eq_false_iff_not]
      omega
    simp [readString, hexUnit?_control h, hhigh, hlow]
  · next hquote hslash _ _ _ _ _ hcontrol =>
    rw [List.singleton_append, readString, if_neg hcontrol]
    all_goals simp_all

theorem readString_quoted (text : String) (rest : List Char) :
    readString [] (text.toList.flatMap escaped ++ '"' :: rest) = .ok (text, rest) := by
  have hread : ∀ (cs done : List Char), readString done (cs.flatMap escaped ++ '"' :: rest) =
      .ok (String.ofList (done.reverse ++ cs), rest) := by
    intro cs
    induction cs with
    | nil => simp [readString]
    | cons c cs ih =>
      intro done
      rw [List.flatMap_cons, List.append_assoc, readString_escaped, ih]
      simp
  simpa using hread text.toList []

/-! ### Parts between brackets -/

theorem skipSpace_cons {c : Char} (h : isSpace c = false) (rest : List Char) :
    skipSpace (c :: rest) = c :: rest := by
  simp [skipSpace, h]

/-- What a step makes of a text, whatever follows it: the value if the text `fits`, and else a refusal because it nests
too deep. -/
structure Answers {α : Type} (step : List Char → Step α) (text : List Char) (fits : Prop) (value : α) : Prop where
  value_of_fits : fits → ∀ rest, step (text ++ rest) = .ok (value, rest)
  refusal_of_not_fits : ¬ fits → ∀ rest, ∃ unread, step (text ++ rest) = .error ⟨.tooDeep, unread⟩

/-- A step that takes the characters before a text and then goes on as another step does. -/
theorem Answers.map {α β : Type} {step : List Char → Step α} {step' : List Char → Step β} {text : List Char}
    {fits : Prop} {value : α} (h : Answers step text fits value) (before : List Char) (make : α → β)
    (hstep : ∀ rest, step' (before ++ rest) = (step rest).map fun (value, rest) => (make value, rest)) :
    Answers step' (before ++ text) fits (make value) := by
  constructor
  · intro hfits rest
    rw [List.append_assoc, hstep, h.value_of_fits hfits]
    rfl
  · intro hfits rest
    obtain ⟨unread, hread⟩ := h.refusal_of_not_fits hfits rest
    rw [List.append_assoc, hstep, hread]
    exact ⟨unread, rfl⟩

/-- The text begins neither with space nor with the closing bracket. -/
def Begins (e : Enclosure) (text : List Char) : Prop :=
  ∃ c rest, text = c :: rest ∧ isSpace c = false ∧ c ≠ e.closing

theorem Begins.append {e : Enclosure} {text : List Char} (h : Begins e text) (rest : List Char) :
    Begins e (text ++ rest) := by
  obtain ⟨c, cs, rfl, hspace, hclosing⟩ := h
  exact ⟨c, cs ++ rest, rfl, hspace, hclosing⟩

theorem Begins.skipSpace_eq {e : Enclosure} {text : List Char} (h : Begins e text) : skipSpace text = text := by
  obtain ⟨c, cs, rfl, hspace, -⟩ := h
  exact skipSpace_cons hspace cs

/-- Parts separated by commas, with the closing bracket after the last one. -/
def enclosed (e : Enclosure) (parts : List (List Char)) : List Char :=
  [','].intercalate parts ++ [e.closing]

section
variable {ι α : Type} {e : Enclosure} {readPart : List Char → Step α} {room : Nat}

private theorem enclosed_cons_cons (first second : List Char) (parts : List (List Char)) :
    enclosed e (first :: second :: parts) = first ++ ',' :: enclosed e (second :: parts) := by
  simp [enclosed, List.intercalate_cons_cons]

private theorem begins_enclosed {first : List Char} (h : Begins e first) (parts : List (List Char)) :
    Begins e (enclosed e (first :: parts)) := by
  cases parts with
  | nil => simpa [enclosed] using h.append [e.closing]
  | cons second parts => exact enclosed_cons_cons first second parts ▸ h.append _

private theorem length_lt_length_enclosed {parts : List (List Char)} (h : ∀ part ∈ parts, Begins e part) :
    parts.length < (enclosed e parts).length := by
  induction parts with
  | nil => simp [enclosed]
  | cons first rest ih =>
    obtain ⟨c, cs, rfl, -, -⟩ := h first List.mem_cons_self
    cases rest with
    | nil => simp [enclosed]
    | cons second rest =>
      have hrest := ih fun part hpart => h part (List.mem_cons_of_mem _ hpart)
      rw [enclosed_cons_cons]
      simp only [List.length_cons, List.length_append] at hrest ⊢
      omega

private theorem readParts_error {text : List Char} {fault : Fault} (h : readPart text = .error fault) :
    readParts e readPart (room + 1) text = .error fault := by
  simp [readParts, h, Except.bind]

/-- The last part, with the closing bracket behind it. -/
theorem readParts_last {text after rest : List Char} {value : α} (h : readPart text = .ok (value, after))
    (hafter : skipSpace after = e.closing :: rest) : readParts e readPart (room + 1) text = .ok ([value], rest) := by
  simp [readParts, h, Except.bind, hafter]

/-- A part with a comma behind it. -/
theorem readParts_comma {text after next : List Char} {value : α} (h : readPart text = .ok (value, ',' :: after))
    (hafter : skipSpace after = next) (hnext : Begins e next) : readParts e readPart (room + 1) text =
      (readParts e readPart room next).map fun (values, rest) => (value :: values, rest) := by
  obtain ⟨c, cs, rfl, -, hclosing⟩ := hnext
  have hcomma : isSpace ',' = false := by decide
  simp [readParts, h, Except.bind, skipSpace_cons hcomma, hafter, e.closing_ne_comma.symm, hclosing]

/-- What follows an opening bracket begins with a part. -/
theorem readEnclosed_of_begins {text next : List Char} (htext : skipSpace text = next) (hnext : Begins e next) :
    readEnclosed e readPart text = readParts e readPart next.length next := by
  obtain ⟨c, cs, rfl, -, hclosing⟩ := hnext
  rw [readEnclosed, htext]
  exact if_neg hclosing

variable {text : ι → List Char} {fits : ι → Prop} {value : ι → α}

/-- Induction on the parts; the first one that does not fit is refused. -/
private theorem answers_readParts {first : ι} {rest : List ι}
    (hpart : ∀ part ∈ first :: rest, Answers readPart (text part) (fits part) (value part))
    (hbegins : ∀ part ∈ rest, Begins e (text part)) (hroom : rest.length < room) :
    Answers (readParts e readPart room) (enclosed e ((first :: rest).map text)) (∀ part ∈ first :: rest, fits part)
      ((first :: rest).map value) := by
  obtain ⟨room, rfl⟩ : ∃ n, room = n + 1 := ⟨room - 1, by omega⟩
  have hfirst := hpart first List.mem_cons_self
  induction rest generalizing first room with
  | nil =>
    have htext (after : List Char) : enclosed e ([first].map text) ++ after = text first ++ e.closing :: after := by
      simp [enclosed]
    constructor
    · intro hfits after
      rw [htext]
      exact readParts_last (hfirst.value_of_fits (hfits first List.mem_cons_self) _)
        (skipSpace_cons e.isSpace_closing _)
    · intro hfits after
      have hunfit : ¬ fits first := by simpa using hfits
      obtain ⟨unread, hread⟩ := hfirst.refusal_of_not_fits hunfit (e.closing :: after)
      rw [htext]
      exact ⟨unread, readParts_error hread⟩
  | cons second rest ih =>
    obtain ⟨room, rfl⟩ : ∃ n, room = n + 1 := ⟨room - 1, by simp at hroom; omega⟩
    have hrest := ih (fun part hmem => hpart part (List.mem_cons_of_mem _ hmem))
      (fun part hmem => hbegins part (List.mem_cons_of_mem _ hmem)) room (by simpa using hroom)
      (hpart second (List.mem_cons_of_mem _ List.mem_cons_self))
    have htext (after : List Char) : enclosed e ((first :: second :: rest).map text) ++ after =
        text first ++ ',' :: (enclosed e ((second :: rest).map text) ++ after) := by
      simp [enclosed_cons_cons]
    have hnext (after : List Char) : Begins e (enclosed e ((second :: rest).map text) ++ after) :=
      (begins_enclosed (hbegins second List.mem_cons_self) _).append after
    constructor
    · intro hfits after
      obtain ⟨hfit, hfits⟩ := List.forall_mem_cons.1 hfits
      rw [htext, readParts_comma (hfirst.value_of_fits hfit _) (hnext after).skipSpace_eq (hnext after),
        hrest.value_of_fits hfits after]
      rfl
    · intro hfits after
      rw [htext]
      -- The reader stops at the first part that does not fit.
      by_cases hfit : fits first
      · have hunfit : ¬ ∀ part ∈ second :: rest, fits part := fun h => hfits (List.forall_mem_cons.2 ⟨hfit, h⟩)
        obtain ⟨unread, hread⟩ := hrest.refusal_of_not_fits hunfit after
        rw [readParts_comma (hfirst.value_of_fits hfit _) (hnext after).skipSpace_eq (hnext after), hread]
        exact ⟨unread, rfl⟩
      · obtain ⟨unread, hread⟩ := hfirst.refusal_of_not_fits hfit
          (',' :: (enclosed e ((second :: rest).map text) ++ after))
        exact ⟨unread, readParts_error hread⟩

theorem answers_readEnclosed {parts : List ι}
    (hpart : ∀ part ∈ parts, Answers readPart (text part) (fits part) (value part))
    (hbegins : ∀ part ∈ parts, Begins e (text part)) :
    Answers (readEnclosed e readPart) (enclosed e (parts.map text)) (∀ part ∈ parts, fits part) (parts.map value) := by
  cases parts with
  | nil =>
    refine ⟨fun _ after => ?_, fun h => absurd nofun h⟩
    simp [enclosed, readEnclosed, skipSpace_cons e.isSpace_closing]
  | cons first rest =>
    have hread (after : List Char) :
        readEnclosed e readPart (enclosed e ((first :: rest).map text) ++ after) =
          readParts e readPart (enclosed e ((first :: rest).map text) ++ after).length
            (enclosed e ((first :: rest).map text) ++ after) :=
      have hbegin := (begins_enclosed (hbegins first List.mem_cons_self) (rest.map text)).append after
      readEnclosed_of_begins hbegin.skipSpace_eq hbegin
    have hroom (after : List Char) : rest.length < (enclosed e ((first :: rest).map text) ++ after).length := by
      have hlength := @length_lt_length_enclosed e ((first :: rest).map text) (by simpa using hbegins)
      simp only [List.length_map, List.length_cons, List.length_append] at hlength ⊢
      omega
    have hrest : ∀ part ∈ rest, Begins e (text part) := fun part h => hbegins part (List.mem_cons_of_mem _ h)
    constructor
    · intro hfits after
      rw [hread]
      exact (answers_readParts hpart hrest (hroom after)).value_of_fits hfits after
    · intro hfits after
      rw [hread]
      exact (answers_readParts hpart hrest (hroom after)).refusal_of_not_fits hfits after

/-- The text of a member with a name. -/
def memberText (name : String) (text : List Char) : List Char :=
  quoted name.toList ++ [':'] ++ text

theorem begins_memberText (name : String) (text : List Char) : Begins .object (memberText name text) :=
  ⟨'"', _, rfl, by decide, by decide⟩

theorem answers_readMember {readItem : List Char → Step α} {text : List Char} {fits : Prop} {value : α} (name : String)
    (h : Answers readItem text fits value) :
    Answers (readMember readItem) (memberText name text) fits (name, value) := by
  refine h.map (quoted name.toList ++ [':']) (fun value => (name, value)) fun rest => ?_
  have hcolon : isSpace ':' = false := by decide
  have hname : quoted name.toList ++ [':'] ++ rest = '"' :: (name.toList.flatMap escaped ++ '"' :: ':' :: rest) := by
    simp [quoted]
  rw [hname, readMember, readString_quoted]
  simp [Except.bind, skipSpace_cons hcolon]

end

/-! ### The writer -/

theorem compact_array (items : List Json) : (array items).compact = '[' :: enclosed .array (items.map compact) := by
  have hitems : compactItems items = [','].intercalate (items.map compact) := by
    induction items with
    | nil => rfl
    | cons item rest ih =>
      cases rest with
      | nil => simp [compactItems]
      | cons second rest => simp [compactItems, ih, List.intercalate_cons_cons]
  rw [compact, hitems]
  rfl

theorem compact_object (members : List (String × Json)) :
    (object members).compact = '{' :: enclosed .object (members.map fun pair => memberText pair.1 pair.2.compact) := by
  have hmembers : compactMembers members =
      [','].intercalate (members.map fun pair => memberText pair.1 pair.2.compact) := by
    induction members with
    | nil => rfl
    | cons first rest ih =>
      cases rest with
      | nil => simp [compactMembers, memberText]
      | cons second rest =>
        obtain ⟨name, value⟩ := first
        simp [compactMembers, ih, memberText, List.intercalate_cons_cons]
  rw [compact, hmembers]
  rfl

end Phrasebook.Json
