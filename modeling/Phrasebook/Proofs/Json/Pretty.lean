import Phrasebook.Proofs.Decimal.General
import Phrasebook.Proofs.Json.Builders
import Phrasebook.Proofs.Json.ReadBack

/-!
# Documents on several lines are read back

A document of texts and counts, in arrays and objects, is read back from the lines it is written on
(`IsDocument.parse_pretty`).  A count is read only if what stands behind it does not go on with a number, hence a step
`Reads` a text before such a rest; behind each part of a document there is a comma or a line feed.
-/

namespace Phrasebook.Json

/-! ### Steps -/

/-- The text does not go on with a number that stands in front of it. -/
def EndsNumber (rest : List Char) : Prop :=
  ∀ c ∈ rest.head?, c.isDigit = false ∧ c ≠ '.' ∧ c ≠ 'e' ∧ c ≠ 'E'

/-- The step takes just this text and makes the value of it, before whatever ends a number. -/
def Reads {α : Type} (step : List Char → Step α) (text : List Char) (value : α) : Prop :=
  ∀ rest, EndsNumber rest → step (text ++ rest) = .ok (value, rest)

theorem endsNumber_comma (rest : List Char) : EndsNumber (',' :: rest) := by
  simp [EndsNumber]

theorem endsNumber_newLine (level : Nat) (rest : List Char) : EndsNumber (newLine level ++ rest) := by
  simp [EndsNumber, newLine]

theorem skipSpace_newLine_append (level : Nat) (rest : List Char) :
    skipSpace (newLine level ++ rest) = skipSpace rest := by
  refine List.dropWhile_append_of_pos fun c hc => ?_
  rcases List.mem_cons.1 hc with rfl | hc
  · rfl
  · rw [List.eq_of_mem_replicate hc]
    rfl

/-! ### Parts on lines of their own -/

/-- What stands behind the first part: further parts, each after a comma and on a line of its own. -/
def furtherLines (level : Nat) (parts : List (List Char)) : List Char :=
  parts.flatMap fun part => ',' :: (newLine (level + 1) ++ part)

/-- Parts on lines of their own, and the closing bracket; a bracket alone takes no line. -/
def onLines (e : Enclosure) (level : Nat) : List (List Char) → List Char
  | [] => [e.closing]
  | first :: rest => newLine (level + 1) ++ first ++ furtherLines level rest ++ newLine level ++ [e.closing]

section
variable {ι α : Type} {e : Enclosure} {readPart : List Char → Step α} {text : ι → List Char} {value : ι → α}

/-- Induction on the parts behind the first one. -/
private theorem readParts_furtherLines {first : ι} {rest : List ι} {room : Nat} (level : Nat)
    (hpart : ∀ part ∈ first :: rest, Reads readPart (text part) (value part))
    (hbegins : ∀ part ∈ rest, Begins e (text part)) (hroom : rest.length < room) (after : List Char) :
    readParts e readPart room
        (text first ++ (furtherLines level (rest.map text) ++ (newLine level ++ e.closing :: after))) =
      .ok ((first :: rest).map value, after) := by
  obtain ⟨room, rfl⟩ : ∃ n, room = n + 1 := ⟨room - 1, by omega⟩
  have hfirst := hpart first List.mem_cons_self
  induction rest generalizing first room with
  | nil =>
    have hclosing := skipSpace_newLine_append level (e.closing :: after)
    rw [skipSpace_cons e.isSpace_closing] at hclosing
    exact readParts_last (hfirst _ (endsNumber_newLine level _)) hclosing
  | cons second rest ih =>
    obtain ⟨room, rfl⟩ : ∃ n, room = n + 1 := ⟨room - 1, by simp at hroom; omega⟩
    have hrest := ih (fun part hmem => hpart part (List.mem_cons_of_mem _ hmem))
      (fun part hmem => hbegins part (List.mem_cons_of_mem _ hmem)) room (by simpa using hroom)
      (hpart second (List.mem_cons_of_mem _ List.mem_cons_self))
    generalize htail : furtherLines level (rest.map text) ++ (newLine level ++ e.closing :: after) = tail at hrest
    have htext : furtherLines level ((second :: rest).map text) ++ (newLine level ++ e.closing :: after) =
        ',' :: (newLine (level + 1) ++ (text second ++ tail)) := by
      simp [furtherLines, ← htail]
    have hnext : Begins e (text second ++ tail) := (hbegins second List.mem_cons_self).append tail
    have hspace : skipSpace (newLine (level + 1) ++ (text second ++ tail)) = text second ++ tail := by
      rw [skipSpace_newLine_append, hnext.skipSpace_eq]
    rw [htext, readParts_comma (hfirst _ (endsNumber_comma _)) hspace hnext, hrest]
    rfl

private theorem length_le_length_furtherLines (level : Nat) (parts : List (List Char)) :
    parts.length ≤ (furtherLines level parts).length := by
  induction parts with
  | nil => rfl
  | cons part parts ih =>
    have hcons : furtherLines level (part :: parts) =
        ',' :: (newLine (level + 1) ++ part ++ furtherLines level parts) := by
      simp [furtherLines]
    simp only [hcons, List.length_cons, List.length_append]
    omega

theorem reads_readEnclosed {parts : List ι} (level : Nat)
    (hpart : ∀ part ∈ parts, Reads readPart (text part) (value part))
    (hbegins : ∀ part ∈ parts, Begins e (text part)) :
    Reads (readEnclosed e readPart) (onLines e level (parts.map text)) (parts.map value) := by
  intro after _
  cases parts with
  | nil => simp [onLines, readEnclosed, skipSpace_cons e.isSpace_closing]
  | cons first rest =>
    have hlength := length_le_length_furtherLines level (rest.map text)
    have hbegin := (hbegins first List.mem_cons_self).append
      (furtherLines level (rest.map text) ++ (newLine level ++ e.closing :: after))
    have htext : onLines e level ((first :: rest).map text) ++ after = newLine (level + 1) ++
        (text first ++ (furtherLines level (rest.map text) ++ (newLine level ++ e.closing :: after))) := by
      simp [onLines]
    rw [htext, readEnclosed_of_begins ((skipSpace_newLine_append _ _).trans hbegin.skipSpace_eq) hbegin]
    refine readParts_furtherLines level hpart (fun part h => hbegins part (List.mem_cons_of_mem _ h)) ?_ after
    simp only [List.length_append, List.length_cons, List.length_map] at hlength ⊢
    omega

end

/-! ### The writer -/

theorem indented_array (level : Nat) (items : List Json) : (array items).indented level =
    '[' :: onLines .array level (items.map (indented (level + 1))) := by
  cases items with
  | nil => rfl
  | cons first rest =>
    have hitems : indentedItems (level + 1) (first :: rest) = newLine (level + 1) ++ first.indented (level + 1) ++
        furtherLines level (rest.map (indented (level + 1))) := by
      induction rest generalizing first with
      | nil => simp [indentedItems, furtherLines]
      | cons second rest ih => simp [indentedItems, ih, furtherLines]
    simp [indented, hitems, onLines, Enclosure.array]

/-- The text of a member, with a blank in front of the value. -/
def spacedMember (level : Nat) (pair : String × Json) : List Char :=
  memberText pair.1 (' ' :: pair.2.indented level)

theorem indented_object (level : Nat) (members : List (String × Json)) : (object members).indented level =
    '{' :: onLines .object level (members.map (spacedMember (level + 1))) := by
  cases members with
  | nil => rfl
  | cons first rest =>
    have hmembers : indentedMembers (level + 1) (first :: rest) = newLine (level + 1) ++
        spacedMember (level + 1) first ++ furtherLines level (rest.map (spacedMember (level + 1))) := by
      induction rest generalizing first with
      | nil => simp [indentedMembers, furtherLines, spacedMember, memberText]
      | cons second rest ih => simp [indentedMembers, ih, furtherLines, spacedMember, memberText]
    simp [indented, hmembers, onLines, Enclosure.object]

/-! ### Texts and counts -/

section
variable {α : Type} (b : Builder α)

/-- A character that is neither space nor an opening bracket begins a value without parts. -/
private theorem readValue_eq_readScalar {c : Char} (hspace : isSpace c = false) (hbracket : c ≠ '[') (hbrace : c ≠ '{')
    (depth : Nat) (rest : List Char) : readValue b depth (c :: rest) = readScalar b (c :: rest) := by
  cases depth <;> simp [readValue, skipSpace_cons hspace, hbracket, hbrace]

theorem reads_string (depth level : Nat) (text : String) :
    Reads (readValue b depth) ((string text).indented level) ((string text).fold b) := by
  intro rest _
  have htext : (string text).indented level ++ rest = '"' :: (text.toList.flatMap escaped ++ '"' :: rest) := by
    simp [indented, quoted]
  rw [htext, readValue_eq_readScalar b (by decide) (by decide) (by decide), readScalar, readString_quoted]
  rfl

private theorem readNumberEnd_natural {n : Nat} (hn : n < 1 <<< 64) {rest : List Char} (hrest : EndsNumber rest) :
    readNumberEnd false (Nat.toDigits 10 n) rest = .ok (.integer n, rest) := by
  have hinteger : readNumberEnd.finishInteger false (Nat.toDigits 10 n) rest = .ok (.integer n, rest) := by
    have hvalue : Number.ofInteger false (Decimal.ofDigits (Nat.toDigits 10 n)) = .integer n := by
      rw [Decimal.ofDigits, Nat.ofDigitChars_ten_toDigits]
      rw [Number.ofInteger, if_neg (by decide), if_pos hn]
    rw [readNumberEnd.finishInteger, hvalue]
  unfold readNumberEnd
  cases rest with
  | nil => exact hinteger
  | cons c rest =>
    obtain ⟨-, hpoint, he, hE⟩ := hrest c rfl
    simpa [hpoint, he, hE] using hinteger

private theorem readNumber_natural {n : Nat} (hn : n < 1 <<< 64) {rest : List Char} (hrest : EndsNumber rest) :
    readNumber false (Nat.toDigits 10 n ++ rest) = .ok (.integer n, rest) := by
  have hend := readNumberEnd_natural hn hrest
  rcases Nat.eq_zero_or_pos n with rfl | hpos
  · -- A zero stands alone: no digit follows it.
    cases rest with
    | nil => exact hend
    | cons c rest =>
      have hc : ¬ c.isDigit = true := by simp [(hrest c rfl).1]
      exact (if_neg hc).trans hend
  · obtain ⟨c, cs, hdigits, hzero⟩ := Decimal.exists_toDigits_eq_cons hpos
    have hall : ∀ d ∈ Nat.toDigits 10 n, d.isDigit = true := fun d hd =>
      Nat.isDigit_of_mem_toDigits (by omega) (by omega) hd
    obtain ⟨htake, hdrop⟩ := Decimal.span_eq hall fun d hd => (hrest d hd).1
    have hc : c.isDigit = true := hall c (by simp [hdigits])
    rw [hdigits] at htake hdrop hend ⊢
    rw [List.cons_append, readNumber]
    · rw [if_pos hc, ← List.cons_append, htake, hdrop, hend]
    · simpa using hzero

private theorem ne_of_isDigit {c d : Char} (hc : c.isDigit = true) (hd : d.isDigit = false) : c ≠ d := by
  rintro rfl
  simp [hc] at hd

private theorem exists_digit_cons (n : Nat) : ∃ c cs, Nat.toDigits 10 n = c :: cs ∧ c.isDigit = true := by
  obtain ⟨c, cs, hdigits⟩ := List.exists_cons_of_ne_nil (@Nat.toDigits_ne_nil n 10)
  have hmem : c ∈ Nat.toDigits 10 n := by simp [hdigits]
  exact ⟨c, cs, hdigits, Nat.isDigit_of_mem_toDigits (by omega) (by omega) hmem⟩

private theorem readScalar_of_isDigit {c : Char} (hc : c.isDigit = true) (rest : List Char) :
    readScalar b (c :: rest) = (readNumber false (c :: rest)).map fun (value, rest) => (b.number value, rest) := by
  rw [readScalar, if_pos hc]
  all_goals exact ne_of_isDigit hc (by decide)

private theorem indented_count (n level : Nat) : (number (.integer n)).indented level = Nat.toDigits 10 n := by
  simp [indented, Number.text, Int.repr]

private theorem isSpace_of_isDigit {c : Char} (hc : c.isDigit = true) : isSpace c = false := by
  have hne {d : Char} (hd : d.isDigit = false) := ne_of_isDigit hc hd
  simp [isSpace, hne]

theorem reads_count {n : Nat} (hn : n < 1 <<< 64) (depth level : Nat) :
    Reads (readValue b depth) ((number (.integer n)).indented level) ((number (.integer n)).fold b) := by
  intro rest hrest
  have hread := readNumber_natural hn hrest
  obtain ⟨c, cs, hdigits, hc⟩ := exists_digit_cons n
  have hbracket : c ≠ '[' := ne_of_isDigit hc (by decide)
  have hbrace : c ≠ '{' := ne_of_isDigit hc (by decide)
  rw [hdigits] at hread
  rw [indented_count, hdigits, List.cons_append, readValue_eq_readScalar b (isSpace_of_isDigit hc) hbracket hbrace,
    readScalar_of_isDigit b hc, ← List.cons_append, hread]
  rfl

/-- A blank in front of a value is passed over. -/
theorem Reads.blank_cons {depth : Nat} {text : List Char} {value : α} (h : Reads (readValue b depth) text value) :
    Reads (readValue b depth) (' ' :: text) value := by
  intro rest hrest
  have hskip : skipSpace (' ' :: (text ++ rest)) = skipSpace (text ++ rest) := rfl
  rw [List.cons_append, ← h rest hrest]
  cases depth <;> simp [readValue, hskip]

theorem reads_readMember {readItem : List Char → Step α} {text : List Char} {value : α} (name : String)
    (h : Reads readItem text value) : Reads (readMember readItem) (memberText name text) (name, value) := by
  intro rest hrest
  have hcolon : isSpace ':' = false := by decide
  have hname : memberText name text ++ rest = '"' :: (name.toList.flatMap escaped ++ '"' :: ':' :: (text ++ rest)) := by
    simp [memberText, quoted]
  rw [hname, readMember, readString_quoted]
  simp [Except.bind, Except.map, skipSpace_cons hcolon, h rest hrest]

end

/-! ### Documents -/

/-- The value is made of texts and of counts that fit 64 bits, in arrays and objects that nest at most this deep. -/
inductive IsDocument : Nat → Json → Prop
  | text (depth : Nat) (text : String) : IsDocument depth (string text)
  | count (depth : Nat) {n : Nat} (h : n < 1 <<< 64) : IsDocument depth (number (.integer n))
  | array {depth : Nat} {items : List Json} (h : ∀ item ∈ items, IsDocument depth item) :
      IsDocument (depth + 1) (array items)
  | object {depth : Nat} {members : List (String × Json)} (h : ∀ pair ∈ members, IsDocument depth pair.2) :
      IsDocument (depth + 1) (object members)

/-- What a document begins with is neither space nor a closing bracket. -/
private theorem IsDocument.begins {depth : Nat} {value : Json} (h : IsDocument depth value) (level : Nat) :
    Begins .array (value.indented level) := by
  cases h with
  | text => exact ⟨'"', _, rfl, by decide, by decide⟩
  | count =>
    obtain ⟨c, cs, hdigits, hc⟩ := exists_digit_cons _
    exact ⟨c, cs, (indented_count _ level).trans hdigits, isSpace_of_isDigit hc, ne_of_isDigit hc (by decide)⟩
  | array => exact ⟨'[', _, indented_array level _, by decide, by decide⟩
  | object => exact ⟨'{', _, indented_object level _, by decide, by decide⟩

/-- Induction on the document, for any indentation. -/
theorem IsDocument.reads {α : Type} (b : Builder α) {depth : Nat} {value : Json} (h : IsDocument depth value)
    (level : Nat) : Reads (readValue b depth) (value.indented level) (value.fold b) := by
  induction h generalizing level with
  | text depth text => exact reads_string b depth level text
  | count depth hn => exact reads_count b hn depth level
  | array h ih =>
    intro rest hrest
    have hbracket : isSpace '[' = false := by decide
    have hitems := reads_readEnclosed level (fun item hitem => ih item hitem (level + 1))
      fun item hitem => (h item hitem).begins (level + 1)
    rw [indented_array, fold_array, List.cons_append]
    simp [readValue, skipSpace_cons hbracket, hitems rest hrest, Except.map]
  | @object depth members h ih =>
    intro rest hrest
    have hbrace : isSpace '{' = false := by decide
    have hmembers : Reads (readEnclosed .object (readMember (readValue b depth)))
        (onLines .object level (members.map (spacedMember (level + 1)))) (members.map (Prod.map id (fold b))) :=
      reads_readEnclosed level
        (fun pair hpair => reads_readMember pair.1 ((ih pair hpair (level + 1)).blank_cons b))
        fun pair _ => begins_memberText pair.1 (' ' :: pair.2.indented (level + 1))
    rw [indented_object, fold_object, List.cons_append]
    simp [readValue, skipSpace_cons hbrace, hmembers rest hrest, Except.map]

/-- A document on several lines is read as the document again, with the members of its objects in order. -/
theorem IsDocument.parse_pretty {value : Json} (h : IsDocument depthLimit value) :
    parse (String.ofList (value.pretty ++ ['\n'])) = .ok (value.fold builder) := by
  have hread : readValue builder depthLimit (value.pretty ++ ['\n']) = .ok (value.fold builder, ['\n']) :=
    h.reads builder 0 ['\n'] (endsNumber_newLine 0 [])
  have hspace : skipSpace ['\n'] = [] := rfl
  have htext : readText builder depthLimit (value.pretty ++ ['\n']) = .ok (value.fold builder) := by
    simp [readText, hread, hspace, Except.bind]
  rw [parse, read, String.toList_ofList, htext]
  rfl

end Phrasebook.Json
