import Phrasebook.Format

/-!
# Reading format specs

A spec is a sequence of pieces: `%%` for a percent sign, `%n` for a line feed, conversions
`%[flags][width][.precision]letter`, and runs of text without percent signs.  `Format.parse` reads a spec,
`Format.validate` accepts those that can be applied: at most one conversion, with bounded width and precision.
-/

namespace Phrasebook.Format

/-- The characters that are flags. -/
def isFlag (c : Char) : Bool :=
  c == '-' || c == '+' || c == ' ' || c == '0' || c == ',' || c == '#'

/-- The flags that occur in a text. -/
def Flags.ofChars (flags : List Char) : Flags where
  leftAlign := flags.contains '-'
  plusSign := flags.contains '+'
  spaceSign := flags.contains ' '
  zeroPad := flags.contains '0'
  grouping := flags.contains ','
  alternate := flags.contains '#'

/-- The kind a letter stands for. -/
def Kind.ofLetter? (c : Char) : Option Kind :=
  match c with
  | 'd' | 'i' => some decimal
  | 'x' => some (hex false)
  | 'X' => some (hex true)
  | 'o' => some octal
  | 'f' | 'F' => some fixed
  | 'e' => some (exponential false)
  | 'E' => some (exponential true)
  | 'g' => some (general false)
  | 'G' => some (general true)
  | 's' => some text
  | 'S' => some upperText
  | 'c' => some char
  | _ => none

/-- A number written with these digits, if it fits 64 bits. -/
def number? (digits : List Char) : Option Nat :=
  let n := Nat.ofDigitChars 10 digits 0
  if n < 1 <<< 64 then some n else none

/-- The precision at the start of a text and what follows it.  A point must be followed by digits. -/
def precision? (text : List Char) : Option (Option Nat × List Char) :=
  match text with
  | '.' :: rest =>
    let digits := rest.takeWhile Char.isDigit
    if digits = [] then none
    else (number? digits).map fun n => (some n, rest.dropWhile Char.isDigit)
  | _ => some (none, text)

/-- The width at the start of a text, if there is one, and what follows it. -/
def width? (text : List Char) : Option (Option Nat × List Char) :=
  let digits := text.takeWhile Char.isDigit
  if digits = [] then some (none, text)
  else (number? digits).map fun n => (some n, text.dropWhile Char.isDigit)

/-- A conversion after its percent sign, and what follows it. -/
def conversion? (text : List Char) : Option (Conversion × List Char) := do
  let flags := Flags.ofChars (text.takeWhile isFlag)
  let (width, text) ← width? (text.dropWhile isFlag)
  let (precision, text) ← precision? text
  match text with
  | [] => none
  | letter :: rest =>
    let kind ← Kind.ofLetter? letter
    some (⟨flags, width, precision, kind⟩, rest)

/-- The piece at the start of a text, and what follows it. -/
def piece? (text : List Char) : Option (Piece × List Char) :=
  match text with
  | [] => none
  | '%' :: '%' :: rest => some (.literal "%", rest)
  | '%' :: 'n' :: rest => some (.literal "\n", rest)
  | '%' :: rest => (conversion? rest).map fun (conversion, rest) => (.conversion conversion, rest)
  | c :: rest => some (.literal (String.ofList (c :: rest.takeWhile (· != '%'))), rest.dropWhile (· != '%'))

theorem suffix_of_width? {text rest : List Char} {width : Option Nat} (h : width? text = some (width, rest)) :
    rest <:+ text := by
  unfold width? at h
  dsimp only at h
  split at h
  · obtain ⟨_, rfl⟩ := Prod.mk.inj (Option.some.inj h)
    exact List.suffix_refl _
  · obtain ⟨_, _, heq⟩ := Option.map_eq_some_iff.1 h
    obtain ⟨_, rfl⟩ := Prod.mk.inj heq
    exact List.dropWhile_suffix _

theorem suffix_of_precision? {text rest : List Char} {precision : Option Nat}
    (h : precision? text = some (precision, rest)) : rest <:+ text := by
  unfold precision? at h
  split at h
  · dsimp only at h
    split at h
    · cases h
    · obtain ⟨_, _, heq⟩ := Option.map_eq_some_iff.1 h
      obtain ⟨_, rfl⟩ := Prod.mk.inj heq
      exact (List.dropWhile_suffix _).trans (List.suffix_cons _ _)
  · obtain ⟨_, rfl⟩ := Prod.mk.inj (Option.some.inj h)
    exact List.suffix_refl _

theorem suffix_of_conversion? {text rest : List Char} {conversion : Conversion}
    (h : conversion? text = some (conversion, rest)) : rest <:+ text := by
  unfold conversion? at h
  simp only [Option.bind_eq_bind, Option.bind_eq_some_iff] at h
  obtain ⟨⟨_, text₁⟩, hwidth, ⟨_, text₂⟩, hprecision, h⟩ := h
  have hsuffix : text₂ <:+ text :=
    (suffix_of_precision? hprecision).trans ((suffix_of_width? hwidth).trans (List.dropWhile_suffix _))
  dsimp only at h hsuffix
  split at h
  · cases h
  · obtain ⟨_, _, heq⟩ := Option.bind_eq_some_iff.1 h
    obtain ⟨_, rfl⟩ := Prod.mk.inj (Option.some.inj heq)
    exact (List.suffix_cons _ _).trans hsuffix

/-- A piece takes the first character away at least. -/
theorem suffix_of_piece? {text rest : List Char} {piece : Piece} (h : piece? text = some (piece, rest)) :
    ∃ c tail, text = c :: tail ∧ rest <:+ tail := by
  unfold piece? at h
  split at h
  · cases h
  · obtain ⟨_, rfl⟩ := Prod.mk.inj (Option.some.inj h)
    exact ⟨_, _, rfl, List.suffix_cons _ _⟩
  · obtain ⟨_, rfl⟩ := Prod.mk.inj (Option.some.inj h)
    exact ⟨_, _, rfl, List.suffix_cons _ _⟩
  · obtain ⟨_, hconversion, heq⟩ := Option.map_eq_some_iff.1 h
    obtain ⟨_, rfl⟩ := Prod.mk.inj heq
    exact ⟨_, _, rfl, suffix_of_conversion? hconversion⟩
  · obtain ⟨_, rfl⟩ := Prod.mk.inj (Option.some.inj h)
    exact ⟨_, _, rfl, List.dropWhile_suffix _⟩

theorem length_lt_of_piece? {text rest : List Char} {piece : Piece} (h : piece? text = some (piece, rest)) :
    rest.length < text.length := by
  obtain ⟨_, _, rfl, hsuffix⟩ := suffix_of_piece? h
  exact Nat.lt_succ_of_le hsuffix.length_le

/-- As many pieces as there are from the start of a text on, and the text that is left. -/
def pieces (text : List Char) : List Piece × List Char :=
  match _h : piece? text with
  | none => ([], text)
  | some (piece, rest) =>
    let (more, rest) := pieces rest
    (piece :: more, rest)
termination_by text.length
decreasing_by exact length_lt_of_piece? _h

/-- Reads a spec into its pieces. -/
def parse (spec : String) : Except SpecError (List Piece) :=
  let (pieces, rest) := pieces spec.toList
  if rest = [] then .ok pieces else .error ⟨spec, String.ofList rest⟩

/-- Checks that a field is at most the limit. -/
def checkField (field : Field) (value : Option Nat) : Except Error Unit :=
  match value with
  | some n => if fieldLimit < n then .error (.fieldTooLarge field n) else .ok ()
  | none => .ok ()

/-- Reads a spec and checks that it has at most one conversion, with a width and a precision within the limit. -/
def validate (spec : String) : Except Error (List Piece) := do
  let pieces ← (parse spec).mapError .spec
  match pieces.filterMap Piece.conversion? with
  | [] => return pieces
  | [conversion] =>
    checkField .width conversion.width
    checkField .precision conversion.precision
    return pieces
  | conversions => throw (.multipleConversions conversions.length)

end Phrasebook.Format
