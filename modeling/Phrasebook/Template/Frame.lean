import Phrasebook.Template

/-!
# Frames

All directives are written alike: an opening, a body of characters that the frame allows, a closing.  A `Frame` says
which; `Frame.scan` cuts a text into directives and literal text.  A place where the opening stands but no directive
follows is literal text of one character, and scanning goes on after it.
-/

namespace Phrasebook

/-- How a family of directives is written: `mark`, `opening`, a body of characters with `inBody`, `closing`.  The body
decides which directive it is, if any. -/
structure Frame where
  mark : Char
  opening : List Char
  inBody : Char → Bool
  closing : List Char
  classify? : List Char → Option Directive

namespace Frame

/-- The directive whose mark stands just before `text`: the directive, its own text after the mark, and the text after
it.  The body is as long as it can be. -/
def directive? (frame : Frame) (text : List Char) : Option (Directive × List Char × List Char) :=
  if frame.opening.isPrefixOf text then
    let inner := text.drop frame.opening.length
    let body := inner.takeWhile frame.inBody
    let rest := inner.dropWhile frame.inBody
    if frame.closing.isPrefixOf rest then
      (frame.classify? body).map fun directive =>
        (directive, frame.opening ++ body ++ frame.closing, rest.drop frame.closing.length)
    else none
  else none

/-- What follows a directive is no longer than what follows its mark. -/
theorem length_le_of_directive? {frame : Frame} {text raw rest : List Char} {directive : Directive}
    (h : frame.directive? text = some (directive, raw, rest)) : rest.length ≤ text.length := by
  unfold directive? at h
  split at h
  · dsimp only at h
    split at h
    · obtain ⟨_, _, heq⟩ := Option.map_eq_some_iff.1 h
      obtain ⟨_, _, rfl⟩ : _ ∧ _ ∧ _ = rest := by simpa using heq
      have := (List.dropWhile_suffix frame.inBody (l := text.drop frame.opening.length)).length_le
      simp only [List.length_drop] at this ⊢
      omega
    · simp at h
  · simp at h

/-- Cuts a text into segments. -/
def scan (frame : Frame) : List Char → List Segment
  | [] => []
  | c :: rest =>
    if c = frame.mark then
      match _h : frame.directive? rest with
      | some (directive, raw, after) => .directive (String.ofList (c :: raw)) directive :: frame.scan after
      | none => .literal (String.ofList [c]) :: frame.scan rest
    else
      .literal (String.ofList (c :: rest.takeWhile (· != frame.mark))) ::
        frame.scan (rest.dropWhile (· != frame.mark))
termination_by text => text.length
decreasing_by
  · have := length_le_of_directive? _h
    simp only [List.length_cons]
    omega
  · simp
  · have := (List.dropWhile_suffix (· != frame.mark) (l := rest)).length_le
    simp only [List.length_cons]
    omega

end Frame

end Phrasebook
