import Phrasebook.Evaluation
import Phrasebook.Proofs.Template.Reference

/-!
# The keys being expanded

An evaluation leaves every key that it entered, on success and on failure (`evaluation_restores_stack`): the context
after it differs from the one before in its notices only.

Hence all calls of one template are made with the same keys being expanded, and the number of keys that may still be
entered is always the bound of the recursion.  So a key evaluates as the rules say, without a bound: it is refused
(`evalKey_of_refusal?`), or entered without a message (`evalKey_of_raw?_none`), or entered with its template
(`evalKey_of_raw?`).
-/

namespace Phrasebook

namespace Context

/-- The contexts differ in their notices at most. -/
structure Agree (c d : Context) : Prop where
  replacements : c.replacements = d.replacements
  maxDepth : c.maxDepth = d.maxDepth
  stack : c.stack = d.stack

theorem Agree.refl (c : Context) : c.Agree c := ⟨rfl, rfl, rfl⟩

theorem Agree.trans {c d e : Context} (h : c.Agree d) (h' : d.Agree e) : c.Agree e :=
  ⟨h.replacements.trans h'.replacements, h.maxDepth.trans h'.maxDepth, h.stack.trans h'.stack⟩

theorem Agree.refusal? {c d : Context} (h : c.Agree d) (key : String) : c.refusal? key = d.refusal? key := by
  unfold Context.refusal? isExpanding depth
  rw [h.stack, h.maxDepth]

theorem Agree.room {c d : Context} (h : c.Agree d) : c.room = d.room := by
  unfold Context.room depth
  rw [h.stack, h.maxDepth]

theorem agree_note (c : Context) (notice : Notice) : (c.note notice).Agree c := ⟨rfl, rfl, rfl⟩

/-- The context after a key was entered. -/
def push (c : Context) (key : String) : Context :=
  { c with stack := c.stack ++ [key] }.note (.entered (c.stack ++ [key]))

/-- Leaving the key entered last undoes an entry. -/
theorem Agree.leave {c d : Context} {key : String} (h : d.Agree (c.push key)) : d.leave.Agree c := by
  refine ⟨h.replacements, h.maxDepth, ?_⟩
  show d.stack.dropLast = c.stack
  rw [h.stack]
  exact List.dropLast_concat

theorem refusal?_eq_none {c : Context} {key : String} :
    c.refusal? key = none ↔ key ∉ c.stack ∧ c.stack.length < c.maxDepth := by
  unfold refusal? isExpanding depth
  split
  · simp_all
  · split <;> simp_all

theorem refusal?_eq_cycle {c : Context} {key : String} {chain : List String} :
    c.refusal? key = some (.cycle chain) ↔ key ∈ c.stack ∧ chain = c.stack ++ [key] := by
  unfold refusal? isExpanding depth
  split
  · simp_all [eq_comm]
  · split <;> simp_all

theorem refusal?_eq_tooDeep {c : Context} {key last : String} {maxDepth : Nat} :
    c.refusal? key = some (.tooDeep last maxDepth) ↔
      key ∉ c.stack ∧ c.maxDepth ≤ c.stack.length ∧ last = key ∧ maxDepth = c.maxDepth := by
  unfold refusal? isExpanding depth
  split
  · simp_all
  · split
    · simp_all [eq_comm]
    · next hdepth =>
      simp only [reduceCtorEq, false_iff]
      rintro ⟨-, hle, -⟩
      exact hdepth hle

/-- After an entry one key fewer may be entered. -/
theorem room_push {c : Context} {key : String} (h : c.refusal? key = none) : (c.push key).room + 1 = c.room := by
  have hlt := (refusal?_eq_none.1 h).2
  show c.maxDepth - (c.stack ++ [key]).length + 1 = c.maxDepth - c.stack.length
  rw [List.length_append, List.length_singleton]
  omega

private theorem enter_eq (c : Context) (key : String) :
    c.enter key = match c.refusal? key with
      | some reason => .error reason
      | none => .ok (c.push key) := rfl

end Context

namespace Evaluation

/-! ### The third pass -/

/-- A segment that is no reference stands as it is. -/
theorem expandSegments_of_target?_none (f : String → Context → Outcome) {segment : Segment} (rest : List Segment)
    (c : Context) (h : Lint.target? segment = none) :
    expandSegments f (segment :: rest) c =
      ((expandSegments f rest c).1.map (segment.source ++ ·), (expandSegments f rest c).2) := by
  rcases segment with text | ⟨raw, directive⟩
  · rfl
  · cases directive with
    | plain | format | plural => rfl
    | reference => cases h

/-- A reference that fails ends the text. -/
theorem expandSegments_of_error {f : String → Context → Outcome} {segment : Segment} {key : String}
    (rest : List Segment) {c : Context} {error : EvalError} (h : Lint.target? segment = some key)
    (hf : (f key c).1 = .error error) : expandSegments f (segment :: rest) c = f key c := by
  obtain ⟨raw, rfl⟩ := Lint.eq_reference_of_target? h
  unfold expandSegments
  rcases hresult : f key c with ⟨result, d⟩
  rw [hresult] at hf
  obtain rfl : result = .error error := hf
  rfl

/-- A reference that succeeds is replaced, and the rest goes on in the context after it. -/
theorem expandSegments_of_ok {f : String → Context → Outcome} {segment : Segment} {key : String}
    (rest : List Segment) {c : Context} {expanded : String} (h : Lint.target? segment = some key)
    (hf : (f key c).1 = .ok expanded) :
    expandSegments f (segment :: rest) c =
      ((expandSegments f rest (f key c).2).1.map (expanded ++ ·), (expandSegments f rest (f key c).2).2) := by
  obtain ⟨raw, rfl⟩ := Lint.eq_reference_of_target? h
  conv => lhs; unfold expandSegments
  rcases hresult : f key c with ⟨result, d⟩
  rw [hresult] at hf
  obtain rfl : result = .ok expanded := hf
  rfl

/-- Two ways to evaluate a key that keep a relation between contexts, and agree on related ones, do so for the
segments of a text. -/
theorem expandSegments_rel {R : Context → Context → Prop} {f g : String → Context → Outcome}
    (step : ∀ key {c d}, R c d → (f key c).1 = (g key d).1 ∧ R (f key c).2 (g key d).2)
    (segments : List Segment) {c d : Context} (h : R c d) :
    (expandSegments f segments c).1 = (expandSegments g segments d).1 ∧
      R (expandSegments f segments c).2 (expandSegments g segments d).2 := by
  induction segments generalizing c d with
  | nil => exact ⟨rfl, h⟩
  | cons segment rest ih =>
    cases htarget : Lint.target? segment with
    | none =>
      obtain ⟨hresult, hcontext⟩ := ih h
      rw [expandSegments_of_target?_none f rest c htarget, expandSegments_of_target?_none g rest d htarget]
      exact ⟨congrArg (Except.map _) hresult, hcontext⟩
    | some key =>
      obtain ⟨hresult, hcontext⟩ := step key h
      cases hf : (f key c).1 with
      | error error =>
        rw [expandSegments_of_error rest htarget hf, expandSegments_of_error rest htarget (hresult ▸ hf)]
        exact ⟨hresult, hcontext⟩
      | ok expanded =>
        obtain ⟨hrest, hcontext⟩ := ih hcontext
        rw [expandSegments_of_ok rest htarget hf, expandSegments_of_ok rest htarget (hresult ▸ hf)]
        exact ⟨congrArg (Except.map _) hrest, hcontext⟩

/-- What every key keeps, the segments of a text keep. -/
theorem expandSegments_preserves {P : Context → Prop} {f : String → Context → Outcome}
    (step : ∀ key {c}, P c → P (f key c).2) (segments : List Segment) {c : Context} (h : P c) :
    P (expandSegments f segments c).2 := by
  have hrel : ∀ key {c d}, c = d ∧ P c → (f key c).1 = (f key d).1 ∧ (f key c).2 = (f key d).2 ∧ P (f key c).2 := by
    rintro key c _ ⟨rfl, hc⟩
    exact ⟨rfl, rfl, step key hc⟩
  exact (expandSegments_rel hrel segments ⟨rfl, h⟩).2.2

/-- The same for a template. -/
theorem evalTemplateWith_rel {R : Context → Context → Prop} {f g : String → Context → Outcome}
    (step : ∀ key {c d}, R c d → (f key c).1 = (g key d).1 ∧ R (f key c).2 (g key d).2)
    (replacements : ∀ {c d}, R c d → c.replacements = d.replacements)
    (template : String) {c d : Context} (h : R c d) :
    (evalTemplateWith f template c).1 = (evalTemplateWith g template d).1 ∧
      R (evalTemplateWith f template c).2 (evalTemplateWith g template d).2 := by
  unfold evalTemplateWith
  rw [replacements h]
  split
  · exact ⟨rfl, h⟩
  · exact expandSegments_rel step _ h

/-- Two ways to evaluate a key that are the same where these keys are being expanded are the same for segments. -/
private theorem expandSegments_congr {f g : String → Context → Outcome} (hf : ∀ key c, (f key c).2.Agree c)
    {c : Context} (h : ∀ key d, d.Agree c → f key d = g key d) (segments : List Segment) :
    expandSegments f segments c = expandSegments g segments c ∧ (expandSegments f segments c).2.Agree c := by
  have step : ∀ key {d e}, d = e ∧ d.Agree c → (f key d).1 = (g key e).1 ∧
      ((f key d).2 = (g key e).2 ∧ (f key d).2.Agree c) := by
    rintro key d _ ⟨rfl, hd⟩
    rw [← h key d hd]
    exact ⟨rfl, rfl, (hf key d).trans hd⟩
  obtain ⟨hresult, hcontext, hagree⟩ := expandSegments_rel step segments ⟨rfl, Context.Agree.refl c⟩
  exact ⟨Prod.ext hresult hcontext, hagree⟩

private theorem evalTemplateWith_congr {f g : String → Context → Outcome} (hf : ∀ key c, (f key c).2.Agree c)
    {c : Context} (h : ∀ key d, d.Agree c → f key d = g key d) (template : String) :
    evalTemplateWith f template c = evalTemplateWith g template c ∧ (evalTemplateWith f template c).2.Agree c := by
  unfold evalTemplateWith
  split
  · exact ⟨rfl, Context.Agree.refl c⟩
  · exact expandSegments_congr hf h _

private theorem agree_evalTemplateWith {f : String → Context → Outcome} (hf : ∀ key c, (f key c).2.Agree c)
    (template : String) (c : Context) : (evalTemplateWith f template c).2.Agree c :=
  (evalTemplateWith_congr hf (fun _ _ _ => rfl) template).2

/-! ### Keys -/

/-- Induction on the bound: what is entered is left again. -/
private theorem agree_evalKeyWithin (tree : Tree) (room : Nat) (key : String) (c : Context) :
    (evalKeyWithin tree room key c).2.Agree c := by
  induction room generalizing key c with
  | zero =>
    unfold evalKeyWithin
    rw [Context.enter_eq]
    cases c.refusal? key with
    | some reason => exact Context.agree_note _ _
    | none =>
      cases tree.raw? key with
      | none | some _ => exact (Context.agree_note _ _).leave
  | succ room ih =>
    unfold evalKeyWithin
    rw [Context.enter_eq]
    cases c.refusal? key with
    | some reason => exact Context.agree_note _ _
    | none =>
      cases tree.raw? key with
      | none => exact (Context.agree_note _ _).leave
      | some template => exact (agree_evalTemplateWith ih template _).leave

private theorem evalKeyWithin_of_raw? {tree : Tree} {room : Nat} {key template : String} {c : Context}
    (h : c.refusal? key = none) (hraw : tree.raw? key = some template) :
    evalKeyWithin tree (room + 1) key c =
      ((evalTemplateWith (evalKeyWithin tree room) template (c.push key)).1,
        (evalTemplateWith (evalKeyWithin tree room) template (c.push key)).2.leave) := by
  conv => lhs; unfold evalKeyWithin
  rw [Context.enter_eq, h, hraw]

/-- Bounds that are large enough make no difference. -/
private theorem evalKeyWithin_congr (tree : Tree) {room room' : Nat} (key : String) {c : Context}
    (h : c.room ≤ room) (h' : c.room ≤ room') :
    evalKeyWithin tree room key c = evalKeyWithin tree room' key c := by
  induction room generalizing room' key c with
  | zero =>
    -- Without room every key is refused.
    have hrefused : ∃ reason, c.refusal? key = some reason := by
      rw [← Option.ne_none_iff_exists']
      intro hnone
      have := Context.room_push hnone
      omega
    obtain ⟨reason, hreason⟩ := hrefused
    unfold evalKeyWithin
    rw [Context.enter_eq, hreason]
  | succ room ih =>
    cases hrefusal : c.refusal? key with
    | some reason =>
      unfold evalKeyWithin
      rw [Context.enter_eq, hrefusal]
    | none =>
      have hroom := Context.room_push hrefusal
      obtain ⟨room', rfl⟩ : ∃ n, room' = n + 1 := ⟨room' - 1, by omega⟩
      cases hraw : tree.raw? key with
      | none =>
        unfold evalKeyWithin
        rw [Context.enter_eq, hrefusal, hraw]
      | some template =>
        have hinner : ∀ target d, d.Agree (c.push key) →
            evalKeyWithin tree room target d = evalKeyWithin tree room' target d := by
          intro target d hd
          exact ih target (by rw [hd.room]; omega) (by rw [hd.room]; omega)
        rw [evalKeyWithin_of_raw? hrefusal hraw, evalKeyWithin_of_raw? hrefusal hraw,
          (evalTemplateWith_congr (agree_evalKeyWithin tree room) hinner template).1]

theorem agree_evalKey (tree : Tree) (key : String) (c : Context) : (evalKey tree key c).2.Agree c :=
  agree_evalKeyWithin tree c.room key c

theorem agree_evalTemplate (tree : Tree) (template : String) (c : Context) :
    (evalTemplate tree template c).2.Agree c :=
  agree_evalTemplateWith (agree_evalKey tree) template c

theorem agree_expandReferences (tree : Tree) (text : String) (c : Context) :
    (expandReferences tree text c).2.Agree c :=
  (expandSegments_congr (agree_evalKey tree) (fun _ _ _ => rfl) _).2

/-! ### Evaluation without a bound -/

/-- A key that cannot be entered is the empty text. -/
theorem evalKey_of_refusal? (tree : Tree) {key : String} {c : Context} {reason : Refusal}
    (h : c.refusal? key = some reason) : evalKey tree key c = (.ok "", c.note (.refused key reason)) := by
  unfold evalKey evalKeyWithin
  rw [Context.enter_eq, h]

/-- A key without a message is the empty text. -/
theorem evalKey_of_raw?_none {tree : Tree} {key : String} {c : Context} (h : c.refusal? key = none)
    (hraw : tree.raw? key = none) : evalKey tree key c = (.ok "", ((c.push key).note (.missing key)).leave) := by
  unfold evalKey evalKeyWithin
  rw [Context.enter_eq, h, hraw]

/-- A key with a message is its template, evaluated while the key is being expanded. -/
theorem evalKey_of_raw? {tree : Tree} {key template : String} {c : Context} (h : c.refusal? key = none)
    (hraw : tree.raw? key = some template) :
    evalKey tree key c =
      ((evalTemplate tree template (c.push key)).1, (evalTemplate tree template (c.push key)).2.leave) := by
  have hroom := Context.room_push h
  have hinner : ∀ target d, d.Agree (c.push key) →
      evalKeyWithin tree (c.push key).room target d = evalKey tree target d := by
    intro target d hd
    exact evalKeyWithin_congr tree target (Nat.le_of_eq hd.room) (Nat.le_refl _)
  unfold evalKey
  rw [← hroom, evalKeyWithin_of_raw? h hraw,
    (evalTemplateWith_congr (agree_evalKeyWithin tree _) hinner template).1]
  rfl

/-- The text that is scanned for references: a template with its values put in and its plural forms chosen. -/
def prepare (replacements : Replacements) (template : String) : Except EvalError String :=
  (interpolate replacements template).bind (pluralize replacements)

theorem evalTemplate_of_error (tree : Tree) {template : String} {c : Context} {error : EvalError}
    (h : prepare c.replacements template = .error error) : evalTemplate tree template c = (.error error, c) := by
  unfold prepare at h
  unfold evalTemplate evalTemplateWith
  rw [h]

theorem evalTemplate_of_ok (tree : Tree) {template text : String} {c : Context}
    (h : prepare c.replacements template = .ok text) :
    evalTemplate tree template c = expandReferences tree text c := by
  unfold prepare at h
  unfold evalTemplate evalTemplateWith
  rw [h]
  rfl

/-- Induction over an evaluation: with an entered key, what is shown may be used for every key that is asked for while
it is being expanded. -/
theorem key_induction (tree : Tree) {motive : String → Context → Prop}
    (refused : ∀ key c reason, c.refusal? key = some reason → motive key c)
    (missing : ∀ key c, c.refusal? key = none → tree.raw? key = none → motive key c)
    (entered : ∀ key c template, c.refusal? key = none → tree.raw? key = some template →
      (∀ target d, d.Agree (c.push key) → motive target d) → motive key c)
    (key : String) (c : Context) : motive key c := by
  induction hroom : c.room generalizing key c with
  | zero =>
    cases hrefusal : c.refusal? key with
    | some reason => exact refused key c reason hrefusal
    | none =>
      have := Context.room_push hrefusal
      omega
  | succ room ih =>
    cases hrefusal : c.refusal? key with
    | some reason => exact refused key c reason hrefusal
    | none =>
      have hpush := Context.room_push hrefusal
      cases hraw : tree.raw? key with
      | none => exact missing key c hrefusal hraw
      | some template =>
        refine entered key c template hrefusal hraw fun target d hd => ih target d ?_
        rw [hd.room]
        omega

/-- A key, a template and a text leave the keys being expanded as they found them, whether they succeed or fail. -/
theorem evaluation_restores_stack (tree : Tree) (key template text : String) (c : Context) :
    (evalKey tree key c).2.stack = c.stack ∧ (evalTemplate tree template c).2.stack = c.stack ∧
      (expandReferences tree text c).2.stack = c.stack :=
  ⟨(agree_evalKey tree key c).stack, (agree_evalTemplate tree template c).stack,
    (agree_expandReferences tree text c).stack⟩

end Evaluation

end Phrasebook
