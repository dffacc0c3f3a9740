import Mathlib.Data.List.Forall2

/-!
# Computations that can fail

When a computation in `Except` succeeds, and when it fails, in terms of its parts.
-/

namespace Except

instance decidableEq {ε α : Type} [DecidableEq ε] [DecidableEq α] : DecidableEq (Except ε α)
  | .error x, .error y => decidable_of_iff (x = y) (by simp)
  | .ok x, .ok y => decidable_of_iff (x = y) (by simp)
  | .error _, .ok _ => isFalse nofun
  | .ok _, .error _ => isFalse nofun

variable {ε δ α β : Type} {x : Except ε α} {error : ε}

@[simp] theorem map_eq_ok_iff {f : α → β} {b : β} : x.map f = .ok b ↔ ∃ a, x = .ok a ∧ f a = b := by
  cases x <;> simp [Except.map]

@[simp] theorem map_eq_error_iff {f : α → β} : x.map f = .error error ↔ x = .error error := by
  cases x <;> simp [Except.map]

@[simp] theorem fmap_eq_ok_iff {f : α → β} {b : β} : f <$> x = .ok b ↔ ∃ a, x = .ok a ∧ f a = b :=
  map_eq_ok_iff

@[simp] theorem fmap_eq_error_iff {f : α → β} : f <$> x = .error error ↔ x = .error error :=
  map_eq_error_iff

@[simp] theorem mapError_eq_ok_iff {f : ε → δ} {a : α} : x.mapError f = .ok a ↔ x = .ok a := by
  cases x with
  | error reason => exact ⟨nofun, nofun⟩
  | ok value =>
    have hmap : (Except.ok value : Except ε α).mapError f = .ok value := rfl
    simp [hmap]

@[simp] theorem mapError_eq_error_iff {f : ε → δ} {error : δ} :
    x.mapError f = .error error ↔ ∃ reason, x = .error reason ∧ f reason = error := by
  cases x with
  | error reason =>
    have hmap : (Except.error reason : Except ε α).mapError f = .error (f reason) := rfl
    simp [hmap]
  | ok value => exact ⟨nofun, by rintro ⟨_, h, -⟩; cases h⟩

@[simp] theorem bind_eq_ok_iff {f : α → Except ε β} {b : β} :
    x >>= f = .ok b ↔ ∃ a, x = .ok a ∧ f a = .ok b := by
  cases x <;> simp [bind, Except.bind]

@[simp] theorem bind_eq_error_iff {f : α → Except ε β} :
    x >>= f = .error error ↔ x = .error error ∨ ∃ a, x = .ok a ∧ f a = .error error := by
  cases x <;> simp [bind, Except.bind]

@[simp] theorem pure_eq_ok_iff {a b : α} : (pure a : Except ε α) = .ok b ↔ a = b := by
  simp [pure, Except.pure]

theorem exists_eq_ok_iff : (∃ a, x = .ok a) ↔ ∀ error, x ≠ .error error := by
  cases x <;> simp

/-! ### Lists -/

theorem exists_forall₂_iff {r : α → β → Prop} {xs : List α} :
    (∃ ys, List.Forall₂ r xs ys) ↔ ∀ a ∈ xs, ∃ b, r a b := by
  induction xs with
  | nil => simp
  | cons a xs ih =>
    rw [List.forall_mem_cons, ← ih]
    constructor
    · rintro ⟨_, _ | ⟨hhere, hrest⟩⟩
      exact ⟨⟨_, hhere⟩, _, hrest⟩
    · rintro ⟨⟨b, hhere⟩, ys, hrest⟩
      exact ⟨b :: ys, .cons hhere hrest⟩

theorem mapM_eq_ok_iff {f : α → Except ε β} {xs : List α} {ys : List β} :
    xs.mapM f = .ok ys ↔ List.Forall₂ (fun a b => f a = .ok b) xs ys := by
  induction xs generalizing ys with
  | nil =>
    rw [List.mapM_nil, pure_eq_ok_iff, List.forall₂_nil_left_iff]
    exact eq_comm
  | cons a xs ih =>
    rw [List.mapM_cons, bind_eq_ok_iff]
    constructor
    · rintro ⟨b, hhere, hrest⟩
      obtain ⟨more, hmore, heq⟩ := bind_eq_ok_iff.1 hrest
      obtain rfl := pure_eq_ok_iff.1 heq
      exact .cons hhere (ih.1 hmore)
    · rintro (_ | ⟨hhere, hrest⟩)
      exact ⟨_, hhere, bind_eq_ok_iff.2 ⟨_, ih.2 hrest, rfl⟩⟩

end Except
