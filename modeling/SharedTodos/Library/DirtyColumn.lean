-- One column of a row under two partial updates whose writers loaded the same value.
-- A writer sets the column only where its new value is not the one that it loaded, so
-- it leaves what the other one has written under a value that it loaded itself.
import Mathlib.Data.Option.Basic

namespace dirty_column

variable {α : Type} [DecidableEq α]

/-- What a writer sets the column to, if it sets it. -/
def dirty (new : Option α) (loaded : α) : Option α := new.filter fun a => decide (a ≠ loaded)

/-- The writer does not set back a value that it loaded and that has changed since. -/
def Kept (new : Option α) (loaded stored : α) : Prop := new = some loaded → stored = loaded

/-- Where both writers give the column a value and the second one changes it, the
two values are the same. -/
def Agreed (first second : Option α) (loaded : α) : Prop :=
  ∀ a ∈ first, ∀ b ∈ second, b ≠ loaded → b = a

instance (new : Option α) (loaded stored : α) : Decidable (Kept new loaded stored) :=
  inferInstanceAs (Decidable (_ → _))

instance (first second : Option α) (loaded : α) : Decidable (Agreed first second loaded) :=
  inferInstanceAs (Decidable (∀ a ∈ first, ∀ b ∈ second, b ≠ loaded → b = a))

theorem dirty_loaded (loaded : α) : dirty (some loaded) loaded = none := by
  simp [dirty]

theorem dirty_of_ne {a loaded : α} (h : a ≠ loaded) : dirty (some a) loaded = some a := by
  simp [dirty, h]

/-- On the value that it loaded, the writer does what it was told to do. -/
theorem dirty_getD (new : Option α) (loaded : α) :
    (dirty new loaded).getD loaded = new.getD loaded := by
  cases new with
  | none => rfl
  | some a =>
    by_cases h : a = loaded
    · rw [h, dirty_loaded]
      rfl
    · rw [dirty_of_ne h]

omit [DecidableEq α] in
theorem kept_loaded (new : Option α) (loaded : α) : Kept new loaded loaded := fun _ => rfl

/-- The second writer comes after the first one, as far as the column shows. -/
theorem second_last_iff (second : Option α) (loaded stored : α) :
    (dirty second loaded).getD stored = second.getD stored ↔ Kept second loaded stored := by
  cases second with
  | none => simp [dirty, Kept]
  | some b =>
    by_cases h : b = loaded
    · subst h
      simp [dirty_loaded, Kept]
    · rw [dirty_of_ne h]
      simp [Kept, h]

/-- The second writer comes before the first one, as far as the column shows. -/
theorem second_first_iff (first second : Option α) (loaded : α) :
    (dirty second loaded).getD (first.getD loaded) = first.getD (second.getD loaded) ↔
      Agreed first second loaded := by
  cases first with
  | none => simp [dirty_getD, Agreed]
  | some a =>
    cases second with
    | none => simp [dirty, Agreed]
    | some b =>
      by_cases h : b = loaded
      · subst h
        simp [dirty_loaded, Agreed]
      · rw [dirty_of_ne h]
        simp [Agreed, h]

end dirty_column
