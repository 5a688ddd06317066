-- Logs of events. What a log says now is decided by the last event of a kind:
-- an event stands until a later event ends it.
import Mathlib.Data.List.Basic

namespace event_log

variable {ε : Type}

/-- The log has the event `a`, and no later event is one of `ends`. -/
def Stands (a : ε) (ends : ε → Prop) (log : List ε) : Prop :=
  ∃ before after, log = before ++ a :: after ∧ ∀ e ∈ after, ¬ ends e

variable {a : ε} {ends : ε → Prop} {log more : List ε}

@[simp] theorem not_stands_nil : ¬ Stands a ends [] := by
  rintro ⟨before, after, h, -⟩
  simp at h

theorem Stands.mem (h : Stands a ends log) : a ∈ log := by
  obtain ⟨before, after, rfl, -⟩ := h
  simp

/-- A longer log: the event stands in the new part, or it stood before and the
new part does not end it. -/
theorem stands_append :
    Stands a ends (log ++ more) ↔
      Stands a ends more ∨ Stands a ends log ∧ ∀ e ∈ more, ¬ ends e := by
  constructor
  · rintro ⟨before, after, h, hafter⟩
    rcases List.append_eq_append_iff.mp h with ⟨rest, rfl, hmore⟩ | ⟨rest, rfl, hrest⟩
    · exact Or.inl ⟨rest, after, hmore, hafter⟩
    · cases rest with
      | nil =>
        rw [List.nil_append] at hrest
        exact Or.inl ⟨[], after, hrest.symm, hafter⟩
      | cons x rest =>
        rw [List.cons_append] at hrest
        obtain ⟨rfl, rfl⟩ := List.cons.inj hrest
        refine Or.inr ⟨⟨before, rest, rfl, ?_⟩, ?_⟩
        · exact fun e he => hafter e (List.mem_append_left _ he)
        · exact fun e he => hafter e (List.mem_append_right _ he)
  · rintro (⟨before, after, rfl, hafter⟩ | ⟨⟨before, after, rfl, hafter⟩, hmore⟩)
    · exact ⟨log ++ before, after, by simp, hafter⟩
    · refine ⟨before, after ++ more, by simp, ?_⟩
      intro e he
      rcases List.mem_append.mp he with he | he
      · exact hafter e he
      · exact hmore e he

theorem stands_singleton {e : ε} : Stands a ends [e] ↔ e = a := by
  constructor
  · intro h
    exact (List.mem_singleton.mp h.mem).symm
  · rintro rfl
    exact ⟨[], [], rfl, by simp⟩

/-- One event more. -/
theorem stands_snoc {e : ε} :
    Stands a ends (log ++ [e]) ↔ e = a ∨ Stands a ends log ∧ ¬ ends e := by
  rw [stands_append, stands_singleton]
  simp

/-- Of two standing events that end each other, the log has only one. -/
theorem stands_unique {b : ε} (ha : Stands a ends log) (hb : Stands b ends log) (hea : ends a)
    (heb : ends b) : a = b := by
  obtain ⟨before, after, rfl, hafter⟩ := ha
  rw [show before ++ a :: after = (before ++ [a]) ++ after by simp] at hb
  rcases stands_append.mp hb with h | ⟨h, -⟩
  · exact absurd heb (hafter b h.mem)
  · rcases stands_snoc.mp h with h | ⟨-, h⟩
    · exact h
    · exact absurd hea h

end event_log
