-- Sliding windows: how many of the times of a list lie in an interval that is
-- shorter than a window. A list that grows only while fewer than `n` of its
-- times are in the window never has more than `n` in any interval.
import Mathlib.Data.List.Basic

namespace sliding_window

/-- The times that are younger than the window `w`. -/
def within (w now : Int) (times : List Int) : List Int := times.filter fun t => decide (now - t < w)

/-- The times from `a` to `b`. -/
def between (a b : Int) (times : List Int) : List Int :=
  times.filter fun t => decide (a ≤ t ∧ t ≤ b)

/-- No interval that is shorter than the window `w` has more than `n` of the times. -/
def Bounded (n : Nat) (w : Int) (times : List Int) : Prop :=
  ∀ a b, b - a < w → (between a b times).length ≤ n

variable {n : Nat} {w now later a b : Int} {times more : List Int}

theorem within_append (w now : Int) (times more : List Int) :
    within w now (times ++ more) = within w now times ++ within w now more := List.filter_append ..

theorem between_append (a b : Int) (times more : List Int) :
    between a b (times ++ more) = between a b times ++ between a b more := List.filter_append ..

/-- What has left the window does not come back. -/
theorem within_within (h : now ≤ later) : within w later (within w now times) = within w later times := by
  unfold within
  rw [List.filter_filter]
  apply List.filter_congr
  intro t _
  by_cases ht : later - t < w
  · have : now - t < w := by omega
    simp [ht, this]
  · simp [ht]

theorem within_sublist_of_le (w : Int) (times : List Int) (h : now ≤ later) :
    (within w later times).Sublist (within w now times) := by
  apply List.monotone_filter_right
  intro t ht
  simp only [decide_eq_true_eq] at ht ⊢
  omega

theorem within_sublist (h : times.Sublist more) : (within w now times).Sublist (within w now more) :=
  h.filter _

theorem within_eq_nil (h : ∀ t ∈ times, w ≤ now - t) : within w now times = [] := by
  unfold within
  rw [List.filter_eq_nil_iff]
  intro t ht
  have := h t ht
  simp only [decide_eq_true_eq]
  omega

/-- Times that are over are in the window as long as the interval reaches into it. -/
theorem between_sublist_within (b : Int) (times : List Int) (h : now - a < w) :
    (between a b times).Sublist (within w now times) := by
  apply List.monotone_filter_right
  intro t ht
  simp only [decide_eq_true_eq] at ht ⊢
  omega

theorem bounded_nil : Bounded n w [] := by
  intro a b _
  simp [between]

/-- One time more, when fewer than `n` are in the window. -/
theorem bounded_snoc (h : Bounded n w times) (hroom : (within w now times).length < n) :
    Bounded n w (times ++ [now]) := by
  intro a b hab
  rw [between_append, List.length_append]
  by_cases hin : a ≤ now ∧ now ≤ b
  · have hlast : (between a b [now]).length = 1 := by simp [between, hin]
    have hstart : now - a < w := by omega
    have hsub := (between_sublist_within b times hstart).length_le
    omega
  · have hlast : (between a b [now]).length = 0 := by simp [between, hin]
    have := h a b hab
    omega

end sliding_window
