-- Machines whose state is a place for each key, where an event works at one place and sees
-- no other one. So what stands at a place after a run, and what the events there are
-- answered, is decided by the events of that place and their order.
import Mathlib.Logic.Function.Basic

namespace places

/-- What an event does at its place, and what it answers. -/
structure Machine (K P E A : Type) where
  place : E → K
  act : E → P → P × A

namespace Machine

variable {K P E A : Type} [DecidableEq K] (m : Machine K P E A)

def step (s : K → P) (e : E) : K → P :=
  Function.update s (m.place e) (m.act e (s (m.place e))).1

def run (es : List E) (s : K → P) : K → P := es.foldl m.step s

/-- The events of a place, in their order. -/
def here (k : K) (es : List E) : List E := es.filter fun e => decide (m.place e = k)

/-- The answers to the events of a place. -/
def answers (k : K) : List E → (K → P) → List A
  | [], _ => []
  | e :: es, s =>
    if m.place e = k then (m.act e (s k)).2 :: answers k es (m.step s e)
    else answers k es (m.step s e)

/-- The events of one place, one after another. -/
def alone (es : List E) (p : P) : P := es.foldl (fun p e => (m.act e p).1) p

def answers_alone : List E → P → List A
  | [], _ => []
  | e :: es, p => (m.act e p).2 :: answers_alone es (m.act e p).1

variable {m} {e : E} {k : K} {es es' : List E} {s : K → P}

theorem step_here (h : m.place e = k) : m.step s e k = (m.act e (s k)).1 := by
  subst h
  exact Function.update_self ..

theorem step_elsewhere (h : m.place e ≠ k) : m.step s e k = s k := Function.update_of_ne h.symm ..

theorem here_cons (h : m.place e = k) : m.here k (e :: es) = e :: m.here k es :=
  List.filter_cons_of_pos (by simpa using h)

theorem here_cons_elsewhere (h : m.place e ≠ k) : m.here k (e :: es) = m.here k es :=
  List.filter_cons_of_neg (by simpa using h)

theorem answers_cons (h : m.place e = k) :
    m.answers k (e :: es) s = (m.act e (s k)).2 :: m.answers k es (m.step s e) := if_pos h

theorem answers_cons_elsewhere (h : m.place e ≠ k) :
    m.answers k (e :: es) s = m.answers k es (m.step s e) := if_neg h

theorem run_cons (e : E) (es : List E) (s : K → P) : m.run (e :: es) s = m.run es (m.step s e) :=
  rfl

/-- What stands at a place is what its own events leave there. -/
theorem run_at (es : List E) (s : K → P) (k : K) : m.run es s k = m.alone (m.here k es) (s k) := by
  induction es generalizing s with
  | nil => rfl
  | cons e es ih =>
    rw [run_cons, ih]
    by_cases h : m.place e = k
    · rw [step_here h, here_cons h]
      rfl
    · rw [step_elsewhere h, here_cons_elsewhere h]

theorem answers_at (es : List E) (s : K → P) (k : K) :
    m.answers k es s = m.answers_alone (m.here k es) (s k) := by
  induction es generalizing s with
  | nil => rfl
  | cons e es ih =>
    by_cases h : m.place e = k
    · rw [answers_cons h, ih, step_here h, here_cons h]
      rfl
    · rw [answers_cons_elsewhere h, ih, step_elsewhere h, here_cons_elsewhere h]

/-- Two runs with the same events at each place, whatever their order across the places. -/
theorem run_eq_of_here (h : ∀ k, m.here k es = m.here k es') (s : K → P) :
    m.run es s = m.run es' s := by
  funext k
  rw [run_at, run_at, h k]

theorem answers_eq_of_here (h : m.here k es = m.here k es') (s : K → P) :
    m.answers k es s = m.answers k es' s := by
  rw [answers_at, answers_at, h]

end Machine

end places
