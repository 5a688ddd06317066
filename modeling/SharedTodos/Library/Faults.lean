-- Runs that a fault ends. A fault at a step of a program raises an exception in
-- its place; what the transaction has not committed is rolled back. A program
-- whose only commit is its last step leaves all of its changes, or none.
import SharedTodos.Library.Program

namespace transactions

namespace Prog

variable {σ δ ε μ χ α β : Type} [Database σ δ]

/-- The run alone of a program that meets a fault at its step `n`, counted from 0. -/
def cut (fault : χ) : Nat → Prog σ δ ε μ χ α → Solo σ δ μ → Except χ α × Solo σ δ μ
  | _, .ret a, s => (.ok a, s)
  | _, .raise e, s => (.error e, s)
  | 0, _, s => (.error fault, s)
  | n + 1, .atomic f k, s =>
    let r := f (s.clock 0) s.memory
    cut fault n (k r.1) { s with clock := fun n => s.clock (n + 1), memory := r.2 }
  | n + 1, .query q k, s => cut fault n (k (q s.view)) s
  | n + 1, .write w k, s =>
    match w s.view with
    | .ok cs => cut fault n (k (.ok ())) { s with pending := s.pending ++ cs }
    | .error e => cut fault n (k (.error e)) { s with pending := [] }
  | n + 1, .commit k, s => cut fault n k { s with db := s.view, pending := [] }
  | n + 1, .rollback k, s => cut fault n k { s with pending := [] }

/-- What holds of the next step from `m` on. -/
theorem from_next {P : Nat → Prop} {m : Nat} (h : ∀ n, m ≤ n → P (n + 1)) :
    ∀ n, m + 1 ≤ n → P n := by
  intro n hn
  cases n with
  | zero => omega
  | succ n => exact h n (by omega)

section
variable (fault : χ)

/-- A fault that comes late enough is none. -/
theorem cut_late (p : Prog σ δ ε μ χ α) (s : Solo σ δ μ) :
    ∃ m, ∀ n, m ≤ n → p.cut fault n s = p.run s := by
  induction p generalizing s with
  | ret a => exact ⟨0, fun n _ => by cases n <;> rfl⟩
  | raise e => exact ⟨0, fun n _ => by cases n <;> rfl⟩
  | atomic f k ih =>
    obtain ⟨m, hm⟩ := ih (f (s.clock 0) s.memory).1
      { s with clock := fun n => s.clock (n + 1), memory := (f (s.clock 0) s.memory).2 }
    exact ⟨m + 1, from_next hm⟩
  | query q k ih =>
    obtain ⟨m, hm⟩ := ih (q s.view) s
    exact ⟨m + 1, from_next hm⟩
  | write w k ih =>
    cases hw : w s.view with
    | ok cs =>
      obtain ⟨m, hm⟩ := ih (.ok ()) { s with pending := s.pending ++ cs }
      refine ⟨m + 1, from_next fun n hn => ?_⟩
      simp only [cut, run, hw]
      exact hm n hn
    | error e =>
      obtain ⟨m, hm⟩ := ih (.error e) { s with pending := [] }
      refine ⟨m + 1, from_next fun n hn => ?_⟩
      simp only [cut, run, hw]
      exact hm n hn
  | commit k ih =>
    obtain ⟨m, hm⟩ := ih { s with db := s.view, pending := [] }
    exact ⟨m + 1, from_next hm⟩
  | rollback k ih =>
    obtain ⟨m, hm⟩ := ih { s with pending := [] }
    exact ⟨m + 1, from_next hm⟩

/-- A run comes to its end, or to the fault. -/
theorem cut_cases (n : Nat) (p : Prog σ δ ε μ χ α) (s : Solo σ δ μ) :
    p.cut fault n s = p.run s ∨ (p.cut fault n s).1 = .error fault := by
  induction n generalizing p s with
  | zero =>
    cases p with
    | ret a => exact Or.inl rfl
    | raise e => exact Or.inl rfl
    | _ => exact Or.inr rfl
  | succ n ih =>
    cases p with
    | ret a => exact Or.inl rfl
    | raise e => exact Or.inl rfl
    | atomic f k => exact ih _ _
    | query q k => exact ih _ _
    | write w k =>
      simp only [cut, run]
      cases w s.view with
      | ok cs => exact ih _ _
      | error e => exact ih _ _
    | commit k => exact ih _ _
    | rollback k => exact ih _ _

end

/-! ## All or nothing -/

/-- The program commits once at most, as its last step before an answer in `ok`, and
it has no such answer without the commit. -/
def AllOrNothing (ok : α → Prop) : Prog σ δ ε μ χ α → Prop
  | .ret a => ¬ ok a
  | .raise _ => True
  | .atomic _ k => ∀ b, (k b).AllOrNothing ok
  | .query _ k => ∀ b, (k b).AllOrNothing ok
  | .write _ k => ∀ r, (k r).AllOrNothing ok
  | .commit k => ∃ a, k = .ret a ∧ ok a
  | .rollback k => k.AllOrNothing ok

/-- Wherever the fault comes, there is the answer or nothing is committed. -/
theorem cut_all_or_nothing {ok : α → Prop} {p : Prog σ δ ε μ χ α} (hp : p.AllOrNothing ok)
    (fault : χ) (n : Nat) (s : Solo σ δ μ) :
    (∃ a, ok a ∧ (p.cut fault n s).1 = .ok a) ∨ (p.cut fault n s).2.db = s.db := by
  induction n generalizing p s with
  | zero => cases p <;> exact Or.inr rfl
  | succ n ih =>
    cases p with
    | ret a => exact Or.inr rfl
    | raise e => exact Or.inr rfl
    | atomic f k => exact ih (hp _) _
    | query q k => exact ih (hp _) _
    | write w k =>
      simp only [cut]
      cases w s.view with
      | ok cs => exact ih (hp _) _
      | error e => exact ih (hp _) _
    | commit k =>
      obtain ⟨a, rfl, hok⟩ := hp
      exact Or.inl ⟨a, hok, by cases n <;> rfl⟩
    | rollback k => exact ih (p := k) hp _

end Prog

end transactions
