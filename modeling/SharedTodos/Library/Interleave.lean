-- Programs side by side on one database, at the isolation level READ
-- COMMITTED: each statement sees the committed state under the changes of its
-- own transaction, and a statement whose changes need a lock that another open
-- transaction holds does not happen before that transaction ends.
import SharedTodos.Library.Program
import Mathlib.Data.DFinsupp.WellFounded
import Mathlib.Data.Fintype.Basic
import Mathlib.Algebra.BigOperators.Group.Finset.Basic
import Mathlib.SetTheory.Cardinal.Order

namespace transactions

/-- A program on its way: what is left of it, the changes of its open
transaction, and the states that its reads saw, the last one first. The reads
are there for the proofs; no step looks at them. -/
structure Thread (σ δ ε μ χ α : Type) where
  prog : Prog σ δ ε μ χ α
  pending : List δ
  reads : List σ

/-- The committed state, the shared memory, and the programs. -/
structure System (ι σ δ ε μ χ α : Type) where
  db : σ
  memory : μ
  threads : ι → Thread σ δ ε μ χ α

variable {ι σ δ ε μ χ α : Type}

/-- The program has answered or raised. Its transaction is closed. -/
def Prog.done : Prog σ δ ε μ χ α → Bool
  | .ret _ | .raise _ => true
  | _ => false

/-- The next step of the program is a statement that writes. -/
def Prog.writing : Prog σ δ ε μ χ α → Bool
  | .write _ _ => true
  | _ => false

/-- The next step of the program is a commit. -/
def Prog.committing : Prog σ δ ε μ χ α → Bool
  | .commit _ => true
  | _ => false

/-- The next step of the program is a statement that reads. -/
def Prog.reading : Prog σ δ ε μ χ α → Bool
  | .query _ _ => true
  | _ => false

namespace System

variable (c : System ι σ δ ε μ χ α)

section
variable [DecidableEq ι]

def put (i : ι) (t : Thread σ δ ε μ χ α) : System ι σ δ ε μ χ α :=
  { c with threads := Function.update c.threads i t }

@[simp] theorem put_threads_self (i : ι) (t : Thread σ δ ε μ χ α) : (c.put i t).threads i = t :=
  Function.update_self ..

theorem put_threads_of_ne {i j : ι} (h : j ≠ i) (t : Thread σ δ ε μ χ α) :
    (c.put i t).threads j = c.threads j := Function.update_of_ne h ..

end

variable [Database σ δ]

/-- The state that the transaction of program `i` sees. -/
def view (i : ι) : σ := Prog.applyAll (c.threads i).pending c.db

variable [DecidableEq ι] [Fintype ι]

/-- Another open transaction holds a lock that one of the changes needs. -/
def waits (i : ι) (cs : List δ) : Bool :=
  decide (∃ j, j ≠ i ∧ (c.threads j).prog.done = false ∧
    ((c.threads j).pending.any fun a => cs.any fun b => Database.blocks a b) = true)

/-- The next step of program `i`, at a reading of the clock. A program that is
done or that waits has none. -/
def step (i : ι) (now : Time) : Option (System ι σ δ ε μ χ α) :=
  match (c.threads i).prog with
  | .ret _ => none
  | .raise _ => none
  | .atomic f k =>
    some { c.put i { c.threads i with prog := k (f now c.memory).1 } with
      memory := (f now c.memory).2 }
  | .query q k =>
    some (c.put i ⟨k (q (c.view i)), (c.threads i).pending, c.view i :: (c.threads i).reads⟩)
  | .write w k =>
    match w (c.view i) with
    | .ok cs =>
      if c.waits i cs then none
      else some (c.put i ⟨k (.ok ()), (c.threads i).pending ++ cs, (c.threads i).reads⟩)
    | .error e => some (c.put i ⟨k (.error e), [], (c.threads i).reads⟩)
  | .commit k => some { c.put i ⟨k, [], (c.threads i).reads⟩ with db := c.view i }
  | .rollback k => some (c.put i ⟨k, [], (c.threads i).reads⟩)

/-! ## The step of each kind of program -/

section
variable {c} {i : ι} {now : Time} {c' : System ι σ δ ε μ χ α}

theorem not_done_of_step (h : c.step i now = some c') : (c.threads i).prog.done = false := by
  unfold step at h
  cases hp : (c.threads i).prog with
  | ret a => rw [hp] at h; cases h
  | raise e => rw [hp] at h; cases h
  | _ => rfl

theorem step_atomic {β : Type} {f : Time → μ → β × μ} {k : β → Prog σ δ ε μ χ α}
    (hp : (c.threads i).prog = .atomic f k) (h : c.step i now = some c') :
    c' = { c.put i { c.threads i with prog := k (f now c.memory).1 } with
      memory := (f now c.memory).2 } := by
  unfold step at h
  rw [hp] at h
  exact (Option.some.inj h).symm

theorem step_query {β : Type} {q : σ → β} {k : β → Prog σ δ ε μ χ α}
    (hp : (c.threads i).prog = .query q k) (h : c.step i now = some c') :
    c' = c.put i ⟨k (q (c.view i)), (c.threads i).pending, c.view i :: (c.threads i).reads⟩ := by
  unfold step at h
  rw [hp] at h
  exact (Option.some.inj h).symm

/-- A statement fails, or it is accepted and no other transaction is in its way. -/
theorem step_write {w : σ → Except ε (List δ)} {k : Except ε Unit → Prog σ δ ε μ χ α}
    (hp : (c.threads i).prog = .write w k) (h : c.step i now = some c') :
    (∃ e, w (c.view i) = .error e ∧
      c' = c.put i ⟨k (.error e), [], (c.threads i).reads⟩) ∨
    ∃ cs, w (c.view i) = .ok cs ∧ c.waits i cs = false ∧
      c' = c.put i ⟨k (.ok ()), (c.threads i).pending ++ cs, (c.threads i).reads⟩ := by
  unfold step at h
  rw [hp] at h
  dsimp only at h
  cases hw : w (c.view i) with
  | error e =>
    rw [hw] at h
    exact Or.inl ⟨e, rfl, (Option.some.inj h).symm⟩
  | ok cs =>
    rw [hw] at h
    dsimp only at h
    split at h
    · cases h
    · rename_i hwaits
      exact Or.inr ⟨cs, rfl, by simpa using hwaits, (Option.some.inj h).symm⟩

theorem step_commit {k : Prog σ δ ε μ χ α} (hp : (c.threads i).prog = .commit k)
    (h : c.step i now = some c') :
    c' = { c.put i ⟨k, [], (c.threads i).reads⟩ with db := c.view i } := by
  unfold step at h
  rw [hp] at h
  exact (Option.some.inj h).symm

omit [DecidableEq ι] [Fintype ι] in
theorem view_of_nothing_pending (h : (c.threads i).pending = []) : c.view i = c.db := by
  unfold view
  rw [h]
  rfl

/-- A program that is done has no step. -/
theorem not_step_of_done (hdone : (c.threads i).prog.done = true) : c.step i now ≠ some c' := by
  intro h
  rw [not_done_of_step h] at hdone
  cases hdone

/-- A step of one program leaves the others where they are. -/
theorem step_others (h : c.step i now = some c') {j : ι} (hj : j ≠ i) :
    c'.threads j = c.threads j := by
  cases hp : (c.threads i).prog with
  | ret a => unfold step at h; rw [hp] at h; cases h
  | raise e => unfold step at h; rw [hp] at h; cases h
  | atomic f k => rw [step_atomic hp h]; exact c.put_threads_of_ne hj _
  | query q k => rw [step_query hp h]; exact c.put_threads_of_ne hj _
  | write w k =>
    rcases step_write hp h with ⟨e, -, rfl⟩ | ⟨cs, -, -, rfl⟩
    · exact c.put_threads_of_ne hj _
    · exact c.put_threads_of_ne hj _
  | commit k => rw [step_commit hp h]; exact c.put_threads_of_ne hj _
  | rollback k =>
    unfold step at h
    rw [hp] at h
    cases h
    exact c.put_threads_of_ne hj _

/-- Only a commit changes the committed state. -/
theorem db_of_step (h : c.step i now = some c') :
    (c.threads i).prog.committing = false ∧ c'.db = c.db ∨
      (c.threads i).prog.committing = true ∧ c'.db = c.view i := by
  cases hp : (c.threads i).prog with
  | ret a => unfold step at h; rw [hp] at h; cases h
  | raise e => unfold step at h; rw [hp] at h; cases h
  | atomic f k => rw [step_atomic hp h]; exact Or.inl ⟨rfl, rfl⟩
  | query q k => rw [step_query hp h]; exact Or.inl ⟨rfl, rfl⟩
  | write w k => rcases step_write hp h with ⟨e, -, rfl⟩ | ⟨cs, -, -, rfl⟩ <;> exact Or.inl ⟨rfl, rfl⟩
  | commit k => rw [step_commit hp h]; exact Or.inr ⟨rfl, rfl⟩
  | rollback k =>
    unfold step at h
    rw [hp] at h
    cases h
    exact Or.inl ⟨rfl, rfl⟩

/-- A step adds to the reads of its program at most what the program sees. -/
theorem reads_of_step (h : c.step i now = some c') :
    ∀ s ∈ (c'.threads i).reads, s ∈ (c.threads i).reads ∨ s = c.view i := by
  intro s hs
  cases hp : (c.threads i).prog with
  | ret a => unfold step at h; rw [hp] at h; cases h
  | raise e => unfold step at h; rw [hp] at h; cases h
  | atomic f k =>
    rw [step_atomic hp h] at hs
    exact Or.inl (by simpa using hs)
  | query q k =>
    rw [step_query hp h] at hs
    simp only [put_threads_self, List.mem_cons] at hs
    exact hs.symm
  | write w k =>
    rcases step_write hp h with ⟨e, -, rfl⟩ | ⟨cs, -, -, rfl⟩
    · exact Or.inl (by simpa using hs)
    · exact Or.inl (by simpa using hs)
  | commit k =>
    rw [step_commit hp h] at hs
    exact Or.inl (by simpa using hs)
  | rollback k =>
    unfold step at h
    rw [hp] at h
    cases h
    exact Or.inl (by simpa using hs)

/-- What a program has read stays read. -/
theorem reads_kept_of_step (h : c.step i now = some c') :
    ∀ s ∈ (c.threads i).reads, s ∈ (c'.threads i).reads := by
  intro s hs
  cases hp : (c.threads i).prog with
  | ret a => unfold step at h; rw [hp] at h; cases h
  | raise e => unfold step at h; rw [hp] at h; cases h
  | atomic f k => rw [step_atomic hp h]; simpa using hs
  | query q k => rw [step_query hp h]; simp [hs]
  | write w k => rcases step_write hp h with ⟨e, -, rfl⟩ | ⟨cs, -, -, rfl⟩ <;> simpa using hs
  | commit k => rw [step_commit hp h]; simpa using hs
  | rollback k =>
    unfold step at h
    rw [hp] at h
    cases h
    simpa using hs

/-- The locks of an open transaction keep the changes of another one out. -/
theorem blocks_of_not_waits {cs : List δ} (h : c.waits i cs = false) {j : ι} (hj : j ≠ i)
    (hdone : (c.threads j).prog.done = false) {a b : δ} (ha : a ∈ (c.threads j).pending)
    (hb : b ∈ cs) : Database.blocks a b = false := by
  unfold waits at h
  rw [decide_eq_false_iff_not] at h
  by_contra hblocks
  refine h ⟨j, hj, hdone, ?_⟩
  rw [List.any_eq_true]
  refine ⟨a, ha, ?_⟩
  rw [List.any_eq_true]
  exact ⟨b, hb, by simpa using hblocks⟩

/-- A step adds to the open transaction the changes of a statement that no other open
transaction keeps out. -/
theorem pending_of_step (h : c.step i now = some c') :
    ∀ a ∈ (c'.threads i).pending,
      a ∈ (c.threads i).pending ∨ ∃ cs, a ∈ cs ∧ c.waits i cs = false := by
  intro a ha
  cases hp : (c.threads i).prog with
  | ret b => unfold step at h; rw [hp] at h; cases h
  | raise e => unfold step at h; rw [hp] at h; cases h
  | atomic f k =>
    rw [step_atomic hp h] at ha
    exact Or.inl (by simpa using ha)
  | query q k =>
    rw [step_query hp h] at ha
    exact Or.inl (by simpa using ha)
  | write w k =>
    rcases step_write hp h with ⟨e, -, rfl⟩ | ⟨cs, -, hfree, rfl⟩
    · simp at ha
    · simp only [put_threads_self, List.mem_append] at ha
      exact ha.imp_right fun hcs => ⟨cs, hcs, hfree⟩
  | commit k =>
    rw [step_commit hp h] at ha
    simp at ha
  | rollback k =>
    unfold step at h
    rw [hp] at h
    cases h
    simp at ha

/-- A program that writes with statements of `W` only goes on to do so. -/
theorem writes_of_step {W : (σ → Except ε (List δ)) → Prop} (hW : (c.threads i).prog.Writes W)
    (h : c.step i now = some c') :
    (c'.threads i).prog.Writes W ∧ ∀ a ∈ (c'.threads i).pending,
      a ∈ (c.threads i).pending ∨ ∃ w s cs, W w ∧ w s = .ok cs ∧ a ∈ cs := by
  cases hp : (c.threads i).prog with
  | ret b => unfold step at h; rw [hp] at h; cases h
  | raise e => unfold step at h; rw [hp] at h; cases h
  | atomic f k =>
    rw [hp] at hW
    rw [step_atomic hp h]
    exact ⟨by simpa using hW _, fun a ha => Or.inl (by simpa using ha)⟩
  | query q k =>
    rw [hp] at hW
    rw [step_query hp h]
    exact ⟨by simpa using hW _, fun a ha => Or.inl (by simpa using ha)⟩
  | write w k =>
    rw [hp] at hW
    rcases step_write hp h with ⟨e, -, rfl⟩ | ⟨cs, hcs, -, rfl⟩
    · exact ⟨by simpa using hW.2 _, fun a ha => by simp at ha⟩
    · refine ⟨by simpa using hW.2 _, fun a ha => ?_⟩
      simp only [put_threads_self, List.mem_append] at ha
      exact ha.imp_right fun hmem => ⟨w, c.view i, cs, hW.1, hcs, hmem⟩
  | commit k =>
    rw [hp] at hW
    rw [step_commit hp h]
    refine ⟨?_, fun a ha => by simp at ha⟩
    rw [put_threads_self]
    exact hW
  | rollback k =>
    rw [hp] at hW
    unfold step at h
    rw [hp] at h
    cases h
    refine ⟨?_, fun a ha => by simp at ha⟩
    rw [put_threads_self]
    exact hW

end

/-! ## The locks of the open transactions -/

/-- No open transaction holds a lock that a change of another one needs. -/
def LocksHeld : Prop :=
  ∀ i j, i ≠ j → (c.threads i).prog.done = false → (c.threads j).prog.done = false →
    ∀ a ∈ (c.threads i).pending, ∀ b ∈ (c.threads j).pending, Database.blocks a b = false

section
variable {c} {i : ι} {now : Time} {c' : System ι σ δ ε μ χ α}

/-- Every step keeps to the locks, where it does not matter who came first. -/
theorem locks_held_of_step (hsymm : ∀ a b : δ, Database.blocks a b = Database.blocks b a)
    (h : c.LocksHeld) (hs : c.step i now = some c') : c'.LocksHeld := by
  have hnew : ∀ j, j ≠ i → (c.threads j).prog.done = false → ∀ a ∈ (c.threads j).pending,
      ∀ b ∈ (c'.threads i).pending, Database.blocks a b = false := by
    intro j hj hdone a ha b hb
    rcases pending_of_step hs b hb with hb | ⟨cs, hb, hfree⟩
    · exact h j i hj hdone (not_done_of_step hs) a ha b hb
    · exact blocks_of_not_waits hfree hj hdone ha hb
  intro j k hjk hj hk a ha b hb
  by_cases hji : j = i
  · subst hji
    rw [step_others hs hjk.symm] at hk hb
    rw [hsymm]
    exact hnew k hjk.symm hk b hb a ha
  · rw [step_others hs hji] at hj ha
    by_cases hki : k = i
    · subst hki
      exact hnew j hji hj a ha b hb
    · rw [step_others hs hki] at hk hb
      exact h j k hjk hj hk a ha b hb

end

/-! ## The steps of a program that only reads -/

section
variable {c} {i : ι} {now : Time} {c' : System ι σ δ ε μ χ α} {β : Type} {A : List σ → β → Prop}
  {X : List σ → χ → Prop}

/-- A program that begins with a part that only reads has done that part, or its
step leaves the committed state alone and the rest of the part to be done. -/
theorem looks_of_step {g : Prog σ δ ε μ χ β} {k : β → Prog σ δ ε μ χ α}
    (hp : (c.threads i).prog = (g >>= k)) (hpending : (c.threads i).pending = [])
    (hg : g.Looks A X (c.threads i).reads) (h : c.step i now = some c') :
    (∃ b, g = .ret b) ∨
      (c'.db = c.db ∧ (c.threads i).prog.writing = false ∧ (c'.threads i).pending = [] ∧
        ((c.threads i).prog.reading = false ∧ (c'.threads i).reads = (c.threads i).reads ∨
          (c'.threads i).reads = c.db :: (c.threads i).reads) ∧
        ∃ g' : Prog σ δ ε μ χ β, (c'.threads i).prog = (g' >>= k) ∧
          g'.Looks A X (c'.threads i).reads) := by
  cases g with
  | ret b => exact Or.inl ⟨b, rfl⟩
  | raise e =>
    have hdone := not_done_of_step h
    rw [hp] at hdone
    cases hdone
  | atomic f l =>
    refine Or.inr ?_
    rw [step_atomic hp h]
    refine ⟨rfl, by rw [hp]; rfl, ?_, Or.inl ⟨by rw [hp]; rfl, ?_⟩, l (f now c.memory).1, ?_, ?_⟩
    · simp [hpending]
    · simp
    · simp only [put_threads_self]
      rfl
    · simp only [put_threads_self]
      exact hg _
  | query q l =>
    refine Or.inr ?_
    have hc := step_query hp h
    rw [view_of_nothing_pending hpending, hpending] at hc
    subst hc
    refine ⟨rfl, by rw [hp]; rfl, by simp, Or.inr (by simp), l (q c.db), ?_, ?_⟩
    · simp only [put_threads_self]
      rfl
    · simp only [put_threads_self]
      exact hg c.db
  | write w l => exact hg.elim
  | commit l => exact hg.elim
  | rollback l =>
    refine Or.inr ?_
    have hp' : (c.threads i).prog = .rollback (l.bind k) := hp
    unfold step at h
    rw [hp'] at h
    cases h
    refine ⟨rfl, by rw [hp']; rfl, by simp, Or.inl ⟨by rw [hp']; rfl, by simp⟩, l, ?_, ?_⟩
    · simp only [put_threads_self]
      rfl
    · simp only [put_threads_self]
      exact hg

end

/-! ## Programs that can go on -/

section
variable {c} {i : ι}

theorem step_of_not_writing (hdone : (c.threads i).prog.done = false)
    (hwriting : (c.threads i).prog.writing = false) (now : Time) : (c.step i now).isSome := by
  unfold step
  cases hp : (c.threads i).prog with
  | ret a => rw [hp] at hdone; cases hdone
  | raise e => rw [hp] at hdone; cases hdone
  | write w k => rw [hp] at hwriting; cases hwriting
  | _ => rfl

theorem step_of_write {w : σ → Except ε (List δ)} {k : Except ε Unit → Prog σ δ ε μ χ α}
    (hp : (c.threads i).prog = .write w k) {cs : List δ} (hw : w (c.view i) = .ok cs)
    (hfree : c.waits i cs = false) (now : Time) : (c.step i now).isSome := by
  unfold step
  rw [hp]
  dsimp only
  rw [hw]
  dsimp only
  rw [hfree]
  rfl

/-- A program waits for another one that has an open transaction. -/
theorem open_transaction_of_waits {cs : List δ} (h : c.waits i cs = true) :
    ∃ j, j ≠ i ∧ (c.threads j).prog.done = false ∧ (c.threads j).pending ≠ [] := by
  unfold waits at h
  rw [decide_eq_true_eq] at h
  obtain ⟨j, hj, hdone, hany⟩ := h
  refine ⟨j, hj, hdone, ?_⟩
  intro hpending
  rw [hpending] at hany
  cases hany

end

/-! ## Runs -/

/-- The states of the runs from `start` whose steps all happen in a state with `ok`. -/
inductive Reached (ok : System ι σ δ ε μ χ α → ι → Prop) (start : System ι σ δ ε μ χ α) :
    System ι σ δ ε μ χ α → Prop where
  | start : Reached ok start start
  | step {c c' : System ι σ δ ε μ χ α} (i : ι) (now : Time) (before : Reached ok start c)
      (meets : ok c i) (takes : c.step i now = some c') : Reached ok start c'

/-- What holds at the start and is kept by every step holds in every state reached. -/
theorem reached_induction {ok : System ι σ δ ε μ χ α → ι → Prop}
    {start : System ι σ δ ε μ χ α} {P : System ι σ δ ε μ χ α → Prop} (h0 : P start)
    (hstep : ∀ c c' i now, P c → ok c i → c.step i now = some c' → P c')
    {c : System ι σ δ ε μ χ α} (h : Reached ok start c) : P c := by
  induction h with
  | start => exact h0
  | step i now _ hok htakes ih => exact hstep _ _ i now ih hok htakes

theorem reached_mono {ok ok' : System ι σ δ ε μ χ α → ι → Prop} {start c : System ι σ δ ε μ χ α}
    (hok : ∀ c i, ok c i → ok' c i) (h : Reached ok start c) : Reached ok' start c := by
  induction h with
  | start => exact .start
  | step i now _ meets takes ih => exact .step i now ih (hok _ _ meets) takes

/-- The run of a schedule: whose step comes next, and what the clock says then.
It stops at a step that cannot happen, or that happens in a state without `ok`. -/
def exec (ok : System ι σ δ ε μ χ α → ι → Bool) :
    System ι σ δ ε μ χ α → List (ι × Time) → Option (System ι σ δ ε μ χ α)
  | c, [] => some c
  | c, (i, now) :: rest => if ok c i then (c.step i now).bind (exec ok · rest) else none

theorem reached_of_exec {ok : System ι σ δ ε μ χ α → ι → Bool}
    {start c c' : System ι σ δ ε μ χ α} (h : Reached (fun c i => ok c i = true) start c)
    {schedule : List (ι × Time)} (he : exec ok c schedule = some c') :
    Reached (fun c i => ok c i = true) start c' := by
  induction schedule generalizing c with
  | nil =>
    cases he
    exact h
  | cons head rest ih =>
    obtain ⟨i, now⟩ := head
    unfold exec at he
    split at he
    · rename_i hok
      obtain ⟨next, hnext, hrest⟩ := Option.bind_eq_some_iff.mp he
      exact ih (.step i now h hok hnext) hrest
    · cases he

/-! ### Runs with a log -/

/-- The runs from `start` with what `note` writes down of each step, in the
order of the steps. Every step meets `ok`. -/
inductive Logged {ν : Type} (ok : System ι σ δ ε μ χ α → ι → Time → Prop)
    (note : System ι σ δ ε μ χ α → ι → Time → ν) (start : System ι σ δ ε μ χ α) :
    List ν → System ι σ δ ε μ χ α → Prop where
  | start : Logged ok note start [] start
  | step {log : List ν} {c c' : System ι σ δ ε μ χ α} (i : ι) (now : Time)
      (before : Logged ok note start log c) (meets : ok c i now) (takes : c.step i now = some c') :
      Logged ok note start (log ++ [note c i now]) c'

/-- The run of a schedule, with its log. -/
def record {ν : Type} (ok : System ι σ δ ε μ χ α → ι → Time → Bool)
    (note : System ι σ δ ε μ χ α → ι → Time → ν) :
    List ν → System ι σ δ ε μ χ α → List (ι × Time) → Option (List ν × System ι σ δ ε μ χ α)
  | log, c, [] => some (log, c)
  | log, c, (i, now) :: rest =>
    if ok c i now then
      (c.step i now).bind fun c' => record ok note (log ++ [note c i now]) c' rest
    else none

theorem logged_of_record {ν : Type} {ok : System ι σ δ ε μ χ α → ι → Time → Bool}
    {note : System ι σ δ ε μ χ α → ι → Time → ν} {start c c' : System ι σ δ ε μ χ α}
    {log log' : List ν} (h : Logged (fun c i now => ok c i now = true) note start log c)
    {schedule : List (ι × Time)} (he : record ok note log c schedule = some (log', c')) :
    Logged (fun c i now => ok c i now = true) note start log' c' := by
  induction schedule generalizing log c with
  | nil =>
    cases he
    exact h
  | cons head rest ih =>
    obtain ⟨i, now⟩ := head
    unfold record at he
    split at he
    · rename_i hok
      obtain ⟨next, hnext, hrest⟩ := Option.bind_eq_some_iff.mp he
      exact ih (.step i now h hok hnext) hrest
    · cases he

theorem logged_mono {ν : Type} {ok ok' : System ι σ δ ε μ χ α → ι → Time → Prop}
    {note : System ι σ δ ε μ χ α → ι → Time → ν} {start c : System ι σ δ ε μ χ α} {log : List ν}
    (hok : ∀ c i now, ok c i now → ok' c i now) (h : Logged ok note start log c) :
    Logged ok' note start log c := by
  induction h with
  | start => exact .start
  | step i now _ meets takes ih => exact .step i now ih (hok _ _ _ meets) takes

/-- The run of a schedule whose steps are decided to meet `ok`. -/
theorem logged_of_decided {ν : Type} {ok : System ι σ δ ε μ χ α → ι → Time → Prop}
    [∀ c i now, Decidable (ok c i now)] {note : System ι σ δ ε μ χ α → ι → Time → ν}
    {start c c' : System ι σ δ ε μ χ α} {log log' : List ν} (h : Logged ok note start log c)
    {schedule : List (ι × Time)}
    (he : record (fun c i now => decide (ok c i now)) note log c schedule = some (log', c')) :
    Logged ok note start log' c' := by
  have h' := logged_mono (fun c i now hok => decide_eq_true hok) h
  exact logged_mono (fun c i now hok => of_decide_eq_true hok) (logged_of_record h' he)

/-! ### The number of threads of a kind -/

/-- How many threads satisfy `p`. -/
def count (p : Thread σ δ ε μ χ α → Bool) (c : System ι σ δ ε μ χ α) : Nat :=
  ∑ j, (p (c.threads j)).toNat

/-- A step changes the number by what it does to its own thread. -/
theorem count_of_step (p : Thread σ δ ε μ χ α → Bool) {c c' : System ι σ δ ε μ χ α} {i : ι}
    {now : Time} (h : c.step i now = some c') :
    count p c' + (p (c.threads i)).toNat = count p c + (p (c'.threads i)).toNat := by
  unfold count
  have hothers : ∑ j ∈ Finset.univ.erase i, (p (c'.threads j)).toNat =
      ∑ j ∈ Finset.univ.erase i, (p (c.threads j)).toNat := by
    apply Finset.sum_congr rfl
    intro j hj
    rw [step_others h (Finset.ne_of_mem_erase hj)]
  rw [← Finset.add_sum_erase _ _ (Finset.mem_univ i), ← Finset.add_sum_erase _ _ (Finset.mem_univ i),
    hothers]
  omega

/-! ## The end of the runs -/

theorem next_of_step {c c' : System ι σ δ ε μ χ α} {i : ι} {now : Time}
    (h : c.step i now = some c') : Prog.Next (c'.threads i).prog (c.threads i).prog := by
  cases hp : (c.threads i).prog with
  | ret a => unfold step at h; rw [hp] at h; cases h
  | raise e => unfold step at h; rw [hp] at h; cases h
  | atomic f k =>
    rw [step_atomic hp h]
    exact ⟨_, congrArg Thread.prog (c.put_threads_self i _)⟩
  | query q k =>
    rw [step_query hp h]
    exact ⟨_, congrArg Thread.prog (c.put_threads_self i _)⟩
  | write w k =>
    rcases step_write hp h with ⟨e, -, rfl⟩ | ⟨cs, -, -, rfl⟩
    · exact ⟨_, congrArg Thread.prog (c.put_threads_self i _)⟩
    · exact ⟨_, congrArg Thread.prog (c.put_threads_self i _)⟩
  | commit k =>
    rw [step_commit hp h]
    simp [Prog.Next]
  | rollback k =>
    unfold step at h
    rw [hp] at h
    cases h
    simp [Prog.Next]

/-- No run goes on for ever: each step leaves less of one program, and all of the others. -/
theorem step_wellFounded :
    WellFounded fun c' c : System ι σ δ ε μ χ α => ∃ i now, c.step i now = some c' := by
  have hlex : WellFounded (Pi.Lex WellOrderingRel
      fun {_ : ι} => (Prog.Next : Prog σ δ ε μ χ α → Prog σ δ ε μ χ α → Prop)) :=
    Pi.Lex.wellFounded WellOrderingRel fun _ => Prog.next_wellFounded
  refine Subrelation.wf ?_ (InvImage.wf (fun c i => (c.threads i).prog) hlex)
  rintro c' c ⟨i, now, h⟩
  refine ⟨i, fun j hj => ?_, next_of_step h⟩
  have hne : j ≠ i := by
    rintro rfl
    exact irrefl j hj
  dsimp only
  rw [step_others h hne]

/-- Every program is done, or one of them has a next step that meets `ok`. -/
def GoesOn (ok : System ι σ δ ε μ χ α → ι → Prop) (c : System ι σ δ ε μ χ α) : Prop :=
  (∀ i, (c.threads i).prog.done = true) ∨ ∃ i, ok c i ∧ ∀ now, (c.step i now).isSome

/-- Every run from here whose steps meet `ok` comes to a state in which all
programs are done. -/
inductive Ends (ok : System ι σ δ ε μ χ α → ι → Prop) : System ι σ δ ε μ χ α → Prop where
  | of_steps {c : System ι σ δ ε μ χ α} (goes_on : GoesOn ok c)
      (after : ∀ i now c', ok c i → c.step i now = some c' → Ends ok c') : Ends ok c

/-- Where no state reached is stuck, every run ends. -/
theorem ends_of_goes_on {ok : System ι σ δ ε μ χ α → ι → Prop} {start c : System ι σ δ ε μ χ α}
    (hok : ∀ c, Reached ok start c → GoesOn ok c) (h : Reached ok start c) : Ends ok c := by
  have hends : ∀ c, Reached ok start c → Ends ok c := by
    intro c
    apply step_wellFounded.induction c
    intro c ih h
    refine .of_steps (hok c h) fun i now c' hmeets htakes => ?_
    exact ih c' ⟨i, now, htakes⟩ (.step i now h hmeets htakes)
  exact hends c h

end System

end transactions
