-- Programs that work on a database in transactions, and their run alone.
-- A program reads the state that its transaction sees, writes changes into
-- its transaction, commits it, and works on a memory that all programs share.
import Mathlib.Data.List.Infix

namespace transactions

/-- Microseconds since the epoch. -/
abbrev Time := Int

/-- A database whose transactions collect changes of type `δ`. `apply` is what
a change does to the state. `blocks c d` says that `d` waits as long as `c` is
a change of another open transaction. -/
class Database (σ : outParam Type) (δ : Type) where
  apply : δ → σ → σ
  blocks : δ → δ → Bool

/-- A program over the states `σ`, the changes `δ`, the database errors `ε`,
the shared memory `μ` and the exceptions `χ`. Between two constructors other
programs may run. -/
inductive Prog (σ δ ε μ χ : Type) (α : Type) : Type 1 where
  /-- The answer. -/
  | ret (a : α)
  /-- An exception that nothing catches. -/
  | raise (e : χ)
  /-- A section that reads the clock and works on the memory. -/
  | atomic {β : Type} (f : Time → μ → β × μ) (k : β → Prog σ δ ε μ χ α)
  /-- A statement that reads. -/
  | query {β : Type} (q : σ → β) (k : β → Prog σ δ ε μ χ α)
  /-- A statement that writes. An error rolls the transaction back. -/
  | write (w : σ → Except ε (List δ)) (k : Except ε Unit → Prog σ δ ε μ χ α)
  | commit (k : Prog σ δ ε μ χ α)
  | rollback (k : Prog σ δ ε μ χ α)

namespace Prog

variable {σ δ ε μ χ α β : Type}

def bind : Prog σ δ ε μ χ α → (α → Prog σ δ ε μ χ β) → Prog σ δ ε μ χ β
  | .ret a, f => f a
  | .raise e, _ => .raise e
  | .atomic g k, f => .atomic g (fun b => (k b).bind f)
  | .query q k, f => .query q (fun b => (k b).bind f)
  | .write w k, f => .write w (fun r => (k r).bind f)
  | .commit k, f => .commit (k.bind f)
  | .rollback k, f => .rollback (k.bind f)

instance : Monad (Prog σ δ ε μ χ) where
  pure := .ret
  bind := .bind

theorem bind_eq (p : Prog σ δ ε μ χ α) (f : α → Prog σ δ ε μ χ β) : p >>= f = p.bind f := rfl

theorem bind_assoc (p : Prog σ δ ε μ χ α) (f : α → Prog σ δ ε μ χ β) {γ : Type}
    (g : β → Prog σ δ ε μ χ γ) : (p >>= f) >>= g = p >>= fun a => f a >>= g := by
  simp only [bind_eq]
  induction p with
  | ret a => rfl
  | raise e => rfl
  | atomic h k ih => simp only [bind, ih]
  | query q k ih => simp only [bind, ih]
  | write w k ih => simp only [bind, ih]
  | commit k ih => simp only [bind, ih]
  | rollback k ih => simp only [bind, ih]

/-- The first program is what one step of the second one leaves of it. -/
def Next (q : Prog σ δ ε μ χ α) : Prog σ δ ε μ χ α → Prop
  | .ret _ | .raise _ => False
  | .atomic _ k => ∃ b, q = k b
  | .query _ k => ∃ b, q = k b
  | .write _ k => ∃ r, q = k r
  | .commit k | .rollback k => q = k

theorem next_wellFounded : WellFounded (Next : Prog σ δ ε μ χ α → Prog σ δ ε μ χ α → Prop) := by
  constructor
  intro p
  induction p with
  | ret a => exact ⟨_, fun q hq => hq.elim⟩
  | raise e => exact ⟨_, fun q hq => hq.elim⟩
  | atomic f k ih => exact ⟨_, fun q ⟨b, hq⟩ => hq ▸ ih b⟩
  | query q k ih => exact ⟨_, fun q ⟨b, hq⟩ => hq ▸ ih b⟩
  | write w k ih => exact ⟨_, fun q ⟨r, hq⟩ => hq ▸ ih r⟩
  | commit k ih => exact ⟨_, fun q hq => by subst hq; exact ih⟩
  | rollback k ih => exact ⟨_, fun q hq => by subst hq; exact ih⟩

/-! ## The run of one program alone -/

/-- What a program sees when no other program runs: the readings of the clock
that are left, the committed state, the changes of its open transaction, and
the memory. -/
structure Solo (σ δ μ : Type) where
  clock : Nat → Time
  db : σ
  pending : List δ
  memory : μ

variable [Database σ δ]

def applyAll (cs : List δ) (s : σ) : σ := cs.foldl (fun s c => Database.apply c s) s

@[simp] theorem applyAll_nil (s : σ) : applyAll ([] : List δ) s = s := rfl

@[simp] theorem applyAll_cons (c : δ) (cs : List δ) (s : σ) :
    applyAll (c :: cs) s = applyAll cs (Database.apply c s) := rfl

theorem applyAll_append (cs ds : List δ) (s : σ) :
    applyAll (cs ++ ds) s = applyAll ds (applyAll cs s) := List.foldl_append ..

/-- The state that the transaction of the program sees. -/
def Solo.view (s : Solo σ δ μ) : σ := applyAll s.pending s.db

def run : Prog σ δ ε μ χ α → Solo σ δ μ → Except χ α × Solo σ δ μ
  | .ret a, s => (.ok a, s)
  | .raise e, s => (.error e, s)
  | .atomic f k, s =>
    let r := f (s.clock 0) s.memory
    (k r.1).run { s with clock := fun n => s.clock (n + 1), memory := r.2 }
  | .query q k, s => (k (q s.view)).run s
  | .write w k, s =>
    match w s.view with
    | .ok cs => (k (.ok ())).run { s with pending := s.pending ++ cs }
    | .error e => (k (.error e)).run { s with pending := [] }
  | .commit k, s => k.run { s with db := s.view, pending := [] }
  | .rollback k, s => k.run { s with pending := [] }

/-- The run of `p` and then of `f`. -/
theorem run_bind (p : Prog σ δ ε μ χ α) (f : α → Prog σ δ ε μ χ β) (s : Solo σ δ μ) :
    (p.bind f).run s =
      match p.run s with
      | (.ok a, s') => (f a).run s'
      | (.error e, s') => (.error e, s') := by
  induction p generalizing s with
  | ret a => rfl
  | raise e => rfl
  | atomic g k ih => exact ih _ _
  | query q k ih => exact ih _ _
  | write w k ih =>
    simp only [bind, run]
    cases w s.view with
    | ok cs => exact ih _ _
    | error e => exact ih _ _
  | commit k ih => exact ih _
  | rollback k ih => exact ih _

@[simp] theorem run_then (p : Prog σ δ ε μ χ α) (f : α → Prog σ δ ε μ χ β) (s : Solo σ δ μ) :
    (p >>= f).run s =
      match p.run s with
      | (.ok a, s') => (f a).run s'
      | (.error e, s') => (.error e, s') := run_bind p f s

@[simp] theorem run_pure (a : α) (s : Solo σ δ μ) :
    (pure a : Prog σ δ ε μ χ α).run s = (.ok a, s) := rfl

@[simp] theorem run_raise (e : χ) (s : Solo σ δ μ) :
    (raise e : Prog σ δ ε μ χ α).run s = (.error e, s) := rfl

/-! ## What a program writes -/

/-- Every statement of the program that writes is in `W`, whatever it reads. -/
def Writes (W : (σ → Except ε (List δ)) → Prop) : Prog σ δ ε μ χ α → Prop
  | .ret _ => True
  | .raise _ => True
  | .atomic _ k => ∀ b, (k b).Writes W
  | .query _ k => ∀ b, (k b).Writes W
  | .write w k => W w ∧ ∀ r, (k r).Writes W
  | .commit k => k.Writes W
  | .rollback k => k.Writes W

/-- A statement that takes a state with `P` to a state with `P`, if it succeeds. -/
def Keeps (P : σ → Prop) (w : σ → Except ε (List δ)) : Prop :=
  ∀ s cs, P s → w s = .ok cs → P (applyAll cs s)

section
variable {W : (σ → Except ε (List δ)) → Prop}

omit [Database σ δ] in
theorem writes_bind {p : Prog σ δ ε μ χ α} {f : α → Prog σ δ ε μ χ β} (hp : p.Writes W)
    (hf : ∀ a, (f a).Writes W) : (p >>= f).Writes W := by
  change (p.bind f).Writes W
  induction p with
  | ret a => exact hf a
  | raise e => trivial
  | atomic g k ih => exact fun b => ih b (hp b)
  | query q k ih => exact fun b => ih b (hp b)
  | write w k ih => exact ⟨hp.1, fun r => ih r (hp.2 r)⟩
  | commit k ih => exact ih hp
  | rollback k ih => exact ih hp

omit [Database σ δ] in
theorem writes_mono {W' : (σ → Except ε (List δ)) → Prop} (hW : ∀ w, W w → W' w)
    {p : Prog σ δ ε μ χ α} (hp : p.Writes W) : p.Writes W' := by
  induction p with
  | ret a => trivial
  | raise e => trivial
  | atomic g k ih => exact fun b => ih b (hp b)
  | query q k ih => exact fun b => ih b (hp b)
  | write w k ih => exact ⟨hW w hp.1, fun r => ih r (hp.2 r)⟩
  | commit k ih => exact ih hp
  | rollback k ih => exact ih hp

/-- What every statement of a program keeps, the run of the program keeps. -/
theorem run_keeps {P : σ → Prop} (hW : ∀ w, W w → Keeps P w) {p : Prog σ δ ε μ χ α}
    (hp : p.Writes W) {s : Solo σ δ μ} (hdb : P s.db) (hview : P s.view) :
    P (p.run s).2.db ∧ P (p.run s).2.view := by
  induction p generalizing s with
  | ret a => exact ⟨hdb, hview⟩
  | raise e => exact ⟨hdb, hview⟩
  | atomic g k ih => exact ih _ (hp _) hdb hview
  | query q k ih => exact ih _ (hp _) hdb hview
  | write w k ih =>
    unfold run
    cases hw : w s.view with
    | ok cs =>
      refine ih _ (hp.2 _) hdb ?_
      have hnew := hW w hp.1 s.view cs hview hw
      unfold Solo.view at hnew ⊢
      rwa [applyAll_append]
    | error e => exact ih _ (hp.2 _) hdb hdb
  | commit k ih => exact ih hp hview hview
  | rollback k ih => exact ih hp hdb hdb

end

/-! ## What a program answers -/

/-- Every answer of the program satisfies `P`, whatever it reads. -/
def Answers (P : α → Prop) : Prog σ δ ε μ χ α → Prop
  | .ret a => P a
  | .raise _ => True
  | .atomic _ k => ∀ b, (k b).Answers P
  | .query _ k => ∀ b, (k b).Answers P
  | .write _ k => ∀ r, (k r).Answers P
  | .commit k => k.Answers P
  | .rollback k => k.Answers P

section
variable {P : β → Prop}

omit [Database σ δ] in
theorem answers_bind {p : Prog σ δ ε μ χ α} {f : α → Prog σ δ ε μ χ β}
    (hf : ∀ a, (f a).Answers P) : (p >>= f).Answers P := by
  change (p.bind f).Answers P
  induction p with
  | ret a => exact hf a
  | raise e => trivial
  | atomic g k ih => exact fun b => ih b
  | query q k ih => exact fun b => ih b
  | write w k ih => exact fun r => ih r
  | commit k ih => exact ih
  | rollback k ih => exact ih

theorem run_answers {p : Prog σ δ ε μ χ β} (hp : p.Answers P) (s : Solo σ δ μ) {b : β}
    (h : (p.run s).1 = .ok b) : P b := by
  induction p generalizing s with
  | ret a => cases h; exact hp
  | raise e => cases h
  | atomic g k ih => exact ih _ (hp _) _ h
  | query q k ih => exact ih _ (hp _) _ h
  | write w k ih =>
    unfold run at h
    cases hw : w s.view with
    | ok cs => rw [hw] at h; exact ih _ (hp _) _ h
    | error e => rw [hw] at h; exact ih _ (hp _) _ h
  | commit k ih => exact ih hp _ h
  | rollback k ih => exact ih hp _ h

end

/-! ## What a program raises -/

/-- Every exception that the program raises satisfies `X`, whatever it reads, where a
statement answers with errors of its own only. -/
def Raises (X : χ → Prop) : Prog σ δ ε μ χ α → Prop
  | .ret _ => True
  | .raise e => X e
  | .atomic _ k => ∀ b, (k b).Raises X
  | .query _ k => ∀ b, (k b).Raises X
  | .write w k => (k (.ok ())).Raises X ∧ ∀ s e, w s = .error e → (k (.error e)).Raises X
  | .commit k => k.Raises X
  | .rollback k => k.Raises X

section
variable {X : χ → Prop}

omit [Database σ δ] in
theorem raises_bind {p : Prog σ δ ε μ χ α} {f : α → Prog σ δ ε μ χ β} (hp : p.Raises X)
    (hf : ∀ a, (f a).Raises X) : (p >>= f).Raises X := by
  change (p.bind f).Raises X
  induction p with
  | ret a => exact hf a
  | raise e => exact hp
  | atomic g k ih => exact fun b => ih b (hp b)
  | query q k ih => exact fun b => ih b (hp b)
  | write w k ih => exact ⟨ih _ hp.1, fun s e h => ih _ (hp.2 s e h)⟩
  | commit k ih => exact ih hp
  | rollback k ih => exact ih hp

theorem run_raises {p : Prog σ δ ε μ χ α} (hp : p.Raises X) (s : Solo σ δ μ) {e : χ}
    (h : (p.run s).1 = .error e) : X e := by
  induction p generalizing s with
  | ret a => cases h
  | raise e => cases h; exact hp
  | atomic g k ih => exact ih _ (hp _) _ h
  | query q k ih => exact ih _ (hp _) _ h
  | write w k ih =>
    unfold run at h
    cases hw : w s.view with
    | ok cs => rw [hw] at h; exact ih _ hp.1 _ h
    | error e => rw [hw] at h; exact ih _ (hp.2 _ _ hw) _ h
  | commit k ih => exact ih hp _ h
  | rollback k ih => exact ih hp _ h

end

/-! ## What a program that only reads has seen -/

/-- The program writes and commits nothing. `A` holds of the states that its reads
saw, the last one first, with its answer, and `X` of them with what it raises. The
argument is what was seen before. -/
def Looks (A : List σ → α → Prop) (X : List σ → χ → Prop) : Prog σ δ ε μ χ α → List σ → Prop
  | .ret a, seen => A seen a
  | .raise e, seen => X seen e
  | .atomic _ k, seen => ∀ b, (k b).Looks A X seen
  | .query q k, seen => ∀ s, (k (q s)).Looks A X (s :: seen)
  | .rollback k, seen => k.Looks A X seen
  | .write _ _, _ | .commit _, _ => False

section
variable {A A' : List σ → α → Prop} {B : List σ → β → Prop} {X X' : List σ → χ → Prop}

omit [Database σ δ] in
theorem looks_bind {p : Prog σ δ ε μ χ α} {f : α → Prog σ δ ε μ χ β} {seen : List σ}
    (hp : p.Looks A X seen) (hf : ∀ seen a, A seen a → (f a).Looks B X seen) :
    (p >>= f).Looks B X seen := by
  change (p.bind f).Looks B X seen
  induction p generalizing seen with
  | ret a => exact hf seen a hp
  | raise e => exact hp
  | atomic g k ih => exact fun b => ih b (hp b)
  | query q k ih => exact fun s => ih _ (hp s)
  | write w k ih => exact hp.elim
  | commit k ih => exact hp.elim
  | rollback k ih => exact ih hp

omit [Database σ δ] in
/-- What was seen before is still there at the end. -/
theorem looks_mono {p : Prog σ δ ε μ χ α} {seen : List σ} (hp : p.Looks A X seen)
    (hA : ∀ later a, seen <:+ later → A later a → A' later a)
    (hX : ∀ later e, seen <:+ later → X later e → X' later e) : p.Looks A' X' seen := by
  induction p generalizing seen with
  | ret a => exact hA seen a List.suffix_rfl hp
  | raise e => exact hX seen e List.suffix_rfl hp
  | atomic g k ih => exact fun b => ih b (hp b) hA hX
  | query q k ih =>
    intro s
    have hs : ∀ {later}, (s :: seen) <:+ later → seen <:+ later :=
      fun h => (List.suffix_cons s seen).trans h
    exact ih _ (hp s) (fun later a h => hA later a (hs h)) (fun later e h => hX later e (hs h))
  | write w k ih => exact hp.elim
  | commit k ih => exact hp.elim
  | rollback k ih => exact ih hp hA hX

omit [Database σ δ] in
/-- It may still answer, or it will raise. -/
theorem looks_or_raises {p : Prog σ δ ε μ χ α} {seen : List σ} (hp : p.Looks A X seen) :
    (∃ later a, seen <:+ later ∧ A later a) ∨ p.Looks (fun _ _ => False) X seen := by
  by_cases h : ∃ later a, seen <:+ later ∧ A later a
  · exact Or.inl h
  · refine Or.inr (looks_mono hp (fun later a hseen ha => ?_) fun _ _ _ hX => hX)
    exact h ⟨later, a, hseen, ha⟩

omit [Database σ δ] in
/-- It comes to an end, if there is a state to read and a memory to work on. -/
theorem looks_end (s : σ) (m : μ) {p : Prog σ δ ε μ χ α} {seen : List σ} (hp : p.Looks A X seen) :
    ∃ later, seen <:+ later ∧ ((∃ a, A later a) ∨ ∃ e, X later e) := by
  induction p generalizing seen with
  | ret a => exact ⟨seen, List.suffix_rfl, Or.inl ⟨a, hp⟩⟩
  | raise e => exact ⟨seen, List.suffix_rfl, Or.inr ⟨e, hp⟩⟩
  | atomic g k ih => exact ih _ (hp (g 0 m).1)
  | query q k ih =>
    obtain ⟨later, hseen, hend⟩ := ih _ (hp s)
    exact ⟨later, (List.suffix_cons s seen).trans hseen, hend⟩
  | write w k ih => exact hp.elim
  | commit k ih => exact hp.elim
  | rollback k ih => exact ih hp

/-- Alone and with nothing written, it reads what is stored, and leaves it as it is. -/
theorem run_looks {p : Prog σ δ ε μ χ α} {seen : List σ} (hp : p.Looks A X seen)
    {s : Solo σ δ μ} (hs : s.pending = []) :
    (p.run s).2.db = s.db ∧ (p.run s).2.pending = [] ∧
      ∀ a, (p.run s).1 = .ok a → ∃ later, A later a ∧ ∀ x ∈ later, x ∈ seen ∨ x = s.db := by
  induction p generalizing seen s with
  | ret a =>
    refine ⟨rfl, hs, fun b hb => ⟨seen, ?_, fun x hx => Or.inl hx⟩⟩
    cases hb
    exact hp
  | raise e => exact ⟨rfl, hs, fun b hb => by cases hb⟩
  | atomic g k ih => exact ih _ (hp _) hs
  | query q k ih =>
    have hview : s.view = s.db := by simp [Solo.view, hs]
    obtain ⟨hdb, hpending, hend⟩ := ih _ (hp s.view) hs
    refine ⟨hdb, hpending, fun a ha => ?_⟩
    obtain ⟨later, hlater, hseen⟩ := hend a ha
    refine ⟨later, hlater, fun x hx => ?_⟩
    rcases hseen x hx with h | h
    · rcases List.mem_cons.mp h with rfl | h
      · exact Or.inr hview
      · exact Or.inl h
    · exact Or.inr h
  | write w k ih => exact hp.elim
  | commit k ih => exact hp.elim
  | rollback k ih => exact ih hp (s := { s with pending := [] }) rfl

end

end Prog

end transactions
