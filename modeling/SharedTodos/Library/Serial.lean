-- What programs side by side leave behind: at READ COMMITTED with locks, the
-- database is what the committed transactions leave one after another, in the
-- order of their commits. A statement must stay good under the changes that its
-- locks let through; then no program waits for ever, if a transaction with a
-- statement to come only stands in the way of transactions that have done less.
import SharedTodos.Library.Interleave
import Mathlib.Data.Finset.Max

namespace transactions

variable {ι σ δ ε μ χ α β : Type}

/-- A statement that writes. -/
abbrev Stmt (σ δ ε : Type) := σ → Except ε (List δ)

/-- What a program has learned and done: the states that its reads saw, the clock
readings that it took, and the statements of its committed transactions, the last
ones first. -/
structure Sight (σ δ ε : Type) where
  states : List σ
  times : List Time
  commits : List (List (Stmt σ δ ε))

namespace Sight

def none : Sight σ δ ε := ⟨[], [], []⟩

def saw (g : Sight σ δ ε) (s : σ) : Sight σ δ ε := { g with states := s :: g.states }

def at_time (g : Sight σ δ ε) (now : Time) : Sight σ δ ε := { g with times := now :: g.times }

def did (g : Sight σ δ ε) (ws : List (Stmt σ δ ε)) : Sight σ δ ε :=
  { g with commits := ws :: g.commits }

section
variable (g : Sight σ δ ε) (s : σ) (now : Time) (ws : List (Stmt σ δ ε))

@[simp] theorem saw_states : (g.saw s).states = s :: g.states := rfl

@[simp] theorem saw_times : (g.saw s).times = g.times := rfl

@[simp] theorem saw_commits : (g.saw s).commits = g.commits := rfl

@[simp] theorem at_time_states : (g.at_time now).states = g.states := rfl

@[simp] theorem at_time_times : (g.at_time now).times = now :: g.times := rfl

@[simp] theorem at_time_commits : (g.at_time now).commits = g.commits := rfl

@[simp] theorem did_states : (g.did ws).states = g.states := rfl

@[simp] theorem did_times : (g.did ws).times = g.times := rfl

@[simp] theorem did_commits : (g.did ws).commits = ws :: g.commits := rfl

end

end Sight

/-! ## Programs in transactions -/

namespace Prog

/-- `C` holds of the statements of an open transaction, and `T` of what the program has
learned and of the statements that it commits. It reads, takes the time and ends between
transactions only, and at its end `A` holds of what it has learned and of its answer. -/
def Transacts (C : List (Stmt σ δ ε) → Prop) (T : Sight σ δ ε → List (Stmt σ δ ε) → Prop)
    (A : Sight σ δ ε → α → Prop) :
    Prog σ δ ε μ χ α → List (Stmt σ δ ε) → Sight σ δ ε → Prop
  | .ret a, ws, g => ws = [] ∧ A g a
  | .raise _, _, _ => True
  | .atomic f k, ws, g => ws = [] ∧ ∀ now m, (k (f now m).1).Transacts C T A [] (g.at_time now)
  | .query q k, ws, g => ws = [] ∧ ∀ s, (k (q s)).Transacts C T A [] (g.saw s)
  | .write w k, ws, g =>
    C (ws ++ [w]) ∧ (k (.ok ())).Transacts C T A (ws ++ [w]) g ∧
      ∀ e, (k (.error e)).Transacts C T A [] g
  | .commit k, ws, g => ws ≠ [] ∧ T g ws ∧ k.Transacts C T A [] (g.did ws)
  | .rollback k, _, g => k.Transacts C T A [] g

section
variable {C : List (Stmt σ δ ε) → Prop} {T T' : Sight σ δ ε → List (Stmt σ δ ε) → Prop}
  {A A' : Sight σ δ ε → α → Prop} {B : Sight σ δ ε → β → Prop} {ws : List (Stmt σ δ ε)}
  {g : Sight σ δ ε}

theorem transacts_bind {p : Prog σ δ ε μ χ α} {f : α → Prog σ δ ε μ χ β}
    (hp : p.Transacts C T A ws g) (hf : ∀ g' a, A g' a → (f a).Transacts C T B [] g') :
    (p >>= f).Transacts C T B ws g := by
  change (p.bind f).Transacts C T B ws g
  induction p generalizing ws g with
  | ret a =>
    obtain ⟨rfl, ha⟩ := hp
    exact hf g a ha
  | raise e => trivial
  | atomic h k ih => exact ⟨hp.1, fun now m => ih _ (hp.2 now m)⟩
  | query q k ih => exact ⟨hp.1, fun s => ih _ (hp.2 s)⟩
  | write w k ih => exact ⟨hp.1, ih _ hp.2.1, fun e => ih _ (hp.2.2 e)⟩
  | commit k ih => exact ⟨hp.1, hp.2.1, ih hp.2.2⟩
  | rollback k ih => exact ih hp

theorem transacts_mono {p : Prog σ δ ε μ χ α} (hp : p.Transacts C T A ws g)
    (hT : ∀ g ws, T g ws → T' g ws) (hA : ∀ g a, A g a → A' g a) :
    p.Transacts C T' A' ws g := by
  induction p generalizing ws g with
  | ret a => exact ⟨hp.1, hA g a hp.2⟩
  | raise e => trivial
  | atomic h k ih => exact ⟨hp.1, fun now m => ih _ (hp.2 now m)⟩
  | query q k ih => exact ⟨hp.1, fun s => ih _ (hp.2 s)⟩
  | write w k ih => exact ⟨hp.1, ih _ hp.2.1, fun e => ih _ (hp.2.2 e)⟩
  | commit k ih => exact ⟨hp.1, hT _ _ hp.2.1, ih hp.2.2⟩
  | rollback k ih => exact ih hp

/-- A program that only reads. -/
theorem transacts_of_looks {L : List σ → α → Prop} {X : List σ → χ → Prop}
    {p : Prog σ δ ε μ χ α} (hp : p.Looks L X g.states) :
    p.Transacts C T (fun g' a => L g'.states a ∧ (∀ s ∈ g.states, s ∈ g'.states) ∧
      ∀ t ∈ g.times, t ∈ g'.times) [] g := by
  induction p generalizing g with
  | ret a => exact ⟨rfl, hp, fun _ hs => hs, fun _ ht => ht⟩
  | raise e => trivial
  | atomic h k ih =>
    refine ⟨rfl, fun now m => ?_⟩
    refine transacts_mono (ih _ (g := g.at_time now) (hp _)) (fun _ _ h => h) ?_
    rintro g' a ⟨ha, hstates, htimes⟩
    exact ⟨ha, hstates, fun t ht => htimes t (List.mem_cons_of_mem _ ht)⟩
  | query q k ih =>
    refine ⟨rfl, fun s => ?_⟩
    refine transacts_mono (ih _ (g := g.saw s) (hp s)) (fun _ _ h => h) ?_
    rintro g' a ⟨ha, hstates, htimes⟩
    exact ⟨ha, fun x hx => hstates x (List.mem_cons_of_mem _ hx), htimes⟩
  | write w k ih => exact hp.elim
  | commit k ih => exact hp.elim
  | rollback k ih => exact ih hp

end

end Prog

/-! ## The journal of a run -/

/-- What a step does. -/
inductive Event (ι σ δ ε : Type) where
  | idle
  | read (i : ι) (s : σ)
  | clock (i : ι) (now : Time)
  | wrote (i : ι) (w : Stmt σ δ ε) (cs : List δ)
  /-- The open transaction is rolled back. -/
  | dropped (i : ι)
  | committed (i : ι)

/-- A transaction that was committed: its statements with their changes, and what
its program had learned before. -/
structure Transaction (ι σ δ ε : Type) where
  by_whom : ι
  statements : List (Stmt σ δ ε × List δ)
  learned : Sight σ δ ε

def changes (sts : List (Stmt σ δ ε × List δ)) : List δ := sts.flatMap Prod.snd

@[simp] theorem changes_append (a b : List (Stmt σ δ ε × List δ)) :
    changes (a ++ b) = changes a ++ changes b := List.flatMap_append

@[simp] theorem changes_one (w : Stmt σ δ ε) (cs : List δ) : changes [(w, cs)] = cs := by
  simp [changes]

@[simp] theorem changes_nil : changes ([] : List (Stmt σ δ ε × List δ)) = [] := rfl

/-- The open transactions, what every program has learned, and the transactions
that were committed, in the order of their commits. -/
structure Journal (ι σ δ ε : Type) where
  opened : ι → List (Stmt σ δ ε × List δ)
  learned : ι → Sight σ δ ε
  committed : List (Transaction ι σ δ ε)

namespace Journal

def start : Journal ι σ δ ε := ⟨fun _ => [], fun _ => .none, []⟩

def add [DecidableEq ι] (j : Journal ι σ δ ε) : Event ι σ δ ε → Journal ι σ δ ε
  | .idle => j
  | .read i s => { j with learned := Function.update j.learned i ((j.learned i).saw s) }
  | .clock i now => { j with learned := Function.update j.learned i ((j.learned i).at_time now) }
  | .wrote i w cs => { j with opened := Function.update j.opened i (j.opened i ++ [(w, cs)]) }
  | .dropped i => { j with opened := Function.update j.opened i [] }
  | .committed i =>
    { opened := Function.update j.opened i []
      learned := Function.update j.learned i ((j.learned i).did ((j.opened i).map Prod.fst))
      committed := j.committed ++ [⟨i, j.opened i, j.learned i⟩] }

end Journal

def journal [DecidableEq ι] (log : List (Event ι σ δ ε)) : Journal ι σ δ ε :=
  log.foldl Journal.add .start

theorem journal_append [DecidableEq ι] (log : List (Event ι σ δ ε)) (e : Event ι σ δ ε) :
    journal (log ++ [e]) = (journal log).add e := by
  unfold journal
  rw [List.foldl_append]
  rfl

variable [Database σ δ]

/-- What the next step of program `i` does. -/
def System.event (c : System ι σ δ ε μ χ α) (i : ι) (now : Time) : Event ι σ δ ε :=
  match (c.threads i).prog with
  | .ret _ | .raise _ => .idle
  | .atomic _ _ => .clock i now
  | .query _ _ => .read i (c.view i)
  | .write w _ =>
    match w (c.view i) with
    | .ok cs => .wrote i w cs
    | .error _ => .dropped i
  | .commit _ => .committed i
  | .rollback _ => .dropped i

/-- A run with its log. -/
theorem System.logged_of_reached [DecidableEq ι] [Fintype ι] {ν : Type}
    (note : System ι σ δ ε μ χ α → ι → Time → ν) {ok : System ι σ δ ε μ χ α → ι → Prop}
    {start c : System ι σ δ ε μ χ α} (h : Reached ok start c) :
    ∃ log, Logged (fun c i _ => ok c i) note start log c := by
  induction h with
  | start => exact ⟨[], .start⟩
  | step i now _ meets takes ih =>
    obtain ⟨log, hlog⟩ := ih
    exact ⟨_, .step i now hlog meets takes⟩

/-- The beginning of a run is a run. -/
theorem System.logged_prefix [DecidableEq ι] [Fintype ι] {ν : Type}
    {note : System ι σ δ ε μ χ α → ι → Time → ν} {ok : System ι σ δ ε μ χ α → ι → Time → Prop}
    {start c : System ι σ δ ε μ χ α} {log before after : List ν} (h : Logged ok note start log c)
    (hsplit : log = before ++ after) : ∃ c', Logged ok note start before c' := by
  induction h generalizing after with
  | start =>
    obtain ⟨rfl, -⟩ := List.append_eq_nil_iff.mp hsplit.symm
    exact ⟨start, .start⟩
  | step i now hlog meets takes ih =>
    rcases List.eq_nil_or_concat after with rfl | ⟨rest, last, rfl⟩
    · rw [List.append_nil] at hsplit
      subst hsplit
      exact ⟨_, .step i now hlog meets takes⟩
    · rw [List.concat_eq_append, ← List.append_assoc] at hsplit
      exact ih (List.append_inj' hsplit rfl).1

/-! ## The committed transactions, one after another -/

section
variable (may : Stmt σ δ ε → σ → List δ → Prop)

/-- The statements of a transaction, one after another: each may make its changes
where the changes before it are made. -/
def Runs : List (Stmt σ δ ε × List δ) → σ → Prop
  | [], _ => True
  | (w, cs) :: rest, s => may w s cs ∧ Runs rest (Prog.applyAll cs s)

/-- The transactions lead from the first state to the second one, each as a whole. -/
inductive Executes (s : σ) : List (Transaction ι σ δ ε) → σ → Prop where
  | nothing : Executes s [] s
  | commit {ts : List (Transaction ι σ δ ε)} {s' : σ} (t : Transaction ι σ δ ε)
      (before : Executes s ts s') (runs : Runs may t.statements s') :
    Executes s (ts ++ [t]) (Prog.applyAll (changes t.statements) s')

variable {may}

theorem runs_append {a b : List (Stmt σ δ ε × List δ)} {s : σ} :
    Runs may (a ++ b) s ↔ Runs may a s ∧ Runs may b (Prog.applyAll (changes a) s) := by
  induction a generalizing s with
  | nil => simp [Runs]
  | cons head rest ih =>
    obtain ⟨w, cs⟩ := head
    have hchanges : changes ((w, cs) :: rest) = cs ++ changes rest := rfl
    simp only [List.cons_append, Runs, hchanges, Prog.applyAll_append, ih, and_assoc]

/-- A statement of one of the transactions, where its turn comes. -/
theorem may_of_runs {sts : List (Stmt σ δ ε × List δ)} {s : σ} (h : Runs may sts s)
    {p : Stmt σ δ ε × List δ} (hp : p ∈ sts) : ∃ x, may p.1 x p.2 := by
  induction sts generalizing s with
  | nil => cases hp
  | cons head rest ih =>
    rcases List.mem_cons.mp hp with rfl | hp
    · exact ⟨s, h.1⟩
    · exact ih h.2 hp

/-- The transactions before one of them lead to a state in which it runs. -/
theorem executes_split {earlier later : List (Transaction ι σ δ ε)} {t : Transaction ι σ δ ε}
    {s s' : σ} (h : Executes may s (earlier ++ t :: later) s') :
    ∃ x, Executes may s earlier x ∧ Runs may t.statements x := by
  generalize hts : earlier ++ t :: later = ts at h
  induction h generalizing later with
  | nothing => exact absurd hts (by simp)
  | @commit ts x last before runs ih =>
    rcases List.eq_nil_or_concat later with rfl | ⟨rest, end_, rfl⟩
    · obtain ⟨rfl, ht⟩ := List.append_inj' hts rfl
      obtain rfl := List.singleton_inj.mp ht
      exact ⟨x, before, runs⟩
    · have hsplit : (earlier ++ t :: rest) ++ [end_] = ts ++ [last] := by simpa using hts
      exact ih (List.append_inj' hsplit rfl).1

/-- What every statement keeps, the transactions keep. -/
theorem executes_keeps {P : σ → Prop} {s s' : σ} {ts : List (Transaction ι σ δ ε)}
    (hkeeps : ∀ t ∈ ts, ∀ p ∈ t.statements, ∀ s, P s → may p.1 s p.2 → P (Prog.applyAll p.2 s))
    (h : Executes may s ts s') (hs : P s) : P s' := by
  induction h with
  | nothing => exact hs
  | @commit ts s' t before runs ih =>
    have hs' := ih fun x hx => hkeeps x (List.mem_append_left _ hx)
    have ht := hkeeps t (List.mem_append_right _ (List.mem_singleton.mpr rfl))
    revert hs' runs
    generalize t.statements = sts at ht
    clear before ih
    induction sts generalizing s' with
    | nil => exact fun _ h => h
    | cons head rest ihrest =>
      obtain ⟨w, cs⟩ := head
      rintro ⟨hw, hrest⟩ hs'
      have hchanges : changes ((w, cs) :: rest) = cs ++ changes rest := rfl
      rw [hchanges, Prog.applyAll_append]
      refine ihrest (fun p hp => ht p (List.mem_cons_of_mem _ hp)) hrest ?_
      exact ht (w, cs) (List.mem_cons_self ..) s' hs' hw

end

/-- The statements of a transaction stay good. `C` says which statements one
transaction may have. -/
structure Steady (C : List (Stmt σ δ ε) → Prop) (may : Stmt σ δ ε → σ → List δ → Prop) : Prop where
  of_ok : ∀ w s cs, w s = .ok cs → may w s cs
  kept : ∀ sts s (b : δ), C (sts.map Prod.fst) → Runs may sts s →
    (∀ a ∈ changes sts, Database.blocks a b = false) → Runs may sts (Database.apply b s)

section
variable {C : List (Stmt σ δ ε) → Prop} {may : Stmt σ δ ε → σ → List δ → Prop}

theorem Steady.kept_by_all (h : Steady C may) {sts : List (Stmt σ δ ε × List δ)} {s : σ}
    {bs : List δ} (hC : C (sts.map Prod.fst)) (hruns : Runs may sts s)
    (hfree : ∀ a ∈ changes sts, ∀ b ∈ bs, Database.blocks a b = false) :
    Runs may sts (Prog.applyAll bs s) := by
  induction bs generalizing s with
  | nil => exact hruns
  | cons b rest ih =>
    refine ih (h.kept sts s b hC hruns fun a ha => hfree a ha b (List.mem_cons_self ..)) ?_
    exact fun a ha b' hb' => hfree a ha b' (List.mem_cons_of_mem _ hb')

end

/-! ## What the journal says of the state -/

/-- The state was committed by the first of the transactions. -/
def Stood (may : Stmt σ δ ε → σ → List δ → Prop) (start : σ) (ts : List (Transaction ι σ δ ε))
    (s : σ) : Prop :=
  ∃ first, first <+: ts ∧ Executes may start first s

/-- The statements are those of a transaction of the program. -/
def Done (i : ι) (ts : List (Transaction ι σ δ ε)) (ws : List (Stmt σ δ ε)) : Prop :=
  ∃ t ∈ ts, t.by_whom = i ∧ t.statements.map Prod.fst = ws

/-- The transaction is as its program should do it, after the earlier ones. -/
structure Vouched (T : ι → Sight σ δ ε → List (Stmt σ δ ε) → Prop)
    (may : Stmt σ δ ε → σ → List δ → Prop) (start : σ) (earlier : List (Transaction ι σ δ ε))
    (t : Transaction ι σ δ ε) : Prop where
  transacts : T t.by_whom t.learned (t.statements.map Prod.fst)
  stood : ∀ s ∈ t.learned.states, Stood may start earlier s
  done : ∀ ws ∈ t.learned.commits, Done t.by_whom earlier ws

/-- A program and its part of the journal fit. -/
structure ThreadFits (C : List (Stmt σ δ ε) → Prop) (i : ι)
    (T : Sight σ δ ε → List (Stmt σ δ ε) → Prop) (A : Sight σ δ ε → α → Prop)
    (may : Stmt σ δ ε → σ → List δ → Prop) (start : σ) (ts : List (Transaction ι σ δ ε)) (db : σ)
    (sts : List (Stmt σ δ ε × List δ)) (g : Sight σ δ ε) (t : Thread σ δ ε μ χ α) : Prop where
  stood : ∀ s ∈ g.states, Stood may start ts s
  did : ∀ ws ∈ g.commits, Done i ts ws
  transacts : t.prog.Transacts C T A (sts.map Prod.fst) g
  pending : t.prog.done = false → t.pending = changes sts
  runs : t.prog.done = false → Runs may sts db
  accepted : ∀ p ∈ sts, ∃ s, p.1 s = .ok p.2
  allowed : sts = [] ∨ C (sts.map Prod.fst)

/-- The state of a run and its journal fit. -/
structure Serial (C : List (Stmt σ δ ε) → Prop) (T : ι → Sight σ δ ε → List (Stmt σ δ ε) → Prop)
    (A : ι → Sight σ δ ε → α → Prop) (may : Stmt σ δ ε → σ → List δ → Prop) (start : σ)
    (j : Journal ι σ δ ε) (c : System ι σ δ ε μ χ α) : Prop where
  executes : Executes may start j.committed c.db
  vouched : ∀ earlier t later, j.committed = earlier ++ t :: later → Vouched T may start earlier t
  fits : ∀ i, ThreadFits C i (T i) (A i) may start j.committed c.db (j.opened i) (j.learned i)
    (c.threads i)

section
variable {T : ι → Sight σ δ ε → List (Stmt σ δ ε) → Prop} {A : ι → Sight σ δ ε → α → Prop}
  {C : List (Stmt σ δ ε) → Prop} {may : Stmt σ δ ε → σ → List δ → Prop} {start s : σ}
  {ts us : List (Transaction ι σ δ ε)} {j j' : Journal ι σ δ ε} {c c' : System ι σ δ ε μ χ α}
  {i : ι} {now : Time}

theorem Stood.later (h : Stood may start ts s) : Stood may start (ts ++ us) s := by
  obtain ⟨first, hfirst, hexecutes⟩ := h
  exact ⟨first, hfirst.trans (List.prefix_append ts us), hexecutes⟩

omit [Database σ δ] in
theorem Done.later {ws : List (Stmt σ δ ε)} (h : Done i ts ws) : Done i (ts ++ us) ws := by
  obtain ⟨t, ht, hwhom, hws⟩ := h
  exact ⟨t, List.mem_append_left _ ht, hwhom, hws⟩

theorem stood_now (h : Executes may start ts s) : Stood may start ts s := ⟨ts, List.prefix_rfl, h⟩

/-- Nothing is pending of a program that is between two transactions. -/
theorem view_of_closed {T : Sight σ δ ε → List (Stmt σ δ ε) → Prop} {A : Sight σ δ ε → α → Prop}
    {g : Sight σ δ ε} (h : ThreadFits C i T A may start ts c.db [] g (c.threads i))
    (hdone : (c.threads i).prog.done = false) :
    (c.threads i).pending = [] ∧ c.view i = c.db := by
  have hpending : (c.threads i).pending = [] := h.pending hdone
  exact ⟨hpending, System.view_of_nothing_pending hpending⟩

variable [DecidableEq ι] [Fintype ι]

/-- A step that commits nothing touches the part of its own program only. -/
theorem serial_of_stays (h : Serial C T A may start j c) (hs : c.step i now = some c')
    (hdb : c'.db = c.db) (hcommitted : j'.committed = j.committed)
    (hopened : ∀ k, k ≠ i → j'.opened k = j.opened k)
    (hlearned : ∀ k, k ≠ i → j'.learned k = j.learned k)
    (hown : ThreadFits C i (T i) (A i) may start j.committed c.db (j'.opened i) (j'.learned i)
      (c'.threads i)) : Serial C T A may start j' c' where
  executes := by
    rw [hcommitted, hdb]
    exact h.executes
  vouched := by
    rw [hcommitted]
    exact h.vouched
  fits := by
    intro k
    rw [hcommitted, hdb]
    by_cases hk : k = i
    · subst hk
      exact hown
    · rw [hopened k hk, hlearned k hk, System.step_others hs hk]
      exact h.fits k

omit [DecidableEq ι] [Fintype ι] in
/-- The part of a program at a commit of another one. -/
theorem fits_of_commit {T : Sight σ δ ε → List (Stmt σ δ ε) → Prop} {A : Sight σ δ ε → α → Prop}
    (hsteady : Steady C may) {sts : List (Stmt σ δ ε × List δ)}
    {g : Sight σ δ ε} {t : Thread σ δ ε μ χ α} {bs : List δ} {db : σ}
    (h : ThreadFits C i T A may start ts db sts g t)
    (hlocks : t.prog.done = false → ∀ a ∈ t.pending, ∀ b ∈ bs, Database.blocks a b = false) :
    ThreadFits C i T A may start (ts ++ us) (Prog.applyAll bs db) sts g t where
  stood := fun s hs => (h.stood s hs).later
  did := fun ws hws => (h.did ws hws).later
  transacts := h.transacts
  pending := h.pending
  runs := by
    intro hdone
    rcases h.allowed with rfl | hallowed
    · trivial
    · refine hsteady.kept_by_all hallowed (h.runs hdone) ?_
      rw [← h.pending hdone]
      exact hlocks hdone
  accepted := h.accepted
  allowed := h.allowed

/-- A commit adds the transaction of its program to the journal. -/
theorem serial_of_commit (hsteady : Steady C may)
    (hlocks : c.LocksHeld) (h : Serial C T A may start j c) {k : Prog σ δ ε μ χ α}
    (hp : (c.threads i).prog = .commit k) (hs : c.step i now = some c') :
    Serial C T A may start (j.add (.committed i)) c' := by
  have hdone : (c.threads i).prog.done = false := by rw [hp]; rfl
  have hfits := h.fits i
  have htransacts := hfits.transacts
  rw [hp] at htransacts
  obtain ⟨-, hT, hk⟩ := htransacts
  have hc := System.step_commit hp hs
  have hdb : c'.db = Prog.applyAll (changes (j.opened i)) c.db := by
    rw [hc, ← hfits.pending hdone]
    rfl
  refine ⟨?_, ?_, ?_⟩
  · rw [hdb]
    exact .commit ⟨i, j.opened i, j.learned i⟩ h.executes (hfits.runs hdone)
  · intro earlier t later heq
    rcases List.eq_nil_or_concat later with rfl | ⟨rest, last, rfl⟩
    · obtain ⟨rfl, ht⟩ := List.append_inj' heq rfl
      rw [List.cons.injEq] at ht
      rw [← ht.1]
      exact ⟨hT, hfits.stood, hfits.did⟩
    · refine h.vouched earlier t rest ?_
      have hlast : j.committed ++ [⟨i, j.opened i, j.learned i⟩] =
          (earlier ++ t :: rest) ++ [last] := by
        simpa [Journal.add] using heq
      exact (List.append_inj' hlast rfl).1
  · intro m
    rw [hdb]
    by_cases hm : m = i
    · subst hm
      rw [hc]
      rw [show (j.add (.committed m)).opened m = [] from Function.update_self ..,
        show (j.add (.committed m)).learned m =
          (j.learned m).did ((j.opened m).map Prod.fst) from Function.update_self ..]
      refine ⟨fun s hs => (hfits.stood s hs).later, ?_, ?_, ?_, fun _ => trivial, ?_, Or.inl rfl⟩
      · intro ws hws
        rcases List.mem_cons.mp hws with rfl | hws
        · exact ⟨_, List.mem_append_right _ (List.mem_singleton.mpr rfl), rfl, rfl⟩
        · exact (hfits.did ws hws).later
      · simpa using hk
      · simp
      · simp
    · rw [System.step_others hs hm]
      rw [show (j.add (.committed i)).opened m = j.opened m from Function.update_of_ne hm ..,
        show (j.add (.committed i)).learned m = j.learned m from Function.update_of_ne hm ..]
      refine fits_of_commit hsteady (h.fits m) fun hmdone a ha b hb => ?_
      rw [← hfits.pending hdone] at hb
      exact hlocks m i hm hmdone hdone a ha b hb

/-- Every step keeps the journal. -/
theorem serial_step (hsteady : Steady C may)
    (hlocks : c.LocksHeld) (h : Serial C T A may start j c) (hs : c.step i now = some c') :
    Serial C T A may start (j.add (c.event i now)) c' := by
  have hdone := System.not_done_of_step hs
  have hfits := h.fits i
  have htransacts := hfits.transacts
  unfold System.event
  cases hp : (c.threads i).prog with
  | ret a => rw [hp] at hdone; cases hdone
  | raise e => rw [hp] at hdone; cases hdone
  | atomic f k =>
    rw [hp] at htransacts
    obtain ⟨hnil, hk⟩ := htransacts
    have hopened : j.opened i = [] := List.map_eq_nil_iff.mp hnil
    rw [hopened] at hfits
    have hc := System.step_atomic hp hs
    refine serial_of_stays h hs (by rw [hc]; rfl) rfl (fun m hm => rfl)
      (fun m hm => Function.update_of_ne hm ..) ?_
    change ThreadFits C i (T i) (A i) may start _ _
      (j.opened i) ((j.add (.clock i now)).learned i) _
    rw [show (j.add (.clock i now)).learned i = (j.learned i).at_time now from
      Function.update_self .., hopened, hc]
    refine ⟨hfits.stood, hfits.did, ?_, fun _ => ?_, fun _ => trivial, by simp, Or.inl rfl⟩
    · simpa using hk now c.memory
    · simpa using hfits.pending hdone
  | query q k =>
    rw [hp] at htransacts
    obtain ⟨hnil, hk⟩ := htransacts
    have hopened : j.opened i = [] := List.map_eq_nil_iff.mp hnil
    rw [hopened] at hfits
    obtain ⟨hpending, hview⟩ := view_of_closed hfits hdone
    have hc := System.step_query hp hs
    rw [hview] at hc ⊢
    refine serial_of_stays h hs (by rw [hc]; rfl) rfl (fun m hm => rfl)
      (fun m hm => Function.update_of_ne hm ..) ?_
    change ThreadFits C i (T i) (A i) may start _ _
      (j.opened i) ((j.add (.read i c.db)).learned i) _
    rw [show (j.add (.read i c.db)).learned i = (j.learned i).saw c.db from
      Function.update_self .., hopened, hc]
    refine ⟨?_, hfits.did, ?_, fun _ => ?_, fun _ => trivial, by simp, Or.inl rfl⟩
    · intro s hs
      rcases List.mem_cons.mp hs with rfl | hs
      · exact stood_now h.executes
      · exact hfits.stood s hs
    · simpa using hk c.db
    · simpa using hpending
  | write w k =>
    rw [hp] at htransacts
    obtain ⟨hT, hok, herror⟩ := htransacts
    rcases System.step_write hp hs with ⟨e, he, hc⟩ | ⟨cs, hcs, -, hc⟩
    · dsimp only
      rw [he]
      refine serial_of_stays h hs (by rw [hc]; rfl) rfl (fun m hm => Function.update_of_ne hm ..)
        (fun m hm => rfl) ?_
      change ThreadFits C i (T i) (A i) may start _ _
        ((j.add (.dropped i)).opened i) (j.learned i) _
      rw [show (j.add (.dropped i)).opened i = [] from Function.update_self .., hc]
      refine ⟨hfits.stood, hfits.did, ?_, fun _ => ?_, fun _ => trivial, by simp, Or.inl rfl⟩
      · simpa using herror e
      · simp
    · dsimp only
      rw [hcs]
      refine serial_of_stays h hs (by rw [hc]; rfl) rfl (fun m hm => Function.update_of_ne hm ..)
        (fun m hm => rfl) ?_
      change ThreadFits C i (T i) (A i) may start _ _
        ((j.add (.wrote i w cs)).opened i) (j.learned i) _
      rw [show (j.add (.wrote i w cs)).opened i = j.opened i ++ [(w, cs)] from
        Function.update_self .., hc]
      refine ⟨hfits.stood, hfits.did, ?_, fun _ => ?_, fun _ => ?_, ?_, Or.inr ?_⟩
      · simpa using hok
      · simpa using hfits.pending hdone
      · refine runs_append.mpr ⟨hfits.runs hdone, ?_, trivial⟩
        rw [← hfits.pending hdone]
        exact hsteady.of_ok w _ cs hcs
      · intro p hp
        rcases List.mem_append.mp hp with hp | hp
        · exact hfits.accepted p hp
        · obtain rfl := List.mem_singleton.mp hp
          exact ⟨_, hcs⟩
      · simpa using hT
  | commit k => exact serial_of_commit hsteady hlocks h hp hs
  | rollback k =>
    rw [hp] at htransacts
    have hc : c' = c.put i ⟨k, [], (c.threads i).reads⟩ := by
      unfold System.step at hs
      rw [hp] at hs
      exact (Option.some.inj hs).symm
    refine serial_of_stays h hs (by rw [hc]; rfl) rfl (fun m hm => Function.update_of_ne hm ..)
      (fun m hm => rfl) ?_
    change ThreadFits C i (T i) (A i) may start _ _
      ((j.add (.dropped i)).opened i) (j.learned i) _
    rw [show (j.add (.dropped i)).opened i = [] from Function.update_self .., hc]
    refine ⟨hfits.stood, hfits.did, ?_, fun _ => ?_, fun _ => trivial, by simp, Or.inl rfl⟩
    · simpa [Prog.Transacts] using htransacts
    · simp

/-- Every run keeps the journal, from a state in which no transaction is open. -/
theorem serial_of_logged (hsteady : Steady C may)
    (hsymm : ∀ a b : δ, Database.blocks a b = Database.blocks b a)
    (hpending : ∀ i, (c.threads i).pending = [])
    (htransacts : ∀ i, (c.threads i).prog.Transacts C (T i) (A i) [] .none)
    {ok : System ι σ δ ε μ χ α → ι → Time → Prop} {log : List (Event ι σ δ ε)}
    (h : System.Logged ok System.event c log c') :
    Serial C T A may c.db (journal log) c' ∧ c'.LocksHeld := by
  induction h with
  | start =>
    refine ⟨⟨.nothing, ?_, fun i => ?_⟩, fun i j hij hi hj a ha => ?_⟩
    · intro earlier t later heq
      exact absurd heq.symm (by simp [journal, Journal.start])
    · refine ⟨fun s hs => ?_, fun ws hws => ?_, htransacts i, fun _ => hpending i,
        fun _ => trivial, fun p hp => ?_, Or.inl rfl⟩
      · cases hs
      · cases hws
      · cases hp
    · rw [hpending i] at ha
      cases ha
  | step i now _ _ takes ih =>
    rw [journal_append]
    exact ⟨serial_step hsteady ih.2 ih.1 takes, System.locks_held_of_step hsymm ih.2 takes⟩

/-- A read sees what the transactions that are committed have left. -/
theorem read_of_event (h : Serial C T A may start j c) (hs : c.step i now = some c') {k : ι}
    (he : c.event i now = .read k s) : Executes may start j.committed s := by
  unfold System.event at he
  split at he
  · cases he
  · cases he
  · cases he
  · rename_i q l hp
    cases he
    have hfits := h.fits i
    have htransacts := hfits.transacts
    rw [hp] at htransacts
    rw [List.map_eq_nil_iff.mp htransacts.1] at hfits
    rw [(view_of_closed hfits (System.not_done_of_step hs)).2]
    exact h.executes
  · split at he <;> cases he
  · cases he
  · cases he

/-- In every run, each read sees what the transactions before it have left. -/
theorem reads_of_logged (hsteady : Steady C may)
    (hsymm : ∀ a b : δ, Database.blocks a b = Database.blocks b a)
    (hpending : ∀ i, (c.threads i).pending = [])
    (htransacts : ∀ i, (c.threads i).prog.Transacts C (T i) (A i) [] .none)
    {ok : System ι σ δ ε μ χ α → ι → Time → Prop} {log before after : List (Event ι σ δ ε)}
    (h : System.Logged ok System.event c log c') (hsplit : log = before ++ .read i s :: after) :
    Executes may c.db (journal before).committed s := by
  induction h generalizing after with
  | start => exact absurd hsplit.symm (by simp)
  | @step log d d' k now hbefore _ takes ih =>
    rcases List.eq_nil_or_concat after with rfl | ⟨rest, last, rfl⟩
    · obtain ⟨rfl, he⟩ := List.append_inj' hsplit rfl
      have hserial := serial_of_logged hsteady hsymm hpending htransacts hbefore
      exact read_of_event hserial.1 takes (List.singleton_inj.mp he)
    · have hlog : log ++ [d.event k now] = (before ++ .read i s :: rest) ++ [last] := by
        simpa using hsplit
      exact ih (List.append_inj' hlog rfl).1

end

/-! ## No program waits for ever -/

/-- The change is one that a statement may make. -/
def Makes (ws : List (Stmt σ δ ε)) (a : δ) : Prop := ∃ w ∈ ws, ∃ s cs, w s = .ok cs ∧ a ∈ cs

/-- A transaction with a statement to come stands only in the way of transactions
that have done fewer statements. -/
def Ordered (C : List (Stmt σ δ ε) → Prop) : Prop :=
  ∀ ws w ws' w' (a b : δ), C (ws ++ [w]) → C (ws' ++ [w']) → Makes ws' a → Makes [w] b →
    Database.blocks a b = true → ws.length < ws'.length

section
variable {T : ι → Sight σ δ ε → List (Stmt σ δ ε) → Prop} {A : ι → Sight σ δ ε → α → Prop}
  {C : List (Stmt σ δ ε) → Prop} {may : Stmt σ δ ε → σ → List δ → Prop} {start : σ}
  {j : Journal ι σ δ ε} {c : System ι σ δ ε μ χ α} {i : ι}
variable [DecidableEq ι] [Fintype ι]

/-- A program that is not done and cannot go on waits at a statement. -/
theorem waits_of_stuck (hdone : (c.threads i).prog.done = false)
    (hstuck : ¬ ∀ now, (c.step i now).isSome) :
    ∃ w k cs, (c.threads i).prog = .write w k ∧ w (c.view i) = .ok cs ∧ c.waits i cs = true := by
  cases hp : (c.threads i).prog with
  | write w k =>
    refine ⟨w, k, ?_⟩
    cases hw : w (c.view i) with
    | ok cs =>
      refine ⟨cs, rfl, rfl, ?_⟩
      by_contra hfree
      exact hstuck fun now => System.step_of_write hp hw (by simpa using hfree) now
    | error e =>
      refine absurd (fun now => ?_) hstuck
      unfold System.step
      rw [hp]
      dsimp only
      rw [hw]
      rfl
  | _ => exact absurd (fun now => System.step_of_not_writing hdone (by rw [hp]; rfl) now) hstuck

/-- A program that waits has done fewer statements than the one that it waits for, if
that one has a statement to come. -/
theorem fewer_of_waits (hordered : Ordered C)
    (h : Serial C T A may start j c) {w : Stmt σ δ ε} {k : Except ε Unit → Prog σ δ ε μ χ α}
    {cs : List δ} (hp : (c.threads i).prog = .write w k) (hw : w (c.view i) = .ok cs)
    (hwaits : c.waits i cs = true) :
    ∃ m, (c.threads m).prog.done = false ∧ ∀ w' k', (c.threads m).prog = .write w' k' →
      (j.opened i).length < (j.opened m).length := by
  unfold System.waits at hwaits
  rw [decide_eq_true_eq] at hwaits
  obtain ⟨m, -, hdone, hany⟩ := hwaits
  refine ⟨m, hdone, fun w' k' hp' => ?_⟩
  obtain ⟨a, ha, b, hb, hblocks⟩ :
      ∃ a ∈ (c.threads m).pending, ∃ b ∈ cs, Database.blocks a b = true := by
    simpa only [List.any_eq_true] using hany
  have hi := (h.fits i).transacts
  rw [hp] at hi
  have hm := (h.fits m).transacts
  rw [hp'] at hm
  rw [(h.fits m).pending hdone] at ha
  obtain ⟨p, hpm, hap⟩ := List.mem_flatMap.mp ha
  obtain ⟨s, hs⟩ := (h.fits m).accepted p hpm
  have hlt := hordered _ w _ w' a b hi.1 hm.1
    ⟨p.1, List.mem_map_of_mem hpm, s, p.2, hs, hap⟩
    ⟨w, List.mem_singleton.mpr rfl, c.view i, cs, hw, hb⟩ hblocks
  simpa using hlt

/-- Some program can go on, unless all are done. -/
theorem goes_on_of_serial (hordered : Ordered C)
    (h : Serial C T A may start j c) : System.GoesOn (fun _ _ => True) c := by
  by_contra hstuck
  unfold System.GoesOn at hstuck
  simp only [true_and, not_or, not_exists] at hstuck
  obtain ⟨hleft, hstuck⟩ := hstuck
  obtain ⟨i, hi⟩ := not_forall.mp hleft
  -- Of the programs that wait, one has done the most statements.
  have hsome : (Finset.univ.filter fun i => (c.threads i).prog.done = false).Nonempty :=
    ⟨i, by simpa using hi⟩
  obtain ⟨top, htop, hmost⟩ := Finset.exists_max_image _ (fun i => (j.opened i).length) hsome
  rw [Finset.mem_filter] at htop
  obtain ⟨w, k, cs, hp, hw, hwaits⟩ := waits_of_stuck htop.2 (hstuck top)
  obtain ⟨m, hdone, hless⟩ := fewer_of_waits hordered h hp hw hwaits
  obtain ⟨w', k', -, hp', -⟩ := waits_of_stuck hdone (hstuck m)
  have hle := hmost m (by simpa using hdone)
  have hlt := hless w' k' hp'
  omega

/-- Every run comes to an end with every program done. -/
theorem ends_of_transacts (hsteady : Steady C may)
    (hsymm : ∀ a b : δ, Database.blocks a b = Database.blocks b a) (hordered : Ordered C)
    (hpending : ∀ i, (c.threads i).pending = [])
    (htransacts : ∀ i, (c.threads i).prog.Transacts C (T i) (A i) [] .none) :
    System.Ends (fun _ _ => True) c := by
  have hstart : System.Reached (fun _ _ => True) c c := .start
  refine System.ends_of_goes_on (fun c' hreached => ?_) hstart
  obtain ⟨log, hlogged⟩ := System.logged_of_reached System.event hreached
  exact goes_on_of_serial hordered
    (serial_of_logged hsteady hsymm hpending htransacts hlogged).1

end

end transactions
