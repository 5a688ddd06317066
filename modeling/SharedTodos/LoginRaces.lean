-- Logins of a user beside a reset of his password. A login reads the hash,
-- verifies the password and inserts its session later, so a session opened with
-- the old password can be committed after the reset has deleted the sessions
-- that it saw. When no login does so, no session of the old password is left.
import SharedTodos.ResetRaces
import Mathlib.Data.Fintype.Option

open keyed_table transactions
open shared_todos.models shared_todos.http shared_todos.http.handler
open shared_todos.sessions shared_todos.rate_limiter shared_todos.auth shared_todos.app
open shared_todos.accounts shared_todos.server shared_todos.reset_races

namespace shared_todos.login_races

variable (env : Env)

/-! ## The parts of a login -/

/-- `login` after the check of the limit. -/
def look_up_account (body : LoginRequest) (request : Request) (d : Draws) : Handler Response := do
  let user ← scalar_one_or_none (← execute (users_by_email body.email.val))
  login_found env body request d user

/-- `login_accepted` after the limiter has forgotten the failures. -/
def open_login (user : User) (d : Draws) : Handler Response :=
  open_and_answer env user.id d fun token => logged_in env user token d

/-- The one read of the request has shown it this account. -/
def HasRead (body : LoginRequest) (reads : List DB) (user : User) : Prop :=
  ∃ s, reads = [s] ∧ users_by_email body.email.val s = [user]

/-- The password decides how `login_found` goes on. -/
theorem login_found_cases (body : LoginRequest) (request : Request) (d : Draws)
    (user : Option User) :
    (∃ e, login_found env body request d user = .raise e) ∨
      login_found env body request d user = login_rejected env request ∨
      ∃ v, user = some v ∧
        login_found env body request d user = login_accepted env v request d := by
  unfold login_found
  split
  · rename_i v hash _
    unfold verify_password
    cases env.ph_verify hash body.password with
    | verified => exact Or.inr (Or.inr ⟨v, rfl, rfl⟩)
    | mismatch => exact Or.inr (Or.inl rfl)
    | error => exact Or.inl ⟨_, rfl⟩
  · unfold verify_password
    cases env.ph_verify (make_dummy_hash env) body.password with
    | error => exact Or.inl ⟨_, rfl⟩
    | verified => exact Or.inr (Or.inl rfl)
    | mismatch => exact Or.inr (Or.inl rfl)

/-- Where a login can be. -/
inductive Phase (body : LoginRequest) (request : Request) (d : Draws) (t : Running) : Prop where
  | start (prog : t.prog = login env body request d) (pending : t.pending = [])
      (reads : t.reads = [])
  | lookup (prog : t.prog = look_up_account env body request d) (pending : t.pending = [])
      (reads : t.reads = [])
  | rejected (prog : t.prog = login_rejected env request) (pending : t.pending = [])
  | accepted (user : User) (prog : t.prog = login_accepted env user request d)
      (pending : t.pending = []) (read : HasRead body t.reads user)
  | opening (user : User) (prog : t.prog = open_login env user d) (pending : t.pending = [])
      (read : HasRead body t.reads user)
  | insert (user : User) (now : Time) (prog : t.prog =
      insert_and_answer (own_session env user.id d now) (logged_in env user (d.token_urlsafe 0) d))
      (pending : t.pending = []) (read : HasRead body t.reads user)
  | commit (user : User) (now : Time)
      (prog : t.prog = commit_and_answer (logged_in env user (d.token_urlsafe 0) d))
      (pending : t.pending = [.insert_session (own_session env user.id d now)])
      (read : HasRead body t.reads user)
  | answered (user : User) (prog : t.prog = .ret (logged_in env user (d.token_urlsafe 0) d))
  | failed (e : Exn) (prog : t.prog = .raise e)

variable {κ : Type} [DecidableEq κ] [Fintype κ]

/-- What one step of a login does. -/
inductive Move (body : LoginRequest) (request : Request) (d : Draws) (c c' : Server κ) (i : κ) :
    Prop where
  /-- It commits nothing, and it reads the committed state or nothing. -/
  | stays (db : c'.db = c.db) (phase : Phase env body request d (c'.threads i))
      (reads : (c'.threads i).reads = (c.threads i).reads ∨
        (c'.threads i).reads = c.db :: (c.threads i).reads)
  | commits (user : User) (now : Time) (before : (c.threads i).prog.committing = true)
      (read : HasRead body (c.threads i).reads user)
      (db : c'.db = Change.apply (.insert_session (own_session env user.id d now)) c.db)
      (prog : (c'.threads i).prog = .ret (logged_in env user (d.token_urlsafe 0) d))
      (reads : (c'.threads i).reads = (c.threads i).reads)

section
variable {env} {body : LoginRequest} {request : Request} {d : Draws} {c c' : Server κ} {i : κ}
  {now : Time}

theorem move_of_step (h : Phase env body request d (c.threads i)) (hs : c.step i now = some c') :
    Move env body request d c c' i := by
  have hview : (c.threads i).pending = [] → c.view i = c.db := System.view_of_nothing_pending
  cases h with
  | start prog pending reads =>
    rw [System.step_atomic prog hs]
    refine .stays rfl ?_ (by simp)
    by_cases hlimit : (recent env now (c.memory (client_ip env request))).length ≥
        env.settings.rate_limit_login_attempts
    · refine .failed (too_many_attempts env) ?_
      rw [System.put_threads_self]
      dsimp only
      rw [if_pos hlimit]
      rfl
    · refine .lookup ?_ (by simp [pending]) (by simp [reads])
      rw [System.put_threads_self]
      dsimp only
      rw [if_neg hlimit]
      rfl
  | lookup prog pending reads =>
    have hc := step_execute prog hs
    rw [hview pending, pending, reads] at hc
    subst hc
    refine .stays rfl ?_ (by simp [reads])
    -- What the request does with the account that the lookup gives.
    have hfound : ∀ user : Option User, (∀ v, user = some v →
        users_by_email body.email.val c.db = [v]) →
        Phase env body request d ⟨login_found env body request d user, [], [c.db]⟩ := by
      intro user huser
      rcases login_found_cases env body request d user with ⟨e, he⟩ | he | ⟨v, hv, he⟩
      · exact .failed e he
      · exact .rejected he rfl
      · exact .accepted v he rfl ⟨c.db, rfl, huser v hv⟩
    rw [System.put_threads_self]
    rcases hrows : users_by_email body.email.val c.db with _ | ⟨user, _ | ⟨v, rest⟩⟩
    · exact hfound none (by simp)
    · exact hfound (some user) (by simp [hrows])
    · exact .failed .multiple_results_found rfl
  | rejected prog pending =>
    rw [System.step_atomic prog hs]
    exact .stays rfl (.failed _ (by simp; rfl)) (by simp)
  | accepted user prog pending read =>
    rw [System.step_atomic prog hs]
    refine .stays rfl ?_ (by simp)
    exact .opening user (by simp; rfl) (by simp [pending]) (by simpa using read)
  | opening user prog pending read =>
    unfold open_login at prog
    rw [open_and_answer_eq] at prog
    rw [step_utc_now prog hs]
    refine .stays rfl ?_ (by simp)
    exact .insert user now (by simp) (by simp [pending]) (by simpa using read)
  | insert user t prog pending read =>
    rcases step_flush prog hs with ⟨e, -, rfl⟩ | ⟨cs, hcs, -, rfl⟩
    · exact .stays rfl (.failed (.db e) (by simp)) (by simp)
    · obtain ⟨rfl, -⟩ := insert_session_ok hcs
      refine .stays rfl ?_ (by simp)
      exact .commit user t (by simp) (by simp [pending]) (by simpa using read)
  | commit user t prog pending read =>
    rw [step_commit_one prog pending hs]
    exact .commits user t (by rw [prog]; rfl) read rfl (by simp; rfl) (by simp)
  | answered user prog =>
    exact absurd hs (System.not_step_of_done (by rw [prog]; rfl))
  | failed e prog =>
    exact absurd hs (System.not_step_of_done (by rw [prog]; rfl))

end

/-! ## The runs without a race -/

variable {ι : Type} [DecidableEq ι] [Fintype ι]

/-- Logins of one account, and a reset of its password. -/
structure Arrivals (ι : Type) where
  world : World
  account : User
  /-- The hash of the account at the start. -/
  old_hash : String
  reset : PasswordResetCompleteBody
  reset_draws : Draws
  login : ι → LoginRequest
  request : ι → Request
  draws : ι → Draws

/-- The session token that a login draws. -/
def Arrivals.token (a : Arrivals ι) (l : ι) : String := (a.draws l).token_urlsafe 0

/-- The requests are about the account, and the session tokens are fresh. -/
structure Arrivals.Ok (a : Arrivals ι) : Prop where
  valid : Valid a.world.db
  account : a.account ∈ a.world.db.users.rows
  old_hash : a.account.password_hash = some a.old_hash
  login : ∀ l, (a.login l).email.val = a.account.email
  reset : ∀ t ∈ a.world.db.password_reset_tokens.rows,
    t.token_hash = hash_token env a.reset.token → t.user_id = a.account.id
  fresh : ∀ l, ∀ s ∈ a.world.db.sessions.rows, s.token_hash ≠ hash_token env (a.token l)
  fresh_pairs : ∀ l m, hash_token env (a.token l) = hash_token env (a.token m) → l = m

/-- The requests at their arrival. -/
def arrivals (a : Arrivals ι) : Server (Option ι) :=
  serve a.world fun
    | none => password_reset_complete env a.reset a.reset_draws
    | some l => login env (a.login l) (a.request l) (a.draws l)

/-- The login has read the hash of the start. -/
def read_old_hash (a : Arrivals ι) (t : Running) : Bool :=
  t.reads.any fun s => (users_by_email a.account.email s).any fun v =>
    decide (v.password_hash = some a.old_hash)

/-- The reset has deleted the sessions that it saw. -/
def past_delete (c : Server (Option ι)) : Bool :=
  (c.threads none).prog.committing || decide (status c none = some 200)

/-- No login that has read the old hash commits its session after the reset has
deleted the sessions. -/
def Unraced (a : Arrivals ι) (c : Server (Option ι)) : Option ι → Bool
  | none => true
  | some l =>
    !((c.threads (some l)).prog.committing && read_old_hash a (c.threads (some l)) &&
      past_delete c)

/-- The session was opened by a login that is done. -/
def OpenedBy (a : Arrivals ι) (c : Server (Option ι)) (s : Session) (l : ι) : Prop :=
  s.token_hash = hash_token env (a.token l) ∧ (c.threads (some l)).prog.done = true

structure Inv (a : Arrivals ι) (c : Server (Option ι)) : Prop where
  reset : reset_races.Phase env a.reset a.reset_draws c.db (c.threads none)
  login : ∀ l, Phase env (a.login l) (a.request l) (a.draws l) (c.threads (some l))
  token_user : ∀ t ∈ c.db.password_reset_tokens.rows,
    t.token_hash = hash_token env a.reset.token → t.user_id = a.account.id
  emails : ∀ v ∈ c.db.users.rows, v.email = a.account.email → v.id = a.account.id
  reads : ∀ l, ∀ s ∈ (c.threads (some l)).reads, ∀ v ∈ s.users.rows,
    v.email = a.account.email → v.id = a.account.id
  /-- Before the end of the reset every account is as it was. -/
  users : (c.threads none).prog ≠ .ret password_updated → c.db.users = a.world.db.users
  saw : (c.threads none).prog ≠ .ret password_updated →
    ∀ l, ∀ s ∈ (c.threads (some l)).reads, s.users = a.world.db.users
  sessions : ∀ s ∈ c.db.sessions.rows, s ∈ a.world.db.sessions.rows ∨
    s.user_id = a.account.id ∧ ∃ l, OpenedBy env a c s l
  deleted : (c.threads none).prog.committing = true → ∀ s ∈ c.db.sessions.rows,
    s.user_id = a.account.id → .delete_session s.id ∈ (c.threads none).pending
  after : (c.threads none).prog = .ret password_updated → ∀ s ∈ c.db.sessions.rows,
    s.user_id = a.account.id →
      ∃ l, OpenedBy env a c s l ∧ read_old_hash a (c.threads (some l)) = false

section
variable {env} {a : Arrivals ι} {c c' : Server (Option ι)} {now : Time}

omit [DecidableEq ι] [Fintype ι] in
theorem inv_start (h : a.Ok env) : Inv env a (arrivals env a) where
  reset := .start rfl rfl
  login _ := .start rfl rfl rfl
  token_user := h.reset
  emails v hv he := congrArg User.id (h.valid.unique_email v hv _ h.account he)
  reads _ _ hs := by cases hs
  users _ := rfl
  saw _ _ _ hs := by cases hs
  sessions _ hs := Or.inl hs
  deleted h := by cases h
  after h := by cases h

omit [DecidableEq ι] [Fintype ι] in
theorem not_committing_of_idle {b : PasswordResetCompleteBody} {e : Draws} {db : DB} {t : Running}
    (h : reset_races.Phase env b e db t) (hpending : t.pending = []) :
    t.prog.committing = false := by
  cases h with
  | delete now prt_id user_id prog pending row => rw [prog]; rfl
  | commit now prt_id user_id gone prog pending row =>
    rw [pending] at hpending
    simp [reset_changes] at hpending
  | start prog _ | select _ prog _ | found _ _ prog _ _ | flush _ _ _ prog _ _ | answered prog _
  | failed _ prog _ _ => rw [prog]; rfl

theorem opened_after_reset {l : ι} {s : Session} (hs : c.step none now = some c')
    (ho : OpenedBy env a c s l) : OpenedBy env a c' s l := by
  refine ⟨ho.1, ?_⟩
  rw [System.step_others hs (by simp)]
  exact ho.2

/-- A step of the reset that commits nothing. -/
theorem inv_reset_stays (h : Inv env a c) (hs : c.step none now = some c') (db : c'.db = c.db)
    (phase : reset_races.Phase env a.reset a.reset_draws c.db (c'.threads none))
    (unfinished : (c'.threads none).prog ≠ .ret password_updated)
    (deleted : (c'.threads none).prog.committing = true → ∀ s ∈ c.db.sessions.rows,
      s.user_id = a.account.id → .delete_session s.id ∈ (c'.threads none).pending) :
    Inv env a c' := by
  have hlogins : ∀ l, c'.threads (some l) = c.threads (some l) :=
    fun l => System.step_others hs (by simp)
  have hbefore : (c.threads none).prog ≠ .ret password_updated := by
    intro hret
    exact absurd hs (System.not_step_of_done (by rw [hret]; rfl))
  refine ⟨db ▸ phase, ?_, db ▸ h.token_user, db ▸ h.emails, ?_, ?_, ?_, ?_, db ▸ deleted, ?_⟩
  · intro l; rw [hlogins]; exact h.login l
  · intro l; rw [hlogins]; exact h.reads l
  · intro _; rw [db]; exact h.users hbefore
  · intro _ l; rw [hlogins]; exact h.saw hbefore l
  · intro s hmem
    rw [db] at hmem
    exact (h.sessions s hmem).imp_right (And.imp_right (Exists.imp fun _ => opened_after_reset hs))
  · exact fun hret => absurd hret unfinished

/-- The reset commits its changes. -/
theorem inv_reset_commits (h : Inv env a c) (hs : c.step none now = some c') {t : Time}
    {prt_id user_id : UUID} {gone : List Session}
    (committing : (c.threads none).prog.committing = true)
    (before : (c.threads none).pending = reset_changes env a.reset a.reset_draws t prt_id user_id ++
      gone.map fun s => .delete_session s.id)
    (db : c'.db = c.view none) (prog : (c'.threads none).prog = .ret password_updated)
    (pending : (c'.threads none).pending = []) : Inv env a c' := by
  have hlogins : ∀ l, c'.threads (some l) = c.threads (some l) :=
    fun l => System.step_others hs (by simp)
  have hview := view_of_reset before
  rw [← db] at hview
  have htokens : c'.db.password_reset_tokens =
      (Change.apply (.set_used_at prt_id t) c.db).password_reset_tokens := by rw [hview]; rfl
  have husers : c'.db.users = (Change.apply (.set_password_hash user_id
      (hash_password env a.reset.new_password a.reset_draws.salt)) c.db).users := by
    rw [hview]; rfl
  have hsessions : ∀ s, s ∈ c'.db.sessions.rows ↔
      s ∈ c.db.sessions.rows ∧ s.id ∉ gone.map Session.id := by
    intro s
    rw [hview]
    simp only [Table.mem_deleteWhere, decide_eq_false_iff_not]
  constructor
  · exact .answered prog pending
  · intro l; rw [hlogins]; exact h.login l
  · intro r hr hhash
    rw [htokens] at hr
    simp only [Change.apply, Table.mem_update] at hr
    obtain ⟨x, hx, rfl⟩ := hr
    have hx' := h.token_user x hx
    split at hhash <;> split <;> exact hx' hhash
  · intro v hv hemail
    rw [husers] at hv
    simp only [Change.apply, Table.mem_update] at hv
    obtain ⟨x, hx, rfl⟩ := hv
    have hx' := h.emails x hx
    split at hemail <;> split <;> exact hx' hemail
  · intro l; rw [hlogins]; exact h.reads l
  · exact fun hnot => absurd prog hnot
  · exact fun hnot => absurd prog hnot
  · intro s hmem
    exact (h.sessions s ((hsessions s).mp hmem).1).imp_right
      (And.imp_right (Exists.imp fun _ => opened_after_reset hs))
  · intro hc
    rw [prog] at hc
    cases hc
  · -- The reset has deleted every session of the account.
    intro _ s hmem huser
    obtain ⟨hold, hgone⟩ := (hsessions s).mp hmem
    have hdeleted := h.deleted committing s hold huser
    rw [before] at hdeleted
    simp only [reset_changes, List.mem_append, List.mem_cons, List.mem_map, reduceCtorEq,
      List.not_mem_nil, or_false, false_or] at hdeleted
    obtain ⟨x, hx, hxs⟩ := hdeleted
    exact absurd (List.mem_map.mpr ⟨x, hx, by simpa using hxs⟩) hgone

/-- A step of the reset. -/
theorem inv_reset (h : Inv env a c) (hs : c.step none now = some c') : Inv env a c' := by
  cases reset_races.move_of_step h.reset hs with
  | reads db before pending phase unfinished =>
    refine inv_reset_stays h hs db phase unfinished fun hc => ?_
    rw [not_committing_of_idle phase pending] at hc
    cases hc
  | flushes t prt_id user_id db before writes row free prog pending =>
    refine inv_reset_stays h hs db (.delete t prt_id user_id prog pending row) ?_ fun hc => ?_
    · rw [prog]; exact nofun
    · rw [prog] at hc; cases hc
  | deletes t prt_id user_id db before row prog pending =>
    refine inv_reset_stays h hs db (.commit t prt_id user_id _ prog pending row) ?_
      fun _ s hmem huser => ?_
    · rw [prog]; exact nofun
    · have hid : user_id = a.account.id := by
        obtain ⟨t', ht', -, rfl, hhash⟩ := row
        exact h.token_user t' ht' hhash
      have hview : (c.view none).sessions = c.db.sessions := by
        unfold System.view
        rw [before]
        rfl
      rw [pending, hview, hid]
      apply List.mem_append_right
      rw [List.mem_map]
      exact ⟨s, (Table.mem_select _ _ _).mpr ⟨hmem, by simpa using huser⟩, rfl⟩
  | commits t prt_id user_id gone committing before row db prog pending =>
    exact inv_reset_commits h hs committing before db prog pending

/-- A login that is done stands still. -/
theorem login_still {l m : ι} (hs : c.step (some l) now = some c')
    (hdone : (c.threads (some m)).prog.done = true) : c'.threads (some m) = c.threads (some m) := by
  apply System.step_others hs
  rintro hm
  rw [Option.some.inj hm, System.not_done_of_step hs] at hdone
  cases hdone

theorem opened_after_login {l m : ι} {s : Session} (hs : c.step (some l) now = some c')
    (ho : OpenedBy env a c s m) : OpenedBy env a c' s m := by
  refine ⟨ho.1, ?_⟩
  rw [login_still hs ho.2]
  exact ho.2

/-- A step of a login that commits nothing. -/
theorem inv_login_stays (h : Inv env a c) {l : ι} (hs : c.step (some l) now = some c')
    (db : c'.db = c.db)
    (phase : Phase env (a.login l) (a.request l) (a.draws l) (c'.threads (some l)))
    (reads : (c'.threads (some l)).reads = (c.threads (some l)).reads ∨
      (c'.threads (some l)).reads = c.db :: (c.threads (some l)).reads) : Inv env a c' := by
  have hreset : c'.threads none = c.threads none := System.step_others hs (by simp)
  have hothers : ∀ m, m ≠ l → c'.threads (some m) = c.threads (some m) :=
    fun m hm => System.step_others hs (by simpa using hm)
  have hreads : ∀ m, ∀ s ∈ (c'.threads (some m)).reads,
      s ∈ (c.threads (some m)).reads ∨ s = c.db := by
    intro m s hmem
    by_cases hm : m = l
    · subst hm
      rcases reads with hr | hr
      · rw [hr] at hmem
        exact Or.inl hmem
      · rw [hr] at hmem
        exact (List.mem_cons.mp hmem).symm
    · rw [hothers m hm] at hmem
      exact Or.inl hmem
  constructor
  · rw [hreset, db]; exact h.reset
  · intro m
    by_cases hm : m = l
    · subst hm; exact phase
    · rw [hothers m hm]; exact h.login m
  · rw [db]; exact h.token_user
  · rw [db]; exact h.emails
  · intro m s hmem
    rcases hreads m s hmem with hmem | rfl
    · exact h.reads m s hmem
    · exact h.emails
  · rw [hreset, db]; exact h.users
  · rw [hreset]
    intro hbefore m s hmem
    rcases hreads m s hmem with hmem | rfl
    · exact h.saw hbefore m s hmem
    · exact h.users hbefore
  · rw [db]
    exact fun s hmem => (h.sessions s hmem).imp_right
      (And.imp_right (Exists.imp fun _ => opened_after_login hs))
  · rw [hreset, db]; exact h.deleted
  · rw [hreset, db]
    intro hret s hmem huser
    obtain ⟨m, ho, hread⟩ := h.after hret s hmem huser
    refine ⟨m, opened_after_login hs ho, ?_⟩
    rw [login_still hs ho.2]
    exact hread

omit [DecidableEq ι] [Fintype ι] in
/-- The account that a login has read is that of the email. -/
theorem id_of_has_read (ha : a.Ok env) (h : Inv env a c) {l : ι} {user : User}
    (read : HasRead (a.login l) (c.threads (some l)).reads user) : user.id = a.account.id := by
  obtain ⟨s, hreads, hrows⟩ := read
  have hmem : user ∈ users_by_email (a.login l).email.val s := by rw [hrows]; simp
  unfold users_by_email at hmem
  rw [Table.mem_select, decide_eq_true_eq, ha.login] at hmem
  exact h.reads l s (by rw [hreads]; simp) user hmem.1 hmem.2

omit [DecidableEq ι] [Fintype ι] in
/-- A login that looks before the end of the reset reads the old hash. -/
theorem read_old_hash_of_has_read (ha : a.Ok env) (h : Inv env a c) {l : ι} {user : User}
    (read : HasRead (a.login l) (c.threads (some l)).reads user)
    (hbefore : (c.threads none).prog ≠ .ret password_updated) :
    read_old_hash a (c.threads (some l)) = true := by
  obtain ⟨s, hreads, hrows⟩ := read
  rw [ha.login] at hrows
  have hmem : a.account ∈ users_by_email a.account.email s := by
    unfold users_by_email
    rw [Table.mem_select, h.saw hbefore l s (by rw [hreads]; simp)]
    exact ⟨ha.account, by simp⟩
  unfold read_old_hash
  rw [hreads, List.any_cons, List.any_nil, Bool.or_false, List.any_eq_true]
  exact ⟨a.account, hmem, by simpa using ha.old_hash⟩

/-- A login commits its session. -/
theorem inv_login_commits (ha : a.Ok env) (h : Inv env a c) {l : ι}
    (hok : Unraced a c (some l) = true) (hs : c.step (some l) now = some c') {user : User}
    {t : Time}
    (before : (c.threads (some l)).prog.committing = true)
    (read : HasRead (a.login l) (c.threads (some l)).reads user)
    (db : c'.db = Change.apply (.insert_session (own_session env user.id (a.draws l) t)) c.db)
    (prog : (c'.threads (some l)).prog =
      .ret (logged_in env user ((a.draws l).token_urlsafe 0) (a.draws l)))
    (reads : (c'.threads (some l)).reads = (c.threads (some l)).reads) : Inv env a c' := by
  have hreset : c'.threads none = c.threads none := System.step_others hs (by simp)
  have hothers : ∀ m, m ≠ l → c'.threads (some m) = c.threads (some m) :=
    fun m hm => System.step_others hs (by simpa using hm)
  have hreads : ∀ m, (c'.threads (some m)).reads = (c.threads (some m)).reads := by
    intro m
    by_cases hm : m = l
    · subst hm; exact reads
    · rw [hothers m hm]
  have hnew : ∀ s ∈ c'.db.sessions.rows, s ∈ c.db.sessions.rows ∨
      s.user_id = a.account.id ∧ OpenedBy env a c' s l := by
    intro s hmem
    rw [db] at hmem
    rcases Table.mem_of_mem_insert hmem with hmem | rfl
    · exact Or.inl hmem
    · exact Or.inr ⟨id_of_has_read ha h read, rfl, by rw [prog]; rfl⟩
  have hunraced : past_delete c = true → read_old_hash a (c.threads (some l)) = false := by
    intro hpast
    unfold Unraced at hok
    dsimp only at hok
    rw [before, hpast] at hok
    simpa using hok
  constructor
  · rw [hreset, db]
    exact h.reset.mono fun _ _ hrow => hrow
  · intro m
    by_cases hm : m = l
    · subst hm; exact .answered user prog
    · rw [hothers m hm]; exact h.login m
  · rw [db]; exact h.token_user
  · rw [db]; exact h.emails
  · intro m; rw [hreads]; exact h.reads m
  · rw [hreset, db]; exact h.users
  · rw [hreset]
    intro hbefore m
    rw [hreads]
    exact h.saw hbefore m
  · intro s hmem
    rcases hnew s hmem with hmem | ⟨hu, ho⟩
    · exact (h.sessions s hmem).imp_right
        (And.imp_right (Exists.imp fun _ => opened_after_login hs))
    · exact Or.inr ⟨hu, l, ho⟩
  · -- The reset has deleted the sessions: an unraced login has not read the old hash.
    rw [hreset]
    intro hcommitting s hmem huser
    rcases hnew s hmem with hmem | -
    · exact h.deleted hcommitting s hmem huser
    · have hbefore : (c.threads none).prog ≠ .ret password_updated := by
        intro hret
        rw [hret] at hcommitting
        cases hcommitting
      have hread := hunraced (by unfold past_delete; rw [hcommitting]; rfl)
      rw [read_old_hash_of_has_read ha h read hbefore] at hread
      cases hread
  · rw [hreset]
    intro hret s hmem huser
    rcases hnew s hmem with hmem | ⟨-, ho⟩
    · obtain ⟨m, ho, hread⟩ := h.after hret s hmem huser
      refine ⟨m, opened_after_login hs ho, ?_⟩
      rw [login_still hs ho.2]
      exact hread
    · refine ⟨l, ho, ?_⟩
      have hstatus : status c none = some 200 := by
        unfold status
        rw [answer_ret hret]
        rfl
      have hread := hunraced (by unfold past_delete; rw [hstatus]; simp)
      unfold read_old_hash at hread ⊢
      rw [reads]
      exact hread

/-- A step of a login. -/
theorem inv_login (ha : a.Ok env) (h : Inv env a c) {l : ι}
    (hok : Unraced a c (some l) = true) (hs : c.step (some l) now = some c') : Inv env a c' := by
  cases move_of_step (h.login l) hs with
  | stays db phase reads => exact inv_login_stays h hs db phase reads
  | commits user t before read db prog reads =>
    exact inv_login_commits ha h hok hs before read db prog reads

theorem inv_of_reached (ha : a.Ok env)
    (h : System.Reached (fun c i => Unraced a c i = true) (arrivals env a) c) : Inv env a c := by
  refine System.reached_induction (inv_start ha) (fun c c' i now hc hok hs => ?_) h
  cases i with
  | none => exact inv_reset hc hs
  | some l => exact inv_login ha hc hok hs

end

/-- The token of a session of the account that was there at the start, or of a
login that has read the old hash. -/
def OldToken (a : Arrivals ι) (c : Server (Option ι)) (token : String) : Prop :=
  (∃ s ∈ a.world.db.sessions.rows,
    s.user_id = a.account.id ∧ s.token_hash = hash_token env token) ∨
  ∃ l, token = a.token l ∧ read_old_hash a (c.threads (some l)) = true

/-- The server accepts the token as the session of a user. -/
def Accepted (db : DB) (token : String) : Prop :=
  ∃ clock memory user,
    ((get_session_user env token).run ⟨clock, db, [], memory⟩).1 = .ok (some user)

theorem session_of_accepted {db : DB} {token : String} (h : Accepted env db token) :
    ∃ s ∈ db.sessions.rows, s.token_hash = hash_token env token := by
  obtain ⟨clock, memory, user, hrun⟩ := h
  unfold get_session_user at hrun
  simp only [Prog.run_then, run_utc_now, run_execute, run_scalar_one_or_none, Prog.Solo.view,
    Prog.applyAll_nil] at hrun
  have hmem : user ∈ session_users env token (clock 0) db := by
    rcases hrows : session_users env token (clock 0) db with _ | ⟨x, _ | ⟨y, rest⟩⟩
    · rw [hrows] at hrun; cases hrun
    · rw [hrows] at hrun; cases hrun; simp
    · rw [hrows] at hrun; cases hrun
  obtain ⟨-, s, hs, -, hhash, -⟩ := (mem_session_users env).mp hmem
  exact ⟨s, hs, hhash⟩

/-- After an unraced reset no session of the old password is accepted. -/
theorem an_unraced_reset_ends_the_old_sessions (env : Env) (a : Arrivals ι) (ha : a.Ok env)
    (c : Server (Option ι))
    (h : System.Reached (fun c i => Unraced a c i = true) (arrivals env a) c)
    (hreset : status c none = some 200) (token : String) (hold : OldToken env a c token) :
    ¬ Accepted env c.db token := by
  have hinv := inv_of_reached ha h
  have hret := (succeeded_iff hinv.reset).mp hreset
  intro haccepted
  obtain ⟨s, hs, hhash⟩ := session_of_accepted env haccepted
  rcases hold with ⟨old, hmem, huser, hold⟩ | ⟨l, rfl, hread⟩
  · have hsame : s.token_hash = old.token_hash := hhash.trans hold.symm
    rcases hinv.sessions s hs with hstart | ⟨-, m, ho⟩
    · have heq := ha.valid.unique_session_hash s hstart old hmem hsame
      obtain ⟨m, ho, -⟩ := hinv.after hret s hs (heq ▸ huser)
      exact ha.fresh m s hstart ho.1
    · exact ha.fresh m old hmem (hsame.symm.trans ho.1)
  · rcases hinv.sessions s hs with hstart | ⟨huser, -⟩
    · exact ha.fresh l s hstart hhash
    · obtain ⟨m, ho, hnew⟩ := hinv.after hret s hs huser
      obtain rfl := ha.fresh_pairs l m (hhash.symm.trans ho.1)
      rw [hread] at hnew
      cases hnew

/-! ## The race -/

/-- Ann has forgotten her password, or someone else has found it out. -/
def ann_resets : Arrivals Unit where
  world := forgotten
  account := new_user .sample ann_registration (.sample "a" 1)
  old_hash := "$correct horse"
  reset := new_password true
  reset_draws := .sample "x" 6
  login _ := ⟨ann, "correct horse"⟩
  request _ := .sample
  draws _ := .sample "login" 9

theorem ann_resets_ok : ann_resets.Ok .sample where
  valid := valid_of_reachable .sample ⟨_, rfl⟩
  account := by decide
  old_hash := rfl
  login _ := rfl
  reset := by decide
  fresh := by rintro ⟨⟩; decide
  fresh_pairs _ _ _ := rfl

/-- The login comes first, and the reset ends its session. -/
theorem the_reset_ends_a_session_of_the_old_password :
    ∃ c, System.exec (Unraced ann_resets) (arrivals .sample ann_resets)
        ((List.replicate 6 (some ()) ++ List.replicate 6 none).map fun i => (i, 0)) = some c ∧
      status c (some ()) = some 200 ∧ status c none = some 200 ∧
      ¬ Accepted .sample c.db "login" := by
  have hrun : (System.exec (Unraced ann_resets) (arrivals .sample ann_resets)
      ((List.replicate 6 (some ()) ++ List.replicate 6 none).map fun i => (i, 0))).map
        (fun c => (status c (some ()), status c none,
          read_old_hash ann_resets (c.threads (some ())))) =
      some (some 200, some 200, true) := by decide
  obtain ⟨c, hc, hstatus⟩ := Option.map_eq_some_iff.mp hrun
  obtain ⟨hlogin, hstatus⟩ := Prod.mk.inj hstatus
  obtain ⟨hreset, hread⟩ := Prod.mk.inj hstatus
  exact ⟨c, hc, hlogin, hreset, an_unraced_reset_ends_the_old_sessions .sample ann_resets
    ann_resets_ok c (System.reached_of_exec .start hc) hreset "login" (Or.inr ⟨(), rfl, hread⟩)⟩

/-- The login reads the old hash, the reset runs, and then the login goes on. -/
theorem a_session_of_the_old_password_survives :
    ¬ ∀ c, System.Reached (fun _ _ => True) (arrivals .sample ann_resets) c →
      status c none = some 200 → ∀ token, OldToken .sample ann_resets c token →
        ¬ Accepted .sample c.db token := by
  have hrun : (System.exec (fun _ _ => true) (arrivals .sample ann_resets)
      ((List.replicate 2 (some ()) ++ List.replicate 6 none ++ List.replicate 4 (some ())).map
        fun i => (i, 0))).map
        (fun c => (status c none, read_old_hash ann_resets (c.threads (some ())),
          decide (((get_session_user .sample "login").run ⟨fun _ => 0, c.db, [], c.memory⟩).1 =
            .ok (some { ann_resets.account with password_hash := some "$first password" })))) =
      some (some 200, true, true) := by decide
  obtain ⟨c, hc, hstatus⟩ := Option.map_eq_some_iff.mp hrun
  obtain ⟨hreset, hstatus⟩ := Prod.mk.inj hstatus
  obtain ⟨hread, hsession⟩ := Prod.mk.inj hstatus
  intro h
  have hreached := System.reached_mono (fun _ _ _ => trivial) (System.reached_of_exec .start hc)
  exact h c hreached hreset "login" (Or.inr ⟨(), rfl, hread⟩)
    ⟨fun _ => 0, c.memory, _, of_decide_eq_true hsession⟩

end shared_todos.login_races
