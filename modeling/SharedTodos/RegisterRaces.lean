-- Registrations and first sign-ins with Google that carry one email, side by
-- side. Each looks the email up and inserts its account later, and an insert
-- that the unique index refuses is an unhandled error. When each looks while no
-- other one is about to create the account, all of them are answered as if they
-- were alone, and there is one account.
import SharedTodos.Accounts
import SharedTodos.Server

open keyed_table transactions
open shared_todos.models shared_todos.http shared_todos.http.handler
open shared_todos.sessions shared_todos.auth shared_todos.oauth shared_todos.app
open shared_todos.accounts shared_todos.server

namespace shared_todos.register_races

/-! ## The two handlers, as far as they are alike -/

/-- A registration, or a callback with the identity that its checks give. -/
inductive Arrival where
  | register (body : RegisterRequest) (d : Draws)
  | callback (query : CallbackQuery) (request : Request) (who : Identity) (d : Draws)

namespace Arrival

def draws : Arrival → Draws
  | .register _ d => d
  | .callback _ _ _ d => d

variable (env : Env)

def handler : Arrival → Handler Response
  | .register body d => auth.register env body d
  | .callback query request _ d => oauth_google_callback env query request d

def Checked : Arrival → Prop
  | .register _ _ => True
  | .callback query request who d => check_callback env query request d = .passed who

/-- The account that the request adds when it finds none. -/
def account : Arrival → User
  | .register body d => new_user env body d
  | .callback _ _ who d => google_user who d

def lookup : Arrival → DB → List User
  | .register body _ => users_by_email body.email.val
  | .callback _ _ who _ => users_by_identity who

/-- What the request does after its lookup. -/
def found : Arrival → Option User → Handler Response
  | .register _ d, some _ => return register_existing env d
  | .register body d, none => register_new env body d
  | .callback _ _ who d, user => sign_in_found env who d user

/-- The reply with a session of the user. -/
def reply : Arrival → User → String → Response
  | .register _ d, user, token => registered env user token d
  | .callback _ _ _ d, _, token => signed_in env token d

def read_account (v : Arrival) : Handler Response := do
  let user ← refresh fun db => db.users.find v.draws.row_id
  open_and_answer env user.id v.draws (v.reply env user)

def commit_account (v : Arrival) : Handler Response := do
  commit
  v.read_account env

def insert_account (v : Arrival) : Handler Response := do
  flush (insert_user (v.account env))
  v.commit_account env

def commit_link (v : Arrival) (user : User) : Handler Response := do
  commit
  open_and_answer env user.id v.draws (v.reply env user)

def link_account (v : Arrival) (user : User) (sub : String) : Handler Response := do
  flush (update_google_sub user.id sub)
  v.commit_link env user

/-- The answers that the request can get when no other one runs beside it. Who
is told of a new account has this account. -/
def Right : Arrival → DB → Response → Prop
  | .register body d, db, r =>
    r = register_existing env d ∨
      r = registered env (new_user env body d) (d.token_urlsafe 0) d ∧
        ∃ u ∈ db.users.rows, user_out u = user_out (new_user env body d)
  | .callback _ _ _ d, _, r => r = signed_in env (d.token_urlsafe 0) d

section
variable {env} {v : Arrival}

theorem handler_eq (h : v.Checked env) :
    v.handler env = execute v.lookup >>= fun rows => scalar_one_or_none rows >>= v.found env := by
  have hrest : ∀ k, (∀ user, k user = v.found env user) →
      (fun rows : List User => scalar_one_or_none rows >>= k) =
        fun rows => scalar_one_or_none rows >>= v.found env := by
    intro k hk
    rw [funext hk]
  cases v with
  | register body d =>
    unfold handler auth.register
    refine congrArg (fun k => execute (users_by_email body.email.val) >>= k) (hrest _ ?_)
    rintro (_ | user) <;> rfl
  | callback query request who d =>
    have hpassed : check_callback env query request d = .passed who := h
    change oauth_google_callback env query request d = _
    unfold oauth_google_callback
    rw [hpassed]
    rfl

theorem found_none : v.found env none = v.insert_account env := by cases v <;> rfl

/-- With an account the request answers, links the account, or opens a session. -/
theorem found_some (env : Env) (v : Arrival) (db : DB) (user : User) :
    (∃ r, v.found env (some user) = .ret r ∧ v.Right env db r) ∨
      v.Right env db (v.reply env user (v.draws.token_urlsafe 0)) ∧
        ((∃ sub, (v.account env).google_sub = some sub ∧
            v.found env (some user) = v.link_account env user sub) ∨
          v.found env (some user) =
            open_and_answer env user.id v.draws (v.reply env user)) := by
  cases v with
  | register body d => exact Or.inl ⟨_, rfl, Or.inl rfl⟩
  | callback query request who d =>
    refine Or.inr ⟨rfl, ?_⟩
    unfold found sign_in_found
    by_cases hsub : user.google_sub = none
    · exact Or.inl ⟨who.google_sub, rfl, if_pos hsub⟩
    · exact Or.inr (if_neg hsub)

/-- The reply to a new account, though it may have been linked since. -/
theorem right_reply {db : DB} {user : User} (hmem : user ∈ db.users.rows)
    (h : user_out user = user_out (v.account env)) :
    v.Right env db (v.reply env user (v.draws.token_urlsafe 0)) := by
  cases v with
  | register body d =>
    refine Or.inr ⟨?_, user, hmem, h⟩
    change registered env user _ d = registered env (new_user env body d) _ d
    unfold registered
    rw [h]
    rfl
  | callback query request who d => rfl

theorem has_auth_method : (v.account env).has_auth_method := by
  cases v with
  | register body d => exact Or.inl nofun
  | callback query request who d => exact Or.inr nofun

theorem account_id : (v.account env).id = v.draws.row_id := by cases v <;> rfl

theorem lookup_of_mem {email : String} {db : DB} (hemail : (v.account env).email = email)
    (hsub : ∀ u ∈ db.users.rows, (v.account env).google_sub ≠ none →
      u.google_sub = (v.account env).google_sub → u.email = email) :
    v.lookup db = users_by_email email db := by
  subst hemail
  cases v with
  | register body d => rfl
  | callback query request who d =>
    apply List.filter_congr
    intro u hu
    rw [decide_eq_decide]
    exact ⟨fun h => h.elim (hsub u hu nofun) id, Or.inr⟩

end

end Arrival

/-! ## The steps of one request -/

def HasAccount (email : String) (db : DB) : Prop := ∃ u ∈ db.users.rows, u.email = email

/-- The account of the email has the id. -/
def AccountOf (email : String) (db : DB) (id : UUID) : Prop :=
  ∃ u ∈ db.users.rows, u.id = id ∧ u.email = email

/-- The one read of the request has shown it no account of the email. -/
def saw_no_account (email : String) (t : Running) : Bool :=
  match t.reads with
  | [s] => (users_by_email email s).isEmpty
  | _ => false

/-- The request has found no account, and has not committed its own yet. -/
def creating (email : String) (t : Running) : Bool :=
  (t.prog.writing || t.prog.committing) && saw_no_account email t

variable (env : Env) (email : String)

/-- Where a request can be. -/
inductive Phase (v : Arrival) (db : DB) (t : Running) : Prop where
  | lookup (prog : t.prog = v.handler env) (pending : t.pending = []) (reads : t.reads = [])
  | insert (prog : t.prog = v.insert_account env) (pending : t.pending = [])
      (saw : saw_no_account email t = true)
  | commit_account (prog : t.prog = v.commit_account env)
      (pending : t.pending = [.insert_user (v.account env)]) (saw : saw_no_account email t = true)
  | read (prog : t.prog = v.read_account env) (pending : t.pending = []) (reads : t.reads ≠ [])
      (row : ∃ u ∈ db.users.rows, user_out u = user_out (v.account env))
  | link (user : User) (sub : String) (prog : t.prog = v.link_account env user sub)
      (pending : t.pending = []) (saw : saw_no_account email t = false)
      (own : (v.account env).google_sub = some sub) (account : AccountOf email db user.id)
      (right : v.Right env db (v.reply env user (v.draws.token_urlsafe 0)))
  | commit_link (user : User) (sub : String) (prog : t.prog = v.commit_link env user)
      (pending : t.pending = [.set_google_sub user.id sub]) (saw : saw_no_account email t = false)
      (own : (v.account env).google_sub = some sub) (account : AccountOf email db user.id)
      (right : v.Right env db (v.reply env user (v.draws.token_urlsafe 0)))
  | opening (user_id : UUID) (reply : String → Response)
      (prog : t.prog = open_and_answer env user_id v.draws reply) (pending : t.pending = [])
      (saw : saw_no_account email t = false) (account : AccountOf email db user_id)
      (right : v.Right env db (reply (v.draws.token_urlsafe 0)))
  | insert_session (user_id : UUID) (now : Time) (r : Response)
      (prog : t.prog = insert_and_answer (own_session env user_id v.draws now) r)
      (pending : t.pending = []) (saw : saw_no_account email t = false)
      (account : AccountOf email db user_id) (right : v.Right env db r)
  | commit_session (user_id : UUID) (now : Time) (r : Response)
      (prog : t.prog = commit_and_answer r)
      (pending : t.pending = [.insert_session (own_session env user_id v.draws now)])
      (saw : saw_no_account email t = false) (account : AccountOf email db user_id)
      (right : v.Right env db r)
  | answered (r : Response) (prog : t.prog = .ret r) (account : HasAccount email db)
      (right : v.Right env db r)

/-- What the request writes is accepted, and its lookup finds the account of the email. -/
structure Admits (v : Arrival) (db : DB) : Prop where
  lookup : v.lookup db = [] ∧ ¬ HasAccount email db ∨
    ∃ u ∈ db.users.rows, u.email = email ∧ v.lookup db = [u]
  account : ¬ HasAccount email db →
    insert_user (v.account env) db = .ok [.insert_user (v.account env)]
  link : ∀ user_id sub, AccountOf email db user_id → (v.account env).google_sub = some sub →
    update_google_sub user_id sub db = .ok [.set_google_sub user_id sub]
  session : ∀ user_id now, AccountOf email db user_id →
    insert_session (own_session env user_id v.draws now) db =
      .ok [.insert_session (own_session env user_id v.draws now)]

variable {ι : Type} [DecidableEq ι] [Fintype ι]

/-- What one step of a request does. -/
inductive Move (v : Arrival) (c c' : Server ι) (i : ι) : Prop where
  /-- It commits nothing. -/
  | stays (db : c'.db = c.db) (phase : Phase env email v c.db (c'.threads i))
      (creates : creating email (c'.threads i) = true → ¬ HasAccount email c.db)
  | creates (before : creating email (c.threads i) = true)
      (db : c'.db = Change.apply (.insert_user (v.account env)) c.db)
      (phase : Phase env email v c'.db (c'.threads i))
      (after : creating email (c'.threads i) = false)
  | links (user_id : UUID) (sub : String) (account : AccountOf email c.db user_id)
      (own : (v.account env).google_sub = some sub)
      (db : c'.db = Change.apply (.set_google_sub user_id sub) c.db)
      (phase : Phase env email v c'.db (c'.threads i))
      (after : creating email (c'.threads i) = false)
  | opens (user_id : UUID) (now : Time)
      (db : c'.db = Change.apply (.insert_session (own_session env user_id v.draws now)) c.db)
      (phase : Phase env email v c'.db (c'.threads i))
      (after : (c'.threads i).prog.done = true)

/-- Every account stays, with its id, its email and its name. -/
def KeepsAccounts (db db' : DB) : Prop :=
  ∀ u ∈ db.users.rows, ∃ u' ∈ db'.users.rows, user_out u' = user_out u

section
variable {env email} {db db' : DB}

theorem KeepsAccounts.has_account (h : KeepsAccounts db db') (ha : HasAccount email db) :
    HasAccount email db' := by
  obtain ⟨u, hu, hemail⟩ := ha
  obtain ⟨u', hu', hout⟩ := h u hu
  exact ⟨u', hu', (congrArg UserOut.email hout).trans hemail⟩

theorem KeepsAccounts.account_of {id : UUID} (h : KeepsAccounts db db')
    (ha : AccountOf email db id) : AccountOf email db' id := by
  obtain ⟨u, hu, hid, hemail⟩ := ha
  obtain ⟨u', hu', hout⟩ := h u hu
  exact ⟨u', hu', (congrArg UserOut.id hout).trans hid, (congrArg UserOut.email hout).trans hemail⟩

theorem KeepsAccounts.right {v : Arrival} {r : Response} (h : KeepsAccounts db db')
    (hr : v.Right env db r) : v.Right env db' r := by
  cases v with
  | register body d =>
    refine hr.imp_right fun ⟨heq, u, hu, hout⟩ => ⟨heq, ?_⟩
    obtain ⟨u', hu', hout'⟩ := h u hu
    exact ⟨u', hu', hout'.trans hout⟩
  | callback query request who d => exact hr

theorem keeps_accounts_insert_user (db : DB) (u : User) :
    KeepsAccounts db (Change.apply (.insert_user u) db) := by
  intro x hx
  exact ⟨x, Table.mem_insert_of_mem hx, rfl⟩

theorem keeps_accounts_set_google_sub (db : DB) (id : UUID) (sub : String) :
    KeepsAccounts db (Change.apply (.set_google_sub id sub) db) := by
  intro x hx
  refine ⟨if x.id = id then { x with google_sub := some sub } else x, ?_, ?_⟩
  · unfold Change.apply
    rw [Table.mem_update]
    exact ⟨x, hx, rfl⟩
  · split <;> rfl

end

section
variable {env email} {v : Arrival} {c c' : Server ι} {i : ι} {now : Time}

omit [DecidableEq ι] [Fintype ι] in
theorem saw_no_account_of_one {s : DB} {t : Running} (h : t.reads = [s]) :
    saw_no_account email t = true ↔ ¬ HasAccount email s := by
  unfold saw_no_account HasAccount users_by_email
  rw [h]
  simp [Table.select_eq_nil_iff]

omit [DecidableEq ι] [Fintype ι] in
theorem creating_of_saw {t : Running} (hw : (t.prog.writing || t.prog.committing) = true)
    (hsaw : saw_no_account email t = true) : creating email t = true := by
  unfold creating
  rw [hw, hsaw]
  rfl

omit [DecidableEq ι] [Fintype ι] in
theorem not_creating_of_saw {t : Running} (h : saw_no_account email t = false) :
    creating email t = false := by
  unfold creating
  rw [h, Bool.and_false]

omit [DecidableEq ι] [Fintype ι] in
theorem not_creating_of_done {t : Running} (h : t.prog.done = true) :
    creating email t = false := by
  unfold creating
  cases hp : t.prog with
  | ret r => rfl
  | raise e => rfl
  | _ => rw [hp] at h; cases h

omit [Fintype ι] in
/-- A step that commits nothing, of a request that has seen the account. -/
theorem stays_of_saw {t : Running} (hsaw : saw_no_account email t = false)
    (h : Phase env email v c.db t) : Move env email v c (c.put i t) i := by
  refine .stays rfl ?_ ?_
  · rw [System.put_threads_self]
    exact h
  · rw [System.put_threads_self, not_creating_of_saw hsaw]
    exact nofun

theorem move_of_lookup (hv : v.Checked env) (prog : (c.threads i).prog = v.handler env)
    (pending : (c.threads i).pending = []) (reads : (c.threads i).reads = [])
    (hadmits : Admits env email v c.db) (hs : c.step i now = some c') :
    Move env email v c c' i := by
  rw [Arrival.handler_eq hv] at prog
  have hc := step_execute prog hs
  rw [System.view_of_nothing_pending pending, pending, reads] at hc
  subst hc
  rcases hadmits.lookup with ⟨hrows, hnone⟩ | ⟨u, hu, hemail, hrows⟩
  · rw [hrows]
    refine .stays rfl ?_ fun _ => hnone
    rw [System.put_threads_self]
    exact .insert Arrival.found_none rfl ((saw_no_account_of_one rfl).mpr hnone)
  · rw [hrows]
    have hsaw : ∀ p, saw_no_account email ⟨p, [], [c.db]⟩ = false := by
      intro p
      rw [Bool.eq_false_iff, ne_eq, saw_no_account_of_one rfl, not_not]
      exact ⟨u, hu, hemail⟩
    apply stays_of_saw (hsaw _)
    rcases Arrival.found_some env v c.db u with
      ⟨r, hfound, hright⟩ | ⟨hright, ⟨sub, hown, hfound⟩ | hfound⟩
    · exact .answered r hfound ⟨u, hu, hemail⟩ hright
    · exact .link u sub hfound rfl (hsaw _) hown ⟨u, hu, rfl, hemail⟩ hright
    · exact .opening u.id _ hfound rfl (hsaw _) ⟨u, hu, rfl, hemail⟩ hright

/-- The request reads its new account back. -/
theorem move_of_read (hemail : (v.account env).email = email)
    (prog : (c.threads i).prog = v.read_account env) (pending : (c.threads i).pending = [])
    (reads : (c.threads i).reads ≠ [])
    (row : ∃ u ∈ c.db.users.rows, user_out u = user_out (v.account env))
    (hs : c.step i now = some c') : Move env email v c c' i := by
  obtain ⟨u, hu, hout⟩ := row
  have hid : u.id = v.draws.row_id := (congrArg UserOut.id hout).trans v.account_id
  have hfind : c.db.users.find v.draws.row_id = some u := hid ▸ Table.find_of_mem hu
  have hview := System.view_of_nothing_pending pending
  have hsaw : ∀ p, saw_no_account email ⟨p, [], c.db :: (c.threads i).reads⟩ = false := by
    intro p
    unfold saw_no_account
    cases hr : (c.threads i).reads with
    | nil => exact absurd hr reads
    | cons s rest => rfl
  rcases step_refresh prog hs with ⟨hnone, -⟩ | ⟨x, hx, rfl⟩
  · rw [hview, hfind] at hnone
    cases hnone
  · rw [hview, hfind] at hx
    cases hx
    rw [hview, pending]
    exact stays_of_saw (hsaw _) (.opening u.id _ rfl rfl (hsaw _)
      ⟨u, hu, rfl, (congrArg UserOut.email hout).trans hemail⟩ (Arrival.right_reply hu hout))

/-- The request commits its new account. -/
theorem move_of_commit_account (prog : (c.threads i).prog = v.commit_account env)
    (pending : (c.threads i).pending = [.insert_user (v.account env)])
    (saw : saw_no_account email (c.threads i) = true) (hadmits : Admits env email v c.db)
    (hnone : ¬ HasAccount email c.db) (hs : c.step i now = some c') : Move env email v c c' i := by
  have hfree := (insert_user_ok (hadmits.account hnone)).2.2.1
  have hreads : (c.threads i).reads ≠ [] := by
    intro hreads
    unfold saw_no_account at saw
    rw [hreads] at saw
    cases saw
  rw [step_commit_one prog pending hs]
  refine .creates (creating_of_saw (by rw [prog]; rfl) saw) rfl ?_ ?_
  · dsimp only
    rw [System.put_threads_self]
    exact .read rfl rfl hreads ⟨_, (Table.mem_insert_of_free hfree _).mpr (Or.inr rfl), rfl⟩
  · dsimp only
    rw [System.put_threads_self]
    rfl

theorem move_of_step (hv : v.Checked env) (hemail : (v.account env).email = email)
    (h : Phase env email v c.db (c.threads i)) (hadmits : Admits env email v c.db)
    (hcreating : creating email (c.threads i) = true → ¬ HasAccount email c.db)
    (hs : c.step i now = some c') : Move env email v c c' i := by
  cases h with
  | lookup prog pending reads => exact move_of_lookup hv prog pending reads hadmits hs
  | insert prog pending saw =>
    have hnone := hcreating (creating_of_saw (by rw [prog]; rfl) saw)
    rw [step_flush_accepted prog pending (hadmits.account hnone) hs]
    refine .stays rfl ?_ fun _ => hnone
    rw [System.put_threads_self]
    exact .commit_account rfl rfl saw
  | commit_account prog pending saw =>
    have hnone := hcreating (creating_of_saw (by rw [prog]; rfl) saw)
    exact move_of_commit_account prog pending saw hadmits hnone hs
  | read prog pending reads row => exact move_of_read hemail prog pending reads row hs
  | link user sub prog pending saw own account right =>
    rw [step_flush_accepted prog pending (hadmits.link user.id sub account own) hs]
    exact stays_of_saw saw (.commit_link user sub rfl rfl saw own account right)
  | commit_link user sub prog pending saw own account right =>
    rw [step_commit_one prog pending hs]
    refine .links user.id sub account own rfl ?_ ?_
    · dsimp only
      rw [System.put_threads_self]
      have hkeeps := keeps_accounts_set_google_sub c.db user.id sub
      exact .opening user.id _ rfl rfl saw (hkeeps.account_of account) (hkeeps.right right)
    · dsimp only
      rw [System.put_threads_self]
      exact not_creating_of_saw saw
  | opening user_id reply prog pending saw account right =>
    rw [open_and_answer_eq] at prog
    rw [step_utc_now prog hs, pending]
    exact stays_of_saw saw (.insert_session user_id now _ rfl rfl saw account right)
  | insert_session user_id t r prog pending saw account right =>
    rw [step_flush_accepted prog pending (hadmits.session user_id t account) hs]
    exact stays_of_saw saw (.commit_session user_id t r rfl rfl saw account right)
  | commit_session user_id t r prog pending saw account right =>
    obtain ⟨u, hu, -, hemail⟩ := account
    have hkeeps : KeepsAccounts c.db
        (Change.apply (.insert_session (own_session env user_id v.draws t)) c.db) :=
      fun u hu => ⟨u, hu, rfl⟩
    rw [step_commit_one prog pending hs]
    refine .opens user_id t rfl ?_ ?_
    · dsimp only
      rw [System.put_threads_self]
      exact .answered r rfl (hkeeps.has_account ⟨u, hu, hemail⟩) (hkeeps.right right)
    · dsimp only
      rw [System.put_threads_self]
      rfl
  | answered r prog account right =>
    exact absurd hs (System.not_step_of_done (by rw [prog]; rfl))

end

/-! ## The runs without a race -/

/-- Requests that carry one email. -/
structure Arrivals (ι : Type) where
  world : World
  email : String
  arrival : ι → Arrival

def Arrivals.session_id (a : Arrivals ι) (i : ι) : UUID := (a.arrival i).draws.session_id

def Arrivals.token_hash (a : Arrivals ι) (i : ι) : String :=
  hash_token env ((a.arrival i).draws.token_urlsafe 0)

/-- The callbacks pass their checks with subjects that no account has, each
account fits its columns, and what the requests draw is fresh. -/
structure Arrivals.Ok (a : Arrivals ι) : Prop where
  valid : Valid a.world.db
  checked : ∀ i, (a.arrival i).Checked env
  email : ∀ i, ((a.arrival i).account env).email = a.email
  first_time : ∀ i, ∀ u ∈ a.world.db.users.rows, u.google_sub ≠ none →
    u.google_sub ≠ ((a.arrival i).account env).google_sub
  fits : ∀ i, ((a.arrival i).account env).fits
  fresh_user : ∀ i, a.world.db.users.find (a.arrival i).draws.row_id = none
  fresh_session : ∀ i, ∀ s ∈ a.world.db.sessions.rows,
    s.id ≠ a.session_id i ∧ s.token_hash ≠ a.token_hash env i
  fresh_pairs : ∀ i j, a.session_id i = a.session_id j ∨ a.token_hash env i = a.token_hash env j →
    i = j

/-- The requests at their arrival. -/
def arrivals (a : Arrivals ι) : Server ι := serve a.world fun i => (a.arrival i).handler env

/-- No request looks the email up while another one, which has found no account,
has not committed its own yet. -/
def Unraced (c : Server ι) (i : ι) : Bool :=
  !(c.threads i).reads.isEmpty || decide (∀ j, creating email (c.threads j) = false)

/-- What holds of the users in every state. -/
structure Sound (a : Arrivals ι) (db : DB) : Prop where
  one : ∀ u ∈ db.users.rows, ∀ v ∈ db.users.rows, u.email = a.email → v.email = a.email → u = v
  subjects : ∀ i, ∀ u ∈ db.users.rows, u.google_sub ≠ none →
    u.google_sub = ((a.arrival i).account env).google_sub → u.email = a.email
  untouched : ¬ HasAccount a.email db → db.users = a.world.db.users

structure Inv (a : Arrivals ι) (c : Server ι) : Prop where
  phase : ∀ i, Phase env a.email (a.arrival i) c.db (c.threads i)
  sound : Sound env a c.db
  /-- A request that creates the account is the only one that has looked. -/
  alone : ∀ i, creating a.email (c.threads i) = true →
    ¬ HasAccount a.email c.db ∧ ∀ j, j ≠ i → (c.threads j).reads = []
  sessions : ∀ s ∈ c.db.sessions.rows, s ∈ a.world.db.sessions.rows ∨
    ∃ i, s.id = a.session_id i ∧ s.token_hash = a.token_hash env i ∧
      (c.threads i).prog.done = true

section
variable {env email} {a : Arrivals ι} {c c' : Server ι} {i : ι} {now : Time} {db : DB}

omit [DecidableEq ι] [Fintype ι] in
theorem inv_start (h : a.Ok env) : Inv env a (arrivals env a) where
  phase i := .lookup rfl rfl rfl
  sound :=
    { one := fun u hu v hv he he' => h.valid.unique_email u hu v hv (he.trans he'.symm)
      subjects := fun i u hu hsub heq => absurd heq (h.first_time i u hu hsub)
      untouched := fun _ => rfl }
  alone i hc := by
    have hsaw : saw_no_account a.email ((arrivals env a).threads i) = false := rfl
    rw [not_creating_of_saw hsaw] at hc
    cases hc
  sessions s hs := Or.inl hs

omit [DecidableEq ι] [Fintype ι] in
/-- The statements of a request that is not done are accepted. -/
theorem admits_of_inv (ha : a.Ok env) (h : Inv env a c)
    (hdone : (c.threads i).prog.done = false) :
    Admits env a.email (a.arrival i) c.db where
  lookup := by
    rw [Arrival.lookup_of_mem (ha.email i) fun u hu hsub heq =>
      h.sound.subjects i u hu (heq ▸ hsub) heq]
    rcases hrows : users_by_email a.email c.db with _ | ⟨u, rest⟩
    · refine Or.inl ⟨rfl, ?_⟩
      rintro ⟨u, hu, hemail⟩
      have hnot := (Table.select_eq_nil_iff _ _).mp hrows u hu
      rw [hemail] at hnot
      simp at hnot
    · have hmem : u ∈ users_by_email a.email c.db := by rw [hrows]; simp
      unfold users_by_email at hmem
      rw [Table.mem_select, decide_eq_true_eq] at hmem
      refine Or.inr ⟨u, hmem.1, hmem.2, ?_⟩
      rw [← hrows]
      refine Table.select_eq_singleton hmem.1 (by simpa using hmem.2) fun x hx hp => ?_
      exact h.sound.one x hx u hmem.1 (by simpa using hp) hmem.2
  account hnone := by
    have husers := h.sound.untouched hnone
    unfold insert_user
    rw [if_neg (not_not.mpr (ha.fits i)), if_neg (not_not.mpr Arrival.has_auth_method), if_neg]
    rintro (hid | ⟨u, hu, hemail⟩ | ⟨u, hu, hsub, heq⟩)
    · rw [husers, Arrival.account_id] at hid
      exact hid (ha.fresh_user i)
    · exact hnone ⟨u, hu, hemail.trans (ha.email i)⟩
    · rw [husers] at hu
      exact ha.first_time i u hu hsub heq
  link user_id sub haccount hown := by
    obtain ⟨u, hu, rfl, hemail⟩ := haccount
    unfold update_google_sub
    rw [if_neg (not_not.mpr ((ha.fits i).2.2 sub hown)), if_neg, if_neg]
    · rintro ⟨x, hx, hne, hsub⟩
      have hx' := h.sound.subjects i x hx (by rw [hsub]; nofun) (hsub.trans hown.symm)
      exact hne (congrArg User.id (h.sound.one x hx u hu hx' hemail))
    · rw [Table.find_of_mem hu]
      nofun
  session user_id now haccount := by
    obtain ⟨u, hu, rfl, -⟩ := haccount
    have hnew : ∀ s ∈ c.db.sessions.rows,
        s.id ≠ a.session_id i ∧ s.token_hash ≠ a.token_hash env i := by
      intro s hs
      rcases h.sessions s hs with hs | ⟨j, hid, hhash, hj⟩
      · exact ha.fresh_session i s hs
      · have hne : i ≠ j := by
          rintro rfl
          rw [hdone] at hj
          cases hj
        rw [hid, hhash]
        exact ⟨fun he => hne (ha.fresh_pairs i j (Or.inl he.symm)),
          fun he => hne (ha.fresh_pairs i j (Or.inr he.symm))⟩
    unfold insert_session
    rw [if_neg, if_neg]
    · change ¬ c.db.users.find u.id = none
      rw [Table.find_of_mem hu]
      nofun
    · rintro (hid | ⟨s, hs, hhash⟩)
      · apply hid
        rw [Table.find_eq_none_iff, List.mem_map]
        rintro ⟨s, hs, he⟩
        exact (hnew s hs).1 he
      · exact (hnew s hs).2 hhash

omit [DecidableEq ι] [Fintype ι] in
theorem sound_insert_user (ha : a.Ok env) (h : Sound env a db) (hnone : ¬ HasAccount a.email db)
    (i : ι) : Sound env a (Change.apply (.insert_user ((a.arrival i).account env)) db) where
  one u hu v hv hue hve := by
    rcases Table.mem_of_mem_insert hu with hu | rfl
    · exact absurd ⟨u, hu, hue⟩ hnone
    · rcases Table.mem_of_mem_insert hv with hv | rfl
      · exact absurd ⟨v, hv, hve⟩ hnone
      · rfl
  subjects j u hu hsub heq := by
    rcases Table.mem_of_mem_insert hu with hu | rfl
    · exact h.subjects j u hu hsub heq
    · exact ha.email i
  untouched hnot := by
    refine absurd ⟨(a.arrival i).account env, ?_, ha.email i⟩ hnot
    apply (Table.mem_insert_of_free _ _).mpr (Or.inr rfl)
    rw [h.untouched hnone, Arrival.account_id]
    exact ha.fresh_user i

omit [DecidableEq ι] [Fintype ι] in
theorem sound_set_google_sub (h : Sound env a db) {user_id : UUID}
    (haccount : AccountOf a.email db user_id) (sub : String) :
    Sound env a (Change.apply (.set_google_sub user_id sub) db) := by
  obtain ⟨w, hw, rfl, hemail⟩ := haccount
  have hrows : ∀ u ∈ (Change.apply (.set_google_sub w.id sub) db).users.rows, ∃ x ∈ db.users.rows,
      u.email = x.email ∧ u = if x.id = w.id then { x with google_sub := some sub } else x := by
    intro u hu
    unfold Change.apply at hu
    rw [Table.mem_update] at hu
    obtain ⟨x, hx, rfl⟩ := hu
    refine ⟨x, hx, ?_, rfl⟩
    split <;> rfl
  constructor
  · intro u hu v hv hue hve
    obtain ⟨x, hx, hxe, rfl⟩ := hrows u hu
    obtain ⟨y, hy, hye, rfl⟩ := hrows v hv
    rw [h.one x hx y hy (hxe.symm.trans hue) (hye.symm.trans hve)]
  · intro j u hu hsub heq
    obtain ⟨x, hx, hxe, hux⟩ := hrows u hu
    rw [hxe]
    by_cases hid : x.id = w.id
    · rw [db.users.eq_of_key_eq hx hw hid]
      exact hemail
    · rw [if_neg hid] at hux
      exact h.subjects j x hx (hux ▸ hsub) (hux ▸ heq)
  · intro hnot
    exact absurd ((keeps_accounts_set_google_sub db w.id sub).has_account ⟨w, hw, hemail⟩) hnot

omit [DecidableEq ι] [Fintype ι] in
/-- A request that has looked and is not creating the account sees that it is there. -/
theorem has_account_of_reads {v : Arrival} {t : Running} (h : Phase env email v db t)
    (hreads : t.reads ≠ []) (hcreating : creating email t = false)
    (hemail : (v.account env).email = email) : HasAccount email db := by
  have hof : ∀ {id : UUID}, AccountOf email db id → HasAccount email db :=
    fun ⟨u, hu, _, he⟩ => ⟨u, hu, he⟩
  cases h with
  | lookup prog pending reads => exact absurd reads hreads
  | insert prog pending saw | commit_account prog pending saw =>
    rw [creating_of_saw (by rw [prog]; rfl) saw] at hcreating
    cases hcreating
  | read prog pending reads row =>
    obtain ⟨u, hu, hout⟩ := row
    exact ⟨u, hu, (congrArg UserOut.email hout).trans hemail⟩
  | link _ _ _ _ _ _ account _ | commit_link _ _ _ _ _ _ account _ => exact hof account
  | opening _ _ _ _ _ account _ | insert_session _ _ _ _ _ _ account _
  | commit_session _ _ _ _ _ _ account _ => exact hof account
  | answered r prog account right => exact account

omit [DecidableEq ι] [Fintype ι] in
theorem Phase.mono {v : Arrival} {db' : DB} {t : Running} (h : Phase env email v db t)
    (hkeeps : KeepsAccounts db db') : Phase env email v db' t := by
  cases h with
  | lookup prog pending reads => exact .lookup prog pending reads
  | insert prog pending saw => exact .insert prog pending saw
  | commit_account prog pending saw => exact .commit_account prog pending saw
  | read prog pending reads row =>
    obtain ⟨u, hu, hout⟩ := row
    obtain ⟨u', hu', hout'⟩ := hkeeps u hu
    exact .read prog pending reads ⟨u', hu', hout'.trans hout⟩
  | link user sub prog pending saw own account right =>
    exact .link user sub prog pending saw own (hkeeps.account_of account) (hkeeps.right right)
  | commit_link user sub prog pending saw own account right =>
    exact .commit_link user sub prog pending saw own (hkeeps.account_of account)
      (hkeeps.right right)
  | opening user_id reply prog pending saw account right =>
    exact .opening user_id reply prog pending saw (hkeeps.account_of account) (hkeeps.right right)
  | insert_session user_id now r prog pending saw account right =>
    exact .insert_session user_id now r prog pending saw (hkeeps.account_of account)
      (hkeeps.right right)
  | commit_session user_id now r prog pending saw account right =>
    exact .commit_session user_id now r prog pending saw (hkeeps.account_of account)
      (hkeeps.right right)
  | answered r prog account right =>
    exact .answered r prog (hkeeps.has_account account) (hkeeps.right right)

omit [DecidableEq ι] in
/-- Where a request makes an unraced step, no other one is creating the account. -/
theorem nobody_creates (h : Inv env a c) (hok : Unraced a.email c i = true) {j : ι} (hj : j ≠ i) :
    creating a.email (c.threads j) = false := by
  unfold Unraced at hok
  rw [Bool.or_eq_true, decide_eq_true_eq] at hok
  rcases hok with hreads | hnone
  · rw [Bool.eq_false_iff]
    intro hc
    rw [(h.alone j hc).2 i hj.symm] at hreads
    cases hreads
  · exact hnone j

theorem inv_step (ha : a.Ok env) (h : Inv env a c) (hok : Unraced a.email c i = true)
    (hs : c.step i now = some c') : Inv env a c' := by
  have hothers : ∀ j, j ≠ i → c'.threads j = c.threads j := fun j hj => System.step_others hs hj
  have hdone : (c.threads i).prog.done = false := System.not_done_of_step hs
  have hphases : KeepsAccounts c.db c'.db →
      Phase env a.email (a.arrival i) c'.db (c'.threads i) →
      ∀ j, Phase env a.email (a.arrival j) c'.db (c'.threads j) := by
    intro hkeeps hphase j
    by_cases hj : j = i
    · subst hj
      exact hphase
    · rw [hothers j hj]
      exact (h.phase j).mono hkeeps
  -- No other request is creating the account, before the step and after it.
  have halone : (creating a.email (c'.threads i) = true → ¬ HasAccount a.email c.db ∧
      c'.db = c.db) → ∀ j, creating a.email (c'.threads j) = true →
        ¬ HasAccount a.email c'.db ∧ ∀ k, k ≠ j → (c'.threads k).reads = [] := by
    intro hi j hc
    by_cases hj : j = i
    · subst hj
      obtain ⟨hnone, hdb⟩ := hi hc
      refine ⟨hdb ▸ hnone, fun k hk => ?_⟩
      rw [hothers k hk]
      by_contra hreads
      exact hnone (has_account_of_reads (h.phase k) hreads (nobody_creates h hok hk) (ha.email k))
    · rw [hothers j hj, nobody_creates h hok hj] at hc
      cases hc
  have hsessions : ∀ s ∈ c.db.sessions.rows, s ∈ a.world.db.sessions.rows ∨
      ∃ j, s.id = a.session_id j ∧ s.token_hash = a.token_hash env j ∧
        (c'.threads j).prog.done = true := by
    intro s hmem
    refine (h.sessions s hmem).imp_right fun ⟨j, hid, hhash, hj⟩ => ⟨j, hid, hhash, ?_⟩
    have hne : j ≠ i := by
      rintro rfl
      rw [hdone] at hj
      cases hj
    rw [hothers j hne]
    exact hj
  have hsame : ∀ {db' : DB}, c.db = db' → KeepsAccounts c.db db' := by
    rintro db' rfl u hu
    exact ⟨u, hu, rfl⟩
  cases move_of_step (ha.checked i) (ha.email i) (h.phase i) (admits_of_inv ha h hdone)
    (fun hc => (h.alone i hc).1) hs with
  | stays db phase creates =>
    refine ⟨hphases (hsame db.symm) (db ▸ phase), db ▸ h.sound, ?_, db ▸ hsessions⟩
    exact halone fun hc => ⟨creates hc, db⟩
  | creates before db phase after =>
    refine ⟨hphases ?_ phase, ?_, halone ?_, ?_⟩
    · rw [db]; exact keeps_accounts_insert_user _ _
    · rw [db]; exact sound_insert_user ha h.sound (h.alone i before).1 i
    · rw [after]; exact nofun
    · rw [db]; exact hsessions
  | links user_id sub account own db phase after =>
    refine ⟨hphases ?_ phase, ?_, halone ?_, ?_⟩
    · rw [db]; exact keeps_accounts_set_google_sub _ _ _
    · rw [db]; exact sound_set_google_sub h.sound account sub
    · rw [after]; exact nofun
    · rw [db]; exact hsessions
  | opens user_id t db phase after =>
    refine ⟨hphases ?_ phase, ?_, halone ?_, ?_⟩
    · rw [db]; exact fun u hu => ⟨u, hu, rfl⟩
    · rw [db]; exact ⟨h.sound.one, h.sound.subjects, h.sound.untouched⟩
    · rw [not_creating_of_done after]; exact nofun
    · intro s hmem
      rw [db] at hmem
      rcases Table.mem_of_mem_insert hmem with hmem | rfl
      · exact hsessions s hmem
      · exact Or.inr ⟨i, rfl, rfl, after⟩

theorem inv_of_reached (ha : a.Ok env)
    (h : System.Reached (fun c i => Unraced a.email c i = true) (arrivals env a) c) :
    Inv env a c :=
  System.reached_induction (inv_start ha) (fun _ _ _ _ hc hok hs => inv_step ha hc hok hs) h

omit [DecidableEq ι] [Fintype ι] in
theorem reads_of_creating {t : Running} (h : creating email t = true) : t.reads ≠ [] := by
  intro hreads
  unfold creating saw_no_account at h
  rw [hreads, Bool.and_false] at h
  cases h

omit [DecidableEq ι] [Fintype ι] in
/-- A request with an open transaction is at its commit. -/
theorem committing_of_pending {v : Arrival} {t : Running} (h : Phase env email v db t)
    (hpending : t.pending ≠ []) (hdone : t.prog.done = false) :
    t.prog.committing = true ∧ (creating email t = true ∨ HasAccount email db) := by
  cases h with
  | commit_account prog pending saw =>
    exact ⟨by rw [prog]; rfl, Or.inl (creating_of_saw (by rw [prog]; rfl) saw)⟩
  | commit_link user sub prog pending saw own account right =>
    obtain ⟨u, hu, -, hemail⟩ := account
    exact ⟨by rw [prog]; rfl, Or.inr ⟨u, hu, hemail⟩⟩
  | commit_session user_id now r prog pending saw account right =>
    obtain ⟨u, hu, -, hemail⟩ := account
    exact ⟨by rw [prog]; rfl, Or.inr ⟨u, hu, hemail⟩⟩
  | answered r prog account right =>
    rw [prog] at hdone
    cases hdone
  | lookup _ pending _ | insert _ pending _ | read _ pending _ _ | link _ _ _ pending _ _ _ _
  | opening _ _ _ pending _ _ _ | insert_session _ _ _ _ pending _ _ _ =>
    exact absurd pending hpending

/-- The request can go on, or it waits for one with an open transaction. -/
def StepsOrWaits (c : Server ι) (i : ι) : Prop :=
  (∀ now, (c.step i now).isSome) ∨
    ∃ j, j ≠ i ∧ (c.threads j).prog.done = false ∧ (c.threads j).pending ≠ []

theorem steps_or_waits (ha : a.Ok env) (h : Inv env a c) (hdone : (c.threads i).prog.done = false) :
    StepsOrWaits c i := by
  have hadmits := admits_of_inv ha h hdone
  have hview : (c.threads i).pending = [] → c.view i = c.db := System.view_of_nothing_pending
  have hwrite : ∀ {st : Statement} {cs : List Change} {k : Handler Response},
      (c.threads i).prog = (do flush st; k) → st (c.view i) = .ok cs → StepsOrWaits c i := by
    intro st cs k hprog hst
    cases hwaits : c.waits i cs with
    | true => exact Or.inr (System.open_transaction_of_waits hwaits)
    | false => exact Or.inl (System.step_of_write hprog hst hwaits)
  have hread : (c.threads i).prog.writing = false → StepsOrWaits c i :=
    fun hw => Or.inl (System.step_of_not_writing hdone hw)
  cases h.phase i with
  | insert prog pending saw =>
    have hcreating := creating_of_saw (by rw [prog]; rfl) saw
    exact hwrite prog (by rw [hview pending]; exact hadmits.account (h.alone i hcreating).1)
  | link user sub prog pending saw own account right =>
    exact hwrite prog (by rw [hview pending]; exact hadmits.link user.id sub account own)
  | insert_session user_id now r prog pending saw account right =>
    exact hwrite prog (by rw [hview pending]; exact hadmits.session user_id now account)
  | lookup prog _ _ =>
    rw [Arrival.handler_eq (ha.checked i)] at prog
    exact hread (by rw [prog]; rfl)
  | opening user_id reply prog _ _ _ _ =>
    rw [open_and_answer_eq] at prog
    exact hread (by rw [prog]; rfl)
  | commit_account prog _ _ | read prog _ _ _ | commit_link _ _ prog _ _ _ _ _
  | commit_session _ _ _ prog _ _ _ _ | answered _ prog _ _ => exact hread (by rw [prog]; rfl)

/-- No request is stuck for good. -/
theorem goes_on_of_inv (ha : a.Ok env) (h : Inv env a c) :
    System.GoesOn (fun c i => Unraced a.email c i = true) c := by
  by_cases hall : ∀ i, (c.threads i).prog.done = true
  · exact Or.inl hall
  obtain ⟨i, hi⟩ := not_forall.mp hall
  rw [Bool.not_eq_true] at hi
  by_cases hc : ∃ j, creating a.email (c.threads j) = true
  · -- The request that creates the account waits for nobody.
    obtain ⟨j, hj⟩ := hc
    obtain ⟨hnone, halone⟩ := h.alone j hj
    have hdone : (c.threads j).prog.done = false := by
      rw [Bool.eq_false_iff]
      intro hdone
      rw [not_creating_of_done hdone] at hj
      cases hj
    rcases steps_or_waits ha h hdone with hstep | ⟨k, hk, hkdone, hpending⟩
    · have hreads := reads_of_creating hj
      have hok : Unraced a.email c j = true := by
        unfold Unraced
        simp [hreads]
      exact Or.inr ⟨j, hok, hstep⟩
    · rcases (committing_of_pending (h.phase k) hpending hkdone).2 with hcreating | haccount
      · exact absurd (halone k hk) (reads_of_creating hcreating)
      · exact absurd haccount hnone
  · -- Nobody creates it: a request goes on, or the one that it waits for commits.
    have hok : ∀ k, Unraced a.email c k = true := by
      intro k
      unfold Unraced
      rw [Bool.or_eq_true, decide_eq_true_eq]
      exact Or.inr fun j => Bool.eq_false_iff.mpr fun hj => hc ⟨j, hj⟩
    rcases steps_or_waits ha h hi with hstep | ⟨k, -, hkdone, hpending⟩
    · exact Or.inr ⟨i, hok i, hstep⟩
    · have hcommitting := (committing_of_pending (h.phase k) hpending hkdone).1
      refine Or.inr ⟨k, hok k, System.step_of_not_writing hkdone ?_⟩
      cases hp : (c.threads k).prog with
      | commit rest => rfl
      | _ => rw [hp] at hcommitting; cases hcommitting

end

/-- Every request that is done got an answer that it can get alone, and then one
account has the email. -/
structure Answered (a : Arrivals ι) (c : Server ι) : Prop where
  right : ∀ i, (c.threads i).prog.done = true → ∃ r, answer c i = some r ∧
    (a.arrival i).Right env c.db r
  one : (∃ i, (c.threads i).prog.done = true) → ∃! u, u ∈ c.db.users.rows ∧ u.email = a.email

/-- In every run in which no request looks the email up while another one is
creating the account, the requests are answered as if they were alone and one
account has the email; and every such run comes to its end. -/
theorem unraced_requests_share_one_account (env : Env) (a : Arrivals ι) (ha : a.Ok env)
    (c : Server ι)
    (h : System.Reached (fun c i => Unraced a.email c i = true) (arrivals env a) c) :
    Answered env a c ∧ System.Ends (fun c i => Unraced a.email c i = true) c := by
  have hinv := inv_of_reached ha h
  have hanswered : ∀ i, (c.threads i).prog.done = true → ∃ r, (c.threads i).prog = .ret r ∧
      HasAccount a.email c.db ∧ (a.arrival i).Right env c.db r := by
    intro i hdone
    cases hinv.phase i with
    | answered r prog account right => exact ⟨r, prog, account, right⟩
    | lookup prog _ _ =>
      rw [Arrival.handler_eq (ha.checked i)] at prog
      rw [prog] at hdone
      cases hdone
    | opening _ _ prog _ _ _ _ =>
      rw [open_and_answer_eq] at prog
      rw [prog] at hdone
      cases hdone
    | insert prog _ _ | commit_account prog _ _ | read prog _ _ _ | link _ _ prog _ _ _ _ _
    | commit_link _ _ prog _ _ _ _ _ | insert_session _ _ _ prog _ _ _ _
    | commit_session _ _ _ prog _ _ _ _ =>
      rw [prog] at hdone
      cases hdone
  refine ⟨⟨fun i hi => ?_, ?_⟩, System.ends_of_goes_on (fun c hc => ?_) h⟩
  · obtain ⟨r, hprog, -, hright⟩ := hanswered i hi
    exact ⟨r, answer_ret hprog, hright⟩
  · rintro ⟨i, hi⟩
    obtain ⟨-, -, ⟨u, hu, hemail⟩, -⟩ := hanswered i hi
    exact ⟨u, ⟨hu, hemail⟩, fun v hv => hinv.sound.one v hv.1 u hu hv.2 hemail⟩
  · exact goes_on_of_inv ha (inv_of_reached ha hc)

/-! ## The race -/

/-- Ann registers, and comes back from Google in another window. -/
def ann_comes_twice : Arrivals Bool where
  world := .empty
  email := "ann@example.com"
  arrival by_google :=
    if by_google then
      .callback ⟨some "code", some ".nonce", none⟩
        { Request.sample with oauth_state_nonce := some "nonce" }
        ⟨"s1", "ann@example.com", "ann"⟩ (google_calls_back "s1 ann@example.com" "b" 2).draws
    else .register ann_registration (.sample "a" 1)

theorem ann_comes_twice_ok : ann_comes_twice.Ok .sample where
  valid := valid_empty
  checked i := by cases i <;> trivial
  email := by decide
  first_time := by decide
  fits := by decide
  fresh_user := by decide
  fresh_session := by decide
  fresh_pairs := by decide

/-- The callback comes when the registration is done. -/
theorem the_callback_finds_the_account :
    ∃ c, System.exec (Unraced ann_comes_twice.email) (arrivals .sample ann_comes_twice)
        ((List.replicate 7 false ++ List.replicate 6 true).map fun i => (i, 0)) = some c ∧
      status c false = some 201 ∧ status c true = some 302 ∧
      Answered .sample ann_comes_twice c ∧
      System.Ends (fun c i => Unraced ann_comes_twice.email c i = true) c := by
  have hrun : (System.exec (Unraced ann_comes_twice.email) (arrivals .sample ann_comes_twice)
      ((List.replicate 7 false ++ List.replicate 6 true).map fun i => (i, 0))).map
        (fun c => (status c false, status c true)) = some (some 201, some 302) := by decide
  obtain ⟨c, hc, hstatus⟩ := Option.map_eq_some_iff.mp hrun
  obtain ⟨hregister, hcallback⟩ := Prod.mk.inj hstatus
  exact ⟨c, hc, hregister, hcallback, unraced_requests_share_one_account .sample ann_comes_twice
    ann_comes_twice_ok c (System.reached_of_exec .start hc)⟩

/-- Both look the email up, the callback creates the account, and the unique index
refuses the account of the registration. -/
theorem a_registration_ends_in_an_integrity_error :
    ¬ ∀ c, System.Reached (fun _ _ => True) (arrivals .sample ann_comes_twice) c →
      Answered .sample ann_comes_twice c := by
  have hrun : (System.exec (fun _ _ => true) (arrivals .sample ann_comes_twice)
      ([false, true, true, true, false].map fun i => (i, 0))).map
        (fun c => ((c.threads false).prog.done, answer c false)) =
      some (true, some (json 500 .internal_server_error)) := by decide
  obtain ⟨c, hc, hanswer⟩ := Option.map_eq_some_iff.mp hrun
  obtain ⟨hdone, hanswer⟩ := Prod.mk.inj hanswer
  intro h
  have hreached := System.reached_mono (fun _ _ _ => trivial) (System.reached_of_exec .start hc)
  obtain ⟨r, hr, hright⟩ := (h c hreached).right false hdone
  rw [hanswer] at hr
  cases hr
  rcases hright with heq | ⟨heq, -⟩
  · exact absurd (congrArg Response.status_code heq) (by decide)
  · exact absurd (congrArg Response.status_code heq) (by decide)

end shared_todos.register_races
