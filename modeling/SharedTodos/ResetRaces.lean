-- Resets of one token side by side. Two requests that both look the token up
-- before one of them has committed both succeed. When each request flushes its
-- changes while the token is still unused, at most one of them succeeds.
import SharedTodos.Accounts
import SharedTodos.Server

open keyed_table transactions
open shared_todos.models shared_todos.http shared_todos.http.handler
open shared_todos.sessions shared_todos.auth shared_todos.app shared_todos.accounts
open shared_todos.server

namespace shared_todos.reset_races

variable (env : Env)

/-! ## The parts of a reset -/

/-- `password_reset_complete` after its reading of the clock. -/
def select_token (body : PasswordResetCompleteBody) (d : Draws) (now : Time) :
    Handler Response := do
  let prt ← scalar_one_or_none (← execute (usable_tokens (hash_token env body.token) now))
  match prt with
  | none => http_error 400 "invalid_or_used"
  | some prt => password_reset_found env body d now prt

/-- The end of the transaction. -/
def commit_reset : Handler Response := do
  commit
  return password_updated

/-- The transaction after the flush of the two changed rows. -/
def delete_sessions_of (user_id : UUID) : Handler Response := do
  invalidate_all_user_sessions user_id
  commit_reset

/-- The changes of the flush. -/
def reset_changes (body : PasswordResetCompleteBody) (d : Draws) (now : Time)
    (prt_id user_id : UUID) : List Change :=
  [.set_password_hash user_id (hash_password env body.new_password d.salt), .set_used_at prt_id now]

/-- The table has a row of the token with this id, of this user. -/
def TokenRow (token : String) (db : DB) (id user_id : UUID) : Prop :=
  ∃ t ∈ db.password_reset_tokens.rows, t.id = id ∧ t.user_id = user_id ∧
    t.token_hash = hash_token env token

/-- Where a reset can be. -/
inductive Phase (body : PasswordResetCompleteBody) (d : Draws) (db : DB) (t : Running) : Prop where
  | start (prog : t.prog = password_reset_complete env body d) (pending : t.pending = [])
  | select (now : Time) (prog : t.prog = select_token env body d now) (pending : t.pending = [])
  | found (now : Time) (prt : PasswordResetToken)
      (prog : t.prog = password_reset_found env body d now prt) (pending : t.pending = [])
      (row : TokenRow env body.token db prt.id prt.user_id)
  | flush (now : Time) (prt : PasswordResetToken) (user : User)
      (prog : t.prog = password_reset_write env body d now prt user) (pending : t.pending = [])
      (row : TokenRow env body.token db prt.id user.id)
  | delete (now : Time) (prt_id user_id : UUID) (prog : t.prog = delete_sessions_of user_id)
      (pending : t.pending = reset_changes env body d now prt_id user_id)
      (row : TokenRow env body.token db prt_id user_id)
  | commit (now : Time) (prt_id user_id : UUID) (gone : List Session)
      (prog : t.prog = commit_reset)
      (pending : t.pending = reset_changes env body d now prt_id user_id ++
        gone.map fun s => .delete_session s.id)
      (row : TokenRow env body.token db prt_id user_id)
  | answered (prog : t.prog = .ret password_updated) (pending : t.pending = [])
  | failed (e : Exn) (prog : t.prog = .raise e) (pending : t.pending = [])
      (status : e.response.status_code ≠ 200)

variable {ι : Type} [DecidableEq ι] [Fintype ι]

/-- What one step of a reset does. -/
inductive Move (body : PasswordResetCompleteBody) (d : Draws) (c c' : Server ι) (i : ι) : Prop where
  /-- It reads, or it fails. -/
  | reads (db : c'.db = c.db) (before : (c.threads i).pending = [])
      (pending : (c'.threads i).pending = []) (phase : Phase env body d c.db (c'.threads i))
      (unfinished : (c'.threads i).prog ≠ .ret password_updated)
  | flushes (now : Time) (prt_id user_id : UUID) (db : c'.db = c.db)
      (before : (c.threads i).pending = []) (writes : (c.threads i).prog.writing = true)
      (row : TokenRow env body.token c.db prt_id user_id)
      (free : c.waits i (reset_changes env body d now prt_id user_id) = false)
      (prog : (c'.threads i).prog = delete_sessions_of user_id)
      (pending : (c'.threads i).pending = reset_changes env body d now prt_id user_id)
  | deletes (now : Time) (prt_id user_id : UUID) (db : c'.db = c.db)
      (before : (c.threads i).pending = reset_changes env body d now prt_id user_id)
      (row : TokenRow env body.token c.db prt_id user_id)
      (prog : (c'.threads i).prog = commit_reset)
      (pending : (c'.threads i).pending = reset_changes env body d now prt_id user_id ++
        ((c.view i).sessions.select fun s => decide (s.user_id = user_id)).map
          fun s => .delete_session s.id)
  | commits (now : Time) (prt_id user_id : UUID) (gone : List Session)
      (committing : (c.threads i).prog.committing = true)
      (before : (c.threads i).pending = reset_changes env body d now prt_id user_id ++
        gone.map fun s => .delete_session s.id)
      (row : TokenRow env body.token c.db prt_id user_id) (db : c'.db = c.view i)
      (prog : (c'.threads i).prog = .ret password_updated) (pending : (c'.threads i).pending = [])

section
variable {env} {body : PasswordResetCompleteBody} {d : Draws} {c c' : Server ι} {i : ι} {now : Time}

theorem move_of_step (h : Phase env body d c.db (c.threads i)) (hs : c.step i now = some c') :
    Move env body d c c' i := by
  have hview : (c.threads i).pending = [] → c.view i = c.db := System.view_of_nothing_pending
  cases h with
  | start prog pending =>
    rw [step_utc_now (k := select_token env body d) prog hs]
    refine .reads rfl pending (by simp [pending]) (.select now (by simp) (by simp [pending])) ?_
    rw [System.put_threads_self]
    exact nofun
  | select t prog pending =>
    have hc := step_execute prog hs
    rw [hview pending, pending] at hc
    subst hc
    have hrow : ∀ prt ∈ usable_tokens (hash_token env body.token) t c.db,
        TokenRow env body.token c.db prt.id prt.user_id := by
      intro prt hprt
      unfold usable_tokens at hprt
      rw [Table.mem_select, decide_eq_true_eq] at hprt
      exact ⟨prt, hprt.1, rfl, rfl, hprt.2.1⟩
    rcases hrows : usable_tokens (hash_token env body.token) t c.db with _ | ⟨prt, _ | ⟨x, rest⟩⟩
    · refine .reads rfl pending (by simp) (.failed _ (by simp; rfl) (by simp) (by decide)) ?_
      rw [System.put_threads_self]
      exact nofun
    · have hprt := hrow prt (by rw [hrows]; simp)
      refine .reads rfl pending (by simp) (.found t prt (by simp; rfl) (by simp) hprt) ?_
      rw [System.put_threads_self]
      exact nofun
    · refine .reads rfl pending (by simp) (.failed _ (by simp; rfl) (by simp) (by decide)) ?_
      rw [System.put_threads_self]
      exact nofun
  | found t prt prog pending row =>
    have hc := step_execute prog hs
    rw [hview pending, pending] at hc
    subst hc
    cases huser : c.db.users.find prt.user_id with
    | none =>
      refine .reads rfl pending (by simp) (.failed _ (by simp; rfl) (by simp) (by decide)) ?_
      rw [System.put_threads_self]
      exact nofun
    | some user =>
      have hid : user.id = prt.user_id := Table.key_of_find huser
      refine .reads rfl pending (by simp)
        (.flush t prt user (by simp; rfl) (by simp) (hid ▸ row)) ?_
      rw [System.put_threads_self]
      exact nofun
  | flush t prt user prog pending row =>
    rcases step_flush prog hs with ⟨e, -, rfl⟩ | ⟨cs, hcs, hfree, rfl⟩
    · refine .reads rfl pending (by simp) ?_ ?_
      · exact .failed (.db e) (by simp) (by simp) (by cases e <;> decide)
      · rw [System.put_threads_self]
        exact nofun
    · obtain ⟨rfl, -⟩ := reset_statement_ok hcs
      refine .flushes t prt.id user.id rfl pending ?_ row hfree (by simp; rfl)
        (by simp [pending]; rfl)
      rw [prog]
      rfl
  | delete t prt_id user_id prog pending row =>
    rcases step_flush prog hs with ⟨e, he, -⟩ | ⟨cs, hcs, -, rfl⟩
    · cases he
    · cases hcs
      exact .deletes t prt_id user_id rfl pending row (by simp) (by simp [pending])
  | commit t prt_id user_id gone prog pending row =>
    rw [step_commit prog hs]
    exact .commits t prt_id user_id gone (by rw [prog]; rfl) pending row rfl (by simp; rfl)
      (by simp)
  | answered prog pending =>
    exact absurd hs (System.not_step_of_done (by rw [prog]; rfl))
  | failed e prog pending status =>
    exact absurd hs (System.not_step_of_done (by rw [prog]; rfl))

/-! ## What a commit does -/

omit [DecidableEq ι] [Fintype ι] in
theorem view_of_reset {t : Time} {prt_id user_id : UUID} {gone : List Session}
    (pending : (c.threads i).pending = reset_changes env body d t prt_id user_id ++
      gone.map fun s => .delete_session s.id) :
    c.view i =
      { Change.apply (.set_used_at prt_id t)
          (Change.apply (.set_password_hash user_id (hash_password env body.new_password d.salt))
            c.db) with
        sessions := c.db.sessions.deleteWhere fun s => decide (s.id ∈ gone.map Session.id) } := by
  unfold System.view
  rw [pending, Prog.applyAll_append, applyAll_delete_each_session, Table.foldl_delete]
  rfl

theorem token_row_of_used {token : String} {db db' : DB} {prt_id id user_id : UUID} {t : Time}
    (hdb : db'.password_reset_tokens =
      (Change.apply (.set_used_at prt_id t) db).password_reset_tokens)
    (h : TokenRow env token db id user_id) : TokenRow env token db' id user_id := by
  obtain ⟨row, hrow, hid, huser, hhash⟩ := h
  refine ⟨if row.id = prt_id then { row with used_at := some t } else row, ?_, ?_⟩
  · rw [hdb]
    simp only [Change.apply, Table.mem_update]
    exact ⟨row, hrow, rfl⟩
  · split
    · exact ⟨hid, huser, hhash⟩
    · exact ⟨hid, huser, hhash⟩

theorem Phase.mono {db db' : DB} {t : Running} (h : Phase env body d db t)
    (hrow : ∀ id user_id, TokenRow env body.token db id user_id →
      TokenRow env body.token db' id user_id) : Phase env body d db' t := by
  cases h with
  | start prog pending => exact .start prog pending
  | select now prog pending => exact .select now prog pending
  | found now prt prog pending row => exact .found now prt prog pending (hrow _ _ row)
  | flush now prt user prog pending row => exact .flush now prt user prog pending (hrow _ _ row)
  | delete now prt_id user_id prog pending row =>
    exact .delete now prt_id user_id prog pending (hrow _ _ row)
  | commit now prt_id user_id gone prog pending row =>
    exact .commit now prt_id user_id gone prog pending (hrow _ _ row)
  | answered prog pending => exact .answered prog pending
  | failed e prog pending status => exact .failed e prog pending status

end

/-! ## The invariant of the runs without a race -/

/-- The request has answered 200. -/
def Succeeded (c : Server ι) (i : ι) : Prop := status c i = some 200

/-- At the flush of a request the token is still unused. -/
def Unraced (token : String) (c : Server ι) (i : ι) : Bool :=
  !((c.threads i).prog.writing && (c.threads i).pending.isEmpty) ||
    c.db.password_reset_tokens.rows.all fun t =>
      decide (t.token_hash ≠ hash_token env token ∨ t.used_at = none)

/-- The requests at their arrival. -/
def resets (w : World) (body : ι → PasswordResetCompleteBody) (d : ι → Draws) : Server ι :=
  serve w fun i => password_reset_complete env (body i) (d i)

/-- The password that request `i` sets. -/
def PasswordOf (body : ι → PasswordResetCompleteBody) (d : ι → Draws) (w : World) (c : Server ι)
    (i : ι) : Prop :=
  ∃ user_id, c.db.users = (Change.apply
    (.set_password_hash user_id (hash_password env (body i).new_password (d i).salt)) w.db).users

structure Inv (token : String) (body : ι → PasswordResetCompleteBody) (d : ι → Draws) (w : World)
    (c : Server ι) : Prop where
  phase : ∀ i, Phase env (body i) (d i) c.db (c.threads i)
  unique : ∀ a ∈ c.db.password_reset_tokens.rows, ∀ b ∈ c.db.password_reset_tokens.rows,
    a.token_hash = b.token_hash → a.id = b.id
  used : ∀ i, (c.threads i).prog = .ret password_updated →
    ∃ t ∈ c.db.password_reset_tokens.rows, t.token_hash = hash_token env token ∧ t.used_at ≠ none
  /-- Of the requests between flush and commit there is one at most, and then no
  request has answered. -/
  alone : ∀ i j, (c.threads i).pending ≠ [] → (c.threads j).pending ≠ [] → i = j
  first : ∀ i j, (c.threads i).pending ≠ [] → (c.threads j).prog ≠ .ret password_updated
  one : ∀ i j, (c.threads i).prog = .ret password_updated →
    (c.threads j).prog = .ret password_updated → i = j
  users : (∀ i, (c.threads i).prog ≠ .ret password_updated) → c.db.users = w.db.users
  password : ∀ i, (c.threads i).prog = .ret password_updated → PasswordOf env body d w c i

section
variable {env} {token : String} {body : ι → PasswordResetCompleteBody} {d : ι → Draws} {w : World}
  {c c' : Server ι} {i : ι} {now : Time}

omit [DecidableEq ι] [Fintype ι] in
theorem inv_start (hv : Valid w.db) : Inv env token body d w (resets env w body d) where
  phase i := .start rfl rfl
  unique a ha b hb h := congrArg PasswordResetToken.id (hv.unique_reset_hash a ha b hb h)
  used i h := by cases h
  alone i j h := absurd rfl h
  first i j h := absurd rfl h
  one i j h := by cases h
  users _ := rfl
  password i h := by cases h

/-- The pending changes of another request hold the row of the token. -/
theorem used_at_pending {b : PasswordResetCompleteBody} {e : Draws} {db : DB} {t : Running}
    (h : Phase env b e db t) (hpending : t.pending ≠ []) :
    ∃ id user_id used_at, Change.set_used_at id used_at ∈ t.pending ∧
      TokenRow env b.token db id user_id ∧ t.prog.done = false := by
  cases h with
  | delete now prt_id user_id prog pending row =>
    exact ⟨prt_id, user_id, now, by simp [pending, reset_changes], row, by rw [prog]; rfl⟩
  | commit now prt_id user_id gone prog pending row =>
    exact ⟨prt_id, user_id, now, by simp [pending, reset_changes], row, by rw [prog]; rfl⟩
  | _ => contradiction

/-- A step that commits nothing. -/
theorem inv_of_same_db (h : Inv env token body d w c) (hs : c.step i now = some c')
    (hdb : c'.db = c.db) (hphase : Phase env (body i) (d i) c.db (c'.threads i))
    (hunfinished : (c'.threads i).prog ≠ .ret password_updated)
    (hpending : (c'.threads i).pending ≠ [] → (∀ j, j ≠ i → (c.threads j).pending = []) ∧
      ∀ j, (c.threads j).prog ≠ .ret password_updated) : Inv env token body d w c' := by
  have hothers : ∀ j, j ≠ i → c'.threads j = c.threads j := fun j hj => System.step_others hs hj
  have hbefore : (c.threads i).prog ≠ .ret password_updated := by
    intro hret
    exact absurd hs (System.not_step_of_done (by rw [hret]; rfl))
  -- A request that has answered had answered before.
  have hanswered : ∀ {j}, (c'.threads j).prog = .ret password_updated →
      j ≠ i ∧ (c.threads j).prog = .ret password_updated := by
    intro j hj
    have hne : j ≠ i := by
      rintro rfl
      exact hunfinished hj
    rw [hothers j hne] at hj
    exact ⟨hne, hj⟩
  constructor
  · intro j
    rw [hdb]
    by_cases hj : j = i
    · subst hj; exact hphase
    · rw [hothers j hj]; exact h.phase j
  · rw [hdb]; exact h.unique
  · intro j hj
    rw [hdb]
    exact h.used j (hanswered hj).2
  · intro a b ha hb
    by_cases hai : a = i
    · subst hai
      by_cases hbi : b = a
      · exact hbi.symm
      · rw [hothers b hbi, (hpending ha).1 b hbi] at hb
        exact absurd rfl hb
    · by_cases hbi : b = i
      · subst hbi
        rw [hothers a hai, (hpending hb).1 a hai] at ha
        exact absurd rfl ha
      · rw [hothers a hai] at ha
        rw [hothers b hbi] at hb
        exact h.alone a b ha hb
  · intro a b ha hb
    obtain ⟨-, hb⟩ := hanswered hb
    by_cases hai : a = i
    · subst hai
      exact (hpending ha).2 b hb
    · rw [hothers a hai] at ha
      exact h.first a b ha hb
  · intro a b ha hb
    exact h.one a b (hanswered ha).2 (hanswered hb).2
  · intro hnone
    rw [hdb]
    apply h.users
    intro j hj
    by_cases hji : j = i
    · subst hji; exact hbefore hj
    · exact hnone j (by rw [hothers j hji]; exact hj)
  · intro j hj
    unfold PasswordOf
    rw [hdb]
    exact h.password j (hanswered hj).2

/-- The row of the token is locked from the flush to the commit of a request. -/
theorem idle_of_flush (htoken : ∀ i, (body i).token = token) (h : Inv env token body d w c)
    {t : Time} {prt_id user_id : UUID} (row : TokenRow env (body i).token c.db prt_id user_id)
    (free : c.waits i (reset_changes env (body i) (d i) t prt_id user_id) = false) (j : ι)
    (hj : j ≠ i) : (c.threads j).pending = [] := by
  by_contra hpending
  obtain ⟨id, other, t', hmem, hrow, hdone⟩ := used_at_pending (h.phase j) hpending
  obtain ⟨a, ha, rfl, -, hahash⟩ := row
  obtain ⟨b, hb, rfl, -, hbhash⟩ := hrow
  rw [htoken] at hahash hbhash
  have hid := h.unique a ha b hb (hahash.trans hbhash.symm)
  have hblocks := System.blocks_of_not_waits free hj hdone hmem
    (b := .set_used_at a.id t) (by simp [reset_changes])
  rw [← hid] at hblocks
  simp [Database.blocks, Change.locks, LockMode.compatible] at hblocks

/-- A request commits its reset. -/
theorem inv_commits (htoken : ∀ i, (body i).token = token) (h : Inv env token body d w c)
    (hs : c.step i now = some c') {t : Time} {prt_id user_id : UUID} {gone : List Session}
    (before : (c.threads i).pending = reset_changes env (body i) (d i) t prt_id user_id ++
      gone.map fun s => .delete_session s.id)
    (row : TokenRow env (body i).token c.db prt_id user_id) (db : c'.db = c.view i)
    (prog : (c'.threads i).prog = .ret password_updated) (pending : (c'.threads i).pending = []) :
    Inv env token body d w c' := by
  have hothers : ∀ j, j ≠ i → c'.threads j = c.threads j := fun j hj => System.step_others hs hj
  have hi : (c.threads i).pending ≠ [] := by simp [before, reset_changes]
  have hview := view_of_reset before
  rw [← db] at hview
  have htokens : c'.db.password_reset_tokens =
      (Change.apply (.set_used_at prt_id t) c.db).password_reset_tokens := by rw [hview]; rfl
  have hnobody : ∀ j, (c.threads j).prog ≠ .ret password_updated := fun j => h.first i j hi
  have hidle : ∀ j, j ≠ i → (c.threads j).pending = [] := by
    intro j hj
    by_contra hpending
    exact hj (h.alone j i hpending hi)
  have honly : ∀ j, (c'.threads j).prog = .ret password_updated → j = i := by
    intro j hj
    by_contra hne
    rw [hothers j hne] at hj
    exact hnobody j hj
  have hpendings : ∀ j, (c'.threads j).pending = [] := by
    intro j
    by_cases hj : j = i
    · subst hj; exact pending
    · rw [hothers j hj]; exact hidle j hj
  constructor
  · intro j
    by_cases hj : j = i
    · subst hj
      exact .answered prog pending
    · rw [hothers j hj]
      exact (h.phase j).mono fun _ _ hrow => token_row_of_used htokens hrow
  · intro a ha b hb hab
    rw [htokens] at ha hb
    simp only [Change.apply, Table.mem_update] at ha hb
    obtain ⟨x, hx, rfl⟩ := ha
    obtain ⟨y, hy, rfl⟩ := hb
    have hxy : x.token_hash = y.token_hash := by
      split at hab <;> split at hab <;> exact hab
    have hid := h.unique x hx y hy hxy
    split <;> split <;> exact hid
  · intro j _
    obtain ⟨row, hrow, hid, -, hhash⟩ := row
    rw [htoken] at hhash
    rw [htokens]
    simp only [Change.apply, Table.mem_update]
    exact ⟨{ row with used_at := some t }, ⟨row, hrow, by rw [if_pos hid]⟩, hhash, by simp⟩
  · exact fun a _ ha => absurd (hpendings a) ha
  · exact fun a _ ha => absurd (hpendings a) ha
  · intro a b ha hb
    rw [honly a ha, honly b hb]
  · exact fun hnone => absurd prog (hnone i)
  · intro j hj
    rw [honly j hj]
    refine ⟨user_id, ?_⟩
    rw [hview]
    simp only [Change.apply]
    rw [h.users hnobody]

theorem inv_step (htoken : ∀ i, (body i).token = token) (h : Inv env token body d w c)
    (hok : Unraced env token c i = true) (hs : c.step i now = some c') :
    Inv env token body d w c' := by
  cases move_of_step (h.phase i) hs with
  | reads db before pending phase unfinished =>
    exact inv_of_same_db h hs db phase unfinished fun hp => absurd pending hp
  | flushes t prt_id user_id db before writes row free prog pending =>
    have hunused : ∀ t ∈ c.db.password_reset_tokens.rows,
        t.token_hash = hash_token env token → t.used_at = none := by
      unfold Unraced at hok
      rw [writes, before] at hok
      have hall : ∀ t ∈ c.db.password_reset_tokens.rows,
          t.token_hash ≠ hash_token env token ∨ t.used_at = none := by simpa using hok
      exact fun t ht hhash => (hall t ht).resolve_left (not_not.mpr hhash)
    refine inv_of_same_db h hs db (.delete t prt_id user_id prog pending row) ?_ fun _ => ⟨?_, ?_⟩
    · rw [prog]
      exact nofun
    · exact idle_of_flush htoken h row free
    · intro j hj
      obtain ⟨row', hrow', hhash, hused⟩ := h.used j hj
      exact hused (hunused row' hrow' hhash)
  | deletes t prt_id user_id db before row prog pending =>
    have hi : (c.threads i).pending ≠ [] := by simp [before, reset_changes]
    refine inv_of_same_db h hs db (.commit t prt_id user_id _ prog pending row) ?_ fun _ => ⟨?_, ?_⟩
    · rw [prog]
      exact nofun
    · intro j hj
      by_contra hpending
      exact hj (h.alone j i hpending hi)
    · exact fun j => h.first i j hi
  | commits t prt_id user_id gone _ before row db prog pending =>
    exact inv_commits htoken h hs before row db prog pending

theorem inv_of_reached (hv : Valid w.db) (htoken : ∀ i, (body i).token = token)
    (h : System.Reached (fun c i => Unraced env token c i = true) (resets env w body d) c) :
    Inv env token body d w c :=
  System.reached_induction (inv_start hv) (fun _ _ _ _ hc hok hs => inv_step htoken hc hok hs) h

omit [DecidableEq ι] [Fintype ι] in
/-- A request has answered 200 when it has come to its last line. -/
theorem succeeded_iff {b : PasswordResetCompleteBody} {e : Draws}
    (h : Phase env b e c.db (c.threads i)) :
    Succeeded c i ↔ (c.threads i).prog = .ret password_updated := by
  unfold Succeeded status
  constructor
  · intro hs
    cases h with
    | answered prog pending => exact prog
    | failed e prog pending hstatus =>
      rw [answer_raise prog] at hs
      exact absurd (Option.some.inj hs) hstatus
    | start prog _ | select _ prog _ | found _ _ prog _ _ | flush _ _ _ prog _ _
    | delete _ _ _ prog _ _ | commit _ _ _ _ prog _ _ =>
      rw [answer_of_not_done (by rw [prog]; rfl)] at hs
      cases hs
  · intro hprog
    rw [answer_ret hprog]
    rfl

end

/-- At most one request answers 200, and the passwords are those of the start
but for the one that this request has set. -/
structure UsedOnce (body : ι → PasswordResetCompleteBody) (d : ι → Draws) (w : World)
    (c : Server ι) : Prop where
  one : ∀ i j, Succeeded c i → Succeeded c j → i = j
  unchanged : (∀ i, ¬ Succeeded c i) → c.db.users = w.db.users
  changed : ∀ i, Succeeded c i → PasswordOf env body d w c i

/-- A token is used once in every run in which each request flushes its changes
while the token is still unused. -/
theorem an_unraced_token_is_used_once (env : Env) (token : String) (w : World) (hv : Valid w.db)
    (body : ι → PasswordResetCompleteBody) (htoken : ∀ i, (body i).token = token)
    (d : ι → Draws) (c : Server ι)
    (h : System.Reached (fun c i => Unraced env token c i = true) (resets env w body d) c) :
    UsedOnce env body d w c := by
  have hinv := inv_of_reached hv htoken h
  constructor
  · intro i j hi hj
    exact hinv.one i j ((succeeded_iff (hinv.phase i)).mp hi) ((succeeded_iff (hinv.phase j)).mp hj)
  · intro hnone
    exact hinv.users fun i hi => hnone i ((succeeded_iff (hinv.phase i)).mpr hi)
  · intro i hi
    exact hinv.password i ((succeeded_iff (hinv.phase i)).mp hi)

/-! ## The race -/

def ann_asks_for_a_reset : Step where
  call := .password_reset_request ⟨ann⟩
  request := .sample
  draws := .sample "reset" 5

/-- Ann has a mail with the token "reset". -/
def forgotten : World := run .sample [ann_registers "a" 1, ann_asks_for_a_reset] .empty

def new_password (first : Bool) : PasswordResetCompleteBody where
  token := "reset"
  new_password := if first then "first password" else "other password"
  new_password_min_length := by cases first <;> decide

/-- Two requests with the token. -/
def two_resets : Server Bool := resets .sample forgotten new_password fun _ => .sample "x" 6

/-- The second request comes when the first is done. -/
theorem the_second_reset_finds_the_token_used :
    ∃ c, System.exec (Unraced .sample "reset") two_resets
        ((List.replicate 6 true ++ List.replicate 2 false).map fun i => (i, 0)) = some c ∧
      status c true = some 200 ∧ status c false = some 400 ∧
      UsedOnce .sample new_password (fun _ => .sample "x" 6) forgotten c := by
  have hrun : (System.exec (Unraced .sample "reset") two_resets
      ((List.replicate 6 true ++ List.replicate 2 false).map fun i => (i, 0))).map
        (fun c => (status c true, status c false)) = some (some 200, some 400) := by decide
  obtain ⟨c, hc, hstatus⟩ := Option.map_eq_some_iff.mp hrun
  obtain ⟨hfirst, hsecond⟩ := Prod.mk.inj hstatus
  refine ⟨c, hc, hfirst, hsecond, ?_⟩
  have hv : Valid forgotten.db := valid_of_reachable .sample ⟨_, rfl⟩
  exact an_unraced_token_is_used_once .sample "reset" forgotten hv new_password (fun _ => rfl)
    (fun _ => .sample "x" 6) c (System.reached_of_exec .start hc)

/-- Both requests look the token up, and then both go on to their end. -/
theorem two_resets_use_one_token :
    ¬ ∀ c, System.Reached (fun _ _ => True) two_resets c →
      ∀ i j, Succeeded c i → Succeeded c j → i = j := by
  have hrun : (System.exec (fun _ _ => true) two_resets
      ((List.replicate 2 true ++ List.replicate 2 false ++ List.replicate 4 true ++
        List.replicate 4 false).map fun i => (i, 0))).map
        (fun c => (status c true, status c false)) = some (some 200, some 200) := by decide
  obtain ⟨c, hc, hstatus⟩ := Option.map_eq_some_iff.mp hrun
  obtain ⟨hfirst, hsecond⟩ := Prod.mk.inj hstatus
  intro h
  have hreached := System.reached_mono (fun _ _ _ => trivial) (System.reached_of_exec .start hc)
  exact absurd (h c hreached true false hfirst hsecond) (by decide)

end shared_todos.reset_races
