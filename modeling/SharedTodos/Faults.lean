-- Requests that a fault ends: the database or a library fails in the middle of a
-- request, and its open transaction is rolled back. A reset of a password is one
-- transaction and leaves all or nothing. A sign-up commits the account and its
-- session apart, and a fault between them leaves an account that its client
-- cannot register again.
import SharedTodos.SessionHistory
import SharedTodos.Library.Faults

open keyed_table transactions transactions.Prog
open shared_todos.models shared_todos.http shared_todos.http.handler
open shared_todos.sessions shared_todos.auth shared_todos.oauth shared_todos.app
open shared_todos.accounts shared_todos.session_history

namespace shared_todos.faults

/-- A request alone that meets a fault at its step `n`, counted from 0: a lookup, a
flush, a commit or a reading of the clock raises an exception that nothing catches. An
error of `hash_password` is one at the flush that comes after it. The database session
is closed, which rolls an open transaction back. -/
def perform_cut (n : Nat) (handler : Handler Response) (clock : Nat → Time) (w : World) :
    Response × World :=
  let r := handler.cut .library n ⟨clock, w.db, [], w.store⟩
  (respond r.1, ⟨r.2.db, r.2.memory⟩)

section
variable {handler : Handler Response} {c : Nat → Time} {w : World} {n : Nat}

/-- The request is handled as without a fault, or it ends with a 500. -/
theorem perform_cut_cases (n : Nat) (handler : Handler Response) (c : Nat → Time) (w : World) :
    perform_cut n handler c w = perform handler c w ∨
      (perform_cut n handler c w).1 = json 500 .internal_server_error := by
  unfold perform_cut perform
  rcases cut_cases .library n handler ⟨c, w.db, [], w.store⟩ with h | h
  · rw [h]
    exact Or.inl rfl
  · dsimp only
    rw [h]
    exact Or.inr rfl

theorem perform_cut_late (handler : Handler Response) (c : Nat → Time) (w : World) :
    ∃ m, ∀ n, m ≤ n → perform_cut n handler c w = perform handler c w := by
  obtain ⟨m, hm⟩ := cut_late .library handler ⟨c, w.db, [], w.store⟩
  refine ⟨m, fun n hn => ?_⟩
  unfold perform_cut perform
  rw [hm n hn]

end

/-- What a request answers that a fault ends. -/
def faulted : Response := json 500 .internal_server_error

section
variable (n : Nat) (c : Nat → Time) (w : World)

theorem perform_cut_ret (r : Response) : perform_cut n (.ret r) c w = (r, w) := by
  cases n <;> rfl

theorem perform_cut_raise (e : Exn) : perform_cut n (.raise e) c w = (e.response, w) := by
  cases n <;> rfl

theorem perform_cut_execute {β : Type} (q : DB → β) (k : β → Handler Response) :
    perform_cut n (execute q >>= k) c w =
      if n = 0 then (faulted, w) else perform_cut (n - 1) (k (q w.db)) c w := by
  cases n <;> rfl

theorem perform_cut_scalar {ρ : Type} (rows : List ρ) (k : Option ρ → Handler Response) :
    perform_cut n (scalar_one_or_none rows >>= k) c w =
      proceed (one_or_none rows) w fun o => perform_cut n (k o) c w := by
  rcases rows with _ | ⟨a, _ | ⟨b, rest⟩⟩
  · rfl
  · rfl
  · exact perform_cut_raise n c w _

theorem perform_cut_refresh {ρ : Type} (q : DB → Option ρ) (k : ρ → Handler Response) :
    perform_cut n (refresh q >>= k) c w =
      if n = 0 then (faulted, w)
      else proceed (read_back (q w.db)) w fun r => perform_cut (n - 1) (k r) c w := by
  cases n with
  | zero => rfl
  | succ n =>
    obtain ⟨k', hquery, hnone, hsome⟩ : ∃ k', (refresh q >>= k) = .query q k' ∧
        k' none = .raise .invalid_request ∧ ∀ r, k' (some r) = k r :=
      ⟨_, rfl, rfl, fun _ => rfl⟩
    have hstep : perform_cut (n + 1) (refresh q >>= k) c w =
        perform_cut n (k' (q w.db)) c w := by rw [hquery]; rfl
    rw [hstep, if_neg (Nat.succ_ne_zero n)]
    cases q w.db with
    | none => rw [hnone]; exact perform_cut_raise n c w _
    | some r => rw [hsome]; rfl

theorem perform_cut_utc_now (k : Time → Handler Response) :
    perform_cut n (utc_now >>= k) c w =
      if n = 0 then (faulted, w) else perform_cut (n - 1) (k (c 0)) (fun n => c (n + 1)) w := by
  cases n <;> rfl

/-- What follows a flush. -/
theorem flush_then (st : Statement) (k : Unit → Handler Response) :
    ∃ k', (flush st >>= k) = .write st k' ∧ k' (.ok ()) = k () ∧
      ∀ e, k' (.error e) = .raise (.db e) :=
  ⟨_, rfl, rfl, fun _ => rfl⟩

theorem cut_flush_ok {st : Statement} (k : Unit → Handler Response)
    {s : Solo DB Change RateStore} {cs : List Change} (hst : st s.view = .ok cs) :
    (flush st >>= k).cut .library (n + 1) s =
      (k ()).cut .library n { s with pending := s.pending ++ cs } := by
  obtain ⟨k', hwrite, hok, -⟩ := flush_then st k
  rw [hwrite]
  simp only [cut, hst, hok]

theorem cut_flush_error {st : Statement} (k : Unit → Handler Response)
    {s : Solo DB Change RateStore} {e : DbError} (hst : st s.view = .error e) :
    (flush st >>= k).cut .library (n + 1) s = (.error (.db e), { s with pending := [] }) := by
  obtain ⟨k', hwrite, -, herr⟩ := flush_then st k
  rw [hwrite]
  simp only [cut, hst, herr]

/-- An error of the flush is answered as a fault is. -/
theorem perform_cut_flush_commit (st : Statement) (k : Handler Response) :
    perform_cut n (do flush st; handler.commit; k) c w =
      if n ≤ 1 then (faulted, w) else attempt st w fun w' => perform_cut (n - 2) k c w' := by
  rcases n with _ | n
  · rfl
  unfold perform_cut attempt
  cases hst : st w.db with
  | error e =>
    rw [cut_flush_error n _ hst]
    dsimp only
    split <;> rfl
  | ok cs =>
    rw [cut_flush_ok n _ hst]
    cases n <;> rfl

theorem perform_cut_create_session (env : Env) (user_id : UUID) (raw_token : String) (id : UUID)
    (k : String → Handler Response) :
    perform_cut n (create_session env user_id raw_token id >>= k) c w =
      if n ≤ 2 then (faulted, w)
      else attempt (insert_session (new_session env user_id raw_token id (c 0))) w fun w' =>
        perform_cut (n - 3) (k raw_token) (fun n => c (n + 1)) w' := by
  have hsteps : create_session env user_id raw_token id >>= k = (do
      let now ← utc_now
      flush (insert_session (new_session env user_id raw_token id now))
      handler.commit
      k raw_token) := by
    unfold create_session
    simp only [Prog.bind_assoc]
    rfl
  rw [hsteps, perform_cut_utc_now]
  by_cases h0 : n = 0
  · rw [if_pos h0, if_pos (by omega)]
  rw [if_neg h0, perform_cut_flush_commit]
  by_cases hn : n ≤ 2
  · rw [if_pos hn, if_pos (by omega)]
  · rw [if_neg hn, if_neg (by omega), Nat.sub_sub]

end

/-! ## The reset of a password -/

section
variable (env : Env) (body : PasswordResetCompleteBody) (d : Draws)

theorem reset_write_all_or_nothing (now : Time) (prt : PasswordResetToken) (user : User) :
    (password_reset_write env body d now prt user).AllOrNothing fun r => r.status_code = 200 := by
  intro r
  cases r with
  | error e => trivial
  | ok _ =>
    intro r
    cases r with
    | error e => trivial
    | ok _ => exact ⟨_, rfl, rfl⟩

/-- The commit of the three changes is the last step. -/
theorem reset_all_or_nothing :
    (password_reset_complete env body d).AllOrNothing fun r => r.status_code = 200 := by
  intro now tokens
  rcases tokens with _ | ⟨prt, _ | ⟨other, rest⟩⟩
  · trivial
  · intro users
    rcases users with _ | ⟨user, _ | ⟨other, rest⟩⟩
    · trivial
    · exact reset_write_all_or_nothing env body d now prt user
    · trivial
  · trivial

/-- What a completed reset leaves: the token is used, the password is set, and no session
of the user is left. -/
structure Completed (prt : PasswordResetToken) (user : User) (now : Time) (w w' : World) : Prop
    where
  usable : usable_tokens (hash_token env body.token) now w.db = [prt]
  owner : w.db.users.find prt.user_id = some user
  used : w'.db.password_reset_tokens.find prt.id = some { prt with used_at := some now }
  password : w'.db.users.find user.id =
    some { user with password_hash := some (hash_password env body.new_password d.salt) }
  sessions : ∀ s ∈ w'.db.sessions.rows, s.user_id ≠ user.id

theorem completed_of_200 {c : Nat → Time} {w : World}
    (h : (perform (password_reset_complete env body d) c w).1.status_code = 200) :
    ∃ prt user, Completed env body d prt user (c 0) w
      (perform (password_reset_complete env body d) c w).2 := by
  rw [password_reset_complete_effect] at h ⊢
  rcases htokens : usable_tokens (hash_token env body.token) (c 0) w.db with
    _ | ⟨prt, _ | ⟨other, rest⟩⟩
  · rw [htokens] at h
    cases h
  swap
  · rw [htokens] at h
    cases h
  rw [htokens] at h
  simp only [one_or_none, proceed_ok] at h ⊢
  rw [password_reset_found_effect] at h ⊢
  cases howner : w.db.users.find prt.user_id with
  | none =>
    rw [howner] at h
    cases h
  | some user =>
    rw [howner] at h
    dsimp only at h ⊢
    rw [password_reset_write_effect] at h ⊢
    cases hst : reset_statement prt user (c 0) (hash_password env body.new_password d.salt) w.db with
    | error e =>
      rw [hst] at h
      cases h
    | ok cs =>
      obtain ⟨rfl, hu, hp⟩ := reset_statement_ok hst
      refine ⟨prt, user, htokens, howner, ?_, ?_, ?_⟩
      · have hsel : prt ∈ usable_tokens (hash_token env body.token) (c 0) w.db := by
          rw [htokens]
          exact List.mem_singleton_self prt
        have hfind := Table.find_of_mem (((Table.mem_select _ _ _).mp hsel).1)
        exact Table.find_update_self (fun r => { r with used_at := some (c 0) }) (fun _ => rfl) hfind
      · have hfind : w.db.users.find user.id = some user := by
          rw [Table.key_of_find howner, howner]
        exact Table.find_update_self (fun u => { u with
          password_hash := some (hash_password env body.new_password d.salt) }) (fun _ => rfl) hfind
      · intro s hs
        simpa using (Table.mem_deleteWhere.mp hs).2

/-- Wherever a reset of a password fails, the committed database is as before; and a reset
that is answered with a 200 has used the token, set the password and deleted all sessions
of the user. -/
theorem reset_leaves_all_or_nothing (env : Env) (body : PasswordResetCompleteBody) (d : Draws)
    (c : Nat → Time) (w : World) (n : Nat) :
    ((perform_cut n (password_reset_complete env body d) c w).1.status_code ≠ 200 →
      (perform_cut n (password_reset_complete env body d) c w).2.db = w.db) ∧
    ((perform_cut n (password_reset_complete env body d) c w).1.status_code = 200 →
      ∃ prt user, Completed env body d prt user (c 0) w
        (perform_cut n (password_reset_complete env body d) c w).2) := by
  constructor
  · intro hfailed
    rcases cut_all_or_nothing (reset_all_or_nothing env body d) .library n
      ⟨c, w.db, [], w.store⟩ with ⟨r, hr, hanswer⟩ | hsame
    · unfold perform_cut at hfailed
      dsimp only at hfailed
      rw [hanswer] at hfailed
      exact absurd hr hfailed
    · exact hsame
  · intro hok
    rcases perform_cut_cases n (password_reset_complete env body d) c w with hrun | hfault
    · rw [hrun] at hok ⊢
      exact completed_of_200 env body d hok
    · rw [hfault] at hok
      cases hok

end

/-- Ann has an account, and asks for a reset. -/
def ann_asks_for_a_reset : List Step :=
  [ann_registers "a" 1, ⟨.password_reset_request ⟨ann⟩, .sample, .sample "reset" 5⟩]

def new_password_of_ann : PasswordResetCompleteBody := ⟨"reset", "thirteen moons", by decide⟩

/-- She sends the new password, and a fault comes at step `n`. -/
def ann_resets (n : Nat) : Response × World :=
  perform_cut n (password_reset_complete .sample new_password_of_ann (.sample "done" 6))
    (fun _ => 0) (run .sample ann_asks_for_a_reset .empty)

theorem ann_has_the_new_password_or_the_old_one :
    (∃ n, (ann_resets n).1.status_code = 200 ∧ ∃ prt user, Completed .sample new_password_of_ann
      (.sample "done" 6) prt user 0 (run .sample ann_asks_for_a_reset .empty) (ann_resets n).2) ∧
    ∃ n, (ann_resets n).1.status_code = 500 ∧
      (ann_resets n).2.db = (run .sample ann_asks_for_a_reset .empty).db := by
  have hall := reset_leaves_all_or_nothing .sample new_password_of_ann (.sample "done" 6)
    (fun _ => 0) (run .sample ann_asks_for_a_reset .empty)
  have hdone : (ann_resets 20).1.status_code = 200 := by decide
  have hfaulted : (ann_resets 4).1.status_code = 500 := by decide
  have hother : (ann_resets 4).1.status_code ≠ 200 := by decide
  exact ⟨⟨20, hdone, (hall 20).2 hdone⟩, 4, hfaulted, (hall 4).1 hother⟩

/-! ## The steps of a sign-up -/

section
variable (env : Env) (d : Draws) (n : Nat) (c : Nat → Time) (w : World)

/-- The session that a sign-up opens is at the steps 0 to 2 of its part. -/
theorem open_session_cut (user_id : UUID) :
    perform_cut n (open_session env user_id d) c w =
      if n ≤ 2 then (faulted, w)
      else attempt (insert_session
          (new_session env user_id (d.token_urlsafe 0) d.session_id (c 0))) w fun w' =>
        (signed_in env (d.token_urlsafe 0) d, w') := by
  unfold open_session
  rw [perform_cut_create_session]
  by_cases hn : n ≤ 2
  · rw [if_pos hn, if_pos hn]
  · rw [if_neg hn, if_neg hn]
    congr 1
    funext w'
    exact perform_cut_ret ..

/-- A sign-up that commits its account at the step `a`, and the session at the step `b`. -/
def two_commits (a b : Nat) (st : Statement) (user_id : UUID) (now : Time) (answer : Response) :
    Response × World :=
  if n ≤ a then (faulted, w)
  else attempt st w fun w' =>
    if n ≤ b then (faulted, w')
    else attempt (insert_session
        (new_session env user_id (d.token_urlsafe 0) d.session_id now)) w' fun w'' =>
      (answer, w'')

/-- The lookup, the flush and the commit of the account, the refresh, the clock, and
the flush and the commit of the session. -/
theorem register_cut {body : RegisterRequest} (hfree : users_by_email body.email.val w.db = []) :
    perform_cut n (register env body d) c w =
      two_commits env d n w 2 6 (insert_user (new_user env body d)) d.row_id (c 0)
        (registered env (new_user env body d) (d.token_urlsafe 0) d) := by
  unfold register two_commits
  rw [perform_cut_execute, hfree]
  by_cases h0 : n = 0
  · rw [if_pos h0, if_pos (by omega)]
  rw [if_neg h0, perform_cut_scalar]
  change perform_cut (n - 1) (register_new env body d) c w = _
  unfold register_new
  rw [perform_cut_flush_commit]
  by_cases h2 : n ≤ 2
  · rw [if_pos (by omega), if_pos h2]
  rw [if_neg (by omega), if_neg h2]
  apply attempt_congr
  intro cs hcs
  obtain ⟨rfl, -, hid, -⟩ := insert_user_ok hcs
  have hfind : (w.commit [.insert_user (new_user env body d)]).db.users.find d.row_id =
      some (new_user env body d) :=
    Table.find_insert_self hid
  rw [perform_cut_refresh, hfind]
  by_cases h6 : n ≤ 6
  · rw [if_pos h6]
    by_cases h3 : n - 1 - 2 = 0
    · rw [if_pos h3]
    · rw [if_neg h3]
      simp only [read_back, proceed_ok]
      rw [perform_cut_create_session, if_pos (by omega)]
  · rw [if_neg h6, if_neg (by omega)]
    simp only [read_back, proceed_ok]
    rw [perform_cut_create_session, if_neg (by omega)]
    congr 1
    funext w''
    exact perform_cut_ret ..

theorem create_google_user_cut (who : Identity) :
    perform_cut n (create_google_user env who d) c w =
      two_commits env d n w 1 5 (insert_user (google_user who d)) d.row_id (c 0)
        (signed_in env (d.token_urlsafe 0) d) := by
  unfold create_google_user two_commits
  rw [perform_cut_flush_commit]
  by_cases h1 : n ≤ 1
  · rw [if_pos h1, if_pos h1]
  rw [if_neg h1, if_neg h1]
  apply attempt_congr
  intro cs hcs
  obtain ⟨rfl, -, hid, -⟩ := insert_user_ok hcs
  have hfind : (w.commit [.insert_user (google_user who d)]).db.users.find d.row_id =
      some (google_user who d) :=
    Table.find_insert_self hid
  rw [perform_cut_refresh, hfind]
  by_cases h5 : n ≤ 5
  · rw [if_pos h5]
    by_cases h2 : n - 2 = 0
    · rw [if_pos h2]
    · rw [if_neg h2]
      simp only [read_back, proceed_ok]
      rw [open_session_cut, if_pos (by omega)]
  · rw [if_neg h5, if_neg (by omega)]
    simp only [read_back, proceed_ok]
    rw [open_session_cut, if_neg (by omega)]
    rfl

/-- There is no refresh of the linked account. -/
theorem link_google_user_cut (user : User) (who : Identity) :
    perform_cut n (link_google_user env user who d) c w =
      two_commits env d n w 1 4 (update_google_sub user.id who.google_sub) user.id (c 0)
        (signed_in env (d.token_urlsafe 0) d) := by
  unfold link_google_user two_commits
  rw [perform_cut_flush_commit]
  by_cases h1 : n ≤ 1
  · rw [if_pos h1, if_pos h1]
  rw [if_neg h1, if_neg h1]
  congr 1
  funext w'
  rw [open_session_cut]
  by_cases h4 : n ≤ 4
  · rw [if_pos h4, if_pos (by omega)]
  · rw [if_neg h4, if_neg (by omega)]

end

/-! ## What a failed sign-up leaves -/

/-- The values that a session draws are not taken. -/
def SessionFree (env : Env) (d : Draws) (w : World) : Prop :=
  w.db.sessions.find d.session_id = none ∧
    ∀ r ∈ w.db.sessions.rows, r.token_hash ≠ hash_token env (d.token_urlsafe 0)

/-- A registration names an account with a session that works. -/
def RealAccount (env : Env) (again : Response × World) (now : Time) : Prop :=
  ∃ user token message, again.1.body = .registered (some (user_out user)) message ∧
    again.1.cookie SESSION_COOKIE_NAME = some token ∧
    session_user env (some token) now again.2.db = .ok user

/-- A registration that fails leaves nothing, and the next one with the same body gets a
real account where the address was free. -/
structure WholeSignUp (env : Env) (body : RegisterRequest) (d : Draws) (c : Nat → Time) (w : World)
    (n : Nat) : Prop where
  nothing : (perform_cut n (register env body d) c w).1.status_code ≠ 201 →
    (perform_cut n (register env body d) c w).2.db = w.db
  retried : (perform_cut n (register env body d) c w).1.status_code ≠ 201 →
    users_by_email body.email.val w.db = [] → ∀ d' c',
      (perform (register env body d') c' (perform_cut n (register env body d) c w).2).1.status_code =
        201 →
      RealAccount env (perform (register env body d') c' (perform_cut n (register env body d) c w).2)
        (c' 0)

/-- The address is free, and the database takes the account. -/
def AccountAccepted (env : Env) (body : RegisterRequest) (d : Draws) (w : World) : Prop :=
  users_by_email body.email.val w.db = [] ∧ ∃ cs, insert_user (new_user env body d) w.db = .ok cs

/-- The fault does not come after the commit of the account, or there is none before the
end, at the step 7, and the database takes the session too. -/
def RegisterUnbroken (env : Env) (body : RegisterRequest) (d : Draws) (w : World) (n : Nat) : Prop :=
  AccountAccepted env body d w → n ≤ 2 ∨ (7 ≤ n ∧ SessionFree env d w)

section
variable {env : Env} {d : Draws} {n : Nat} {c : Nat → Time} {w : World}

/-- The database takes the session of an account that has just been committed if the
values of the session are not taken. -/
theorem session_accepted_iff {w' : World} {user_id : UUID} (now : Time)
    (hsessions : w'.db.sessions = w.db.sessions) (huser : w'.db.users.find user_id ≠ none) :
    (∃ cs, insert_session (new_session env user_id (d.token_urlsafe 0) d.session_id now) w'.db =
      .ok cs) ↔ SessionFree env d w := by
  constructor
  · rintro ⟨cs, hst⟩
    obtain ⟨-, hid, hhash, -⟩ := insert_session_ok hst
    rw [hsessions] at hid hhash
    exact ⟨hid, hhash⟩
  · intro hfree
    have hknown : w'.db.users.find
        (new_session env user_id (d.token_urlsafe 0) d.session_id now).user_id ≠ none := huser
    unfold insert_session
    rw [if_neg, if_neg hknown]
    · exact ⟨_, rfl⟩
    · rw [hsessions]
      rintro (hid | ⟨r, hr, hhash⟩)
      · exact hid hfree.1
      · exact hfree.2 r hr hhash

/-- A sign-up in two commits leaves nothing behind exactly if no fault and no refusal comes
between them. -/
theorem two_commits_iff {a b : Nat} {st : Statement} {user_id : UUID} {now : Time}
    {answer : Response} (success : Response → Prop) (hanswer : success answer)
    (hfault : ¬ success faulted)
    (hst : ∀ cs, st w.db = .ok cs → (w.commit cs).db ≠ w.db ∧
      (w.commit cs).db.sessions = w.db.sessions ∧ (w.commit cs).db.users.find user_id ≠ none) :
    (¬ success (two_commits env d n w a b st user_id now answer).1 →
      (two_commits env d n w a b st user_id now answer).2.db = w.db) ↔
    ((∃ cs, st w.db = .ok cs) → n ≤ a ∨ (b < n ∧ SessionFree env d w)) := by
  unfold two_commits
  by_cases hn : n ≤ a
  · rw [if_pos hn]
    exact iff_of_true (fun _ => rfl) fun _ => Or.inl hn
  rw [if_neg hn]
  cases hcs : st w.db with
  | error e =>
    rw [attempt_error hcs]
    refine iff_of_true (fun _ => rfl) ?_
    rintro ⟨cs, h⟩
    cases h
  | ok cs =>
    obtain ⟨hchanged, hsessions, huser⟩ := hst cs hcs
    have haccepted : _ ↔ SessionFree env d w := session_accepted_iff now hsessions huser
    rw [attempt_ok hcs]
    by_cases hb : n ≤ b
    · rw [if_pos hb]
      refine iff_of_false (fun h => hchanged (h hfault)) fun h => ?_
      rcases h ⟨cs, rfl⟩ with h | ⟨h, -⟩
      · exact hn h
      · omega
    rw [if_neg hb]
    cases hs : insert_session (new_session env user_id (d.token_urlsafe 0) d.session_id now)
        (w.commit cs).db with
    | error e =>
      rw [attempt_error hs]
      refine iff_of_false (fun h => hchanged (h hfault)) fun h => ?_
      rcases h ⟨cs, rfl⟩ with h | ⟨-, h⟩
      · exact hn h
      · obtain ⟨cs', hcs'⟩ := haccepted.mpr h
        rw [hs] at hcs'
        cases hcs'
    | ok cs' =>
      rw [attempt_ok hs]
      exact iff_of_true (fun h => absurd hanswer h) fun _ =>
        Or.inr ⟨by omega, haccepted.mp ⟨cs', hs⟩⟩

/-- A registration of a taken address writes nothing. -/
theorem register_cut_taken {body : RegisterRequest}
    (htaken : users_by_email body.email.val w.db ≠ []) :
    (perform_cut n (register env body d) c w).2.db = w.db := by
  unfold register
  rw [perform_cut_execute]
  split
  · rfl
  rw [perform_cut_scalar]
  rcases hrows : users_by_email body.email.val w.db with _ | ⟨user, _ | ⟨other, rest⟩⟩
  · exact absurd hrows htaken
  · simp only [one_or_none, proceed_ok]
    exact congrArg (fun r => r.2.db) (perform_cut_ret (n - 1) c w (register_existing env d))
  · rfl

/-- A registration of a free address that is answered with a 201. -/
theorem real_account_of_201 {body : RegisterRequest} (hv : Valid w.db)
    (hfree : users_by_email body.email.val w.db = [])
    (h : (perform (register env body d) c w).1.status_code = 201) :
    RealAccount env (perform (register env body d) c w) (c 0) := by
  have hv' : Valid (perform (register env body d) c w).2.db :=
    perform_keeps (fun _ => account_statement_keeps) (writes_register env d body) hv
  rw [register_effect, hfree] at h hv' ⊢
  simp only [one_or_none, proceed_ok] at h hv' ⊢
  rw [register_new_effect] at h hv' ⊢
  cases huser : insert_user (new_user env body d) w.db with
  | error e =>
    rw [attempt_error huser] at h
    cases h
  | ok cs =>
    obtain ⟨rfl, -, hid, -⟩ := insert_user_ok huser
    rw [attempt_ok huser] at h hv' ⊢
    cases hsession : insert_session (new_session env d.row_id (d.token_urlsafe 0) d.session_id (c 0))
        (w.commit [.insert_user (new_user env body d)]).db with
    | error e =>
      rw [attempt_error hsession] at h
      cases h
    | ok cs =>
      obtain ⟨rfl, hsid, -⟩ := insert_session_ok hsession
      rw [attempt_ok hsession] at hv' ⊢
      refine ⟨new_user env body d, d.token_urlsafe 0, _, rfl, rfl, ?_⟩
      refine (session_user_iff env hv' _ _ _).mpr ⟨new_session env d.row_id (d.token_urlsafe 0)
        d.session_id (c 0), ?_, rfl, ?_, Table.find_insert_self hid⟩
      · exact (Table.mem_insert_of_free hsid _).mpr (Or.inr rfl)
      · have hdays := env.settings.session_ttl_days_range.1
        simp only [new_session, days, seconds]
        simp only [Time] at *
        omega

/-- What the commit of a new account does. -/
theorem account_commit {u : User} {cs : List Change} (h : insert_user u w.db = .ok cs) :
    (w.commit cs).db ≠ w.db ∧ (w.commit cs).db.sessions = w.db.sessions ∧
      (w.commit cs).db.users.find u.id ≠ none := by
  obtain ⟨rfl, -, hid, -⟩ := insert_user_ok h
  have hfind : (w.commit [.insert_user u]).db.users.find u.id = some u := Table.find_insert_self hid
  refine ⟨fun hsame => ?_, rfl, by rw [hfind]; simp⟩
  rw [hsame, hid] at hfind
  cases hfind

theorem register_leaves_nothing_iff (body : RegisterRequest) :
    ((perform_cut n (register env body d) c w).1.status_code ≠ 201 →
      (perform_cut n (register env body d) c w).2.db = w.db) ↔ RegisterUnbroken env body d w n := by
  by_cases hfree : users_by_email body.email.val w.db = []
  swap
  · exact iff_of_true (fun _ => register_cut_taken hfree) fun h => absurd h.1 hfree
  rw [register_cut env d n c w hfree]
  refine Iff.trans (two_commits_iff (fun r => r.status_code = 201) rfl (by simp [faulted, json])
    fun cs => account_commit) ?_
  unfold RegisterUnbroken AccountAccepted
  simp only [hfree, true_and]
  exact Iff.rfl

theorem whole_sign_up_iff (hv : Valid w.db) (body : RegisterRequest) :
    WholeSignUp env body d c w n ↔ RegisterUnbroken env body d w n := by
  rw [← register_leaves_nothing_iff]
  refine ⟨WholeSignUp.nothing, fun hnothing => ⟨hnothing, fun hfailed hfree d' c' h => ?_⟩⟩
  have hsame := hnothing hfailed
  exact real_account_of_201 (by rw [hsame]; exact hv) (by rw [hsame]; exact hfree) h

/-! ## What a failed sign-in with Google leaves -/

/-- The callback ends with the redirect of a sign-in. -/
def SignsIn (env : Env) (r : Response) : Prop :=
  r.headers = [("location", env.settings.frontend_url ++ "/dashboard")]

/-- Nobody has the identity, and the database takes the account. -/
def NewAccepted (who : Identity) (d : Draws) (w : World) : Prop :=
  users_by_identity who w.db = [] ∧ ∃ cs, insert_user (google_user who d) w.db = .ok cs

/-- An account with the email has no subject, and the database takes the link. -/
def LinkAccepted (who : Identity) (w : World) : Prop :=
  ∃ user, users_by_identity who w.db = [user] ∧ user.google_sub = none ∧
    ∃ cs, update_google_sub user.id who.google_sub w.db = .ok cs

/-- The fault does not come after the commit of the account or of the link, or there is
none before the end, at the step 7 or 6, and the database takes the session too. -/
def GoogleUnbroken (env : Env) (who : Identity) (d : Draws) (w : World) (n : Nat) : Prop :=
  (NewAccepted who d w → n ≤ 2 ∨ (7 ≤ n ∧ SessionFree env d w)) ∧
    (LinkAccepted who w → n ≤ 2 ∨ (6 ≤ n ∧ SessionFree env d w))

/-- What the commit of a link does. -/
theorem link_commit {who : Identity} {user : User} {cs : List Change}
    (hrows : users_by_identity who w.db = [user]) (hnone : user.google_sub = none)
    (h : update_google_sub user.id who.google_sub w.db = .ok cs) :
    (w.commit cs).db ≠ w.db ∧ (w.commit cs).db.sessions = w.db.sessions ∧
      (w.commit cs).db.users.find user.id ≠ none := by
  obtain ⟨rfl, -, -⟩ := update_google_sub_ok h
  have hsel : user ∈ users_by_identity who w.db := by rw [hrows]; exact List.mem_singleton_self user
  have hfind := Table.find_of_mem ((Table.mem_select _ _ _).mp hsel).1
  have hlinked : (w.commit [.set_google_sub user.id who.google_sub]).db.users.find user.id =
      some { user with google_sub := some who.google_sub } :=
    Table.find_update_self (fun u : User => { u with google_sub := some who.google_sub })
      (fun _ => rfl) hfind
  refine ⟨fun hsame => ?_, rfl, by rw [hlinked]; simp⟩
  rw [hsame, hfind, Option.some_inj] at hlinked
  rw [hlinked] at hnone
  cases hnone

/-- A session alone is one commit. -/
theorem open_session_leaves_nothing (user_id : UUID) :
    ¬ SignsIn env (perform_cut n (open_session env user_id d) c w).1 →
      (perform_cut n (open_session env user_id d) c w).2.db = w.db := by
  rw [open_session_cut]
  split
  · exact fun _ => rfl
  cases hs : insert_session (new_session env user_id (d.token_urlsafe 0) d.session_id (c 0)) w.db with
  | error e =>
    rw [attempt_error hs]
    exact fun _ => rfl
  | ok cs =>
    rw [attempt_ok hs]
    exact fun h => absurd rfl h

theorem sign_in_leaves_nothing_iff (who : Identity) :
    (¬ SignsIn env (perform_cut n (sign_in env who d) c w).1 →
      (perform_cut n (sign_in env who d) c w).2.db = w.db) ↔ GoogleUnbroken env who d w n := by
  have hfault : ¬ SignsIn env faulted := by simp [SignsIn, faulted, json]
  have hdone : SignsIn env (signed_in env (d.token_urlsafe 0) d) := rfl
  unfold sign_in
  rw [perform_cut_execute]
  by_cases h0 : n = 0
  · rw [if_pos h0]
    exact iff_of_true (fun _ => rfl) ⟨fun _ => Or.inl (by omega), fun _ => Or.inl (by omega)⟩
  rw [if_neg h0, perform_cut_scalar]
  rcases hrows : users_by_identity who w.db with _ | ⟨user, _ | ⟨other, rest⟩⟩
  · simp only [one_or_none, proceed_ok]
    change (¬ SignsIn env (perform_cut (n - 1) (create_google_user env who d) c w).1 →
      (perform_cut (n - 1) (create_google_user env who d) c w).2.db = w.db) ↔ _
    rw [create_google_user_cut]
    refine (two_commits_iff (SignsIn env) hdone hfault fun cs => account_commit).trans ?_
    have hlink : ¬ LinkAccepted who w := by
      rintro ⟨user, h, -⟩
      rw [hrows] at h
      cases h
    constructor
    · intro h
      refine ⟨fun hnew => ?_, fun h => absurd h hlink⟩
      rcases h hnew.2 with h | ⟨h, hs⟩
      · exact Or.inl (by omega)
      · exact Or.inr ⟨by omega, hs⟩
    · intro h hst
      rcases h.1 ⟨hrows, hst⟩ with h | ⟨h, hs⟩
      · exact Or.inl (by omega)
      · exact Or.inr ⟨by omega, hs⟩
  · simp only [one_or_none, proceed_ok]
    have hnew : ¬ NewAccepted who d w := by
      rintro ⟨h, -⟩
      rw [hrows] at h
      cases h
    unfold sign_in_found
    dsimp only
    by_cases hsub : user.google_sub = none
    · rw [if_pos hsub, link_google_user_cut]
      refine (two_commits_iff (SignsIn env) hdone hfault fun cs => link_commit hrows hsub).trans ?_
      constructor
      · intro h
        refine ⟨fun h => absurd h hnew, ?_⟩
        rintro ⟨user', hrows', -, hst⟩
        rw [hrows] at hrows'
        cases hrows'
        rcases h hst with h | ⟨h, hs⟩
        · exact Or.inl (by omega)
        · exact Or.inr ⟨by omega, hs⟩
      · intro h hst
        rcases h.2 ⟨user, hrows, hsub, hst⟩ with h | ⟨h, hs⟩
        · exact Or.inl (by omega)
        · exact Or.inr ⟨by omega, hs⟩
    · rw [if_neg hsub]
      refine iff_of_true (open_session_leaves_nothing user.id) ⟨fun h => absurd h hnew, ?_⟩
      rintro ⟨user', hrows', hnone, -⟩
      rw [hrows] at hrows'
      cases hrows'
      exact absurd hnone hsub
  · refine iff_of_true (fun _ => rfl) ⟨?_, ?_⟩
    · rintro ⟨h, -⟩
      rw [hrows] at h
      cases h
    · rintro ⟨user', h, -⟩
      rw [hrows] at h
      cases h

theorem callback_leaves_nothing_iff (query : CallbackQuery) (request : Request) :
    (¬ SignsIn env (perform_cut n (oauth_google_callback env query request d) c w).1 →
      (perform_cut n (oauth_google_callback env query request d) c w).2.db = w.db) ↔
    ∀ who, check_callback env query request d = .passed who → GoogleUnbroken env who d w n := by
  unfold oauth_google_callback
  cases hcheck : check_callback env query request d with
  | raised e =>
    refine iff_of_true (fun _ => ?_) (by simp)
    exact congrArg (fun r => r.2.db) (perform_cut_raise n c w e)
  | answered r =>
    refine iff_of_true (fun _ => ?_) (by simp)
    exact congrArg (fun r => r.2.db) (perform_cut_ret n c w r)
  | passed who =>
    refine (sign_in_leaves_nothing_iff who).trans ⟨fun h who' hwho => ?_, fun h => h who rfl⟩
    cases hwho
    exact h

end

/-! ## The law of the sign-ups -/

/-- A registration that fails leaves nothing, and a callback that does not sign in leaves
nothing, exactly if no fault and no refusal comes between the commit of the account and the
commit of its session. -/
theorem sign_up_leaves_nothing_iff (env : Env) (d : Draws) (c : Nat → Time) (w : World) (n : Nat)
    (hv : Valid w.db) :
    (∀ body, WholeSignUp env body d c w n ↔ RegisterUnbroken env body d w n) ∧
    ∀ query request,
      (¬ SignsIn env (perform_cut n (oauth_google_callback env query request d) c w).1 →
        (perform_cut n (oauth_google_callback env query request d) c w).2.db = w.db) ↔
      ∀ who, check_callback env query request d = .passed who → GoogleUnbroken env who d w n :=
  ⟨whole_sign_up_iff hv, callback_leaves_nothing_iff⟩

/-! ### A registration that is cut -/

/-- Ann's registration meets a fault at the commit of her session. -/
def cut_registration : Response × World :=
  perform_cut 6 (register .sample ann_registration (.sample "cut" 1)) (fun _ => 0) .empty

/-- Her account is left without a session, and her next attempt is answered as if the
address was taken; a first sign-in with Google is left half made too. -/
theorem cut_sign_up_is_left :
    ¬ WholeSignUp .sample ann_registration (.sample "cut" 1) (fun _ => 0) .empty 6 ∧
      (perform (register .sample ann_registration (.sample "again" 2)) (fun _ => 0)
        cut_registration.2).1 = register_existing .sample (.sample "again" 2) ∧
      ¬ (¬ SignsIn .sample (perform_cut 6 (handler_of .sample
            (google_calls_back "sub ann@example.com" "google" 3).call
            (google_calls_back "sub ann@example.com" "google" 3).request
            (google_calls_back "sub ann@example.com" "google" 3).draws) (fun _ => 0) .empty).1 →
          (perform_cut 6 (handler_of .sample
            (google_calls_back "sub ann@example.com" "google" 3).call
            (google_calls_back "sub ann@example.com" "google" 3).request
            (google_calls_back "sub ann@example.com" "google" 3).draws) (fun _ => 0) .empty).2.db =
            World.empty.db) := by
  refine ⟨fun h => ?_, by decide, fun h => ?_⟩
  · have hrows := congrArg (fun db => db.users.rows) (h.nothing (by decide))
    revert hrows
    decide
  · have hrows := congrArg (fun db => db.users.rows) (h (by unfold SignsIn; decide))
    revert hrows
    decide

/-- A registration that meets a fault at the commit of the account leaves nothing. -/
theorem early_cut_leaves_nothing :
    WholeSignUp .sample ann_registration (.sample "cut" 1) (fun _ => 0) .empty 2 :=
  ((sign_up_leaves_nothing_iff .sample (.sample "cut" 1) (fun _ => 0) .empty 2 valid_empty).1
    ann_registration).mpr fun _ => Or.inl (by decide)

end shared_todos.faults
