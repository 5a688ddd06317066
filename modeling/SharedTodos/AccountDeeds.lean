-- What one request does with the accounts, the sessions and the reset tokens,
-- in six cases: it lets a user in, it ends a session, it hands out a reset
-- token, it resets a password, or it does none of these.
import SharedTodos.Accounts

open keyed_table transactions
open shared_todos.models shared_todos.http shared_todos.http.handler
open shared_todos.sessions shared_todos.rate_limiter shared_todos.auth shared_todos.oauth
open shared_todos.app

namespace shared_todos.accounts

variable (env : Env)

/-! ## The cases -/

/-- The readings of the clock before the one that dates a session: the limiter
reads it twice. -/
def readings_before : Call → Nat
  | .login _ => 2
  | _ => 0

def opened_at (s : Step) : Time := s.draws.now (readings_before s.call)

/-- The session that the request opens for a user. -/
def opened_session (s : Step) (user_id : UUID) : Session :=
  new_session env user_id (s.draws.token_urlsafe 0) s.draws.session_id (opened_at s)

/-- A request that lets a user in: the user, the answer, and the world that is
left before the session is opened. -/
inductive Entrance (s : Step) (w : World) : UUID → Response → World → Prop where
  | registered (body : RegisterRequest) (call : s.call = .register body)
      (unknown : users_by_email body.email.val w.db = [])
      (inserted : insert_user (new_user env body s.draws) w.db =
        .ok [.insert_user (new_user env body s.draws)]) :
    Entrance s w s.draws.row_id
      (registered env (new_user env body s.draws) (s.draws.token_urlsafe 0) s.draws)
      (w.commit [.insert_user (new_user env body s.draws)])
  | logged_in (body : LoginRequest) (user : User) (hash : String) (call : s.call = .login body)
      (found : users_by_email body.email.val w.db = [user])
      (has_password : user.password_hash = some hash)
      (verified : env.ph_verify hash body.password = .verified) :
    Entrance s w user.id (logged_in env user (s.draws.token_urlsafe 0) s.draws)
      (World.reset_logins env s.request w)
  | google_created (query : CallbackQuery) (who : Identity)
      (call : s.call = .oauth_google_callback query)
      (checked : check_callback env query s.request s.draws = .passed who)
      (unknown : users_by_identity who w.db = [])
      (inserted : insert_user (google_user who s.draws) w.db =
        .ok [.insert_user (google_user who s.draws)]) :
    Entrance s w s.draws.row_id (signed_in env (s.draws.token_urlsafe 0) s.draws)
      (w.commit [.insert_user (google_user who s.draws)])
  | google_linked (query : CallbackQuery) (who : Identity) (user : User)
      (call : s.call = .oauth_google_callback query)
      (checked : check_callback env query s.request s.draws = .passed who)
      (found : users_by_identity who w.db = [user]) (unlinked : user.google_sub = none)
      (linked : update_google_sub user.id who.google_sub w.db =
        .ok [.set_google_sub user.id who.google_sub]) :
    Entrance s w user.id (signed_in env (s.draws.token_urlsafe 0) s.draws)
      (w.commit [.set_google_sub user.id who.google_sub])
  | google_found (query : CallbackQuery) (who : Identity) (user : User)
      (call : s.call = .oauth_google_callback query)
      (checked : check_callback env query s.request s.draws = .passed who)
      (found : users_by_identity who w.db = [user]) (linked : user.google_sub ≠ none) :
    Entrance s w user.id (signed_in env (s.draws.token_urlsafe 0) s.draws) w

/-- The answer is none of a request that lets a user in, ends a session or resets
a password. -/
def Quiet (s : Step) (r : Response) : Prop :=
  match s.call with
  | .register _ => ∀ user message, r.body ≠ .registered (some user) message
  | .login _ => r.status_code ≠ 200
  | .oauth_google_callback _ => r.cookies = []
  | .logout => r.status_code = 204 → s.request.session.getD "" = ""
  | .password_reset_complete _ => r.status_code ≠ 200
  | _ => True

inductive AccountDeed (s : Step) (w : World) : Response → World → Prop where
  | idle {r : Response} {w' : World} (same : SameAccounts w.db w'.db) (quiet : Quiet s r) :
    AccountDeed s w r w'
  | entered {u : UUID} {r : Response} {w₁ : World} (entrance : Entrance env s w u r w₁)
      (opened : insert_session (opened_session env s u) w₁.db =
        .ok [.insert_session (opened_session env s u)]) :
    AccountDeed s w r (w₁.commit [.insert_session (opened_session env s u)])
  /-- The session is not opened; the account that was created or linked stays. -/
  | stopped {u : UUID} {r : Response} {w₁ : World} (entrance : Entrance env s w u r w₁)
      (e : DbError) (failed : insert_session (opened_session env s u) w₁.db = .error e) :
    AccountDeed s w (Exn.db e).response w₁
  | logged_out (token : String) (call : s.call = .logout)
      (cookie : s.request.session = some token) (given : token ≠ "") :
    AccountDeed s w logged_out (World.without_session env w token)
  | reset_requested (body : PasswordResetRequestBody) (user : User)
      (call : s.call = .password_reset_request body)
      (found : users_by_email body.email.val w.db = [user])
      (has_password : user.password_hash ≠ none)
      (inserted : insert_reset_token
        (new_reset_token env user.id (s.draws.token_urlsafe 0) s.draws.row_id (s.draws.now 0)) w.db =
        .ok [.insert_reset_token
          (new_reset_token env user.id (s.draws.token_urlsafe 0) s.draws.row_id (s.draws.now 0))]) :
    AccountDeed s w reset_requested
      (w.commit [.insert_reset_token
        (new_reset_token env user.id (s.draws.token_urlsafe 0) s.draws.row_id (s.draws.now 0))])
  | password_reset (body : PasswordResetCompleteBody) (prt : PasswordResetToken) (user : User)
      (call : s.call = .password_reset_complete body)
      (found : usable_tokens (hash_token env body.token) (s.draws.now 0) w.db = [prt])
      (user_found : w.db.users.find prt.user_id = some user) :
    AccountDeed s w password_updated
      (World.after_reset w user.id
        [.set_password_hash user.id (hash_password env body.new_password s.draws.salt),
          .set_used_at prt.id (s.draws.now 0)])

/-! ## Every request is one of the cases -/

section
variable {s : Step} {w : World}

theorem quiet_error {e : Exn} (h : e.response.status_code ≠ 200)
    (h' : e.response.status_code ≠ 204) : Quiet s e.response := by
  have hbody : ∀ user message, e.response.body ≠ .registered user message := by
    intro user message
    cases e <;> simp [Exn.response, json]
  have hcookies : e.response.cookies = [] := by cases e <;> rfl
  unfold Quiet
  split
  · exact fun user message => hbody (some user) message
  · exact h
  · exact hcookies
  · exact fun h204 => absurd h204 h'
  · exact h
  · trivial

/-- An error that is no answer of a handler is a 500. -/
theorem idle_of_db_error (e : DbError) : AccountDeed env s w (Exn.db e).response w :=
  .idle (.refl _) (quiet_error (by simp [Exn.response, json]) (by simp [Exn.response, json]))

theorem one_or_none_ok {ρ : Type} {rows : List ρ} {o : Option ρ} (h : one_or_none rows = .ok o) :
    rows = o.toList := by
  rcases rows with _ | ⟨a, _ | ⟨b, rest⟩⟩ <;> cases h <;> rfl

theorem one_or_none_error {ρ : Type} {rows : List ρ} {e : Exn} (h : one_or_none rows = .error e) :
    e = .multiple_results_found := by
  rcases rows with _ | ⟨a, _ | ⟨b, rest⟩⟩ <;> cases h
  rfl

/-- A lookup of at most one row, and then the rest. -/
theorem account_deed_of_lookup {ρ : Type} {rows : List ρ} {k : Option ρ → Response × World}
    (h : ∀ o : Option ρ, rows = o.toList → AccountDeed env s w (k o).1 (k o).2) :
    AccountDeed env s w (proceed (one_or_none rows) w k).1 (proceed (one_or_none rows) w k).2 := by
  cases hr : one_or_none rows with
  | ok o => exact h o (one_or_none_ok hr)
  | error e =>
    rw [one_or_none_error hr]
    refine .idle (.refl _) (quiet_error ?_ ?_)
    · simp [Exn.response, json]
    · simp [Exn.response, json]

theorem account_deed_of_entrance {u : UUID} {r : Response} {w₁ : World}
    (h : Entrance env s w u r w₁) :
    AccountDeed env s w (attempt (insert_session (opened_session env s u)) w₁ fun w' => (r, w')).1
      (attempt (insert_session (opened_session env s u)) w₁ fun w' => (r, w')).2 := by
  cases hs : insert_session (opened_session env s u) w₁.db with
  | error e =>
    rw [attempt_error hs]
    exact .stopped h e hs
  | ok cs =>
    obtain ⟨rfl, -⟩ := insert_session_ok hs
    rw [attempt_ok hs]
    exact .entered h hs

theorem account_deed_register (body : RegisterRequest) (call : s.call = .register body) :
    AccountDeed env s w (perform (register env body s.draws) s.draws.now w).1
      (perform (register env body s.draws) s.draws.now w).2 := by
  rw [register_effect]
  apply account_deed_of_lookup
  intro existing hrows
  cases existing with
  | some u =>
    refine .idle (.refl _) ?_
    unfold Quiet
    rw [call]
    intro user message
    simp [register_existing]
  | none =>
    dsimp only
    rw [register_new_effect]
    cases hi : insert_user (new_user env body s.draws) w.db with
    | error e =>
      rw [attempt_error hi]
      exact idle_of_db_error env e
    | ok cs =>
      obtain ⟨rfl, -⟩ := insert_user_ok hi
      rw [attempt_ok hi]
      have h := account_deed_of_entrance env (.registered body call hrows hi)
      rwa [opened_session, opened_at, call] at h

theorem account_deed_login_rejected (body : LoginRequest) (call : s.call = .login body)
    (c : Nat → Time) :
    AccountDeed env s w (perform (login_rejected env s.request) c w).1
      (perform (login_rejected env s.request) c w).2 := by
  rw [login_rejected_effect]
  refine .idle ⟨rfl, rfl, rfl⟩ ?_
  unfold Quiet
  rw [call]
  simp

theorem account_deed_login (body : LoginRequest) (call : s.call = .login body) :
    AccountDeed env s w (perform (login env body s.request s.draws) s.draws.now w).1
      (perform (login env body s.request s.draws) s.draws.now w).2 := by
  have hlibrary : AccountDeed env s w Exn.library.response w :=
    .idle (.refl _) (quiet_error (by simp [Exn.response, json]) (by simp [Exn.response, json]))
  rw [login_effect]
  split
  · exact .idle (.refl _) (quiet_error (by simp [too_many_attempts, Exn.response])
      (by simp [too_many_attempts, Exn.response]))
  apply account_deed_of_lookup
  intro user hrows
  rw [login_found_effect]
  split
  · rename_i user hash hhash
    split
    · rename_i hv
      rw [login_accepted_effect]
      have h := account_deed_of_entrance env (.logged_in body user hash call hrows hhash hv)
      rwa [opened_session, opened_at, call] at h
    · exact account_deed_login_rejected env body call _
    · exact hlibrary
  · split
    · exact hlibrary
    · exact account_deed_login_rejected env body call _

theorem account_deed_logout (call : s.call = .logout) :
    AccountDeed env s w (perform (logout env s.request) s.draws.now w).1
      (perform (logout env s.request) s.draws.now w).2 := by
  have hidle : s.request.session.getD "" = "" → AccountDeed env s w auth.logged_out w := by
    intro h
    refine .idle (.refl _) ?_
    unfold Quiet
    rw [call]
    exact fun _ => h
  rw [logout_effect]
  cases hc : s.request.session with
  | none => exact hidle (by rw [hc]; rfl)
  | some token =>
    dsimp only
    split
    · rename_i ht
      exact hidle (by rw [hc, ht]; rfl)
    · rename_i ht
      exact .logged_out token call hc ht

theorem account_deed_password_reset_request (body : PasswordResetRequestBody)
    (call : s.call = .password_reset_request body) :
    AccountDeed env s w (perform (password_reset_request env body s.draws) s.draws.now w).1
      (perform (password_reset_request env body s.draws) s.draws.now w).2 := by
  have hquiet : ∀ r, Quiet s r := by
    intro r
    unfold Quiet
    rw [call]
    trivial
  rw [password_reset_request_effect]
  apply account_deed_of_lookup
  intro user hrows
  split
  · rename_i user hash hhash
    cases hi : insert_reset_token
        (new_reset_token env user.id (s.draws.token_urlsafe 0) s.draws.row_id (s.draws.now 0))
        w.db with
    | error e =>
      rw [attempt_error hi]
      exact .idle (.refl _) (hquiet _)
    | ok cs =>
      obtain ⟨rfl, -⟩ := insert_reset_token_ok hi
      rw [attempt_ok hi]
      have hsome : user.password_hash = some hash := hhash
      exact .reset_requested body user call hrows (by simp [hsome]) hi
  · exact .idle (.refl _) (hquiet _)

theorem account_deed_password_reset_complete (body : PasswordResetCompleteBody)
    (call : s.call = .password_reset_complete body) :
    AccountDeed env s w (perform (password_reset_complete env body s.draws) s.draws.now w).1
      (perform (password_reset_complete env body s.draws) s.draws.now w).2 := by
  rw [password_reset_complete_effect]
  apply account_deed_of_lookup
  intro prt hrows
  cases prt with
  | none =>
    refine .idle (.refl _) ?_
    unfold Quiet
    rw [call]
    simp
  | some prt =>
    dsimp only
    rw [password_reset_found_effect]
    cases hu : w.db.users.find prt.user_id with
    | none =>
      exact .idle (.refl _)
        (quiet_error (by simp [Exn.response, json]) (by simp [Exn.response, json]))
    | some user =>
      dsimp only
      rw [password_reset_write_effect]
      cases hst : reset_statement prt user (s.draws.now 0)
          (hash_password env body.new_password s.draws.salt) w.db with
      | error e => exact idle_of_db_error env e
      | ok cs =>
        obtain ⟨rfl, -⟩ := reset_statement_ok hst
        exact .password_reset body prt user call hrows hu

theorem account_deed_oauth_google_callback (query : CallbackQuery)
    (call : s.call = .oauth_google_callback query) :
    AccountDeed env s w
      (perform (oauth_google_callback env query s.request s.draws) s.draws.now w).1
      (perform (oauth_google_callback env query s.request s.draws) s.draws.now w).2 := by
  have hidle : ∀ r : Response, r.cookies = [] → AccountDeed env s w r w := by
    intro r hr
    refine .idle (.refl _) ?_
    unfold Quiet
    rw [call]
    exact hr
  have hopen : ∀ {u : UUID} {w₁ : World},
      Entrance env s w u (signed_in env (s.draws.token_urlsafe 0) s.draws) w₁ →
      AccountDeed env s w (perform (open_session env u s.draws) s.draws.now w₁).1
        (perform (open_session env u s.draws) s.draws.now w₁).2 := by
    intro u w₁ h
    rw [open_session_effect]
    have hd := account_deed_of_entrance env h
    rwa [opened_session, opened_at, call] at hd
  rw [oauth_google_callback_effect]
  cases hc : check_callback env query s.request s.draws with
  | raised e => exact hidle _ (by cases e <;> rfl)
  | answered r =>
    refine hidle r ?_
    rcases check_callback_answered hc with rfl | rfl <;> rfl
  | passed who =>
    dsimp only
    rw [sign_in_effect]
    apply account_deed_of_lookup
    intro user hrows
    cases user with
    | none =>
      dsimp only
      rw [create_google_user_effect]
      cases hi : insert_user (google_user who s.draws) w.db with
      | error e =>
        rw [attempt_error hi]
        exact idle_of_db_error env e
      | ok cs =>
        obtain ⟨rfl, -⟩ := insert_user_ok hi
        rw [attempt_ok hi]
        exact hopen (.google_created query who call hc hrows hi)
    | some user =>
      dsimp only
      split
      · rename_i hn
        rw [link_google_user_effect]
        cases hl : update_google_sub user.id who.google_sub w.db with
        | error e =>
          rw [attempt_error hl]
          exact idle_of_db_error env e
        | ok cs =>
          obtain ⟨rfl, -⟩ := update_google_sub_ok hl
          rw [attempt_ok hl]
          exact hopen (.google_linked query who user call hc hrows hn hl)
      · rename_i hn
        exact hopen (.google_found query who user call hc hrows hn)

end

theorem quiet_refused {s : Step} {r : Response} (h : Refused r) : Quiet s r := by
  rcases h with rfl | ⟨text, rfl⟩
  · exact quiet_error (by simp [Exn.response, json]) (by simp [Exn.response, json])
  · exact quiet_error (e := .http_exception 403 text []) (by simp [Exn.response])
      (by simp [Exn.response])

/-- What every request does with the accounts. -/
theorem account_deed_of_step (s : Step) (w : World) :
    AccountDeed env s w (s.handle env w).1 (s.handle env w).2 := by
  cases hlist : s.call.on_lists with
  | true =>
    refine .idle (same_accounts_of_list_call env hlist w) ?_
    unfold Quiet
    split <;> first | trivial | (rename_i hc; rw [hc] at hlist; cases hlist)
  | false =>
    rcases handle_cases env s w with ⟨r, h, hr⟩ | h
    · rw [h]
      exact .idle (.refl _) (quiet_refused hr)
    rw [h]
    have hquiet : (∀ r, Quiet s r) → ∀ {r : Response} {w' : World}, w' = w →
        AccountDeed env s w r w' := by
      rintro hq r w' rfl
      exact .idle (.refl _) (hq r)
    cases hc : s.call with
    | register body => exact account_deed_register env body hc
    | login body => exact account_deed_login env body hc
    | logout => exact account_deed_logout env hc
    | password_reset_request body => exact account_deed_password_reset_request env body hc
    | password_reset_complete body => exact account_deed_password_reset_complete env body hc
    | oauth_google_callback query => exact account_deed_oauth_google_callback env query hc
    | session_info =>
      apply hquiet (fun r => by unfold Quiet; rw [hc]; trivial)
      unfold handler_of
      rw [get_session_info_effect]
      cases session_user env s.request.session (s.draws.now 0) w.db <;> rfl
    | password_reset_validate token =>
      apply hquiet (fun r => by unfold Quiet; rw [hc]; trivial)
      unfold handler_of
      rw [password_reset_validate_effect]
      cases one_or_none (usable_tokens (hash_token env token) (s.draws.now 0) w.db) with
      | error e => rfl
      | ok prt => cases prt <;> rfl
    | oauth_google_initiate =>
      exact hquiet (fun r => by unfold Quiet; rw [hc]; trivial) rfl
    | _ => rw [hc] at hlist; cases hlist

/-! ## What the draws and the constraints give -/

/-- The session that the request may open meets no session that is there. -/
def FreshSession (s : Step) (db : DB) : Prop :=
  db.sessions.find s.draws.session_id = none ∧
    ∀ r ∈ db.sessions.rows, r.token_hash ≠ hash_token env (s.draws.token_urlsafe 0)

section
variable {env : Env}

theorem insert_fresh_session {s : Step} {db : DB} (hfresh : FreshSession env s db) {user_id : UUID}
    (hu : db.users.find user_id ≠ none) (now : Time) :
    insert_session (new_session env user_id (s.draws.token_urlsafe 0) s.draws.session_id now) db =
      .ok [.insert_session
        (new_session env user_id (s.draws.token_urlsafe 0) s.draws.session_id now)] := by
  unfold insert_session
  rw [if_neg, if_neg (show ¬ db.users.find (new_session env user_id (s.draws.token_urlsafe 0)
    s.draws.session_id now).user_id = none from hu)]
  rintro (h | ⟨r, hr, hh⟩)
  · exact h hfresh.1
  · exact hfresh.2 r hr hh

/-- The lookup by the email of a stored account finds it. -/
theorem users_by_email_eq {db : DB} (hv : Valid db) {a : User} (ha : a ∈ db.users.rows) :
    users_by_email a.email db = [a] := by
  apply Table.select_eq_singleton ha (by simp)
  intro x hx hp
  exact hv.unique_email x hx a ha (by simpa using hp)

end

end shared_todos.accounts
