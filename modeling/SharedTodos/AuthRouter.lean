-- The handlers of `auth/router.py`, with the passwords of `auth/password.py`
-- and the bodies of `auth/schemas.py`.
import SharedTodos.Sessions
import SharedTodos.RateLimiter

open keyed_table transactions
open shared_todos.models shared_todos.http shared_todos.http.handler
open shared_todos.sessions shared_todos.rate_limiter

namespace shared_todos.auth

/-! ## The bodies -/

/-- `email.split("@")[0]`. -/
def local_part (email : String) : String := String.ofList (email.toList.takeWhile fun c => c != '@')

/-- An address that `EmailStr` admits, as it stores it. -/
structure EmailStr where
  val : String
  length_le : val.length ≤ 254
  /-- email-validator has 64 characters before the sign. -/
  local_part_length_le : (local_part val).length ≤ 64
  storable : text_storable val

structure RegisterRequest where
  email : EmailStr
  password : String
  password_min_length : 12 ≤ password.length

structure LoginRequest where
  email : EmailStr
  password : String

structure PasswordResetRequestBody where
  email : EmailStr

structure PasswordResetCompleteBody where
  token : String
  new_password : String
  new_password_min_length : 12 ≤ new_password.length

variable (env : Env)

/-! ## The passwords -/

def make_dummy_hash : String := env.dummy_hash

/-- `salt` is what argon2 draws. -/
def hash_password (plaintext salt : String) : String := env.ph_hash plaintext salt

def verify_password (plaintext hashed : String) : Handler Bool :=
  match env.ph_verify hashed plaintext with
  | .verified => .ret true
  | .mismatch => .ret false
  | .error => .raise .library

/-! ## The handlers -/

def user_out (user : User) : UserOut := ⟨user.id, user.email, user.display_name⟩

/-- `select(User).where(User.email == email)`. -/
def users_by_email (email : String) (db : DB) : List User :=
  db.users.select fun u => decide (u.email = email)

/-- The row that `register` adds. -/
def new_user (body : RegisterRequest) (d : Draws) : User :=
  { id := d.row_id, email := body.email.val, display_name := local_part body.email.val,
    password_hash := some (hash_password env body.password d.salt), google_sub := none }

/-- The reply to a taken address: the status and the cookies of the other reply,
with a session cookie that names no session. -/
def register_existing (d : Draws) : Response :=
  { status_code := 201
    body := .registered none "If this email is available, your account has been created."
    headers := []
    cookies := set_auth_cookies env (d.token_urlsafe 0) (d.token_urlsafe 1) }

def registered (user : User) (token : String) (d : Draws) : Response :=
  { status_code := 201
    body := .registered (some (user_out user)) "Account created successfully."
    headers := []
    cookies := set_auth_cookies env token (d.token_urlsafe 1) }

/-- `register` after a lookup that found no account. -/
def register_new (body : RegisterRequest) (d : Draws) : Handler Response := do
  flush (insert_user (new_user env body d))
  commit
  let user ← refresh fun db => db.users.find d.row_id
  let token ← create_session env user.id (d.token_urlsafe 0) d.session_id
  return registered env user token d

def register (body : RegisterRequest) (d : Draws) : Handler Response := do
  let existing ← scalar_one_or_none (← execute (users_by_email body.email.val))
  match existing with
  | some _ => return register_existing env d
  | none => register_new env body d

def GENERIC_AUTH_ERROR : String := "Invalid credentials"

def logged_in (user : User) (token : String) (d : Draws) : Response :=
  { status_code := 200
    body := .user (user_out user)
    headers := []
    cookies := set_auth_cookies env token (d.token_urlsafe 1) }

/-- `login` after the password was accepted. -/
def login_accepted (user : User) (request : Request) (d : Draws) : Handler Response := do
  reset_failed_logins env request
  let token ← create_session env user.id (d.token_urlsafe 0) d.session_id
  return logged_in env user token d

def login_rejected (request : Request) : Handler Response := do
  record_failed_login env request
  http_error 401 GENERIC_AUTH_ERROR

/-- `login` after the lookup of the account. An account without a password is
verified against the dummy hash, as a missing account is. -/
def login_found (body : LoginRequest) (request : Request) (d : Draws) (user : Option User) :
    Handler Response := do
  match user, user.bind User.password_hash with
  | some user, some password_hash =>
    if ← verify_password env body.password password_hash then login_accepted env user request d
    else login_rejected env request
  | _, _ =>
    let _ ← verify_password env body.password (make_dummy_hash env)
    login_rejected env request

def login (body : LoginRequest) (request : Request) (d : Draws) : Handler Response := do
  check_login_rate_limit env request
  let user ← scalar_one_or_none (← execute (users_by_email body.email.val))
  login_found env body request d user

def logged_out : Response :=
  { status_code := 204, body := .empty, headers := [],
    cookies := [delete_cookie SESSION_COOKIE_NAME] }

def logout (request : Request) : Handler Response := do
  match request.session with
  | none => return logged_out
  | some token =>
    if token = "" then return logged_out
    else
      invalidate_session env token
      return logged_out

def get_session_info (request : Request) : Handler Response := do
  let user ← require_auth env request.session
  return json 200 (.user (user_out user))

def RESET_TTL_HOURS : Nat := 1

/-- The row that `password_reset_request` adds. -/
def new_reset_token (user_id : UUID) (token : String) (id : UUID) (now : Time) :
    PasswordResetToken :=
  { id, user_id, token_hash := hash_token env token, expires_at := now + hours RESET_TTL_HOURS,
    used_at := none }

def reset_requested : Response :=
  json 200 (.message "If an account exists for this email, a reset link has been sent.")

/-- `send_password_reset_email`, in the `try` of its caller. -/
def send_password_reset_email (d : Draws) : Except Exn Unit :=
  match d.mail_error with
  | none => .ok ()
  | some e => .error e

def password_reset_request (body : PasswordResetRequestBody) (d : Draws) : Handler Response := do
  let user ← scalar_one_or_none (← execute (users_by_email body.email.val))
  match user with
  | none => return reset_requested
  | some user =>
    match user.password_hash with
    | none => return reset_requested
    | some _ =>
      let now ← utc_now
      flush (insert_reset_token (new_reset_token env user.id (d.token_urlsafe 0) d.row_id now))
      commit
      match send_password_reset_email d with
      | .ok () => return reset_requested
      -- A mail that fails is logged; the reply stays the same.
      | .error _ => return reset_requested

/-- The rows of a token that has not expired and was not used. -/
def usable_tokens (token_hash : String) (now : Time) (db : DB) : List PasswordResetToken :=
  db.password_reset_tokens.select fun t =>
    decide (t.token_hash = token_hash ∧ now < t.expires_at ∧ t.used_at = none)

def password_reset_validate (token : String) : Handler Response := do
  let now ← utc_now
  let prt ← scalar_one_or_none (← execute (usable_tokens (hash_token env token) now))
  match prt with
  | none => http_error 400 "invalid"
  | some _ => return json 200 .valid

def password_updated : Response :=
  json 200 (.message "Password updated. All sessions have been invalidated.")

/-- The flush of the two rows that `password_reset_complete` changed. -/
def reset_statement (prt : PasswordResetToken) (user : User) (now : Time) (hash : String) :
    Statement :=
  (update_password_hash user.id hash).also (update_used_at prt.id now)

/-- The one transaction of a reset. The deletion of the sessions flushes the two
changed rows before it. -/
def password_reset_write (body : PasswordResetCompleteBody) (d : Draws) (now : Time)
    (prt : PasswordResetToken) (user : User) : Handler Response := do
  flush (reset_statement prt user now (hash_password env body.new_password d.salt))
  invalidate_all_user_sessions user.id
  commit
  return password_updated

/-- `password_reset_complete` after the lookup of the token. -/
def password_reset_found (body : PasswordResetCompleteBody) (d : Draws) (now : Time)
    (prt : PasswordResetToken) : Handler Response := do
  let user ← scalar_one (← execute fun db => (db.users.find prt.user_id).toList)
  password_reset_write env body d now prt user

def password_reset_complete (body : PasswordResetCompleteBody) (d : Draws) : Handler Response := do
  let now ← utc_now
  let prt ← scalar_one_or_none (← execute (usable_tokens (hash_token env body.token) now))
  match prt with
  | none => http_error 400 "invalid_or_used"
  | some prt => password_reset_found env body d now prt

/-- The statement of a reset changes the password and marks the token. -/
theorem reset_statement_ok {prt : PasswordResetToken} {user : User} {now : Time} {hash : String}
    {db : DB} {cs : List Change} (h : reset_statement prt user now hash db = .ok cs) :
    cs = [.set_password_hash user.id hash, .set_used_at prt.id now] ∧
      db.users.find user.id ≠ none ∧ db.password_reset_tokens.find prt.id ≠ none := by
  unfold reset_statement Statement.also at h
  cases ha : update_password_hash user.id hash db with
  | error e => rw [ha] at h; cases h
  | ok as =>
    obtain ⟨rfl, hu⟩ := update_password_hash_ok ha
    rw [ha] at h
    simp only [bind, Except.bind, pure, Except.pure] at h
    split at h
    · cases h
    · rename_i bs hb
      obtain ⟨rfl, hp⟩ := update_used_at_ok hb
      cases h
      exact ⟨rfl, hu, hp⟩

/-! ## Their effects alone -/

section
variable (request : Request) (d : Draws) (c : Nat → Time) (w : World)

/-- A new account with its first session. -/
theorem register_new_effect (body : RegisterRequest) :
    perform (register_new env body d) c w =
      attempt (insert_user (new_user env body d)) w fun w' =>
        attempt (insert_session
            (new_session env d.row_id (d.token_urlsafe 0) d.session_id (c 0))) w' fun w'' =>
          (registered env (new_user env body d) (d.token_urlsafe 0) d, w'') := by
  unfold register_new
  rw [perform_flush_commit]
  apply attempt_congr
  intro cs h
  obtain ⟨rfl, -, hfree, -⟩ := insert_user_ok h
  have hf : (w.commit [.insert_user (new_user env body d)]).db.users.find d.row_id =
      some (new_user env body d) :=
    Table.find_insert_self hfree
  rw [perform_refresh, hf, read_back, proceed_ok, perform_create_session]
  rfl

theorem register_effect (body : RegisterRequest) :
    perform (register env body d) c w =
      proceed (one_or_none (users_by_email body.email.val w.db)) w fun existing =>
        match existing with
        | some _ => (register_existing env d, w)
        | none => perform (register_new env body d) c w := by
  unfold register
  rw [perform_execute, perform_scalar_one_or_none]
  congr 1
  funext existing
  cases existing <;> rfl

/-- The memory after a failed login. -/
def World.failed_login (now : Time) : World :=
  { w with
    store := Function.update w.store (client_ip env request)
      (recent env now (w.store (client_ip env request)) ++ [now]) }

/-- The memory after a successful login. -/
def World.reset_logins : World :=
  { w with store := Function.update w.store (client_ip env request) [] }

theorem login_rejected_effect :
    perform (login_rejected env request) c w =
      (⟨401, .detail GENERIC_AUTH_ERROR, [], []⟩, World.failed_login env request w (c 0)) := rfl

theorem login_accepted_effect (user : User) :
    perform (login_accepted env user request d) c w =
      attempt (insert_session
          (new_session env user.id (d.token_urlsafe 0) d.session_id (c 1)))
          (World.reset_logins env request w) fun w' =>
        (logged_in env user (d.token_urlsafe 0) d, w') := by
  unfold login_accepted
  rw [perform_part c w (World.reset_logins env request w)
    (reset_failed_logins_run env request ⟨c, w.db, [], w.store⟩), proceed_ok,
    perform_create_session]
  rfl

theorem login_found_effect (body : LoginRequest) (user : Option User) :
    perform (login_found env body request d user) c w =
      match user, user.bind User.password_hash with
      | some user, some password_hash =>
        match env.ph_verify password_hash body.password with
        | .verified => perform (login_accepted env user request d) c w
        | .mismatch => perform (login_rejected env request) c w
        | .error => (Exn.library.response, w)
      | _, _ =>
        match env.ph_verify env.dummy_hash body.password with
        | .error => (Exn.library.response, w)
        | _ => perform (login_rejected env request) c w := by
  unfold login_found
  split
  · unfold verify_password
    rename_i user hash _
    cases env.ph_verify hash body.password <;> rfl
  · unfold verify_password make_dummy_hash
    cases env.ph_verify env.dummy_hash body.password <;> rfl

theorem login_effect (body : LoginRequest) :
    perform (login env body request d) c w =
      if Locked env request (c 0) w.store then ((too_many_attempts env).response, w)
      else
        proceed (one_or_none (users_by_email body.email.val w.db)) w fun user =>
          perform (login_found env body request d user) (fun n => c (n + 1)) w := by
  unfold login
  have h := check_login_rate_limit_run env request ⟨c, w.db, [], w.store⟩
  by_cases hl : Locked env request (c 0) w.store
  · rw [if_pos hl] at h
    rw [perform_part c w w h, if_pos hl, proceed_error]
  · rw [if_neg hl] at h
    rw [perform_part c w w h, if_neg hl, proceed_ok, perform_execute,
      perform_scalar_one_or_none]

/-- The database without the sessions of a token. -/
def World.without_session (token : String) : World :=
  { w with
    db := { w.db with
      sessions := w.db.sessions.deleteWhere fun s =>
        decide (s.token_hash = hash_token env token) } }

theorem logout_effect :
    perform (logout env request) c w =
      match request.session with
      | none => (logged_out, w)
      | some token =>
        if token = "" then (logged_out, w)
        else (logged_out, World.without_session env w token) := by
  unfold logout
  cases request.session with
  | none => rfl
  | some token =>
    dsimp only
    split
    · rfl
    · unfold perform invalidate_session
      simp only [Prog.run_then, run_flush, Prog.Solo.view, Prog.applyAll_nil]
      have h : delete_sessions (fun s => decide (s.token_hash = hash_token env token)) w.db =
        .ok _ := rfl
      rw [h]
      simp only [run_commit, Prog.Solo.view, List.nil_append, Prog.run_pure, respond]
      rw [delete_sessions_ok h]
      rfl

theorem get_session_info_effect :
    perform (get_session_info env request) c w =
      proceed (session_user env request.session (c 0) w.db) w fun user =>
        (json 200 (.user (user_out user)), w) := by
  unfold get_session_info
  rw [perform_require_auth]
  rfl

theorem password_reset_request_effect (body : PasswordResetRequestBody) :
    perform (password_reset_request env body d) c w =
      proceed (one_or_none (users_by_email body.email.val w.db)) w fun user =>
        match user, user.bind User.password_hash with
        | some user, some _ =>
          attempt (insert_reset_token
              (new_reset_token env user.id (d.token_urlsafe 0) d.row_id (c 0))) w fun w' =>
            (reset_requested, w')
        | _, _ => (reset_requested, w) := by
  unfold password_reset_request
  rw [perform_execute, perform_scalar_one_or_none]
  congr 1
  funext user
  cases user with
  | none => rfl
  | some user =>
    dsimp only [Option.bind_some]
    cases user.password_hash with
    | none => rfl
    | some hash =>
      dsimp only
      rw [perform_utc_now, perform_flush_commit]
      congr 1
      funext w'
      cases send_password_reset_email d <;> rfl

theorem password_reset_validate_effect (token : String) :
    perform (password_reset_validate env token) c w =
      proceed (one_or_none (usable_tokens (hash_token env token) (c 0) w.db)) w fun prt =>
        match prt with
        | none => (⟨400, .detail "invalid", [], []⟩, w)
        | some _ => (json 200 .valid, w) := by
  unfold password_reset_validate
  rw [perform_utc_now, perform_execute, perform_scalar_one_or_none]
  congr 1
  funext prt
  cases prt <;> rfl

/-- The database after the transaction of a reset. -/
def World.after_reset (user_id : UUID) (cs : List Change) : World :=
  { w with
    db := { (w.commit cs).db with
      sessions := (w.commit cs).db.sessions.deleteWhere fun s => decide (s.user_id = user_id) } }

theorem password_reset_write_effect (body : PasswordResetCompleteBody) (now : Time)
    (prt : PasswordResetToken) (user : User) :
    perform (password_reset_write env body d now prt user) c w =
      match reset_statement prt user now (hash_password env body.new_password d.salt) w.db with
      | .error e => ((Exn.db e).response, w)
      | .ok cs => (password_updated, World.after_reset w user.id cs) := by
  unfold password_reset_write perform invalidate_all_user_sessions
  simp only [Prog.run_then, run_flush, Prog.Solo.view, Prog.applyAll_nil]
  cases reset_statement prt user now (hash_password env body.new_password d.salt) w.db with
  | error e => rfl
  | ok cs =>
    simp only [List.nil_append]
    have h : delete_sessions (fun s => decide (s.user_id = user.id)) (Prog.applyAll cs w.db) =
      .ok _ := rfl
    rw [h]
    simp only [run_commit, Prog.Solo.view, Prog.run_pure, respond]
    rw [Prog.applyAll_append, delete_sessions_ok h]
    rfl

theorem password_reset_found_effect (body : PasswordResetCompleteBody) (now : Time)
    (prt : PasswordResetToken) :
    perform (password_reset_found env body d now prt) c w =
      match w.db.users.find prt.user_id with
      | none => (Exn.no_result_found.response, w)
      | some user => perform (password_reset_write env body d now prt user) c w := by
  unfold password_reset_found
  rw [perform_execute]
  cases w.db.users.find prt.user_id <;> rfl

theorem password_reset_complete_effect (body : PasswordResetCompleteBody) :
    perform (password_reset_complete env body d) c w =
      proceed (one_or_none (usable_tokens (hash_token env body.token) (c 0) w.db)) w fun prt =>
        match prt with
        | none => (⟨400, .detail "invalid_or_used", [], []⟩, w)
        | some prt =>
          perform (password_reset_found env body d (c 0) prt) (fun n => c (n + 1)) w := by
  unfold password_reset_complete
  rw [perform_utc_now, perform_execute, perform_scalar_one_or_none]
  congr 1
  funext prt
  cases prt <;> rfl

end

end shared_todos.auth
