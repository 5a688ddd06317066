-- Sessions: the tokens (`auth/tokens.py`), the session rows
-- (`auth/session.py`), the two cookies (`auth/cookies.py`) and the dependency
-- that a handler names for its user (`auth/dependencies.py`).
import SharedTodos.Http

open keyed_table transactions
open shared_todos.models shared_todos.http shared_todos.http.handler

namespace shared_todos.sessions

variable (env : Env)

/-! ## The source functions -/

def hash_token (token : String) : String := env.sha256_hexdigest token

def SESSION_COOKIE_NAME : String := "session"

def CSRF_COOKIE_NAME : String := "csrf_token"

/-- The cookies of a login: the session, and the token for the double submit. -/
def set_auth_cookies (session_token csrf_token : String) : List SetCookie :=
  let max_age := env.settings.session_ttl_days * 86400
  [{ key := SESSION_COOKIE_NAME, value := session_token, httponly := true, samesite := "lax",
     max_age, secure := env.settings.cookie_secure },
   { key := CSRF_COOKIE_NAME, value := csrf_token, httponly := false, samesite := "lax",
     max_age, secure := env.settings.cookie_secure }]

/-- `response.delete_cookie(key)`. -/
def delete_cookie (key : String) : SetCookie :=
  { key, value := "", httponly := false, samesite := "lax", max_age := 0, secure := false }

/-- The row that `create_session` adds. -/
def new_session (user_id : UUID) (raw_token : String) (id : UUID) (now : Time) : Session :=
  { id, user_id, token_hash := hash_token env raw_token,
    expires_at := now + days env.settings.session_ttl_days }

/-- `raw_token` and `id` are what the call draws. -/
def create_session (user_id : UUID) (raw_token : String) (id : UUID) : Handler String := do
  let now ← utc_now
  flush (insert_session (new_session env user_id raw_token id now))
  commit
  return raw_token

/-- The join of the users with the sessions that carry the token and have not
expired. -/
def session_users (token : String) (now : Time) (db : DB) : List User :=
  db.users.rows.flatMap fun u =>
    (db.sessions.select fun s =>
      decide (s.user_id = u.id ∧ s.token_hash = hash_token env token ∧ now < s.expires_at)).map
      fun _ => u

theorem mem_session_users {token : String} {now : Time} {db : DB} {u : User} :
    u ∈ session_users env token now db ↔
      u ∈ db.users.rows ∧ ∃ s ∈ db.sessions.rows, s.user_id = u.id ∧
        s.token_hash = hash_token env token ∧ now < s.expires_at := by
  unfold session_users
  simp only [List.mem_flatMap, List.mem_map, Table.mem_select, decide_eq_true_eq]
  constructor
  · rintro ⟨u, hu, s, ⟨hs, hrow⟩, rfl⟩
    exact ⟨hu, s, hs, hrow⟩
  · rintro ⟨hu, s, hs, hrow⟩
    exact ⟨u, hu, s, ⟨hs, hrow⟩, rfl⟩

def get_session_user (token : String) : Handler (Option User) := do
  let now ← utc_now
  scalar_one_or_none (← execute (session_users env token now))

def invalidate_session (token : String) : Handler Unit := do
  flush (delete_sessions fun s => decide (s.token_hash = hash_token env token))
  commit

/-- With `commit=False`. -/
def invalidate_all_user_sessions (user_id : UUID) : Handler Unit :=
  flush (delete_sessions fun s => decide (s.user_id = user_id))

def require_auth (session : Option String) : Handler User := do
  match session with
  | none => http_error 401 "Not authenticated"
  | some token =>
    match ← get_session_user env token with
    | none => http_error 401 "Not authenticated"
    | some user => return user

/-! ## Their runs alone -/

theorem perform_create_session (user_id : UUID) (raw_token : String) (id : UUID)
    (k : String → Handler Response) (c : Nat → Time) (w : World) :
    perform (create_session env user_id raw_token id >>= k) c w =
      attempt (insert_session (new_session env user_id raw_token id (c 0))) w fun w' =>
        perform (k raw_token) (fun n => c (n + 1)) w' := by
  unfold perform create_session attempt
  simp only [Prog.run_then, run_utc_now, run_flush, Prog.Solo.view, Prog.applyAll_nil]
  cases insert_session (new_session env user_id raw_token id (c 0)) w.db <;> rfl

def not_authenticated : Exn := .http_exception 401 "Not authenticated" []

/-- What `require_auth` decides, as a function of the database. -/
def session_user (session : Option String) (now : Time) (db : DB) : Except Exn User :=
  match session with
  | none => .error not_authenticated
  | some token =>
    match session_users env token now db with
    | [] => .error not_authenticated
    | [u] => .ok u
    | _ => .error .multiple_results_found

/-- The readings of the clock that `require_auth` leaves. -/
def clock_after (session : Option String) (c : Nat → Time) : Nat → Time :=
  match session with
  | none => c
  | some _ => fun n => c (n + 1)

theorem require_auth_run (session : Option String) (c : Nat → Time) (db : DB) (m : RateStore) :
    (require_auth env session).run ⟨c, db, [], m⟩ =
      (session_user env session (c 0) db, ⟨clock_after session c, db, [], m⟩) := by
  cases session with
  | none => rfl
  | some token =>
    unfold require_auth get_session_user session_user
    simp only [Prog.run_then, run_utc_now, run_execute, run_scalar_one_or_none, Prog.Solo.view,
      Prog.applyAll_nil]
    rcases session_users env token (c 0) db with _ | ⟨a, _ | ⟨b, rest⟩⟩ <;> rfl

theorem perform_require_auth (session : Option String) (k : User → Handler Response)
    (c : Nat → Time) (w : World) :
    perform (require_auth env session >>= k) c w =
      proceed (session_user env session (c 0) w.db) w fun u =>
        perform (k u) (clock_after session c) w :=
  perform_part c w w (require_auth_run env session c w.db w.store)

end shared_todos.sessions
