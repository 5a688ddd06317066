-- The sign-in with Google (`auth/oauth.py`): the state that is bound to the
-- browser by a cookie, the checks of the callback, and the account that it
-- finds, links or creates.
import SharedTodos.AuthRouter

open keyed_table transactions
open shared_todos.models shared_todos.http shared_todos.http.handler
open shared_todos.sessions shared_todos.auth

namespace shared_todos.oauth

variable (env : Env)

/-! ## The start of the flow -/

def GOOGLE_AUTH_URL : String := "https://accounts.google.com/o/oauth2/v2/auth"

def NONCE_COOKIE : String := "oauth_state_nonce"

def NONCE_TTL : Nat := 600

def make_state (nonce : String) : String := env.dumps nonce

/-- The nonce of a state with a valid signature, or nothing. -/
def extract_nonce (state : String) : Except Exn (Option String) :=
  match env.loads state with
  | .payload nonce => .ok (some nonce)
  | .bad_signature => .ok none
  | .error => .error .library

def build_auth_url (state : String) : String :=
  GOOGLE_AUTH_URL ++ "?" ++ env.urlencode
    [("client_id", env.settings.google_client_id),
     ("redirect_uri", env.settings.google_redirect_uri),
     ("response_type", "code"),
     ("scope", "openid email profile"),
     ("state", state),
     ("access_type", "offline")]

def oauth_google_initiate (d : Draws) : Handler Response :=
  let nonce := d.token_urlsafe 0
  let state := make_state env nonce
  return {
    status_code := 302
    body := .empty
    headers := [("location", build_auth_url env state)]
    cookies := [{ key := NONCE_COOKIE, value := nonce, httponly := true, samesite := "lax",
                  max_age := NONCE_TTL, secure := env.settings.cookie_secure }] }

/-! ## The checks of the callback -/

/-- The query parameters of the callback. -/
structure CallbackQuery where
  code : Option String
  state : Option String
  error : Option String
deriving DecidableEq

/-- A part of the callback raises, answers, or hands a value to the next part. -/
inductive Checked (α : Type) where
  | raised (e : Exn)
  | answered (r : Response)
  | passed (a : α)
deriving DecidableEq

def redirect (path : String) : Response :=
  { status_code := 302, body := .empty,
    headers := [("location", env.settings.frontend_url ++ path)],
    cookies := [] }

def oauth_cancelled : Response := redirect env "/register?error=oauth_cancelled"

def oauth_failed : Response := redirect env "/register?error=oauth_failed"

def invalid_state : Exn := .http_exception 400 "Invalid state" []

/-- The state must be signed, and its nonce must be the one of the cookie. -/
def check_state (state : Option String) (request : Request) : Checked Unit :=
  match state with
  | none => .raised invalid_state
  | some state =>
    match extract_nonce env state with
    | .error e => .raised e
    | .ok none => .raised invalid_state
    | .ok (some nonce) =>
      let cookie_nonce := request.oauth_state_nonce.getD ""
      if cookie_nonce = "" then .raised invalid_state
      else
        match compare_digest nonce cookie_nonce with
        | .error e => .raised e
        | .ok false => .raised invalid_state
        | .ok true => .passed ()

/-- Who signs in, by the claims of the ID token. -/
structure Identity where
  google_sub : String
  email : String
  display_name : String
deriving DecidableEq

/-- The claims that the callback asks for: the email is verified, and the
subject and the email are there. -/
def check_claims (payload : Payload) : Checked Identity :=
  if payload.email_verified ≠ some (.bool true) then .answered (oauth_failed env)
  else
    let google_sub := payload.sub.getD ""
    let email := payload.email.getD ""
    let display_name := payload.name.getD (if email ≠ "" then local_part email else "")
    if google_sub = "" ∨ email = "" then .answered (oauth_failed env)
    else .passed { google_sub, email, display_name }

/-- The exchange of the code for an ID token, and the check of the token. -/
def check_exchange (exchange : Exchange) : Checked Identity :=
  match exchange with
  | .error => .raised .library
  | .answer status_code body =>
    if status_code ≠ 200 then .answered (oauth_failed env)
    else
      match body with
      | none => .raised .library
      | some id_token =>
        match env.verify_token (id_token.getD "") env.settings.google_client_id with
        | .value_error => .answered (oauth_failed env)
        | .error => .raised .library
        | .claims payload => check_claims env payload

/-- All that the callback checks before it looks into the database. -/
def check_callback (query : CallbackQuery) (request : Request) (d : Draws) : Checked Identity :=
  if query.error.getD "" ≠ "" ∨ query.code = none then .answered (oauth_cancelled env)
  else
    match check_state env query.state request with
    | .raised e => .raised e
    | .answered r => .answered r
    | .passed () => check_exchange env d.exchange

/-- The checks answer with one of two redirects, or raise, or pass. -/
theorem check_claims_answered {payload : Payload} {r : Response}
    (h : check_claims env payload = .answered r) : r = oauth_failed env := by
  unfold check_claims at h
  split at h
  · cases h; rfl
  dsimp only at h
  split at h
  · cases h; rfl
  · cases h

theorem check_exchange_answered {exchange : Exchange} {r : Response}
    (h : check_exchange env exchange = .answered r) : r = oauth_failed env := by
  unfold check_exchange at h
  split at h
  · cases h
  split at h
  · cases h; rfl
  split at h
  · cases h
  split at h
  · cases h; rfl
  · cases h
  · exact check_claims_answered env h

/-- The exchange and the check of the token raise the errors of their libraries only. -/
theorem check_exchange_raised {exchange : Exchange} {e : Exn}
    (h : check_exchange env exchange = .raised e) : e = .library := by
  unfold check_exchange at h
  split at h
  · cases h; rfl
  split at h
  · cases h
  split at h
  · cases h; rfl
  split at h
  · cases h
  · cases h; rfl
  · unfold check_claims at h
    split at h
    · cases h
    dsimp only at h
    split at h <;> cases h

theorem check_state_answered {state : Option String} {request : Request} {r : Response} :
    check_state env state request ≠ .answered r := by
  intro h
  unfold check_state at h
  split at h
  · cases h
  split at h
  · cases h
  · cases h
  dsimp only at h
  split at h
  · cases h
  split at h
  · cases h
  · cases h
  · cases h

variable {env} in
theorem check_callback_answered {query : CallbackQuery} {request : Request} {d : Draws}
    {r : Response} (h : check_callback env query request d = .answered r) :
    r = oauth_cancelled env ∨ r = oauth_failed env := by
  unfold check_callback at h
  split at h
  · cases h; exact Or.inl rfl
  split at h
  · cases h
  · rename_i hs
    exact absurd hs (check_state_answered env)
  · exact Or.inr (check_exchange_answered env h)

/-! ## The account -/

/-- `select(User).where((User.google_sub == google_sub) | (User.email == email))`. -/
def users_by_identity (who : Identity) (db : DB) : List User :=
  db.users.select fun u => decide (u.google_sub = some who.google_sub ∨ u.email = who.email)

/-- The row that the callback adds. -/
def google_user (who : Identity) (d : Draws) : User :=
  { id := d.row_id, email := who.email, display_name := who.display_name,
    password_hash := none, google_sub := some who.google_sub }

def signed_in (token : String) (d : Draws) : Response :=
  { redirect env "/dashboard" with cookies := set_auth_cookies env token (d.token_urlsafe 1) }

/-- The session that the callback opens for the account. -/
def open_session (user_id : UUID) (d : Draws) : Handler Response := do
  let session_token ← create_session env user_id (d.token_urlsafe 0) d.session_id
  return signed_in env session_token d

def create_google_user (who : Identity) (d : Draws) : Handler Response := do
  flush (insert_user (google_user who d))
  commit
  let user ← refresh fun db => db.users.find d.row_id
  open_session env user.id d

def link_google_user (user : User) (who : Identity) (d : Draws) : Handler Response := do
  flush (update_google_sub user.id who.google_sub)
  commit
  open_session env user.id d

/-- The callback after the lookup of the account. -/
def sign_in_found (who : Identity) (d : Draws) (user : Option User) : Handler Response := do
  match user with
  | none => create_google_user env who d
  | some user =>
    if user.google_sub = none then link_google_user env user who d
    else open_session env user.id d

def sign_in (who : Identity) (d : Draws) : Handler Response := do
  let user ← scalar_one_or_none (← execute (users_by_identity who))
  sign_in_found env who d user

def oauth_google_callback (query : CallbackQuery) (request : Request) (d : Draws) :
    Handler Response :=
  match check_callback env query request d with
  | .raised e => .raise e
  | .answered r => .ret r
  | .passed who => sign_in env who d

/-! ## Their effects alone -/

section
variable (request : Request) (d : Draws) (c : Nat → Time) (w : World)

theorem open_session_effect (user_id : UUID) :
    perform (open_session env user_id d) c w =
      attempt (insert_session
          (new_session env user_id (d.token_urlsafe 0) d.session_id (c 0))) w fun w' =>
        (signed_in env (d.token_urlsafe 0) d, w') := by
  unfold open_session
  rw [perform_create_session]
  rfl

theorem create_google_user_effect (who : Identity) :
    perform (create_google_user env who d) c w =
      attempt (insert_user (google_user who d)) w fun w' =>
        perform (open_session env d.row_id d) c w' := by
  unfold create_google_user
  rw [perform_flush_commit]
  apply attempt_congr
  intro cs h
  obtain ⟨rfl, -, hfree, -⟩ := insert_user_ok h
  have hf : (w.commit [.insert_user (google_user who d)]).db.users.find d.row_id =
      some (google_user who d) :=
    Table.find_insert_self hfree
  rw [perform_refresh, hf]
  rfl

theorem link_google_user_effect (user : User) (who : Identity) :
    perform (link_google_user env user who d) c w =
      attempt (update_google_sub user.id who.google_sub) w fun w' =>
        perform (open_session env user.id d) c w' := by
  unfold link_google_user
  rw [perform_flush_commit]

theorem sign_in_effect (who : Identity) :
    perform (sign_in env who d) c w =
      proceed (one_or_none (users_by_identity who w.db)) w fun user =>
        match user with
        | none => perform (create_google_user env who d) c w
        | some user =>
          if user.google_sub = none then perform (link_google_user env user who d) c w
          else perform (open_session env user.id d) c w := by
  unfold sign_in
  rw [perform_execute, perform_scalar_one_or_none]
  congr 1
  funext user
  cases user with
  | none => rfl
  | some user =>
    unfold sign_in_found
    dsimp only
    split <;> rfl

theorem oauth_google_callback_effect (query : CallbackQuery) :
    perform (oauth_google_callback env query request d) c w =
      match check_callback env query request d with
      | .raised e => (e.response, w)
      | .answered r => (r, w)
      | .passed who => perform (sign_in env who d) c w := by
  unfold oauth_google_callback
  cases check_callback env query request d <;> rfl

end

end shared_todos.oauth
