-- What goes in and out of a handler: the settings (`app/config.py`), the
-- libraries that it calls, the request with the values that the process draws
-- for it, the response, and the exceptions.
import SharedTodos.Constraints
import Mathlib.Data.List.Sort

open keyed_table transactions
open shared_todos.models

namespace shared_todos.http

/-! ## The settings -/

structure Settings where
  secret_key : String
  session_ttl_days : Nat
  session_ttl_days_range : 1 ≤ session_ttl_days ∧ session_ttl_days ≤ 365
  rate_limit_login_attempts : Nat
  rate_limit_login_attempts_ge : 1 ≤ rate_limit_login_attempts
  rate_limit_login_window_seconds : Nat
  rate_limit_login_window_seconds_ge : 1 ≤ rate_limit_login_window_seconds
  google_client_id : String
  google_client_secret : String
  google_redirect_uri : String
  frontend_url : String
  cookie_secure : Bool
  trust_proxy : Bool

/-- `timedelta(seconds=n)`. -/
def seconds (n : Nat) : Time := n * 1000000

/-- `timedelta(days=n)`. -/
def days (n : Nat) : Time := seconds (n * 86400)

/-- `timedelta(hours=n)`. -/
def hours (n : Nat) : Time := seconds (n * 3600)

/-! ## The libraries -/

/-- What `PasswordHasher.verify` does: it returns, raises `VerifyMismatchError`,
or raises another error, as for a string that is no argon2 hash. -/
inductive Verified where
  | verified
  | mismatch
  | error
deriving DecidableEq

/-- What `URLSafeSerializer.loads` does: it returns the payload, raises
`BadSignature`, or raises another error. -/
inductive Loaded where
  | payload (s : String)
  | bad_signature
  | error
deriving DecidableEq

/-- A JSON value of a claim. -/
inductive Json where
  | null
  | bool (b : Bool)
  | num (n : Int)
  | str (s : String)
deriving DecidableEq

/-- The claims of a verified Google ID token that the callback reads. The claims
`sub`, `email` and `name` are strings where Google sends them. -/
structure Payload where
  email_verified : Option Json
  sub : Option String
  email : Option String
  name : Option String
deriving DecidableEq

/-- What the verifier of an ID token does: it returns the claims, raises
`ValueError`, or raises another error. -/
inductive TokenCheck where
  | claims (p : Payload)
  | value_error
  | error
deriving DecidableEq

/-- The code that the backend calls and that is not its own. -/
structure Env where
  settings : Settings
  /-- `hashlib.sha256(token.encode()).hexdigest()` -/
  sha256_hexdigest : String → String
  /-- `PasswordHasher.hash`, of a plaintext and the salt that it draws -/
  ph_hash : String → String → String
  /-- `PasswordHasher.verify`, of a hash and a plaintext -/
  ph_verify : String → String → Verified
  /-- The hash that `password.py` computes when it is loaded. -/
  dummy_hash : String
  /-- `URLSafeSerializer(secret_key, salt="oauth-state").dumps` -/
  dumps : String → String
  loads : String → Loaded
  /-- `google.oauth2.id_token.verify_oauth2_token`, of a token and a client id -/
  verify_token : String → String → TokenCheck
  /-- `urllib.parse.urlencode` -/
  urlencode : List (String × String) → String

/-! ## The exceptions -/

inductive Exn where
  | http_exception (status_code : Nat) (detail : String) (headers : List (String × String))
  | db (e : DbError)
  | multiple_results_found
  | no_result_found
  /-- `refresh` of a row that is gone. -/
  | invalid_request
  | value_error
  | type_error
  /-- An error of a library. -/
  | library
deriving DecidableEq

/-- `str.isascii`. -/
def is_ascii (s : String) : Bool := s.toList.all fun c => c.toNat < 128

/-- `secrets.compare_digest` on two `str`: it raises `TypeError` when one of them
has a character that is not ASCII. -/
def compare_digest (a b : String) : Except Exn Bool :=
  if is_ascii a && is_ascii b then .ok (decide (a = b)) else .error .type_error

/-! ## The requests -/

/-- What the token endpoint of Google answers. -/
inductive Exchange where
  /-- No answer: `http.post` raises. -/
  | error
  /-- An answer. The body is `none` when it is no JSON object, and gives the
  entry `id_token` otherwise. -/
  | answer (status_code : Nat) (body : Option (Option String))
deriving DecidableEq

/-- The cookies and headers that the handlers and the middleware read. -/
structure Request where
  session : Option String
  csrf_token : Option String
  oauth_state_nonce : Option String
  x_csrf_token : Option String
  x_forwarded_for : Option String
  client_host : Option String
deriving DecidableEq

/-- What the process draws while it handles one request. `token_urlsafe n` is the
value of the n-th call, `now n` the n-th reading of the clock. `order n` says in
which order the database scans the rows of the n-th statement with several
rows, where the statement leaves it open. -/
structure Draws where
  token_urlsafe : Nat → String
  /-- The `uuid4` of the row that the handler adds. -/
  row_id : UUID
  /-- The `uuid4` of the session that it creates. -/
  session_id : UUID
  now : Nat → Time
  /-- The clock of the database at the start of the transaction. -/
  db_now : Time
  /-- The salt that argon2 draws. -/
  salt : String
  exchange : Exchange
  /-- What the mail server does with the mail; `none` when it takes it. -/
  mail_error : Option Exn
  order : Nat → UUID → Nat

/-- The rows in the order of a scan. -/
def scanned {ρ : Type} (order : UUID → Nat) (id : ρ → UUID) (rows : List ρ) : List ρ :=
  rows.insertionSort fun a b => order (id a) ≤ order (id b)

/-! ## The responses -/

structure UserOut where
  id : UUID
  email : String
  display_name : String
deriving DecidableEq

structure ListOut where
  id : UUID
  owner_id : UUID
  name : String
  created_at : Time
  updated_at : Time
deriving DecidableEq

structure ItemOut where
  id : UUID
  list_id : UUID
  content : String
  completed : Bool
  order : Int
  created_at : Time
  updated_at : Time
deriving DecidableEq

structure ShareOut where
  list_id : UUID
  user_id : UUID
  role : String
  granted_at : Time
deriving DecidableEq

def ListOut.of (l : ListRow) : ListOut := ⟨l.id, l.owner_id, l.name, l.created_at, l.updated_at⟩

def ItemOut.of (i : Item) : ItemOut :=
  ⟨i.id, i.list_id, i.content, i.completed, i.order, i.created_at, i.updated_at⟩

def ShareOut.of (s : Share) : ShareOut := ⟨s.list_id, s.user_id, s.role, s.granted_at⟩

inductive Body where
  | empty
  | detail (text : String)
  | internal_server_error
  | registered (user : Option UserOut) (message : String)
  | user (user : UserOut)
  | message (text : String)
  | valid
  | list (l : ListOut)
  | lists (ls : List ListOut)
  | item (i : ItemOut)
  | items (is : List ItemOut)
  | share (s : ShareOut)
  | shares (ss : List ShareOut)
deriving DecidableEq

structure SetCookie where
  key : String
  value : String
  httponly : Bool
  samesite : String
  max_age : Nat
  secure : Bool
deriving DecidableEq

structure Response where
  status_code : Nat
  body : Body
  headers : List (String × String)
  cookies : List SetCookie
deriving DecidableEq

/-- The value that the response sets for a cookie: the last one. -/
def Response.cookie (r : Response) (key : String) : Option String :=
  (r.cookies.reverse.find? fun c => decide (c.key = key)).map (·.value)

/-- A JSON response with no header and no cookie. -/
def json (status_code : Nat) (body : Body) : Response := ⟨status_code, body, [], []⟩

/-- The response that FastAPI makes of an exception: an exception that it does
not know becomes a 500. -/
def Exn.response : Exn → Response
  | .http_exception status detail headers => ⟨status, .detail detail, headers, []⟩
  | _ => json 500 .internal_server_error

def respond : Except Exn Response → Response
  | .ok r => r
  | .error e => e.response

/-! ## The handlers -/

/-- The failed logins of each client address (`_store` of the rate limiter). -/
abbrev RateStore := String → List Time

abbrev Handler := Prog DB Change DbError RateStore Exn

namespace handler

/-- `HTTPException(status_code, detail)`. -/
def http_error {α : Type} (status_code : Nat) (detail : String) : Handler α :=
  .raise (.http_exception status_code detail [])

/-- `await db.execute(select(..))`. -/
def execute {β : Type} (q : DB → β) : Handler β := .query q .ret

/-- The flush of the unit of work, or a statement of its own. -/
def flush (s : Statement) : Handler Unit :=
  .write s fun
    | .ok () => .ret ()
    | .error e => .raise (.db e)

/-- `await db.commit()` with nothing left to flush. -/
def commit : Handler Unit := .commit (.ret ())

/-- `datetime.now(UTC)`. -/
def utc_now : Handler Time := .atomic (fun now store => (now, store)) .ret

/-- `result.scalar_one_or_none()`. -/
def scalar_one_or_none {ρ : Type} : List ρ → Handler (Option ρ)
  | [] => .ret none
  | [r] => .ret (some r)
  | _ => .raise .multiple_results_found

/-- `result.scalar_one()`. -/
def scalar_one {ρ : Type} : List ρ → Handler ρ
  | [] => .raise .no_result_found
  | [r] => .ret r
  | _ => .raise .multiple_results_found

/-- `await db.refresh(row)`, where `q` looks the row up by its primary key. -/
def refresh {ρ : Type} (q : DB → Option ρ) : Handler ρ :=
  .query q fun
    | none => .raise .invalid_request
    | some r => .ret r

/-! ### Their runs alone -/

section
variable (s : Prog.Solo DB Change RateStore)

@[simp] theorem run_execute {β : Type} (q : DB → β) :
    (execute q).run s = (.ok (q s.view), s) := rfl

@[simp] theorem run_commit : commit.run s = (.ok (), { s with db := s.view, pending := [] }) := rfl

@[simp] theorem run_utc_now :
    utc_now.run s = (.ok (s.clock 0), { s with clock := fun n => s.clock (n + 1) }) := rfl

theorem run_flush (st : Statement) :
    (flush st).run s =
      match st s.view with
      | .ok cs => (.ok (), { s with pending := s.pending ++ cs })
      | .error e => (.error (.db e), { s with pending := [] }) := by
  unfold flush
  simp only [Prog.run]
  cases st s.view <;> rfl

theorem run_refresh {ρ : Type} (q : DB → Option ρ) :
    (refresh q).run s =
      match q s.view with
      | none => (.error .invalid_request, s)
      | some r => (.ok r, s) := by
  unfold refresh
  simp only [Prog.run]
  cases q s.view <;> rfl

theorem run_scalar_one_or_none {ρ : Type} (rows : List ρ) :
    (scalar_one_or_none rows).run s =
      match rows with
      | [] => (.ok none, s)
      | [r] => (.ok (some r), s)
      | _ => (.error .multiple_results_found, s) := by
  rcases rows with _ | ⟨a, _ | ⟨b, rest⟩⟩ <;> rfl

@[simp] theorem run_scalar_one_or_none_toList {ρ : Type} (o : Option ρ) :
    (scalar_one_or_none o.toList).run s = (.ok o, s) := by
  cases o <;> rfl

end

end handler

/-! ## One request alone -/

/-- The database and the memory of the process between two requests. -/
structure World where
  db : DB
  store : RateStore

def World.empty : World := ⟨.empty, fun _ => []⟩

def World.commit (w : World) (cs : List Change) : World := { w with db := Prog.applyAll cs w.db }

/-- A handler alone, with the readings of the clock: its response, and what it
leaves. Its database session is closed at the end, which rolls an open
transaction back. -/
def perform (handler : Handler Response) (clock : Nat → Time) (w : World) : Response × World :=
  let r := handler.run ⟨clock, w.db, [], w.store⟩
  (respond r.1, ⟨r.2.db, r.2.memory⟩)

/-- The rest of a request after a part that left `w`, or the end of it. -/
def proceed {α : Type} (r : Except Exn α) (w : World) (k : α → Response × World) :
    Response × World :=
  match r with
  | .ok a => k a
  | .error e => (e.response, w)

@[simp] theorem proceed_ok {α : Type} (a : α) (w : World) (k : α → Response × World) :
    proceed (.ok a) w k = k a := rfl

@[simp] theorem proceed_error {α : Type} (e : Exn) (w : World) (k : α → Response × World) :
    proceed (.error e) w k = (e.response, w) := rfl

/-- A statement with its commit and the rest of the request, or the error of the
statement. -/
def attempt (st : Statement) (w : World) (k : World → Response × World) : Response × World :=
  match st w.db with
  | .ok cs => k (w.commit cs)
  | .error e => ((Exn.db e).response, w)

theorem attempt_ok {st : Statement} {w : World} {cs : List Change} (h : st w.db = .ok cs)
    (k : World → Response × World) : attempt st w k = k (w.commit cs) := by
  unfold attempt
  rw [h]

theorem attempt_error {st : Statement} {w : World} {e : DbError} (h : st w.db = .error e)
    (k : World → Response × World) : attempt st w k = ((Exn.db e).response, w) := by
  unfold attempt
  rw [h]

/-- Two continuations that agree on an accepted statement. -/
theorem attempt_congr {st : Statement} {w : World} {k k' : World → Response × World}
    (h : ∀ cs, st w.db = .ok cs → k (w.commit cs) = k' (w.commit cs)) :
    attempt st w k = attempt st w k' := by
  unfold attempt
  cases hs : st w.db with
  | error e => rfl
  | ok cs => exact h cs hs

/-- What `refresh` makes of the row. -/
def read_back {ρ : Type} : Option ρ → Except Exn ρ
  | none => .error .invalid_request
  | some r => .ok r

/-- What `scalar_one_or_none` makes of the rows. -/
def one_or_none {ρ : Type} : List ρ → Except Exn (Option ρ)
  | [] => .ok none
  | [r] => .ok (some r)
  | _ => .error .multiple_results_found

section
variable {α β : Type} (c : Nat → Time) (w : World)

/-- A part that leaves no open transaction, and then the rest. -/
theorem perform_part {p : Handler α} {k : α → Handler Response} {r : Except Exn α}
    {c' : Nat → Time} (w' : World)
    (h : p.run ⟨c, w.db, [], w.store⟩ = (r, ⟨c', w'.db, [], w'.store⟩)) :
    perform (p >>= k) c w = proceed r w' fun a => perform (k a) c' w' := by
  unfold perform
  rw [Prog.run_then, h]
  cases r <;> rfl

@[simp] theorem perform_execute (q : DB → β) (k : β → Handler Response) :
    perform (handler.execute q >>= k) c w = perform (k (q w.db)) c w := rfl

@[simp] theorem perform_utc_now (k : Time → Handler Response) :
    perform (handler.utc_now >>= k) c w = perform (k (c 0)) (fun n => c (n + 1)) w := rfl

theorem perform_scalar_one_or_none {ρ : Type} (rows : List ρ) (k : Option ρ → Handler Response) :
    perform (handler.scalar_one_or_none rows >>= k) c w =
      proceed (one_or_none rows) w fun o => perform (k o) c w := by
  rcases rows with _ | ⟨a, _ | ⟨b, rest⟩⟩ <;> rfl

@[simp] theorem perform_scalar_toList {ρ : Type} (o : Option ρ) (k : Option ρ → Handler Response) :
    perform (handler.scalar_one_or_none o.toList >>= k) c w = perform (k o) c w := by
  cases o <;> rfl

theorem perform_refresh {ρ : Type} (q : DB → Option ρ) (k : ρ → Handler Response) :
    perform (handler.refresh q >>= k) c w =
      proceed (read_back (q w.db)) w fun r => perform (k r) c w := by
  unfold perform
  simp only [Prog.run_then, handler.run_refresh, Prog.Solo.view, Prog.applyAll_nil]
  cases q w.db <;> rfl

theorem perform_flush_commit (st : Statement) (k : Handler Response) :
    perform (do handler.flush st; handler.commit; k) c w =
      attempt st w fun w' => perform k c w' := by
  unfold perform attempt
  simp only [Prog.run_then, handler.run_flush, Prog.Solo.view, Prog.applyAll_nil]
  cases st w.db <;> rfl

end

/-! ## A small environment -/

def Settings.sample : Settings where
  secret_key := "secret"
  session_ttl_days := 30
  session_ttl_days_range := by decide
  rate_limit_login_attempts := 5
  rate_limit_login_attempts_ge := by decide
  rate_limit_login_window_seconds := 60
  rate_limit_login_window_seconds_ge := by decide
  google_client_id := "client"
  google_client_secret := "secret"
  google_redirect_uri := "uri"
  frontend_url := "http://localhost:5173"
  cookie_secure := false
  trust_proxy := false

/-- Libraries that keep their promises: a hash of a token is the token itself, a
hash of a password is the password behind a mark, a state is signed by a mark
before the nonce, and an ID token is the subject, a space, and the email. -/
def Env.sample : Env where
  settings := .sample
  sha256_hexdigest token := token
  ph_hash plaintext _ := "$" ++ plaintext
  ph_verify hashed plaintext := if hashed = "$" ++ plaintext then .verified else .mismatch
  dummy_hash := "$"
  dumps nonce := String.ofList ('.' :: nonce.toList)
  loads state :=
    match state.toList with
    | '.' :: nonce => .payload (String.ofList nonce)
    | _ => .bad_signature
  verify_token token _ :=
    .claims
      { email_verified := some (.bool true)
        sub := some (String.ofList (token.toList.takeWhile fun c => c != ' '))
        email := some (String.ofList ((token.toList.dropWhile fun c => c != ' ').drop 1))
        name := none }
  urlencode pairs := String.join (pairs.map fun p => p.1 ++ "=" ++ p.2 ++ "&")

def Request.sample : Request := ⟨none, none, none, none, none, none⟩

/-- Draws that are told apart by a name and an id, at the time 0. -/
def Draws.sample (name : String) (id : UUID) : Draws where
  token_urlsafe n := String.ofList (name.toList ++ List.replicate n '-')
  row_id := id
  session_id := id
  now _ := 0
  db_now := 0
  salt := "salt"
  exchange := .error
  mail_error := none
  order _ _ := 0

end shared_todos.http
