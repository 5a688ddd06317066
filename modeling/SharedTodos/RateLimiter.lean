-- The limiter of failed logins (`auth/rate_limiter.py`): a memory of the
-- failed attempts of each client address, shared by all requests.
import SharedTodos.Http

open keyed_table transactions
open shared_todos.models shared_todos.http shared_todos.http.handler

namespace shared_todos.rate_limiter

variable (env : Env)

/-- A character that `str.strip` removes, among those of Latin-1. -/
def is_space (c : Char) : Bool :=
  (9 ≤ c.toNat && c.toNat ≤ 13) || (28 ≤ c.toNat && c.toNat ≤ 32) ||
    c.toNat == 0x85 || c.toNat == 0xa0

def strip (cs : List Char) : List Char :=
  ((cs.dropWhile is_space).reverse.dropWhile is_space).reverse

/-- `forwarded.split(",")[0].strip()`. -/
def first_address (forwarded : String) : String :=
  String.ofList (strip (forwarded.toList.takeWhile fun c => c != ','))

def client_ip (request : Request) : String :=
  let direct := request.client_host.getD "unknown"
  if env.settings.trust_proxy then
    match request.x_forwarded_for with
    | none => direct
    | some forwarded => if forwarded = "" then direct else first_address forwarded
  else direct

/-- The attempts that are still in the window. -/
def recent (now : Time) (attempts : List Time) : List Time :=
  attempts.filter fun t => decide (now - t < seconds env.settings.rate_limit_login_window_seconds)

def record_failed_login (request : Request) : Handler Unit :=
  let ip := client_ip env request
  .atomic (fun now store => ((), Function.update store ip (recent env now (store ip) ++ [now])))
    .ret

def too_many_attempts : Exn :=
  .http_exception 429 "Too many failed login attempts. Please try again later."
    [("Retry-After", toString env.settings.rate_limit_login_window_seconds)]

def check_login_rate_limit (request : Request) : Handler Unit :=
  let ip := client_ip env request
  .atomic (fun now store => ((recent env now (store ip)).length, store)) fun attempts =>
    if attempts ≥ env.settings.rate_limit_login_attempts then .raise (too_many_attempts env)
    else .ret ()

def reset_failed_logins (request : Request) : Handler Unit :=
  let ip := client_ip env request
  .atomic (fun _ store => ((), Function.update store ip [])) .ret

/-! ## Their runs alone -/

/-- The address has failed as often as the limit allows. -/
abbrev Locked (request : Request) (now : Time) (store : RateStore) : Prop :=
  (recent env now (store (client_ip env request))).length ≥
    env.settings.rate_limit_login_attempts

theorem check_login_rate_limit_run (request : Request) (s : Prog.Solo DB Change RateStore) :
    (check_login_rate_limit env request).run s =
      if Locked env request (s.clock 0) s.memory then
        (.error (too_many_attempts env), { s with clock := fun n => s.clock (n + 1) })
      else (.ok (), { s with clock := fun n => s.clock (n + 1) }) := by
  unfold check_login_rate_limit
  simp only [Prog.run]
  split <;> rfl

@[simp] theorem record_failed_login_run (request : Request) (s : Prog.Solo DB Change RateStore) :
    (record_failed_login env request).run s =
      (.ok (), { s with
        clock := fun n => s.clock (n + 1)
        memory := Function.update s.memory (client_ip env request)
          (recent env (s.clock 0) (s.memory (client_ip env request)) ++ [s.clock 0]) }) := rfl

@[simp] theorem reset_failed_logins_run (request : Request) (s : Prog.Solo DB Change RateStore) :
    (reset_failed_logins env request).run s =
      (.ok (), { s with
        clock := fun n => s.clock (n + 1)
        memory := Function.update s.memory (client_ip env request) [] }) := rfl

end shared_todos.rate_limiter
