-- The double submit check (`auth/csrf.py`), which stands before every handler.
import SharedTodos.Http

open shared_todos.http

namespace shared_todos.csrf

def MUTATING_METHODS : List String := ["POST", "PUT", "PATCH", "DELETE"]

def CSRF_EXEMPT_PATHS : List String := ["/api/v1/auth/login", "/api/v1/auth/register"]

/-- What the middleware does with a request. -/
inductive Verdict where
  | forward
  | answer (r : Response)
deriving DecidableEq

/-- `CSRFMiddleware.dispatch`. -/
def dispatch (method path : String) (request : Request) : Except Exn Verdict :=
  if method ∉ MUTATING_METHODS then .ok .forward
  else if path ∈ CSRF_EXEMPT_PATHS then .ok .forward
  else
    let cookie_token := request.csrf_token.getD ""
    if cookie_token = "" then .ok .forward
    else
      let header_token := request.x_csrf_token.getD ""
      if header_token = "" then .ok (.answer (json 403 (.detail "CSRF token missing")))
      else
        match compare_digest cookie_token header_token with
        | .error e => .error e
        | .ok true => .ok .forward
        | .ok false => .ok (.answer (json 403 (.detail "CSRF token mismatch")))

/-- The middleware answers with a 403 only. -/
theorem dispatch_answer {method path : String} {request : Request} {r : Response}
    (h : dispatch method path request = .ok (.answer r)) : ∃ text, r = json 403 (.detail text) := by
  unfold dispatch at h
  split at h
  · cases h
  split at h
  · cases h
  dsimp only at h
  split at h
  · cases h
  split at h
  · cases h; exact ⟨_, rfl⟩
  split at h
  · cases h
  · cases h
  · cases h; exact ⟨_, rfl⟩

/-- The comparison of the tokens raises on a character that is not ASCII. -/
theorem dispatch_error {method path : String} {request : Request} {e : Exn}
    (h : dispatch method path request = .error e) : e = .type_error := by
  unfold dispatch at h
  split at h
  · cases h
  split at h
  · cases h
  dsimp only at h
  split at h
  · cases h
  split at h
  · cases h
  split at h
  · rename_i e' he
    unfold compare_digest at he
    split at he
    · cases he
    · cases he; cases h; rfl
  · cases h
  · cases h

end shared_todos.csrf
