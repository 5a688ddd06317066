-- The two comparisons of tokens, for any text that a client sends: the check of
-- the middleware, and the nonce of the callback. Each decides exactly as long as
-- both texts are ASCII, and raises as soon as it compares another one.
import SharedTodos.App

open keyed_table transactions
open shared_todos.models shared_todos.http shared_todos.http.handler
open shared_todos.csrf shared_todos.oauth shared_todos.app

namespace shared_todos.token_checks

theorem compare_digest_of_ascii {a b : String} (ha : is_ascii a = true) (hb : is_ascii b = true) :
    compare_digest a b = .ok (decide (a = b)) := by
  unfold compare_digest
  rw [ha, hb]
  rfl

theorem compare_digest_raises {a b : String} (h : ¬ (is_ascii a = true ∧ is_ascii b = true)) :
    compare_digest a b = .error .type_error := by
  unfold compare_digest
  rw [if_neg]
  simpa using h

/-! ## The check of the middleware -/

def cookie_token (request : Request) : String := request.csrf_token.getD ""

def header_token (request : Request) : String := request.x_csrf_token.getD ""

/-- The requests that the double submit check is meant to let through. -/
def LetsThrough (method path : String) (request : Request) : Prop :=
  method ∉ MUTATING_METHODS ∨ path ∈ CSRF_EXEMPT_PATHS ∨ cookie_token request = "" ∨
    (header_token request ≠ "" ∧ header_token request = cookie_token request)

/-- The middleware forwards exactly these requests, refuses the others with a
403, and does not raise. -/
structure DecidesTokens (method path : String) (request : Request) : Prop where
  forwards : dispatch method path request = .ok .forward ↔ LetsThrough method path request
  refuses : ¬ LetsThrough method path request →
    ∃ text, dispatch method path request = .ok (.answer (json 403 (.detail text)))
  no_error : ∀ e, dispatch method path request ≠ .error e

/-- The request leaves before the comparison, or both tokens are ASCII. -/
def TokensComparable (method path : String) (request : Request) : Prop :=
  method ∉ MUTATING_METHODS ∨ path ∈ CSRF_EXEMPT_PATHS ∨ cookie_token request = "" ∨
    header_token request = "" ∨
    (is_ascii (cookie_token request) = true ∧ is_ascii (header_token request) = true)

section
variable {method path : String} {request : Request}

theorem dispatch_eq (method path : String) (request : Request) :
    dispatch method path request =
      if method ∉ MUTATING_METHODS then .ok .forward
      else if path ∈ CSRF_EXEMPT_PATHS then .ok .forward
      else if cookie_token request = "" then .ok .forward
      else if header_token request = "" then .ok (.answer (json 403 (.detail "CSRF token missing")))
      else
        match compare_digest (cookie_token request) (header_token request) with
        | .error e => .error e
        | .ok true => .ok .forward
        | .ok false => .ok (.answer (json 403 (.detail "CSRF token mismatch"))) := rfl

/-- A verdict that agrees with the purpose. -/
theorem decides_of_forward (h : dispatch method path request = .ok .forward)
    (hl : LetsThrough method path request) : DecidesTokens method path request where
  forwards := by simp [h, hl]
  refuses := fun hn => absurd hl hn
  no_error := by simp [h]

theorem decides_of_answer {text : String}
    (h : dispatch method path request = .ok (.answer (json 403 (.detail text))))
    (hl : ¬ LetsThrough method path request) : DecidesTokens method path request where
  forwards := by simp [h, hl]
  refuses := fun _ => ⟨text, h⟩
  no_error := by simp [h]

theorem decides_tokens_iff :
    DecidesTokens method path request ↔ TokensComparable method path request := by
  by_cases hm : method ∈ MUTATING_METHODS
  swap
  · have hd : dispatch method path request = .ok .forward := by simp [dispatch_eq, hm]
    exact ⟨fun _ => Or.inl hm, fun _ => decides_of_forward hd (Or.inl hm)⟩
  by_cases hp : path ∈ CSRF_EXEMPT_PATHS
  · have hd : dispatch method path request = .ok .forward := by simp [dispatch_eq, hp]
    exact ⟨fun _ => Or.inr (Or.inl hp), fun _ => decides_of_forward hd (Or.inr (Or.inl hp))⟩
  by_cases hc : cookie_token request = ""
  · have hd : dispatch method path request = .ok .forward := by simp [dispatch_eq, hc]
    have hl : LetsThrough method path request := Or.inr (Or.inr (Or.inl hc))
    exact ⟨fun _ => Or.inr (Or.inr (Or.inl hc)), fun _ => decides_of_forward hd hl⟩
  by_cases hh : header_token request = ""
  · have hd : dispatch method path request =
        .ok (.answer (json 403 (.detail "CSRF token missing"))) := by
      simp [dispatch_eq, hm, hp, hc, hh]
    have hl : ¬ LetsThrough method path request := by simp [LetsThrough, hm, hp, hc, hh]
    exact ⟨fun _ => Or.inr (Or.inr (Or.inr (Or.inl hh))), fun _ => decides_of_answer hd hl⟩
  -- the request comes to the comparison
  have hd := dispatch_eq method path request
  rw [if_neg (by simpa using hm), if_neg hp, if_neg hc, if_neg hh] at hd
  by_cases ha : is_ascii (cookie_token request) = true ∧ is_ascii (header_token request) = true
  · have hcomp : TokensComparable method path request := Or.inr (Or.inr (Or.inr (Or.inr ha)))
    refine ⟨fun _ => hcomp, fun _ => ?_⟩
    rw [compare_digest_of_ascii ha.1 ha.2] at hd
    by_cases he : cookie_token request = header_token request
    · rw [decide_eq_true he] at hd
      exact decides_of_forward hd (Or.inr (Or.inr (Or.inr ⟨hh, he.symm⟩)))
    · rw [decide_eq_false he] at hd
      refine decides_of_answer hd ?_
      simp [LetsThrough, hm, hp, hc, Ne.symm he]
  · -- it raises, whether the tokens are equal or not
    rw [compare_digest_raises ha] at hd
    refine ⟨fun h => absurd hd (h.no_error _), fun h => ?_⟩
    simp only [TokensComparable, hm, hp, hc, hh, ha, not_true_eq_false, or_self] at h

end

/-! ## The nonce of the callback -/

variable (env : Env)

/-- What the callback does from the exchange of the code on. -/
def from_exchange (d : Draws) : Handler Response :=
  match check_exchange env d.exchange with
  | .raised e => .raise e
  | .answered r => .ret r
  | .passed who => sign_in env who d

def cookie_nonce (request : Request) : String := request.oauth_state_nonce.getD ""

/-- The cookie names the nonce of the state. -/
def NonceMatches (request : Request) (nonce : String) : Prop :=
  cookie_nonce request ≠ "" ∧ cookie_nonce request = nonce

/-- The callback goes on to the exchange exactly with the nonce of the state in
the cookie, and answers with a 400 otherwise. What Google sends with an error is
cancelled before. -/
structure DecidesNonce (query : CallbackQuery) (request : Request) (d : Draws) (nonce : String) :
    Prop where
  cancels : query.error.getD "" ≠ "" →
    oauth_google_callback env query request d = .ret (oauth_cancelled env)
  proceeds : query.error.getD "" = "" →
    (oauth_google_callback env query request d = from_exchange env d ↔ NonceMatches request nonce)
  refuses : query.error.getD "" = "" → ¬ NonceMatches request nonce →
    oauth_google_callback env query request d = http_error 400 "Invalid state"

/-- The callback leaves before the comparison, or both nonces are ASCII. -/
def NonceComparable (query : CallbackQuery) (request : Request) (nonce : String) : Prop :=
  query.error.getD "" ≠ "" ∨ cookie_nonce request = "" ∨
    (is_ascii nonce = true ∧ is_ascii (cookie_nonce request) = true)

section
variable {env} {query : CallbackQuery} {request : Request} {d : Draws} {code state nonce : String}

theorem from_exchange_ne_raise {e : Exn} (he : e ≠ .library) : from_exchange env d ≠ .raise e := by
  intro h
  unfold from_exchange at h
  split at h
  · rename_i e' hx
    rw [check_exchange_raised env hx] at h
    cases h
    exact he rfl
  · cases h
  · cases h

/-- A callback with a code and a signed state, that Google does not cancel. -/
theorem callback_eq (hcode : query.code = some code) (hstate : query.state = some state)
    (hsigned : env.loads state = .payload nonce) (hgo : query.error.getD "" = "") :
    oauth_google_callback env query request d =
      if cookie_nonce request = "" then http_error 400 "Invalid state"
      else
        match compare_digest nonce (cookie_nonce request) with
        | .error e => .raise e
        | .ok false => http_error 400 "Invalid state"
        | .ok true => from_exchange env d := by
  have hstart : ¬ (query.error.getD "" ≠ "" ∨ query.code = none) := by simp [hgo, hcode]
  unfold oauth_google_callback check_callback
  rw [if_neg hstart, hstate]
  unfold check_state extract_nonce
  simp only [hsigned]
  by_cases hc : cookie_nonce request = ""
  · rw [if_pos hc]
    unfold cookie_nonce at hc
    rw [if_pos hc]
    rfl
  · rw [if_neg hc]
    unfold cookie_nonce at hc ⊢
    rw [if_neg hc]
    cases compare_digest nonce (request.oauth_state_nonce.getD "") with
    | error e => rfl
    | ok b => cases b <;> rfl

theorem decides_nonce_iff (hcode : query.code = some code) (hstate : query.state = some state)
    (hsigned : env.loads state = .payload nonce) :
    DecidesNonce env query request d nonce ↔ NonceComparable query request nonce := by
  have h400 : http_error 400 "Invalid state" ≠ from_exchange env d :=
    fun h => from_exchange_ne_raise (by simp) h.symm
  by_cases hgo : query.error.getD "" = ""
  swap
  · have hd : oauth_google_callback env query request d = .ret (oauth_cancelled env) := by
      unfold oauth_google_callback check_callback
      rw [if_pos (Or.inl hgo)]
    exact ⟨fun _ => Or.inl hgo, fun _ =>
      ⟨fun _ => hd, fun h => absurd h hgo, fun h => absurd h hgo⟩⟩
  have hd : oauth_google_callback env query request d = _ :=
    callback_eq hcode hstate hsigned hgo
  by_cases hc : cookie_nonce request = ""
  · rw [if_pos hc] at hd
    have hn : ¬ NonceMatches request nonce := fun h => h.1 hc
    refine ⟨fun _ => Or.inr (Or.inl hc), fun _ => ⟨fun h => absurd hgo h, fun _ => ?_, fun _ _ => hd⟩⟩
    rw [hd]
    exact iff_of_false h400 hn
  rw [if_neg hc] at hd
  by_cases ha : is_ascii nonce = true ∧ is_ascii (cookie_nonce request) = true
  · refine ⟨fun _ => Or.inr (Or.inr ha), fun _ => ?_⟩
    rw [compare_digest_of_ascii ha.1 ha.2] at hd
    by_cases he : nonce = cookie_nonce request
    · rw [decide_eq_true he] at hd
      have hn : NonceMatches request nonce := ⟨hc, he.symm⟩
      exact ⟨fun h => absurd hgo h, fun _ => iff_of_true hd hn, fun _ h => absurd hn h⟩
    · rw [decide_eq_false he] at hd
      have hn : ¬ NonceMatches request nonce := fun h => he h.2.symm
      refine ⟨fun h => absurd hgo h, fun _ => ?_, fun _ _ => hd⟩
      rw [hd]
      exact iff_of_false h400 hn
  · -- it raises `TypeError`, which is neither the exchange nor a 400
    rw [compare_digest_raises ha] at hd
    constructor
    · intro h
      by_cases hn : NonceMatches request nonce
      · have hx := (h.proceeds hgo).mpr hn
        rw [hd] at hx
        exact absurd hx.symm (from_exchange_ne_raise (by simp))
      · have hx := h.refuses hgo hn
        rw [hd] at hx
        cases hx
    · intro h
      simp only [NonceComparable, hgo, hc, ha, ne_eq, not_true_eq_false, or_self] at h

end

/-! ## Both comparisons -/

/-- The two comparisons decide exactly, and do not raise, on the requests that leave
before them or bring ASCII text, and on no other. -/
theorem tokens_decided_iff_ascii (env : Env) :
    (∀ (method path : String) (request : Request),
      DecidesTokens method path request ↔ TokensComparable method path request) ∧
    ∀ (query : CallbackQuery) (request : Request) (d : Draws) (code state nonce : String),
      query.code = some code → query.state = some state → env.loads state = .payload nonce →
      (DecidesNonce env query request d nonce ↔ NonceComparable query request nonce) :=
  ⟨fun _ _ _ => decides_tokens_iff, fun _ _ _ _ _ _ hcode hstate hsigned =>
    decides_nonce_iff hcode hstate hsigned⟩

/-! ## A request that raises -/

/-- A browser that is made to hold a token with an accent, and sends it back. -/
def accented : Request :=
  { Request.sample with
    csrf_token := some "clé", x_csrf_token := some "clé", oauth_state_nonce := some "clé" }

def signed_callback : CallbackQuery := ⟨some "code", some ".nonce", none⟩

/-- Equal tokens are not let through, and a foreign nonce is not answered with a 400. -/
theorem accented_tokens_raise :
    ¬ DecidesTokens "POST" "/api/v1/lists" accented ∧
      ¬ DecidesNonce .sample signed_callback accented (.sample "callback" 1) "nonce" := by
  constructor
  · intro h
    exact h.no_error .type_error (by decide)
  · intro h
    have h400 := h.refuses (by decide) (by unfold NonceMatches; decide)
    cases h400

/-- An ASCII nonce of another browser, under a callback with a signed state. -/
theorem foreign_nonce_decided :
    DecidesNonce .sample signed_callback { Request.sample with oauth_state_nonce := some "other" }
      (.sample "callback" 1) "nonce" :=
  ((tokens_decided_iff_ascii .sample).2 signed_callback _ _ "code" ".nonce" "nonce"
    (by decide) (by decide) (by decide)).mpr (by unfold NonceComparable; decide)

end shared_todos.token_checks
