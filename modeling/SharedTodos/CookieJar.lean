-- The cookies of a browser. A registration, a login and a sign-in with Google
-- set the session cookie together with the token of the double submit, and a
-- logout takes the session cookie alone. So a browser that has a session cookie
-- has the token too, for as long, and the branch of the middleware for requests
-- without the token is never open to it.
import SharedTodos.App
import Mathlib.Logic.Function.Basic

open keyed_table transactions transactions.Prog
open shared_todos.models shared_todos.http shared_todos.http.handler
open shared_todos.sessions shared_todos.rate_limiter shared_todos.auth shared_todos.oauth
open shared_todos.authz shared_todos.lists shared_todos.items shared_todos.shares
open shared_todos.csrf shared_todos.app

namespace shared_todos.cookie_jar

variable (env : Env)

/-! ## The cookies of the answers -/

/-- The cookies that an answer sets. -/
inductive SetsCookies (d : Draws) : List SetCookie → Prop where
  | nothing : SetsCookies d []
  | signed_in (session_token : String) :
    SetsCookies d (set_auth_cookies env session_token (d.token_urlsafe 1))
  | signed_out : SetsCookies d [delete_cookie SESSION_COOKIE_NAME]
  | flow_started (c : SetCookie) (key : c.key = NONCE_COOKIE) : SetsCookies d [c]

/-- Every answer of the handler sets such cookies. -/
abbrev Sets (d : Draws) (h : Handler Response) : Prop :=
  h.Answers fun r => SetsCookies env d r.cookies

section
variable {env} {request : Request} {d : Draws}

theorem sets_register (body : RegisterRequest) : Sets env d (register env body d) := by
  refine answers_bind fun _ => answers_bind fun existing => ?_
  cases existing with
  | some user => exact .signed_in (d.token_urlsafe 0)
  | none =>
    exact answers_bind fun _ => answers_bind fun _ => answers_bind fun user =>
      answers_bind fun token => .signed_in token

theorem sets_login_rejected : Sets env d (login_rejected env request) :=
  answers_bind fun _ => trivial

theorem sets_login (body : LoginRequest) : Sets env d (login env body request d) := by
  refine answers_bind fun _ => answers_bind fun _ => answers_bind fun user => ?_
  unfold login_found
  split
  · refine answers_bind fun verified => ?_
    split
    · exact answers_bind fun _ => answers_bind fun token => .signed_in token
    · exact sets_login_rejected
  · exact answers_bind fun _ => sets_login_rejected

theorem sets_logout : Sets env d (logout env request) := by
  unfold logout
  cases request.session with
  | none => exact .signed_out
  | some token =>
    dsimp only
    split
    · exact .signed_out
    · exact answers_bind fun _ => .signed_out

theorem sets_password_reset_request (body : PasswordResetRequestBody) :
    Sets env d (password_reset_request env body d) := by
  refine answers_bind fun _ => answers_bind fun user => ?_
  cases user with
  | none => exact .nothing
  | some user =>
    dsimp only
    split
    · exact .nothing
    · refine answers_bind fun _ => answers_bind fun _ => answers_bind fun _ => ?_
      cases send_password_reset_email d <;> exact .nothing

theorem sets_password_reset_validate (token : String) :
    Sets env d (password_reset_validate env token) := by
  refine answers_bind fun _ => answers_bind fun _ => answers_bind fun prt => ?_
  cases prt with
  | none => trivial
  | some prt => exact .nothing

theorem sets_password_reset_complete (body : PasswordResetCompleteBody) :
    Sets env d (password_reset_complete env body d) := by
  refine answers_bind fun _ => answers_bind fun _ => answers_bind fun prt => ?_
  cases prt with
  | none => trivial
  | some prt =>
    exact answers_bind fun _ => answers_bind fun _ => answers_bind fun _ => answers_bind fun _ =>
      answers_bind fun _ => .nothing

theorem sets_open_session (user_id : UUID) : Sets env d (open_session env user_id d) :=
  answers_bind fun token => .signed_in token

theorem sets_oauth_google_callback (query : CallbackQuery) :
    Sets env d (oauth_google_callback env query request d) := by
  unfold oauth_google_callback
  split
  · trivial
  · rename_i r hr
    have hcookies : r.cookies = [] := by
      rcases check_callback_answered hr with rfl | rfl <;> rfl
    change SetsCookies env d r.cookies
    rw [hcookies]
    exact .nothing
  · refine answers_bind fun _ => answers_bind fun user => ?_
    cases user with
    | none =>
      exact answers_bind fun _ => answers_bind fun _ => answers_bind fun user =>
        sets_open_session user.id
    | some user =>
      unfold sign_in_found
      dsimp only
      split
      · exact answers_bind fun _ => answers_bind fun _ => sets_open_session user.id
      · exact sets_open_session user.id

/-- The handlers of the lists, the items and the shares set no cookie. -/
theorem sets_on_lists {call : Call} (h : call.on_lists = true) :
    Sets env d (handler_of env call request d) := by
  cases call with
  | create_list body =>
    exact answers_bind fun _ => answers_bind fun _ => answers_bind fun _ => answers_bind fun _ =>
      .nothing
  | list_lists => exact answers_bind fun _ => answers_bind fun _ => answers_bind fun _ => .nothing
  | get_list id =>
    refine answers_bind fun _ => answers_bind fun lst => ?_
    cases lst with
    | none => trivial
    | some lst => exact .nothing
  | rename_list id body =>
    refine answers_bind fun _ => answers_bind fun lst => ?_
    cases lst with
    | none => trivial
    | some lst => exact answers_bind fun _ => answers_bind fun _ => answers_bind fun _ => .nothing
  | delete_list id =>
    refine answers_bind fun _ => answers_bind fun lst => ?_
    cases lst with
    | none => trivial
    | some lst => exact answers_bind fun _ => answers_bind fun _ => .nothing
  | create_item id body =>
    exact answers_bind fun _ => answers_bind fun _ => answers_bind fun _ => answers_bind fun _ =>
      .nothing
  | list_items id => exact answers_bind fun _ => answers_bind fun _ => .nothing
  | update_item id item body =>
    refine answers_bind fun _ => answers_bind fun row => ?_
    cases row with
    | none => trivial
    | some row =>
      dsimp only
      split
      · trivial
      · exact answers_bind fun _ => answers_bind fun _ => answers_bind fun _ => .nothing
  | delete_item id item =>
    refine answers_bind fun _ => answers_bind fun row => ?_
    cases row with
    | none => trivial
    | some row =>
      dsimp only
      split
      · trivial
      · exact answers_bind fun _ => answers_bind fun _ => .nothing
  | create_share id body =>
    refine answers_bind fun perm => ?_
    split
    · trivial
    refine answers_bind fun target => ?_
    cases target with
    | none => trivial
    | some target =>
      refine answers_bind fun _ => answers_bind fun existing => ?_
      cases existing with
      | some s => trivial
      | none => exact answers_bind fun _ => answers_bind fun _ => .nothing
  | list_shares id => exact answers_bind fun _ => answers_bind fun _ => .nothing
  | change_role id user body =>
    refine answers_bind fun _ => answers_bind fun _ => answers_bind fun share => ?_
    cases share with
    | none => trivial
    | some share => exact answers_bind fun _ => answers_bind fun _ => answers_bind fun _ => .nothing
  | revoke_share id user =>
    refine answers_bind fun _ => answers_bind fun _ => answers_bind fun share => ?_
    cases share with
    | none => trivial
    | some share => exact answers_bind fun _ => answers_bind fun _ => .nothing
  | _ => cases h

theorem sets_handler_of (call : Call) : Sets env d (handler_of env call request d) := by
  cases h : call.on_lists with
  | true => exact sets_on_lists h
  | false =>
    cases call with
    | register body => exact sets_register body
    | login body => exact sets_login body
    | logout => exact sets_logout
    | session_info => exact answers_bind fun _ => .nothing
    | password_reset_request body => exact sets_password_reset_request body
    | password_reset_validate token => exact sets_password_reset_validate token
    | password_reset_complete body => exact sets_password_reset_complete body
    | oauth_google_initiate => exact .flow_started _ rfl
    | oauth_google_callback query => exact sets_oauth_google_callback query
    | _ => cases h

theorem cookies_of_error (e : Exn) : e.response.cookies = [] := by cases e <;> rfl

/-- What every answer of the application sets. -/
theorem cookies_of_step (s : Step) (w : World) :
    SetsCookies env s.draws (s.handle env w).1.cookies := by
  rcases handle_cases env s w with ⟨r, h, hr⟩ | h
  · rw [h]
    have hcookies : r.cookies = [] := by rcases hr with rfl | ⟨text, rfl⟩ <;> rfl
    dsimp only
    rw [hcookies]
    exact .nothing
  · rw [h]
    unfold perform
    dsimp only
    have hsets : Sets env s.draws (handler_of env s.call s.request s.draws) :=
      sets_handler_of s.call
    cases hr : ((handler_of env s.call s.request s.draws).run ⟨s.draws.now, w.db, [], w.store⟩).1 with
    | error e =>
      unfold respond
      dsimp only
      rw [cookies_of_error]
      exact .nothing
    | ok r => exact run_answers hsets _ hr

end

/-! ## The jar of a browser -/

/-- A cookie that a browser holds. -/
structure Cookie where
  value : String
  expires_at : Time
  samesite : String
  secure : Bool
deriving DecidableEq

/-- The cookies of a browser, by their keys. -/
abbrev Jar := String → Option Cookie

/-- A `Set-Cookie` that arrives now. With a `max_age` of 0 the cookie goes. -/
def Jar.set (now : Time) (jar : Jar) (c : SetCookie) : Jar :=
  Function.update jar c.key
    (if c.max_age = 0 then none
    else some ⟨c.value, now + seconds c.max_age, c.samesite, c.secure⟩)

/-- The browser takes no `secure` cookie from a connection that is not. -/
def Jar.receive (now : Time) (https : Bool) (jar : Jar) (r : Response) : Jar :=
  (r.cookies.filter fun c => https || !c.secure).foldl (Jar.set now) jar

def Jar.expire (now : Time) (jar : Jar) : Jar := fun key =>
  (jar key).filter fun c => decide (now < c.expires_at)

/-- The value that the browser attaches to a request with a method that changes
something: a cookie of the kind `lax` or `strict` goes to its own site only. -/
def Jar.attached (https same_site : Bool) (jar : Jar) (key : String) : Option String :=
  ((jar key).filter fun c =>
    (https || !c.secure) && (same_site || decide (c.samesite = "none"))).map (·.value)

/-- The jars that the answers of the application, in any order and from any
state, and the clock make of the empty jar. No token is drawn empty. -/
inductive Reached : Jar → Prop where
  | empty : Reached fun _ => none
  | answer {jar : Jar} (s : Step) (w : World) (now : Time) (https : Bool) (before : Reached jar)
      (drawn : ∀ n, s.draws.token_urlsafe n ≠ "") :
      Reached (jar.receive now https (s.handle env w).1)
  | expire {jar : Jar} (now : Time) (before : Reached jar) : Reached (jar.expire now)

/-- Next to a session cookie there is a token that is not empty. It goes when the
session cookie goes, and it is sent where the session cookie is sent. -/
def Paired (jar : Jar) : Prop :=
  ∀ session, jar SESSION_COOKIE_NAME = some session → ∃ csrf, jar CSRF_COOKIE_NAME = some csrf ∧
    csrf.value ≠ "" ∧ csrf.expires_at = session.expires_at ∧
    csrf.samesite = session.samesite ∧ csrf.secure = session.secure

section
variable {env} {jar : Jar}

theorem paired_expire (h : Paired jar) (now : Time) : Paired (jar.expire now) := by
  intro session hs
  obtain ⟨hs, hnow⟩ := Option.filter_eq_some_iff.mp hs
  obtain ⟨csrf, hc, hvalue, hexpires, hsent⟩ := h session hs
  refine ⟨csrf, ?_, hvalue, hexpires, hsent⟩
  unfold Jar.expire
  rw [hc, Option.filter_some_pos]
  rwa [hexpires]

/-- The two cookies of a sign-in come with one age and one flag, so the browser
takes both or none. -/
theorem paired_signed_in (h : Paired jar) (session_token : String) {csrf_token : String}
    (hdrawn : csrf_token ≠ "") (now : Time) (https : Bool) :
    Paired (((set_auth_cookies env session_token csrf_token).filter
      fun c => https || !c.secure).foldl (Jar.set now) jar) := by
  unfold set_auth_cookies
  by_cases hsecure : (https || !env.settings.cookie_secure) = true
  · have hage : env.settings.session_ttl_days * 86400 ≠ 0 := by
      have := env.settings.session_ttl_days_range.1
      omega
    intro session hs
    simp [hsecure, Jar.set, hage, SESSION_COOKIE_NAME, CSRF_COOKIE_NAME] at hs
    refine ⟨⟨csrf_token, now + seconds (env.settings.session_ttl_days * 86400), "lax",
      env.settings.cookie_secure⟩, ?_, hdrawn, ?_⟩
    · simp [hsecure, Jar.set, hage, CSRF_COOKIE_NAME]
    · rw [← hs]
      exact ⟨rfl, rfl, rfl⟩
  · simpa [hsecure] using h

/-- Every answer keeps the two cookies together. -/
theorem paired_receive (h : Paired jar) {d : Draws} (hdrawn : ∀ n, d.token_urlsafe n ≠ "")
    {r : Response} (hr : SetsCookies env d r.cookies) (now : Time) (https : Bool) :
    Paired (jar.receive now https r) := by
  unfold Jar.receive
  generalize r.cookies = cookies at hr
  cases hr with
  | nothing => exact h
  | signed_in session_token => exact paired_signed_in h session_token (hdrawn 1) now https
  | signed_out =>
    intro session hs
    simp [delete_cookie, Jar.set] at hs
  | flow_started c key =>
    by_cases hsecure : (https || !c.secure) = true
    · have hother : ∀ k : String, k ≠ NONCE_COOKIE →
          ([c].filter fun c => https || !c.secure).foldl (Jar.set now) jar k = jar k := by
        intro k hk
        simp [hsecure, Jar.set, key, Function.update_of_ne hk]
      unfold Paired
      rw [hother _ (by decide), hother _ (by decide)]
      exact h
    · simpa [hsecure] using h

theorem paired_of_reached (h : Reached env jar) : Paired jar := by
  induction h with
  | empty => intro session hs; cases hs
  | answer s w now https before drawn ih =>
    exact paired_receive ih drawn (cookies_of_step s w) now https
  | expire now before ih => exact paired_expire ih now

/-- A request with a session cookie carries the token next to it. -/
theorem attached_together (h : Paired jar) {https same_site : Bool}
    (hs : jar.attached https same_site SESSION_COOKIE_NAME ≠ none) :
    ∃ csrf, jar CSRF_COOKIE_NAME = some csrf ∧ csrf.value ≠ "" ∧
      jar.attached https same_site CSRF_COOKIE_NAME = some csrf.value := by
  unfold Jar.attached at hs ⊢
  obtain ⟨session, hsession⟩ := Option.ne_none_iff_exists'.mp (mt Option.map_eq_none_iff.mpr hs)
  obtain ⟨hsession, hsent⟩ := Option.filter_eq_some_iff.mp hsession
  obtain ⟨csrf, hcsrf, hvalue, -, hsamesite, hsecure⟩ := h session hsession
  refine ⟨csrf, hcsrf, hvalue, ?_⟩
  rw [hcsrf, Option.filter_some_pos (by rwa [hsamesite, hsecure]), Option.map_some]

end

/-! ## The middleware -/

/-- A request with a token that the middleware forwards repeats it in the header. -/
theorem header_of_forwarded {method path : String} {request : Request} {token : String}
    (hmethod : method ∈ MUTATING_METHODS) (hpath : path ∉ CSRF_EXEMPT_PATHS)
    (htoken : request.csrf_token = some token) (hne : token ≠ "")
    (h : dispatch method path request = .ok .forward) : request.x_csrf_token = some token := by
  unfold dispatch at h
  rw [if_neg (not_not_intro hmethod), if_neg hpath, htoken] at h
  simp only [Option.getD_some, if_neg hne] at h
  cases hx : request.x_csrf_token with
  | none => simp [hx] at h
  | some header =>
    rw [hx] at h
    simp only [Option.getD_some, compare_digest] at h
    split at h
    · cases h
    split at h
    · cases h
    · rename_i heq
      split at heq
      · rw [of_decide_eq_true (Except.ok.inj heq)]
      · cases heq
    · cases h

/-- A browser that has a session cookie has the token of the double submit, as
long as the session cookie. So a request that changes something, that it sends
with the session cookie to another path than those of login and register, and
that the middleware forwards, has the token of the jar in its header. -/
theorem a_signed_in_browser_is_always_checked (env : Env) (jar : Jar) (h : Reached env jar) :
    Paired jar ∧ ∀ method path request https same_site, method ∈ MUTATING_METHODS →
      path ∉ CSRF_EXEMPT_PATHS →
      request.session = jar.attached https same_site SESSION_COOKIE_NAME →
      request.csrf_token = jar.attached https same_site CSRF_COOKIE_NAME →
      request.session ≠ none → dispatch method path request = .ok .forward →
      ∃ csrf, jar CSRF_COOKIE_NAME = some csrf ∧ csrf.value ≠ "" ∧
        request.x_csrf_token = some csrf.value := by
  have hpaired := paired_of_reached h
  refine ⟨hpaired, ?_⟩
  intro method path request https same_site hmethod hpath hsession hcsrf hne hforward
  rw [hsession] at hne
  obtain ⟨csrf, hjar, hvalue, hsent⟩ := attached_together hpaired hne
  exact ⟨csrf, hjar, hvalue,
    header_of_forwarded hmethod hpath (hcsrf.trans hsent) hvalue hforward⟩

/-- The jar of Ann after her registration. -/
def jar_of_ann : Jar :=
  Jar.receive 0 true (fun _ => none) ((ann_registers "ann" 1).handle .sample .empty).1

/-- Ann deletes something, with the token of her jar in the header. -/
theorem ann_is_checked :
    ∃ csrf, jar_of_ann CSRF_COOKIE_NAME = some csrf ∧ csrf.value = "ann-" := by
  have hdrawn : ∀ n, (ann_registers "ann" 1).draws.token_urlsafe n ≠ "" := by
    intro n h
    have := congrArg String.length h
    simp [ann_registers, Draws.sample] at this
  have h := (a_signed_in_browser_is_always_checked .sample jar_of_ann
    (.answer (ann_registers "ann" 1) .empty 0 true .empty hdrawn)).2 "DELETE" "/api/v1/lists"
    { Request.sample with session := some "ann", csrf_token := some "ann-",
                          x_csrf_token := some "ann-" } true true
    (by decide) (by decide) (by decide) (by decide) (by decide) (by decide)
  obtain ⟨csrf, hjar, -, hheader⟩ := h
  exact ⟨csrf, hjar, (Option.some.inj hheader).symm⟩

end shared_todos.cookie_jar
