-- The sign-in with Google as a protocol between the browsers, the attacker and
-- the backend. Requests come in any order, answers arrive late, out of order or
-- never, and the attacker sends what he likes and makes any browser do so. A
-- callback is accepted in a browser only with the state of the very answer that
-- wrote the nonce cookie which the browser holds.
import SharedTodos.App

open keyed_table transactions
open shared_todos.models shared_todos.http shared_todos.http.handler
open shared_todos.sessions shared_todos.auth shared_todos.oauth shared_todos.csrf shared_todos.app

namespace shared_todos.oauth_protocol

variable (env : Env) {B : Type} [DecidableEq B]

/-! ## The parties and the messages -/

/-- The answer to a start of the flow. -/
def initiate_answer (nonce : String) : Response where
  status_code := 302
  body := .empty
  headers := [("location", build_auth_url env (make_state env nonce))]
  cookies := [{ key := NONCE_COOKIE, value := nonce, httponly := true, samesite := "lax",
                max_age := NONCE_TTL, secure := env.settings.cookie_secure }]

/-- A flow that was started: the browser that did so, or `none` for a client of
the attacker, and the answer with the nonce cookie that it sets. -/
structure Flow (B : Type) where
  browser : Option B
  answer : Response
  nonce : String

/-- The backend, the flow whose answer wrote the nonce cookie of each browser, the
answers on their way, and all flows that were started. -/
structure Config (B : Type) where
  world : World
  jar : B → Option (Flow B)
  on_the_way : List (Flow B)
  started : List (Flow B)

inductive Move (B : Type) where
  /-- A browser, or a client of the attacker, makes a request. -/
  | request (client : Option B) (s : Step)
  /-- An answer on its way arrives. -/
  | deliver (n : Nat)
  /-- A nonce cookie expires. -/
  | expire (b : B)

/-- A browser sends the nonce cookie that it holds, or none, as on a request from
another site. A client of the attacker sends what he likes. -/
def Enabled (c : Config B) : Move B → Prop
  | .request none _ => True
  | .request (some b) s => s.request.oauth_state_nonce = none ∨
    s.request.oauth_state_nonce = (c.jar b).map Flow.nonce
  | .deliver n => n < c.on_the_way.length
  | .expire _ => True

def next (c : Config B) : Move B → Config B
  | .request client s =>
    let r := (s.handle env c.world).1
    let world := (s.handle env c.world).2
    match s.call, r.cookie NONCE_COOKIE with
    | .oauth_google_initiate, some nonce =>
      let flow := { browser := client, answer := r, nonce }
      { c with world, on_the_way := c.on_the_way ++ [flow], started := c.started ++ [flow] }
    | _, _ => { c with world }
  | .deliver n =>
    match c.on_the_way[n]? with
    | none => c
    | some flow =>
      match flow.browser with
      | none => { c with on_the_way := c.on_the_way.eraseIdx n }
      | some b =>
        { c with jar := Function.update c.jar b (some flow)
                 on_the_way := c.on_the_way.eraseIdx n }
  | .expire b => { c with jar := Function.update c.jar b none }

/-- Nobody but the backend signs: a state with a valid signature that is presented
to the callback is the state of a flow that was started. -/
def Unforged (c : Config B) : Move B → Prop
  | .request _ s => ∀ query state nonce, s.call = .oauth_google_callback query →
    query.state = some state → env.loads state = .payload nonce →
    ∃ flow ∈ c.started, state = make_state env flow.nonce
  | _ => True

/-- No nonce is drawn twice. -/
def FreshNonces (c : Config B) : Prop := (c.started.map Flow.nonce).Nodup

/-- The configurations that browsers without a nonce cookie and the attacker reach. -/
inductive Reached : Config B → Prop where
  | start (world : World) : Reached ⟨world, fun _ => none, [], []⟩
  | move {c : Config B} (m : Move B) (before : Reached c) (enabled : Enabled c m)
      (unforged : Unforged env c m) : Reached (next env c m)

/-! ## The invariant of the jars -/

/-- A cookie in a jar is of a flow that this browser started, and the flows that
were started have the answers of the backend. -/
structure Inv (c : Config B) : Prop where
  jar : ∀ b flow, c.jar b = some flow → flow ∈ c.started ∧ flow.browser = some b
  on_the_way : ∀ flow ∈ c.on_the_way, flow ∈ c.started
  answer : ∀ flow ∈ c.started, flow.answer = initiate_answer env flow.nonce

section
variable {env : Env} {c : Config B}

theorem initiate_is_answered {s : Step} (call : s.call = .oauth_google_initiate) (w : World) :
    s.handle env w = (initiate_answer env (s.draws.token_urlsafe 0), w) := by
  unfold Step.handle
  rw [call]
  rfl

omit [DecidableEq B] in
theorem inv_start (world : World) : Inv env (⟨world, fun _ => none, [], []⟩ : Config B) where
  jar := by intro b flow h; cases h
  on_the_way := by intro flow h; cases h
  answer := by intro flow h; cases h

omit [DecidableEq B] in
/-- A new flow, whose answer is on its way. -/
theorem inv_started (h : Inv env c) (world : World) {flow : Flow B}
    (hanswer : flow.answer = initiate_answer env flow.nonce) :
    Inv env { c with world, on_the_way := c.on_the_way ++ [flow], started := c.started ++ [flow] }
    where
  jar := by
    intro b f hf
    obtain ⟨hmem, hb⟩ := h.jar b f hf
    exact ⟨List.mem_append_left _ hmem, hb⟩
  on_the_way := by
    intro f hf
    rcases List.mem_append.mp hf with hf | hf
    · exact List.mem_append_left _ (h.on_the_way f hf)
    · exact List.mem_append_right _ hf
  answer := by
    intro f hf
    rcases List.mem_append.mp hf with hf | hf
    · exact h.answer f hf
    · rw [List.mem_singleton.mp hf]
      exact hanswer

theorem inv_delivered (h : Inv env c) (n : Nat) : Inv env (next env c (.deliver n)) := by
  unfold next
  dsimp only
  cases hf : c.on_the_way[n]? with
  | none => exact h
  | some flow =>
    have hmem : flow ∈ c.started := h.on_the_way flow (List.mem_of_getElem? hf)
    have hway : ∀ f ∈ c.on_the_way.eraseIdx n, f ∈ c.started := fun f hf =>
      h.on_the_way f (List.eraseIdx_subset hf)
    dsimp only
    cases hb : flow.browser with
    | none => exact ⟨h.jar, hway, h.answer⟩
    | some b =>
      refine ⟨?_, hway, h.answer⟩
      intro b' f hf'
      by_cases hbb : b' = b
      · subst hbb
        dsimp only at hf'
        rw [Function.update_self] at hf'
        cases hf'
        exact ⟨hmem, hb⟩
      · dsimp only at hf'
        rw [Function.update_of_ne hbb] at hf'
        exact h.jar b' f hf'

theorem inv_next (h : Inv env c) (m : Move B) : Inv env (next env c m) := by
  cases m with
  | request client s =>
    unfold next
    dsimp only
    split
    · rename_i nonce call hcookie
      rw [initiate_is_answered call] at hcookie ⊢
      cases hcookie
      exact inv_started h _ rfl
    · exact ⟨h.jar, h.on_the_way, h.answer⟩
  | deliver n => exact inv_delivered h n
  | expire b =>
    refine ⟨?_, h.on_the_way, h.answer⟩
    intro b' f hf
    change Function.update c.jar b none b' = some f at hf
    by_cases hbb : b' = b
    · subst hbb
      rw [Function.update_self] at hf
      cases hf
    · rw [Function.update_of_ne hbb] at hf
      exact h.jar b' f hf

theorem inv_of_reached (h : Reached env c) : Inv env c := by
  induction h with
  | start world => exact inv_start world
  | move m before enabled unforged ih => exact inv_next ih m

end

/-! ## What a callback must have passed -/

/-- The claims that the callback accepts. -/
def VerifiedClaims (d : Draws) : Prop :=
  ∃ id_token payload sub email, d.exchange = .answer 200 (some id_token) ∧
    env.verify_token (id_token.getD "") env.settings.google_client_id = .claims payload ∧
    payload.email_verified = some (.bool true) ∧
    payload.sub = some sub ∧ sub ≠ "" ∧ payload.email = some email ∧ email ≠ ""

/-- The state is the one of the answer that wrote the nonce cookie of the browser,
and of no flow that was started elsewhere. -/
def OwnFlow (c : Config B) (b : B) (query : CallbackQuery) : Prop :=
  ∃ flow, c.jar b = some flow ∧ flow.browser = some b ∧
    flow.answer = initiate_answer env flow.nonce ∧
    query.state = some (make_state env flow.nonce) ∧
    ∀ g ∈ c.started, g.browser ≠ some b → query.state ≠ some (make_state env g.nonce)

def SetsAuthCookies (r : Response) : Prop :=
  r.cookie SESSION_COOKIE_NAME ≠ none ∨ r.cookie CSRF_COOKIE_NAME ≠ none

section
variable {env : Env}

theorem verified_of_check_claims {payload : Payload} {who : Identity}
    (h : check_claims env payload = .passed who) :
    payload.email_verified = some (.bool true) ∧ (∃ sub, payload.sub = some sub ∧ sub ≠ "") ∧
      ∃ email, payload.email = some email ∧ email ≠ "" := by
  unfold check_claims at h
  split at h
  · cases h
  rename_i hverified
  dsimp only at h
  split at h
  · cases h
  · rename_i hnonempty
    simp only [not_or] at hnonempty
    refine ⟨by simpa using hverified, ?_, ?_⟩
    · cases hs : payload.sub with
      | none => rw [hs] at hnonempty; exact absurd rfl hnonempty.1
      | some sub => rw [hs] at hnonempty; exact ⟨sub, rfl, hnonempty.1⟩
    · cases he : payload.email with
      | none => rw [he] at hnonempty; exact absurd rfl hnonempty.2
      | some email => rw [he] at hnonempty; exact ⟨email, rfl, hnonempty.2⟩

theorem verified_of_check_exchange {d : Draws} {who : Identity}
    (h : check_exchange env d.exchange = .passed who) : VerifiedClaims env d := by
  unfold check_exchange at h
  split at h
  · cases h
  rename_i status body hexchange
  split at h
  · cases h
  rename_i hstatus
  split at h
  · cases h
  rename_i id_token
  split at h
  · cases h
  · cases h
  · rename_i payload hpayload
    obtain ⟨hv, ⟨sub, hsub, hsub'⟩, email, hemail, hemail'⟩ := verified_of_check_claims h
    have h200 : status = 200 := by simpa using hstatus
    subst h200
    exact ⟨id_token, payload, sub, email, hexchange, hpayload, hv, hsub, hsub', hemail, hemail'⟩

/-- A state that passes has a valid signature over the nonce of the cookie. -/
theorem nonce_of_check_state {state : Option String} {request : Request}
    (h : check_state env state request = .passed ()) :
    ∃ st nonce, state = some st ∧ env.loads st = .payload nonce ∧
      request.oauth_state_nonce = some nonce := by
  unfold check_state at h
  split at h
  · cases h
  rename_i st
  split at h
  · cases h
  · cases h
  rename_i nonce hextract
  dsimp only at h
  split at h
  · cases h
  rename_i hcookie
  split at h
  · cases h
  · cases h
  rename_i hdigest
  refine ⟨st, nonce, rfl, ?_, ?_⟩
  · unfold extract_nonce at hextract
    split at hextract
    · cases hextract; assumption
    · cases hextract
    · cases hextract
  · unfold compare_digest at hdigest
    split at hdigest
    · have heq : nonce = request.oauth_state_nonce.getD "" := by simpa using hdigest
      cases hn : request.oauth_state_nonce with
      | none => rw [hn] at hcookie; exact absurd rfl hcookie
      | some n => rw [hn] at heq; rw [heq]; rfl
    · cases hdigest

theorem parts_of_check_callback {query : CallbackQuery} {request : Request} {d : Draws}
    {who : Identity} (h : check_callback env query request d = .passed who) :
    check_state env query.state request = .passed () ∧
      check_exchange env d.exchange = .passed who := by
  unfold check_callback at h
  split at h
  · cases h
  split at h
  · cases h
  · cases h
  · rename_i hs
    exact ⟨hs, h⟩

/-- A callback that does not pass its checks runs no statement and sets no cookie. -/
theorem callback_of_not_passed {query : CallbackQuery} {request : Request} {d : Draws}
    (h : ∀ who, check_callback env query request d ≠ .passed who) :
    (∃ e, oauth_google_callback env query request d = .raise e) ∨
      ∃ r, oauth_google_callback env query request d = .ret r ∧ r.cookies = [] := by
  unfold oauth_google_callback
  cases hc : check_callback env query request d with
  | raised e => exact Or.inl ⟨e, rfl⟩
  | answered r =>
    refine Or.inr ⟨r, rfl, ?_⟩
    rcases check_callback_answered hc with rfl | rfl <;> rfl
  | passed who => exact absurd hc (h who)

omit [DecidableEq B] in
/-- A callback that passes presents the state of the flow in the jar. -/
theorem own_flow_of_passed {c : Config B} (hinv : Inv env c)
    (hsigned : ∀ nonce, env.loads (env.dumps nonce) = .payload nonce) (hfresh : FreshNonces c)
    {b : B} {s : Step} {query : CallbackQuery} (call : s.call = .oauth_google_callback query)
    (henabled : Enabled c (.request (some b) s)) (hunforged : Unforged env c (.request (some b) s))
    {who : Identity} (h : check_callback env query s.request s.draws = .passed who) :
    OwnFlow env c b query := by
  obtain ⟨st, nonce, hstate, hloads, hcookie⟩ := nonce_of_check_state (parts_of_check_callback h).1
  obtain ⟨issued, hissued, rfl⟩ := hunforged query st nonce call hstate hloads
  have hnonce : issued.nonce = nonce := by
    rw [make_state, hsigned] at hloads
    cases hloads
    rfl
  have hjar : (c.jar b).map Flow.nonce = some nonce := by
    rcases henabled with hnone | hsent
    · rw [hnone] at hcookie
      cases hcookie
    · exact hsent.symm.trans hcookie
  obtain ⟨flow, hflow, hfn⟩ := Option.map_eq_some_iff.mp hjar
  obtain ⟨hmem, hbrowser⟩ := hinv.jar b flow hflow
  refine ⟨flow, hflow, hbrowser, hinv.answer flow hmem, ?_, ?_⟩
  · rw [hstate, hnonce, hfn]
  · rintro g hg hne hg'
    -- The states tell the nonces apart, and the nonces the flows.
    rw [hstate] at hg'
    have hgn : issued.nonce = g.nonce := by
      have hl := congrArg env.loads (Option.some.inj hg')
      rw [make_state, make_state, hsigned, hsigned] at hl
      exact Loaded.payload.inj hl
    have heq : g = flow := List.inj_on_of_nodup_map hfresh hg hmem
      (hgn.symm.trans (hnonce.trans hfn.symm))
    rw [heq] at hne
    exact hne hbrowser

end

/-- Whatever the browsers and the attacker do: a callback in a browser that sets
the cookies of a session or changes the database presents the state of the answer
that wrote the nonce cookie of this browser, and passed every check of the claims.
In every other case it runs no statement at all and sets no such cookie. -/
theorem a_callback_is_bound_to_its_browser (env : Env)
    (hsigned : ∀ nonce, env.loads (env.dumps nonce) = .payload nonce) {c : Config B}
    (hreached : Reached env c) (hfresh : FreshNonces c) (b : B) (s : Step) (query : CallbackQuery)
    (call : s.call = .oauth_google_callback query) (henabled : Enabled c (.request (some b) s))
    (hunforged : Unforged env c (.request (some b) s)) :
    (SetsAuthCookies (s.handle env c.world).1 ∨ (s.handle env c.world).2.db ≠ c.world.db →
      OwnFlow env c b query ∧ VerifiedClaims env s.draws) ∧
    (¬ (OwnFlow env c b query ∧ VerifiedClaims env s.draws) →
      (s.handle env c.world).2.db = c.world.db ∧ ¬ SetsAuthCookies (s.handle env c.world).1 ∧
      ((∃ e, oauth_google_callback env query s.request s.draws = .raise e) ∨
        ∃ r, oauth_google_callback env query s.request s.draws = .ret r ∧ r.cookies = [])) := by
  have hpassed : ∀ who, check_callback env query s.request s.draws = .passed who →
      OwnFlow env c b query ∧ VerifiedClaims env s.draws := by
    intro who hwho
    exact ⟨own_flow_of_passed (inv_of_reached hreached) hsigned hfresh call henabled hunforged hwho,
      verified_of_check_exchange (parts_of_check_callback hwho).2⟩
  have hhandle : s.handle env c.world =
      perform (oauth_google_callback env query s.request s.draws) s.draws.now c.world := by
    unfold Step.handle
    rw [call]
    rfl
  have hidle : (∀ who, check_callback env query s.request s.draws ≠ .passed who) →
      (s.handle env c.world).2.db = c.world.db ∧ ¬ SetsAuthCookies (s.handle env c.world).1 := by
    intro h
    rw [hhandle]
    have hnone : ∀ r : Response, r.cookies = [] → ¬ SetsAuthCookies r := by
      intro r hr hset
      unfold SetsAuthCookies Response.cookie at hset
      rw [hr] at hset
      rcases hset with hset | hset <;> exact hset rfl
    rcases callback_of_not_passed h with ⟨e, he⟩ | ⟨r, hr, hcookies⟩
    · rw [he]
      exact ⟨rfl, hnone _ (by cases e <;> rfl)⟩
    · rw [hr]
      exact ⟨rfl, hnone r hcookies⟩
  constructor
  · intro haccepted
    by_cases hc : ∃ who, check_callback env query s.request s.draws = .passed who
    · obtain ⟨who, hwho⟩ := hc
      exact hpassed who hwho
    · have hi := hidle (fun who hwho => hc ⟨who, hwho⟩)
      rcases haccepted with hset | hdb
      · exact absurd hset hi.2
      · exact absurd hi.1 hdb
  · intro hnot
    have hnever : ∀ who, check_callback env query s.request s.draws ≠ .passed who :=
      fun who hwho => hnot (hpassed who hwho)
    obtain ⟨hdb, hset⟩ := hidle hnever
    exact ⟨hdb, hset, callback_of_not_passed hnever⟩

/-- A browser that starts a flow. -/
def google_is_visited (nonce : String) : Step where
  call := .oauth_google_initiate
  request := .sample
  draws := .sample nonce 0

/-- The browser `true` starts a flow and its answer arrives, while the browser
`false` starts one whose answer is still on its way. -/
def two_browsers : Config Bool :=
  next .sample (next .sample (next .sample ⟨.empty, fun _ => none, [], []⟩
    (.request (some true) (google_is_visited "nonce"))) (.deliver 0))
    (.request (some false) (google_is_visited "other"))

theorem two_browsers_reached : Reached .sample two_browsers := by
  have hvisit : ∀ {c : Config Bool} (client : Option Bool) (nonce : String), Reached .sample c →
      Enabled c (.request client (google_is_visited nonce)) →
      Reached .sample (next .sample c (.request client (google_is_visited nonce))) := by
    intro c client nonce h henabled
    refine .move _ h henabled ?_
    intro query state n call
    cases call
  have hstarted := hvisit (some true) "nonce" (.start .empty) (Or.inl rfl)
  have hdelivered := Reached.move (.deliver 0) hstarted Nat.zero_lt_one trivial
  exact hvisit (some false) "other" hdelivered (Or.inl rfl)

/-- The callback of the browser `true` is accepted, and so it is its own. -/
theorem a_sign_in_is_bound_to_its_browser :
    OwnFlow .sample two_browsers true ⟨some "code", some ".nonce", none⟩ ∧
      VerifiedClaims .sample (google_calls_back "s1 ann@example.com" "a" 1).draws := by
  have hsigned : ∀ nonce, Env.sample.loads (Env.sample.dumps nonce) = .payload nonce := by
    intro nonce
    simp [Env.sample]
  have hunforged : Unforged .sample two_browsers
      (.request (some true) (google_calls_back "s1 ann@example.com" "a" 1)) := by
    intro query state nonce call hstate hloads
    cases call
    cases hstate
    exact ⟨⟨some true, initiate_answer .sample "nonce", "nonce"⟩, List.mem_cons_self, by decide⟩
  refine (a_callback_is_bound_to_its_browser .sample hsigned two_browsers_reached
    (by unfold FreshNonces; decide) true (google_calls_back "s1 ann@example.com" "a" 1)
    ⟨some "code", some ".nonce", none⟩ rfl (Or.inr rfl) hunforged).1 (Or.inl (Or.inl ?_))
  decide

end shared_todos.oauth_protocol
