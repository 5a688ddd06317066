-- The sessions and the history of the requests: a session cookie names a user
-- if and only if the history says so. The table of the sessions and the
-- history are kept in step by every request.
import SharedTodos.AccountDeeds
import SharedTodos.Library.EventLog

open keyed_table transactions event_log
open shared_todos.models shared_todos.http shared_todos.http.handler
open shared_todos.sessions shared_todos.rate_limiter shared_todos.auth shared_todos.oauth
open shared_todos.app shared_todos.accounts

namespace shared_todos.session_history

/-! ## The history -/

inductive Event where
  /-- A session cookie for a user, set at a time. -/
  | issued (token : String) (user_id : UUID) (time : Time)
  | logged_out (token : String)
  | password_reset (user_id : UUID)
deriving DecidableEq

/-- The events that end the session of a token of a user. -/
def Event.ends (token : String) (user_id : UUID) : Event → Prop
  | .issued _ _ _ => False
  | .logged_out t => t = token
  | .password_reset u => u = user_id

/-- The strings that an event speaks of. -/
def Event.tokens : Event → List String
  | .issued t _ _ => [t]
  | .logged_out t => [t]
  | .password_reset _ => []

variable (env : Env)

/-- The event of a request that took `w` to `w'` with the response `r`. -/
def event_of (s : Step) (w : World) (r : Response) (w' : World) : Option Event :=
  match s.call with
  | .register _ =>
    match r.body, r.cookie SESSION_COOKIE_NAME with
    | .registered (some user) _, some token => some (.issued token user.id (opened_at s))
    | _, _ => none
  | .login _ =>
    match r.status_code, r.body, r.cookie SESSION_COOKIE_NAME with
    | 200, .user user, some token => some (.issued token user.id (opened_at s))
    | _, _, _ => none
  | .oauth_google_callback query =>
    -- The user who is signed in is the one whom the claims name afterwards.
    match check_callback env query s.request s.draws, r.cookie SESSION_COOKIE_NAME with
    | .passed who, some token =>
      match users_by_identity who w'.db with
      | [user] => some (.issued token user.id (opened_at s))
      | _ => none
    | _, _ => none
  | .logout =>
    match r.status_code, s.request.session with
    | 204, some token => if token = "" then none else some (.logged_out token)
    | _, _ => none
  | .password_reset_complete body =>
    match r.status_code, usable_tokens (hash_token env body.token) (s.draws.now 0) w.db with
    | 200, [prt] => some (.password_reset prt.user_id)
    | _, _ => none
  | _ => none

def Step.event (s : Step) (w : World) : Option Event :=
  event_of env s w (s.handle env w).1 (s.handle env w).2

/-- The events of a run from `w`. -/
def history : List Step → World → List Event
  | [], _ => []
  | s :: steps, w => (Step.event env s w).toList ++ history steps (s.after env w)

theorem history_append (a b : List Step) (w : World) :
    history env (a ++ b) w = history env a w ++ history env b (run env a w) := by
  induction a generalizing w with
  | nil => rfl
  | cons s a ih =>
    change _ ++ history env (a ++ b) _ = _
    rw [ih, ← List.append_assoc]
    rfl

/-! ## The event of each deed -/

/-- After a sign-in with Google the claims name the user who was let in. -/
theorem identity_of_entrance {s : Step} {w w₁ : World} {u : UUID} {r : Response}
    {query : CallbackQuery} {who : Identity} (h : Entrance env s w u r w₁)
    (call : s.call = .oauth_google_callback query)
    (checked : check_callback env query s.request s.draws = .passed who) :
    ∃ user, users_by_identity who w₁.db = [user] ∧ user.id = u := by
  cases h with
  | registered body hcall => rw [call] at hcall; cases hcall
  | logged_in body user hash hcall => rw [call] at hcall; cases hcall
  | google_created query' who' hcall hchecked unknown inserted =>
    rw [call] at hcall
    cases hcall
    rw [checked] at hchecked
    cases hchecked
    obtain ⟨-, -, hfree, -⟩ := insert_user_ok inserted
    refine ⟨google_user who s.draws, ?_, rfl⟩
    unfold users_by_identity Table.select at unknown ⊢
    simp only [World.commit, Prog.applyAll_cons, Prog.applyAll_nil, apply_eq, Change.apply]
    rw [Table.rows_insert hfree, List.filter_append, unknown]
    simp [google_user]
  | google_linked query' who' user hcall hchecked found unlinked linked =>
    rw [call] at hcall
    cases hcall
    rw [checked] at hchecked
    cases hchecked
    have huser : user ∈ w.db.users.rows := by
      have h : user ∈ users_by_identity who w.db := by rw [found]; simp
      exact ((Table.mem_select _ _ _).mp h).1
    refine ⟨{ user with google_sub := some who.google_sub }, ?_, rfl⟩
    unfold users_by_identity
    simp only [World.commit, Prog.applyAll_cons, Prog.applyAll_nil, apply_eq, Change.apply]
    apply Table.select_eq_singleton
    · rw [Table.mem_update]
      exact ⟨user, huser, by rw [if_pos rfl]⟩
    · simp
    · intro x hx hp
      rw [Table.mem_update] at hx
      obtain ⟨v, hv, rfl⟩ := hx
      by_cases hid : v.id = user.id
      · rw [if_pos hid, w.db.users.eq_of_key_eq hv huser hid]
      · rw [if_neg hid] at hp
        have h : v ∈ users_by_identity who w.db := (Table.mem_select _ _ _).mpr ⟨hv, hp⟩
        rw [found, List.mem_singleton] at h
        exact absurd (by rw [h]) hid
  | google_found query' who' user hcall hchecked found linked =>
    rw [call] at hcall
    cases hcall
    rw [checked] at hchecked
    cases hchecked
    exact ⟨user, found, rfl⟩

theorem event_of_callback {s : Step} {w w' : World} {r : Response} {query : CallbackQuery}
    {who : Identity} {user : User} {token : String} (call : s.call = .oauth_google_callback query)
    (checked : check_callback env query s.request s.draws = .passed who)
    (cookie : r.cookie SESSION_COOKIE_NAME = some token)
    (found : users_by_identity who w'.db = [user]) :
    event_of env s w r w' = some (.issued token user.id (opened_at s)) := by
  unfold event_of
  rw [call]
  dsimp only
  rw [checked, cookie]
  dsimp only
  rw [found]

theorem event_of_entered {s : Step} {w w₁ : World} {u : UUID} {r : Response}
    (h : Entrance env s w u r w₁) :
    event_of env s w r (w₁.commit [.insert_session (opened_session env s u)]) =
      some (.issued (s.draws.token_urlsafe 0) u (opened_at s)) := by
  have hgoogle : ∀ {query : CallbackQuery} {who : Identity},
      s.call = .oauth_google_callback query →
      check_callback env query s.request s.draws = .passed who →
      r = signed_in env (s.draws.token_urlsafe 0) s.draws →
      event_of env s w r (w₁.commit [.insert_session (opened_session env s u)]) =
        some (.issued (s.draws.token_urlsafe 0) u (opened_at s)) := by
    rintro query who call checked rfl
    obtain ⟨user, hu, rfl⟩ := identity_of_entrance env h call checked
    exact event_of_callback env call checked rfl hu
  cases h with
  | registered body call => unfold event_of; rw [call]; rfl
  | logged_in body user hash call => unfold event_of; rw [call]; rfl
  | google_created query who call checked => exact hgoogle call checked rfl
  | google_linked query who user call checked => exact hgoogle call checked rfl
  | google_found query who user call checked => exact hgoogle call checked rfl

theorem event_of_quiet {s : Step} {w : World} {r : Response} {w' : World} (h : Quiet s r) :
    event_of env s w r w' = none := by
  unfold Quiet at h
  unfold event_of
  cases hc : s.call with
  | register body =>
    rw [hc] at h
    dsimp only at h ⊢
    split
    · rename_i user message _ hb _
      exact absurd hb (h user message)
    · rfl
  | login body =>
    rw [hc] at h
    dsimp only at h ⊢
    split
    · rename_i hs _ _
      exact absurd hs h
    · rfl
  | oauth_google_callback query =>
    rw [hc] at h
    dsimp only at h ⊢
    have hnone : r.cookie SESSION_COOKIE_NAME = none := by
      unfold Response.cookie
      rw [h]
      rfl
    rw [hnone]
    split
    · rename_i ht
      cases ht
    · rfl
  | logout =>
    rw [hc] at h
    dsimp only at h ⊢
    split
    · rename_i token hs ht
      have he := h hs
      rw [ht] at he
      exact if_pos he
    · rfl
  | password_reset_complete body =>
    rw [hc] at h
    dsimp only at h ⊢
    split
    · rename_i hs _
      exact absurd hs h
    · rfl
  | _ => rfl

/-! ## The table and the history in step -/

/-- The strings of a log. -/
def tokens (log : List Event) : List String := log.flatMap Event.tokens

/-- The hash tells the strings apart. -/
def NoCollision (xs : List String) : Prop :=
  ∀ a ∈ xs, ∀ b ∈ xs, hash_token env a = hash_token env b → a = b

theorem NoCollision.mono {env : Env} {xs ys : List String} (h : NoCollision env ys)
    (hsub : xs ⊆ ys) : NoCollision env xs :=
  fun a ha b hb => h a (hsub ha) b (hsub hb)

/-- The log says that the token is a session of the user since the time. -/
def Standing (log : List Event) (token : String) (user_id : UUID) (time : Time) : Prop :=
  Stands (.issued token user_id time) (Event.ends token user_id) log

theorem token_of_standing {log : List Event} {x : String} {u : UUID} {t : Time}
    (h : Standing log x u t) : x ∈ tokens log :=
  List.mem_flatMap.mpr ⟨_, h.mem, by simp [Event.tokens]⟩

/-- The row of a session that was issued at a time. -/
def RowOf (r : Session) (token : String) (user_id : UUID) (time : Time) : Prop :=
  r.token_hash = hash_token env token ∧ r.user_id = user_id ∧
    r.expires_at = time + days env.settings.session_ttl_days

/-- Every row stands in the log, and every standing session has a row. -/
structure InStep (log : List Event) (db : DB) : Prop where
  sound : ∀ r ∈ db.sessions.rows, ∃ x u t, RowOf env r x u t ∧ Standing log x u t
  complete : ∀ x u t, Standing log x u t → ∃ r ∈ db.sessions.rows, RowOf env r x u t

theorem in_step_empty : InStep env [] .empty where
  sound := by intro r hr; cases hr
  complete := by intro x u t h; exact absurd h not_stands_nil

section
variable {env : Env} {log : List Event} {db : DB}

theorem standing_snoc {e : Event} {x : String} {u : UUID} {t : Time} :
    Standing (log ++ [e]) x u t ↔ e = .issued x u t ∨ Standing log x u t ∧ ¬ e.ends x u :=
  stands_snoc

/-- A new session. -/
theorem in_step_issued (h : InStep env log db) {x : String} {u id : UUID} {now : Time}
    (hfree : db.sessions.find id = none) :
    InStep env (log ++ [.issued x u now])
      (Change.apply (.insert_session (new_session env u x id now)) db) := by
  have hmem := Table.mem_insert_of_free (t := db.sessions) (r := new_session env u x id now) hfree
  constructor
  · intro r hr
    rcases (hmem r).mp hr with hr | rfl
    · obtain ⟨y, v, t, hrow, hs⟩ := h.sound r hr
      exact ⟨y, v, t, hrow, standing_snoc.mpr (Or.inr ⟨hs, fun he => he⟩)⟩
    · exact ⟨x, u, now, ⟨rfl, rfl, rfl⟩, standing_snoc.mpr (Or.inl rfl)⟩
  · intro y v t hs
    rcases standing_snoc.mp hs with he | ⟨hs, -⟩
    · cases he
      exact ⟨_, (hmem _).mpr (Or.inr rfl), rfl, rfl, rfl⟩
    · obtain ⟨r, hr, hrow⟩ := h.complete y v t hs
      exact ⟨r, (hmem r).mpr (Or.inl hr), hrow⟩

/-- A logout deletes the rows of the hash of its token. No other token of the log
has this hash. -/
theorem in_step_logged_out (h : InStep env log db) {x : String}
    (hhash : NoCollision env (tokens (log ++ [.logged_out x]))) :
    InStep env (log ++ [.logged_out x]) { db with
      sessions := db.sessions.deleteWhere fun s => decide (s.token_hash = hash_token env x) } := by
  have hx : x ∈ tokens (log ++ [.logged_out x]) := by simp [tokens, Event.tokens]
  constructor
  · intro r hr
    obtain ⟨hr, hne⟩ := Table.mem_deleteWhere.mp hr
    obtain ⟨y, v, t, hrow, hs⟩ := h.sound r hr
    refine ⟨y, v, t, hrow, standing_snoc.mpr (Or.inr ⟨hs, ?_⟩)⟩
    intro hxy
    have hxy : x = y := hxy
    rw [decide_eq_false_iff_not, hxy] at hne
    exact hne hrow.1
  · intro y v t hs
    rcases standing_snoc.mp hs with he | ⟨hs, hne⟩
    · cases he
    · obtain ⟨r, hr, hrow⟩ := h.complete y v t hs
      refine ⟨r, Table.mem_deleteWhere.mpr ⟨hr, ?_⟩, hrow⟩
      rw [decide_eq_false_iff_not, hrow.1]
      have hy : y ∈ tokens (log ++ [.logged_out x]) := by
        unfold tokens
        rw [List.flatMap_append]
        exact List.mem_append_left _ (token_of_standing hs)
      intro he
      exact hne (hhash y hy x hx he).symm

/-- A reset deletes the rows of its user. -/
theorem in_step_password_reset (h : InStep env log db) (v : UUID) :
    InStep env (log ++ [.password_reset v]) { db with
      sessions := db.sessions.deleteWhere fun s => decide (s.user_id = v) } := by
  constructor
  · intro r hr
    obtain ⟨hr, hne⟩ := Table.mem_deleteWhere.mp hr
    obtain ⟨y, u, t, hrow, hs⟩ := h.sound r hr
    refine ⟨y, u, t, hrow, standing_snoc.mpr (Or.inr ⟨hs, ?_⟩)⟩
    intro hvu
    have hvu : v = u := hvu
    rw [decide_eq_false_iff_not, hvu] at hne
    exact hne hrow.2.1
  · intro y u t hs
    rcases standing_snoc.mp hs with he | ⟨hs, hne⟩
    · cases he
    · obtain ⟨r, hr, hrow⟩ := h.complete y u t hs
      refine ⟨r, Table.mem_deleteWhere.mpr ⟨hr, ?_⟩, hrow⟩
      rw [decide_eq_false_iff_not, hrow.2.1]
      exact fun he => hne he.symm

theorem InStep.congr (h : InStep env log db) {db' : DB} (hs : db'.sessions = db.sessions) :
    InStep env log db' where
  sound := by rw [hs]; exact h.sound
  complete := by rw [hs]; exact h.complete

/-- A request that lets a user in leaves the sessions alone until the end. -/
theorem sessions_of_entrance {s : Step} {w w₁ : World} {u : UUID} {r : Response}
    (h : Entrance env s w u r w₁) : w₁.db.sessions = w.db.sessions := by
  cases h <;> rfl

/-- Every request keeps the table and the history in step. -/
theorem in_step_of_deed {s : Step} {w : World} {r : Response} {w' : World}
    (hd : AccountDeed env s w r w') (h : InStep env log w.db)
    (hhash : NoCollision env (tokens (log ++ (event_of env s w r w').toList))) :
    InStep env (log ++ (event_of env s w r w').toList) w'.db := by
  cases hd with
  | idle same quiet =>
    rw [event_of_quiet env quiet, Option.toList_none, List.append_nil]
    exact h.congr same.sessions
  | entered entrance opened =>
    rw [event_of_entered env entrance, Option.toList_some]
    obtain ⟨-, hfree, -⟩ := insert_session_ok opened
    exact in_step_issued (h.congr (sessions_of_entrance entrance)) hfree
  | stopped entrance e failed =>
    have quiet : Quiet s (Exn.db e).response :=
      quiet_error (by simp [Exn.response, json]) (by simp [Exn.response, json])
    rw [event_of_quiet env quiet, Option.toList_none, List.append_nil]
    exact h.congr (sessions_of_entrance entrance)
  | logged_out token call cookie given =>
    have he : event_of env s w auth.logged_out (World.without_session env w token) =
        some (.logged_out token) := by
      unfold event_of
      rw [call, cookie]
      exact if_neg given
    rw [he, Option.toList_some] at hhash ⊢
    exact in_step_logged_out h hhash
  | reset_requested body user call found has_password inserted =>
    have he : ∀ w', event_of env s w reset_requested w' = none := by
      intro w'
      unfold event_of
      rw [call]
    rw [he, Option.toList_none, List.append_nil]
    exact h.congr rfl
  | password_reset body prt user call found user_found =>
    have he : ∀ w', event_of env s w password_updated w' = some (.password_reset user.id) := by
      intro w'
      have hid : user.id = prt.user_id := Table.key_of_find user_found
      unfold event_of
      rw [call, hid]
      dsimp only
      rw [found]
      rfl
    rw [he, Option.toList_some]
    have hsame : InStep env log (w.commit [.set_password_hash user.id
        (hash_password env body.new_password s.draws.salt), .set_used_at prt.id (s.draws.now 0)]).db :=
      h.congr rfl
    exact in_step_password_reset hsame user.id

end

/-- Over a run the table and the history stay in step. -/
theorem in_step_of_run (steps : List Step) (log : List Event) (w : World) (h : InStep env log w.db)
    (hhash : NoCollision env (tokens (log ++ history env steps w))) :
    InStep env (log ++ history env steps w) (run env steps w).db := by
  induction steps generalizing log w with
  | nil => simpa [history] using h
  | cons s steps ih =>
    change InStep env (log ++ (_ ++ history env steps (s.after env w))) _
    rw [← List.append_assoc]
    have hsub : tokens (log ++ (Step.event env s w).toList) ⊆
        tokens (log ++ history env (s :: steps) w) := by
      intro x hx
      simp only [tokens, history, List.flatMap_append, List.mem_append] at hx ⊢
      tauto
    apply ih _ (s.after env w)
    · exact in_step_of_deed (account_deed_of_step env s w) h (hhash.mono hsub)
    · rw [List.append_assoc]
      exact hhash

/-! ## Whom a session cookie names -/

/-- The join has one row for the session and its user. -/
theorem session_users_eq {db : DB} (hv : Valid db) {x : String} {now : Time} {r : Session} {u : User}
    (hr : r ∈ db.sessions.rows) (hhash : r.token_hash = hash_token env x) (hnow : now < r.expires_at)
    (hu : db.users.find r.user_id = some u) : session_users env x now db = [u] := by
  have hmem := Table.mem_of_find hu
  have hid : u.id = r.user_id := Table.key_of_find hu
  have hjoin : ∀ v : User, (db.sessions.select fun s => decide
      (s.user_id = v.id ∧ s.token_hash = hash_token env x ∧ now < s.expires_at)).map (fun _ => v) =
      if decide (v.id = u.id) then [v] else [] := by
    intro v
    by_cases hvu : v.id = u.id
    · rw [if_pos (decide_eq_true hvu), Table.select_eq_singleton hr]
      · rfl
      · simp [hvu, hid, hhash, hnow]
      · intro y hy hp
        simp only [decide_eq_true_eq] at hp
        exact hv.unique_session_hash y hy r hr (hp.2.1.trans hhash.symm)
    · rw [if_neg (by simpa using hvu), List.map_eq_nil_iff, Table.select_eq_nil_iff]
      intro y hy
      rw [decide_eq_false_iff_not]
      rintro ⟨h1, h2, -⟩
      rw [hv.unique_session_hash y hy r hr (h2.trans hhash.symm)] at h1
      exact hvu (h1.symm.trans hid.symm)
  unfold session_users
  simp only [hjoin]
  rw [Table.flatMap_select]
  have hkey := Table.select_key db.users u.id
  rwa [Table.find_of_mem hmem] at hkey

/-- A cookie names the user of its row, until the row expires. -/
theorem session_user_iff {db : DB} (hv : Valid db) (x : String) (now : Time) (u : User) :
    session_user env (some x) now db = .ok u ↔
      ∃ r ∈ db.sessions.rows, r.token_hash = hash_token env x ∧ now < r.expires_at ∧
        db.users.find r.user_id = some u := by
  unfold session_user
  dsimp only
  constructor
  · intro h
    have hu : u ∈ session_users env x now db := by
      rcases hs : session_users env x now db with _ | ⟨a, _ | ⟨b, rest⟩⟩ <;> rw [hs] at h <;> cases h
      simp
    obtain ⟨hmem, r, hr, hid, hhash, hnow⟩ := (mem_session_users env).mp hu
    exact ⟨r, hr, hhash, hnow, by rw [hid]; exact Table.find_of_mem hmem⟩
  · rintro ⟨r, hr, hhash, hnow, hu⟩
    rw [session_users_eq env hv hr hhash hnow hu]

/-- `require_auth` with the cookie names the user at the time. -/
def Authenticates (w : World) (token : String) (time : Time) (user_id : UUID) : Prop :=
  ∃ user, ((require_auth env (some token)).run ⟨fun _ => time, w.db, [], w.store⟩).1 = .ok user ∧
    user.id = user_id

/-- The history decides whom a cookie names. -/
theorem authenticates_iff {log : List Event} {w : World} (hv : Valid w.db)
    (hstep : InStep env log w.db) {x : String} (hhash : NoCollision env (x :: tokens log))
    (time : Time) (u : UUID) :
    Authenticates env w x time u ↔ ∃ t0, Standing log x u t0 ∧
      time < t0 + days env.settings.session_ttl_days := by
  unfold Authenticates
  simp only [require_auth_run, session_user_iff env hv]
  constructor
  · rintro ⟨user, ⟨r, hr, hx, hnow, hu⟩, rfl⟩
    obtain ⟨y, v, t0, ⟨hy, hyu, hexp⟩, hs⟩ := hstep.sound r hr
    have hxy : x = y := hhash x (by simp) y (List.mem_cons_of_mem _ (token_of_standing hs))
      (hx.symm.trans hy)
    subst hxy
    have huv : user.id = v := (Table.key_of_find hu).trans hyu
    exact ⟨t0, huv ▸ hs, hexp ▸ hnow⟩
  · rintro ⟨t0, hs, hnow⟩
    obtain ⟨r, hr, hx, rfl, hexp⟩ := hstep.complete x u t0 hs
    obtain ⟨user, hu⟩ := Option.ne_none_iff_exists'.mp (hv.session_user r hr)
    exact ⟨user, ⟨r, hr, hx, hexp ▸ hnow, hu⟩, Table.key_of_find hu⟩

/-! ## Where the tokens come from -/

/-- The session token that a request draws. -/
def session_token (s : Step) : Option String :=
  match s.call with
  | .register _ | .login _ | .oauth_google_callback _ => some (s.draws.token_urlsafe 0)
  | _ => none

/-- No session token is drawn twice. -/
def FreshTokens (steps : List Step) : Prop := (steps.filterMap session_token).Nodup

section
variable {env : Env}

/-- Only the token that a request draws is issued. -/
theorem session_token_of_issued {s : Step} {w : World} {x : String} {u : UUID} {t : Time}
    (h : Step.event env s w = some (.issued x u t)) : session_token s = some x := by
  unfold Step.event at h
  have hd := account_deed_of_step env s w
  revert h hd
  generalize (s.handle env w).1 = r, (s.handle env w).2 = w'
  intro h hd
  cases hd with
  | idle same quiet => rw [event_of_quiet env quiet] at h; cases h
  | entered entrance opened =>
    rw [event_of_entered env entrance] at h
    cases h
    unfold session_token
    cases entrance with
    | registered body call => rw [call]
    | logged_in body user hash call => rw [call]
    | google_created query who call => rw [call]
    | google_linked query who user call => rw [call]
    | google_found query who user call => rw [call]
  | stopped entrance e failed =>
    have quiet : Quiet s (Exn.db e).response :=
      quiet_error (by simp [Exn.response, json]) (by simp [Exn.response, json])
    rw [event_of_quiet env quiet] at h
    cases h
  | logged_out token call cookie given =>
    unfold event_of at h
    rw [call] at h
    dsimp only at h
    split at h
    · split at h <;> cases h
    · cases h
  | reset_requested body user call => unfold event_of at h; rw [call] at h; cases h
  | password_reset body prt user call =>
    unfold event_of at h
    rw [call] at h
    dsimp only at h
    split at h <;> cases h

/-- An event of a run is the event of one of its requests. -/
theorem event_of_history {steps : List Step} {w : World} {e : Event}
    (h : e ∈ history env steps w) :
    ∃ a s b, steps = a ++ s :: b ∧ Step.event env s (run env a w) = some e := by
  induction steps generalizing w with
  | nil => cases h
  | cons s steps ih =>
    rcases List.mem_append.mp h with h | h
    · exact ⟨[], s, steps, rfl, by simpa using h⟩
    · obtain ⟨a, s', b, rfl, he⟩ := ih h
      exact ⟨s :: a, s', b, rfl, he⟩

theorem drawn_of_issued {steps : List Step} {w : World} {x : String} {u : UUID} {t : Time}
    (h : .issued x u t ∈ history env steps w) : x ∈ steps.filterMap session_token := by
  obtain ⟨a, s, b, rfl, he⟩ := event_of_history h
  exact List.mem_filterMap.mpr ⟨s, by simp, session_token_of_issued he⟩

/-- The reply to a taken address carries the token that it drew. -/
theorem decoy_cookie {s : Step} {w : World} {body : RegisterRequest} {message x : String}
    (call : s.call = .register body)
    (hbody : (s.handle env w).1.body = .registered none message)
    (hcookie : (s.handle env w).1.cookie SESSION_COOKIE_NAME = some x) :
    session_token s = some x ∧ Step.event env s w = none := by
  have hd := account_deed_of_step env s w
  unfold Step.event
  constructor
  · unfold session_token
    rw [call]
    rcases handle_cases env s w with ⟨r, h, hr⟩ | h
    · rw [h] at hcookie
      rcases hr with rfl | ⟨text, rfl⟩ <;> cases hcookie
    · have hreg : handler_of env s.call s.request s.draws = register env body s.draws := by
        rw [call]; rfl
      rw [h, hreg, register_effect] at hbody hcookie
      cases hrows : one_or_none (users_by_email body.email.val w.db) with
      | error e =>
        rw [hrows, one_or_none_error hrows] at hcookie
        cases hcookie
      | ok existing =>
        rw [hrows, proceed_ok] at hbody hcookie
        cases existing with
        | some u => exact hcookie
        | none =>
          dsimp only at hbody hcookie
          -- A new account answers with its user, or with an error that sets no cookie.
          rw [register_new_effect] at hbody hcookie
          unfold attempt at hbody hcookie
          cases hi : insert_user (new_user env body s.draws) w.db with
          | error e => rw [hi] at hcookie; cases hcookie
          | ok cs =>
            rw [hi] at hbody hcookie
            dsimp only at hbody hcookie
            split at hbody
            · cases hbody
            · rename_i hs
              rw [hs] at hcookie
              cases hcookie
  · unfold event_of
    rw [call]
    dsimp only
    rw [hbody]

/-- A token that a run issued is not issued again. -/
theorem not_issued_again {past future : List Step} {w : World}
    (hfresh : FreshTokens (past ++ future)) {x : String} {u v : UUID} {t t' : Time}
    (h : .issued x u t ∈ history env past w) :
    .issued x v t' ∉ history env future (run env past w) := by
  intro h'
  unfold FreshTokens at hfresh
  rw [List.filterMap_append, List.nodup_append] at hfresh
  exact hfresh.2.2 x (drawn_of_issued h) x (drawn_of_issued h') rfl

/-- The decoy is never issued in its run. -/
theorem decoy_not_issued {steps a b : List Step} {s : Step} (hsteps : steps = a ++ s :: b)
    (hfresh : FreshTokens steps) {w : World} {x : String} (hx : session_token s = some x)
    (hs : Step.event env s (run env a w) = none) (u : UUID) (t : Time) :
    .issued x u t ∉ history env steps w := by
  subst hsteps
  intro h
  have hx' : x ∈ (s :: b).filterMap session_token := List.mem_filterMap.mpr ⟨s, by simp, hx⟩
  unfold FreshTokens at hfresh
  rw [List.filterMap_append, List.nodup_append] at hfresh
  rw [history_append] at h
  rcases List.mem_append.mp h with h | h
  · exact hfresh.2.2 x (drawn_of_issued h) x hx' rfl
  · change _ ∈ (Step.event env s _).toList ++ _ at h
    rw [hs, Option.toList_none, List.nil_append] at h
    have hnodup := hfresh.2.1
    rw [List.filterMap_cons_some hx, List.nodup_cons] at hnodup
    exact hnodup.1 (drawn_of_issued h)

end

theorem reachable_run (steps : List Step) : Reachable env (run env steps .empty) := ⟨steps, rfl⟩

/-- The history decides whom a cookie names, after every run. -/
theorem authenticates_after_run {env : Env} {steps : List Step} {x : String}
    (hhash : NoCollision env (x :: tokens (history env steps .empty))) (time : Time) (u : UUID) :
    Authenticates env (run env steps .empty) x time u ↔
      ∃ t0, Standing (history env steps .empty) x u t0 ∧
        time < t0 + days env.settings.session_ttl_days := by
  apply authenticates_iff env (valid_of_reachable env (reachable_run env steps)) _ hhash
  have h := in_step_of_run env steps [] .empty (in_step_empty env)
  simp only [List.nil_append] at h
  exact h (hhash.mono (List.subset_cons_self _ _))

/-! ## The characterization -/

/-- A cookie names a user if and only if a request let the user in with it, it has
not expired, and since then no logout presented it and no reset succeeded for
the user. So a decoy names nobody, a logout ends one token, a reset ends the
tokens of one user, and a token that has ended stays so. -/
theorem the_history_decides_the_sessions (env : Env) (past future : List Step) (x : String)
    (hhash : NoCollision env (x :: tokens (history env (past ++ future) .empty))) :
    (∀ time u, Authenticates env (run env past .empty) x time u ↔
      ∃ t0, Standing (history env past .empty) x u t0 ∧
        time < t0 + days env.settings.session_ttl_days) ∧
    (FreshTokens past → ∀ a s b body message, past = a ++ s :: b → s.call = .register body →
      (s.handle env (run env a .empty)).1.body = .registered none message →
      (s.handle env (run env a .empty)).1.cookie SESSION_COOKIE_NAME = some x →
      ∀ time u, ¬ Authenticates env (run env past .empty) x time u) ∧
    (∀ s rest y, future = s :: rest →
      Step.event env s (run env past .empty) = some (.logged_out y) → y ≠ x →
      ∀ time u, Authenticates env (run env (past ++ [s]) .empty) x time u ↔
        Authenticates env (run env past .empty) x time u) ∧
    (∀ s rest v, future = s :: rest →
      Step.event env s (run env past .empty) = some (.password_reset v) →
      ∀ time, ¬ Authenticates env (run env (past ++ [s]) .empty) x time v ∧
        ∀ u, u ≠ v → (Authenticates env (run env (past ++ [s]) .empty) x time u ↔
          Authenticates env (run env past .empty) x time u)) ∧
    (FreshTokens (past ++ future) → (∃ u t0, .issued x u t0 ∈ history env past .empty) →
      ∀ time later, time ≤ later → (∀ u, ¬ Authenticates env (run env past .empty) x time u) →
      ∀ u, ¬ Authenticates env (run env (past ++ future) .empty) x later u) := by
  have hsub : ∀ a b, past ++ future = a ++ b →
      NoCollision env (x :: tokens (history env a .empty)) := by
    intro a b hab
    refine hhash.mono (List.cons_subset_cons x ?_)
    rw [hab, history_append]
    unfold tokens
    rw [List.flatMap_append]
    exact List.subset_append_left _ _
  have hpast := hsub past future rfl
  have hevent : ∀ s rest e, future = s :: rest → Step.event env s (run env past .empty) = some e →
      history env (past ++ [s]) .empty = history env past .empty ++ [e] ∧
        NoCollision env (x :: tokens (history env (past ++ [s]) .empty)) := by
    rintro s rest e rfl he
    constructor
    · rw [history_append]
      change _ ++ ((Step.event env s (run env past .empty)).toList ++ []) = _
      rw [he]
      rfl
    · exact hsub (past ++ [s]) rest (by simp)
  refine ⟨fun time u => authenticates_after_run hpast time u, ?_, ?_, ?_, ?_⟩
  · intro hfresh a s b body message hsteps call hbody hcookie time u h
    obtain ⟨hx, hs⟩ := decoy_cookie call hbody hcookie
    obtain ⟨t0, hstand, -⟩ := (authenticates_after_run hpast time u).mp h
    exact decoy_not_issued hsteps hfresh hx hs u t0 hstand.mem
  · intro s rest y hfuture he hne time u
    obtain ⟨hlog, hs⟩ := hevent s rest _ hfuture he
    rw [authenticates_after_run hs, authenticates_after_run hpast, hlog]
    simp [standing_snoc, Event.ends, hne]
  · intro s rest v hfuture he time
    obtain ⟨hlog, hs⟩ := hevent s rest _ hfuture he
    constructor
    · rw [authenticates_after_run hs, hlog]
      simp [standing_snoc, Event.ends]
    · intro u hu
      rw [authenticates_after_run hs, authenticates_after_run hpast, hlog]
      simp [standing_snoc, Event.ends, hu.symm]
  · rintro hfresh ⟨v, t, hissued⟩ time later hle hdead u h
    rw [authenticates_after_run hhash] at h
    obtain ⟨t0, hstand, hlater⟩ := h
    rw [history_append] at hstand
    rcases stands_append.mp hstand with h | ⟨h, -⟩
    · exact not_issued_again hfresh hissued h.mem
    · exact hdead u ((authenticates_after_run hpast time u).mpr ⟨t0, h, lt_of_le_of_lt hle hlater⟩)

/-- Ann registers, and her cookie names her. -/
theorem ann_is_known_by_her_cookie :
    NoCollision .sample ("a" :: tokens (history .sample ([ann_registers "a" 1] ++ []) .empty)) ∧
      Authenticates .sample (run .sample [ann_registers "a" 1] .empty) "a" 0 1 := by
  have hhash : NoCollision .sample
      ("a" :: tokens (history .sample ([ann_registers "a" 1] ++ []) .empty)) := fun _ _ _ _ h => h
  have hlog : history .sample [ann_registers "a" 1] .empty = [.issued "a" 1 0] := by decide
  have hiff := (the_history_decides_the_sessions .sample [ann_registers "a" 1] [] "a" hhash).1 0 1
  rw [hlog] at hiff
  exact ⟨hhash, hiff.mpr ⟨0, stands_singleton.mpr rfl, by decide⟩⟩

end shared_todos.session_history
