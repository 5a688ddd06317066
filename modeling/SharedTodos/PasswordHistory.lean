-- The passwords and the history of the requests: a login is accepted if and
-- only if its password is the latest one that was set for the account, at the
-- registration that created it or by a reset. An account that Google created
-- never has one, for no reset token is ever handed out for it.
import SharedTodos.AccountDeeds
import SharedTodos.Library.EventLog

open keyed_table transactions event_log
open shared_todos.models shared_todos.http shared_todos.http.handler
open shared_todos.sessions shared_todos.rate_limiter shared_todos.auth shared_todos.oauth
open shared_todos.csrf shared_todos.app shared_todos.accounts

namespace shared_todos.password_history

variable (env : Env)

/-! ## The history -/

/-- The account for which a request set a password, and the password. A register
sets it for the account that it creates, a reset for the account of its token. -/
def set_by (s : Step) (w : World) (r : Response) (w' : World) : Option (UUID × String) :=
  match s.call with
  | .register body =>
    match w.db.users.find s.draws.row_id, w'.db.users.find s.draws.row_id with
    | none, some user => some (user.id, body.password)
    | _, _ => none
  | .password_reset_complete body =>
    match r.status_code, usable_tokens (hash_token env body.token) (s.draws.now 0) w.db with
    | 200, [prt] => some (prt.user_id, body.new_password)
    | _, _ => none
  | _ => none

def Step.sets (s : Step) (w : World) : Option (UUID × String) :=
  set_by env s w (s.handle env w).1 (s.handle env w).2

/-- The passwords that a run from `w` set. -/
def history : List Step → World → List (UUID × String)
  | [], _ => []
  | s :: steps, w => (Step.sets env s w).toList ++ history steps (s.after env w)

/-- The latest password that was set for the account. -/
def Latest (log : List (UUID × String)) (user_id : UUID) (password : String) : Prop :=
  Stands (user_id, password) (fun e => e.1 = user_id) log

variable {env} in
theorem latest_snoc {log : List (UUID × String)} {e : UUID × String} {u : UUID} {p : String} :
    Latest (log ++ [e]) u p ↔ e = (u, p) ∨ Latest log u p ∧ e.1 ≠ u := stands_snoc

theorem latest_unique {log : List (UUID × String)} {u : UUID} {p q : String}
    (hp : Latest log u p) (hq : Latest log u q) : p = q :=
  (Prod.mk.inj (stands_unique hp hq rfl rfl)).2

/-! ## The table and the history in step -/

/-- Every stored hash is one of the latest password, every latest password is
stored, and a reset token belongs to an account with a password. -/
structure InStep (log : List (UUID × String)) (db : DB) : Prop where
  sound : ∀ a ∈ db.users.rows, ∀ h, a.password_hash = some h →
    ∃ p salt, h = env.ph_hash p salt ∧ Latest log a.id p
  complete : ∀ u p, Latest log u p → ∃ a ∈ db.users.rows, a.id = u ∧ a.password_hash ≠ none
  reset_tokens : ∀ t ∈ db.password_reset_tokens.rows, ∀ a ∈ db.users.rows, a.id = t.user_id →
    a.password_hash ≠ none

theorem in_step_empty : InStep env [] .empty where
  sound := by intro a ha; cases ha
  complete := by intro u p h; exact absurd h not_stands_nil
  reset_tokens := by intro t ht; cases ht

section
variable {env : Env} {log : List (UUID × String)} {db : DB}

theorem InStep.congr (h : InStep env log db) {db' : DB} (hu : db'.users = db.users)
    (ht : db'.password_reset_tokens = db.password_reset_tokens) : InStep env log db' where
  sound := by rw [hu]; exact h.sound
  complete := by rw [hu]; exact h.complete
  reset_tokens := by rw [hu, ht]; exact h.reset_tokens

/-- An account that is new has no password in the log, and no reset token. -/
theorem nothing_of_free (h : InStep env log db) (hv : Valid db) {id : UUID}
    (hfree : db.users.find id = none) :
    (∀ p, ¬ Latest log id p) ∧ ∀ t ∈ db.password_reset_tokens.rows, t.user_id ≠ id := by
  constructor
  · intro p hp
    obtain ⟨a, ha, hid, -⟩ := h.complete id p hp
    rw [← hid, Table.find_of_mem ha] at hfree
    cases hfree
  · rintro t ht rfl
    exact hv.reset_user t ht hfree

/-- A registration. -/
theorem in_step_registered (h : InStep env log db) (hv : Valid db) {user : User} {p salt : String}
    (hfree : db.users.find user.id = none)
    (hhash : user.password_hash = some (env.ph_hash p salt)) :
    InStep env (log ++ [(user.id, p)]) (Change.apply (.insert_user user) db) := by
  have hmem := Table.mem_insert_of_free hfree
  obtain ⟨-, htokens⟩ := nothing_of_free h hv hfree
  have hold : ∀ a ∈ db.users.rows, user.id ≠ a.id := by
    intro a ha hid
    rw [hid, Table.find_of_mem ha] at hfree
    cases hfree
  constructor
  · intro a ha hash hhash'
    rcases (hmem a).mp ha with ha | rfl
    · obtain ⟨q, salt', hq, hl⟩ := h.sound a ha hash hhash'
      exact ⟨q, salt', hq, latest_snoc.mpr (Or.inr ⟨hl, hold a ha⟩)⟩
    · rw [hhash] at hhash'
      cases hhash'
      exact ⟨p, salt, rfl, latest_snoc.mpr (Or.inl rfl)⟩
  · intro u q hl
    rcases latest_snoc.mp hl with he | ⟨hl, -⟩
    · cases he
      exact ⟨user, (hmem user).mpr (Or.inr rfl), rfl, by simp [hhash]⟩
    · obtain ⟨a, ha, hid, hne⟩ := h.complete u q hl
      exact ⟨a, (hmem a).mpr (Or.inl ha), hid, hne⟩
  · intro t ht a ha hid
    rcases (hmem a).mp ha with ha | rfl
    · exact h.reset_tokens t ht a ha hid
    · exact absurd hid.symm (htokens t ht)

/-- An account that Google created. -/
theorem in_step_google_created (h : InStep env log db) (hv : Valid db) {user : User}
    (hfree : db.users.find user.id = none) (hhash : user.password_hash = none) :
    InStep env log (Change.apply (.insert_user user) db) := by
  have hmem := Table.mem_insert_of_free hfree
  obtain ⟨-, htokens⟩ := nothing_of_free h hv hfree
  constructor
  · intro a ha hash hhash'
    rcases (hmem a).mp ha with ha | rfl
    · exact h.sound a ha hash hhash'
    · rw [hhash] at hhash'
      cases hhash'
  · intro u q hl
    obtain ⟨a, ha, hid, hne⟩ := h.complete u q hl
    exact ⟨a, (hmem a).mpr (Or.inl ha), hid, hne⟩
  · intro t ht a ha hid
    rcases (hmem a).mp ha with ha | rfl
    · exact h.reset_tokens t ht a ha hid
    · exact absurd hid.symm (htokens t ht)

/-- A link with Google changes no password. -/
theorem in_step_google_linked (h : InStep env log db) (id : UUID) (sub : String) :
    InStep env log (Change.apply (.set_google_sub id sub) db) := by
  have hmem : ∀ a ∈ (Change.apply (.set_google_sub id sub) db).users.rows,
      ∃ b ∈ db.users.rows, b.id = a.id ∧ b.password_hash = a.password_hash := by
    intro a ha
    simp only [Change.apply, Table.mem_update] at ha
    obtain ⟨b, hb, rfl⟩ := ha
    refine ⟨b, hb, ?_⟩
    split <;> exact ⟨rfl, rfl⟩
  constructor
  · intro a ha hash hhash
    obtain ⟨b, hb, hid, hp⟩ := hmem a ha
    rw [← hid]
    exact h.sound b hb hash (hp.trans hhash)
  · intro u q hl
    obtain ⟨a, ha, hid, hne⟩ := h.complete u q hl
    refine ⟨if a.id = id then { a with google_sub := some sub } else a, ?_, ?_⟩
    · simp only [Change.apply, Table.mem_update]
      exact ⟨a, ha, rfl⟩
    · split <;> exact ⟨hid, hne⟩
  · intro t ht a ha hid
    obtain ⟨b, hb, hid', hp⟩ := hmem a ha
    rw [← hp]
    exact h.reset_tokens t ht b hb (hid'.trans hid)

/-- A reset token for an account with a password. -/
theorem in_step_reset_requested (h : InStep env log db) {user : User} (huser : user ∈ db.users.rows)
    (hne : user.password_hash ≠ none) {t : PasswordResetToken} (ht : t.user_id = user.id)
    (hfree : db.password_reset_tokens.find t.id = none) :
    InStep env log (Change.apply (.insert_reset_token t) db) where
  sound := h.sound
  complete := h.complete
  reset_tokens := by
    intro x hx a ha hid
    rcases (Table.mem_insert_of_free hfree x).mp hx with hx | rfl
    · exact h.reset_tokens x hx a ha hid
    · rwa [db.users.eq_of_key_eq ha huser (hid.trans ht)]

/-- A reset. -/
theorem in_step_password_reset (h : InStep env log db) {user : User} (huser : user ∈ db.users.rows)
    (p salt : String) (prt_id : UUID) (now : Time) :
    InStep env (log ++ [(user.id, p)]) (Change.apply (.set_used_at prt_id now)
      (Change.apply (.set_password_hash user.id (env.ph_hash p salt)) db)) := by
  constructor
  · intro a ha hash hhash
    simp only [Change.apply, Table.mem_update] at ha
    obtain ⟨b, hb, rfl⟩ := ha
    by_cases hid : b.id = user.id
    · rw [if_pos hid] at hhash ⊢
      cases hhash
      exact ⟨p, salt, rfl, latest_snoc.mpr (Or.inl (by rw [← hid]))⟩
    · rw [if_neg hid] at hhash ⊢
      obtain ⟨q, salt', hq, hl⟩ := h.sound b hb hash hhash
      exact ⟨q, salt', hq, latest_snoc.mpr (Or.inr ⟨hl, fun he => hid he.symm⟩)⟩
  · intro u q hl
    have hex : ∃ a ∈ db.users.rows, a.id = u ∧ (a.id = user.id ∨ a.password_hash ≠ none) := by
      rcases latest_snoc.mp hl with he | ⟨hl, -⟩
      · cases he
        exact ⟨user, huser, rfl, Or.inl rfl⟩
      · obtain ⟨a, ha, hid, hne⟩ := h.complete u q hl
        exact ⟨a, ha, hid, Or.inr hne⟩
    obtain ⟨a, ha, hid, hcase⟩ := hex
    refine ⟨if a.id = user.id then { a with password_hash := some (env.ph_hash p salt) } else a,
      ?_, ?_⟩
    · simp only [Change.apply, Table.mem_update]
      exact ⟨a, ha, rfl⟩
    · split
      · exact ⟨hid, by simp⟩
      · rename_i hne
        exact ⟨hid, hcase.resolve_left hne⟩
  · intro t ht a ha hid
    simp only [Change.apply, Table.mem_update] at ht ha
    obtain ⟨t₀, ht₀, rfl⟩ := ht
    obtain ⟨b, hb, rfl⟩ := ha
    have htid : (if t₀.id = prt_id then { t₀ with used_at := some now } else t₀).user_id =
        t₀.user_id := by split <;> rfl
    rw [htid] at hid
    by_cases hbid : b.id = user.id
    · rw [if_pos hbid]
      simp
    · rw [if_neg hbid] at hid ⊢
      exact h.reset_tokens t₀ ht₀ b hb hid

/-- A request that lets a user in, whether or not the session is opened. -/
theorem in_step_of_entrance {s : Step} {w w₁ w' : World} {u : UUID} {r r' : Response}
    (he : Entrance env s w u r w₁) (hv : Valid w.db) (h : InStep env log w.db)
    (hu : w'.db.users = w₁.db.users)
    (ht : w'.db.password_reset_tokens = w₁.db.password_reset_tokens) :
    InStep env (log ++ (set_by env s w r' w').toList) w'.db := by
  apply InStep.congr _ hu ht
  cases he with
  | registered body call unknown inserted =>
    obtain ⟨-, -, hfree, -⟩ := insert_user_ok inserted
    have hfree : w.db.users.find s.draws.row_id = none := hfree
    have hfound : w'.db.users.find s.draws.row_id = some (new_user env body s.draws) := by
      rw [hu]
      simp only [World.commit, Prog.applyAll_cons, Prog.applyAll_nil, apply_eq, Change.apply]
      rw [Table.find_insert_of_free hfree]
      exact if_pos rfl
    have hset : set_by env s w r' w' = some (s.draws.row_id, body.password) := by
      unfold set_by
      rw [call]
      dsimp only
      rw [hfree, hfound]
      rfl
    have hhash : (new_user env body s.draws).password_hash =
        some (env.ph_hash body.password s.draws.salt) := rfl
    rw [hset, Option.toList_some]
    exact in_step_registered h hv hfree hhash
  | logged_in body user hash call =>
    have hset : set_by env s w r' w' = none := by unfold set_by; rw [call]
    rw [hset, Option.toList_none, List.append_nil]
    exact h
  | google_created query who call checked unknown inserted =>
    have hset : set_by env s w r' w' = none := by unfold set_by; rw [call]
    obtain ⟨-, -, hfree, -⟩ := insert_user_ok inserted
    rw [hset, Option.toList_none, List.append_nil]
    exact in_step_google_created h hv hfree rfl
  | google_linked query who user call =>
    have hset : set_by env s w r' w' = none := by unfold set_by; rw [call]
    rw [hset, Option.toList_none, List.append_nil]
    exact in_step_google_linked h user.id who.google_sub
  | google_found query who user call =>
    have hset : set_by env s w r' w' = none := by unfold set_by; rw [call]
    rw [hset, Option.toList_none, List.append_nil]
    exact h

/-- A quiet request that leaves the users alone sets no password. -/
theorem set_by_quiet {s : Step} {w w' : World} {r : Response} (quiet : Quiet s r)
    (hu : w'.db.users = w.db.users) : set_by env s w r w' = none := by
  unfold set_by
  unfold Quiet at quiet
  cases hc : s.call with
  | register body =>
    dsimp only
    rw [hu]
    cases w.db.users.find s.draws.row_id <;> rfl
  | password_reset_complete body =>
    rw [hc] at quiet
    dsimp only at quiet ⊢
    split
    · rename_i hs _
      exact absurd hs quiet
    · rfl
  | _ => rfl

/-- Every request keeps the accounts and the history in step. -/
theorem in_step_of_deed {s : Step} {w : World} {r : Response} {w' : World}
    (hd : AccountDeed env s w r w') (hv : Valid w.db) (h : InStep env log w.db) :
    InStep env (log ++ (set_by env s w r w').toList) w'.db := by
  cases hd with
  | idle same quiet =>
    rw [set_by_quiet quiet same.users, Option.toList_none, List.append_nil]
    exact h.congr same.users same.password_reset_tokens
  | entered entrance opened => exact in_step_of_entrance entrance hv h rfl rfl
  | stopped entrance e failed => exact in_step_of_entrance entrance hv h rfl rfl
  | logged_out token call cookie given =>
    have hset : ∀ r w', set_by env s w r w' = none := by intro r w'; unfold set_by; rw [call]
    rw [hset, Option.toList_none, List.append_nil]
    exact h.congr rfl rfl
  | reset_requested body user call found has_password inserted =>
    have hset : ∀ r w', set_by env s w r w' = none := by intro r w'; unfold set_by; rw [call]
    have huser : user ∈ w.db.users.rows := by
      have hm : user ∈ users_by_email body.email.val w.db := by rw [found]; simp
      exact ((Table.mem_select _ _ _).mp hm).1
    obtain ⟨-, hfree, -⟩ := insert_reset_token_ok inserted
    rw [hset, Option.toList_none, List.append_nil]
    exact in_step_reset_requested h huser has_password rfl hfree
  | password_reset body prt user call found user_found =>
    have hset : ∀ w', set_by env s w password_updated w' = some (user.id, body.new_password) := by
      intro w'
      have hid : user.id = prt.user_id := Table.key_of_find user_found
      unfold set_by
      rw [call, hid]
      dsimp only
      rw [found]
      rfl
    rw [hset, Option.toList_some]
    exact (in_step_password_reset h (Table.mem_of_find user_found) body.new_password s.draws.salt
      prt.id (s.draws.now 0)).congr rfl rfl

end

/-- Over a run the accounts and the history stay in step. -/
theorem in_step_of_run (steps : List Step) (log : List (UUID × String)) (w : World)
    (hv : Valid w.db) (h : InStep env log w.db) :
    InStep env (log ++ history env steps w) (run env steps w).db := by
  induction steps generalizing log w with
  | nil => simpa [history] using h
  | cons s steps ih =>
    change InStep env (log ++ (_ ++ history env steps (s.after env w))) _
    rw [← List.append_assoc]
    exact ih _ (s.after env w) (valid_after env hv s)
      (in_step_of_deed (account_deed_of_step env s w) hv h)

theorem in_step_after_run (steps : List Step) :
    InStep env (history env steps .empty) (run env steps .empty).db := by
  have h := in_step_of_run env steps [] .empty valid_empty (in_step_empty env)
  rwa [List.nil_append] at h

/-! ## The login -/

/-- A login is exempt from the double submit check. -/
theorem login_is_handled {s : Step} {body : LoginRequest} (call : s.call = .login body)
    (w : World) :
    s.handle env w = perform (login env body s.request s.draws) s.draws.now w := by
  unfold Step.handle
  rw [call]
  rfl

section
variable {env : Env}

/-- A login that passes the limiter is accepted if and only if its password is
the one of the stored hash. -/
theorem login_status {s : Step} {w : World} {body : LoginRequest} (call : s.call = .login body)
    (hv : Valid w.db) (hfresh : FreshSession env s w.db)
    (hopen : ¬ Locked env s.request (s.draws.now 0) w.store) {a : User} (ha : a ∈ w.db.users.rows)
    (he : a.email = body.email.val) :
    (s.handle env w).1.status_code = 200 ↔
      ∃ h, a.password_hash = some h ∧ env.ph_verify h body.password = .verified := by
  rw [login_is_handled env call, login_effect, if_neg hopen, ← he, users_by_email_eq hv ha]
  change (perform (login_found env body s.request s.draws (some a)) _ w).1.status_code = 200 ↔ _
  rw [login_found_effect]
  dsimp only [Option.bind_some]
  cases hp : a.password_hash with
  | none =>
    dsimp only
    have h401 : ∀ c, (perform (login_rejected env s.request) c w).1.status_code = 401 :=
      fun _ => rfl
    cases env.ph_verify env.dummy_hash body.password <;> simp [h401, Exn.response, json]
  | some h =>
    dsimp only
    have h401 : ∀ c, (perform (login_rejected env s.request) c w).1.status_code = 401 :=
      fun _ => rfl
    have hfind : w.db.users.find a.id ≠ none := by rw [Table.find_of_mem ha]; simp
    cases hver : env.ph_verify h body.password with
    | verified =>
      dsimp only
      have hs : insert_session (new_session env a.id (s.draws.token_urlsafe 0) s.draws.session_id
          (s.draws.now (1 + 1))) (World.reset_logins env s.request w).db = .ok _ :=
        insert_fresh_session hfresh hfind _
      rw [login_accepted_effect, attempt_ok hs]
      simp [logged_in, hver]
    | mismatch => simp [h401, hver]
    | error => simp [Exn.response, json, hver]

/-- A login of a stored account is accepted if and only if its password is the
latest one. -/
theorem accepts_latest
    (hverify : ∀ p salt q, env.ph_verify (env.ph_hash p salt) q = .verified ↔ p = q)
    {log : List (UUID × String)} {db : DB} (h : InStep env log db) {a : User}
    (ha : a ∈ db.users.rows) (p : String) :
    (∃ hash, a.password_hash = some hash ∧ env.ph_verify hash p = .verified) ↔
      a.password_hash ≠ none ∧ Latest log a.id p := by
  constructor
  · rintro ⟨hash, hhash, hver⟩
    obtain ⟨q, salt, rfl, hl⟩ := h.sound a ha hash hhash
    rw [hverify] at hver
    exact ⟨by simp [hhash], hver ▸ hl⟩
  · rintro ⟨hne, hl⟩
    obtain ⟨hash, hhash⟩ := Option.ne_none_iff_exists'.mp hne
    obtain ⟨q, salt, rfl, hq⟩ := h.sound a ha hash hhash
    exact ⟨_, hhash, (hverify q salt p).mpr (latest_unique hq hl)⟩

/-! ## What a request does with a stored account -/

/-- The account is still there, with its email and its password. -/
def Keeps (a : User) (db : DB) : Prop :=
  ∃ b ∈ db.users.rows, b.id = a.id ∧ b.email = a.email ∧ b.password_hash = a.password_hash

theorem keeps_insert {db : DB} {a user : User} (ha : a ∈ db.users.rows)
    (hfree : db.users.find user.id = none) : Keeps a (Change.apply (.insert_user user) db) :=
  ⟨a, (Table.mem_insert_of_free hfree a).mpr (Or.inl ha), rfl, rfl, rfl⟩

theorem keeps_google_sub {db : DB} {a : User} (ha : a ∈ db.users.rows) (id : UUID) (sub : String) :
    Keeps a (Change.apply (.set_google_sub id sub) db) := by
  refine ⟨if a.id = id then { a with google_sub := some sub } else a, ?_, ?_⟩
  · simp only [Change.apply, Table.mem_update]
    exact ⟨a, ha, rfl⟩
  · split <;> exact ⟨rfl, rfl, rfl⟩

theorem keeps_of_entrance {s : Step} {w w₁ : World} {u : UUID} {r : Response}
    (he : Entrance env s w u r w₁) {a : User} (ha : a ∈ w.db.users.rows) : Keeps a w₁.db := by
  cases he with
  | registered body call unknown inserted =>
    obtain ⟨-, -, hfree, -⟩ := insert_user_ok inserted
    exact keeps_insert ha hfree
  | google_created query who call checked unknown inserted =>
    obtain ⟨-, -, hfree, -⟩ := insert_user_ok inserted
    exact keeps_insert ha hfree
  | google_linked query who user => exact keeps_google_sub ha user.id who.google_sub
  | _ => exact ⟨a, ha, rfl, rfl, rfl⟩

/-- Only a reset for the account changes its password. -/
theorem keeps_of_deed {s : Step} {w : World} {r : Response} {w' : World}
    (hd : AccountDeed env s w r w') {a : User} (ha : a ∈ w.db.users.rows) :
    Keeps a w'.db ∨ ∃ body, s.call = .password_reset_complete body ∧ r.status_code = 200 ∧
      ∃ prt ∈ w.db.password_reset_tokens.rows, prt.user_id = a.id := by
  cases hd with
  | idle same quiet =>
    refine Or.inl ⟨a, ?_, rfl, rfl, rfl⟩
    rw [same.users]
    exact ha
  | entered entrance opened => exact Or.inl (keeps_of_entrance entrance ha)
  | stopped entrance e failed => exact Or.inl (keeps_of_entrance entrance ha)
  | logged_out token call cookie given => exact Or.inl ⟨a, ha, rfl, rfl, rfl⟩
  | reset_requested body user call => exact Or.inl ⟨a, ha, rfl, rfl, rfl⟩
  | password_reset body prt user call found user_found =>
    by_cases hid : a.id = user.id
    · refine Or.inr ⟨body, call, rfl, prt, ?_, ?_⟩
      · have hm : prt ∈ usable_tokens (hash_token env body.token) (s.draws.now 0) w.db := by
          rw [found]; simp
        exact ((Table.mem_select _ _ _).mp hm).1
      · exact (Table.key_of_find user_found).symm.trans hid.symm
    · refine Or.inl ⟨a, ?_, rfl, rfl, rfl⟩
      simp only [World.after_reset, World.commit, Prog.applyAll_cons, Prog.applyAll_nil, apply_eq,
        Change.apply, Table.mem_update]
      exact ⟨a, ha, by rw [if_neg hid]⟩

end

/-- The account is there and has no password. -/
def Passwordless (user_id : UUID) (db : DB) : Prop :=
  ∃ a ∈ db.users.rows, a.id = user_id ∧ a.password_hash = none

/-- No reset token is handed out for an account without a password, so it stays so. -/
theorem passwordless_stays {u : UUID} (past future : List Step)
    (h : Passwordless u (run env past .empty).db) :
    Passwordless u (run env (past ++ future) .empty).db := by
  induction future generalizing past with
  | nil => simpa using h
  | cons s future ih =>
    rw [show past ++ s :: future = (past ++ [s]) ++ future by simp]
    apply ih
    obtain ⟨a, ha, rfl, hp⟩ := h
    rw [run_append]
    rcases keeps_of_deed (account_deed_of_step env s (run env past .empty)) ha with hk | hr
    · obtain ⟨b, hb, hid, -, hbp⟩ := hk
      exact ⟨b, hb, hid, hbp.trans hp⟩
    · obtain ⟨body, -, -, prt, hprt, hid⟩ := hr
      exact absurd hp ((in_step_after_run env past).reset_tokens prt hprt a ha hid.symm)

/-- The account that a callback creates has no password. -/
theorem passwordless_of_callback {s : Step} {w : World} {query : CallbackQuery} {u : UUID}
    (call : s.call = .oauth_google_callback query) (hold : w.db.users.find u = none)
    (hnew : (s.after env w).db.users.find u ≠ none) : Passwordless u (s.after env w).db := by
  unfold Step.after at hnew ⊢
  have hd := account_deed_of_step env s w
  revert hnew hd
  generalize (s.handle env w).1 = r, (s.handle env w).2 = w'
  intro hnew hd
  -- The users of the entrance; the session that follows leaves them alone.
  have hentrance : ∀ {v : UUID} {r : Response} {w₁ : World}, Entrance env s w v r w₁ →
      w₁.db.users.find u ≠ none → Passwordless u w₁.db := by
    intro v r w₁ he hne
    cases he with
    | registered body hcall => rw [call] at hcall; cases hcall
    | logged_in body user hash hcall => rw [call] at hcall; cases hcall
    | google_created query who hcall checked unknown inserted =>
      obtain ⟨-, -, hfree, -⟩ := insert_user_ok inserted
      simp only [World.commit, Prog.applyAll_cons, Prog.applyAll_nil, apply_eq, Change.apply] at hne
      rw [Table.find_insert_of_free hfree] at hne
      by_cases hid : (google_user who s.draws).id = u
      · exact ⟨_, (Table.mem_insert_of_free hfree _).mpr (Or.inr rfl), hid, rfl⟩
      · rw [if_neg hid] at hne
        exact absurd hold hne
    | google_linked query who user hcall checked found unlinked linked =>
      simp only [World.commit, Prog.applyAll_cons, Prog.applyAll_nil, apply_eq, Change.apply, ne_eq,
        Table.find_update_eq_none] at hne
      exact absurd hold hne
    | google_found query who user => exact absurd hold hne
  cases hd with
  | idle same quiet =>
    rw [same.users] at hnew
    exact absurd hold hnew
  | @entered v r w₁ entrance opened =>
    have h : Passwordless u w₁.db := hentrance entrance hnew
    exact h
  | stopped entrance e failed => exact hentrance entrance hnew
  | logged_out token hcall => rw [call] at hcall; cases hcall
  | reset_requested body user hcall => rw [call] at hcall; cases hcall
  | password_reset body prt user hcall => rw [call] at hcall; cases hcall

/-! ## The characterization -/

/-- After every run a login that passes the limiter is accepted if and only if its
password is the latest one that was set for the account. No other request than
a reset that succeeds changes the password of a stored account, an account that
Google created never has one, and every reset token is for an account with one. -/
theorem the_latest_password_is_accepted (env : Env)
    (hverify : ∀ p salt q, env.ph_verify (env.ph_hash p salt) q = .verified ↔ p = q)
    (past : List Step) :
    (∀ s body a, s.call = .login body → FreshSession env s (run env past .empty).db →
      ¬ Locked env s.request (s.draws.now 0) (run env past .empty).store →
      a ∈ (run env past .empty).db.users.rows → a.email = body.email.val →
      ((s.handle env (run env past .empty)).1.status_code = 200 ↔
        a.password_hash ≠ none ∧ Latest (history env past .empty) a.id body.password)) ∧
    (∀ s : Step, ((∃ body, s.call = .password_reset_complete body) →
        (s.handle env (run env past .empty)).1.status_code ≠ 200) →
      ∀ a ∈ (run env past .empty).db.users.rows, Keeps a (run env (past ++ [s]) .empty).db) ∧
    (∀ s query u future a, s.call = .oauth_google_callback query →
      (run env past .empty).db.users.find u = none →
      (run env (past ++ [s]) .empty).db.users.find u ≠ none →
      (run env (past ++ s :: future) .empty).db.users.find u = some a → a.password_hash = none) ∧
    (∀ t ∈ (run env past .empty).db.password_reset_tokens.rows,
      ∃ a, (run env past .empty).db.users.find t.user_id = some a ∧ a.password_hash ≠ none) := by
  have hv := valid_of_reachable env ⟨past, rfl⟩
  have hstep := in_step_after_run env past
  refine ⟨?_, ?_, ?_, ?_⟩
  · intro s body a call hfresh hopen ha he
    rw [login_status call hv hfresh hopen ha he, accepts_latest hverify hstep ha]
  · intro s hs a ha
    rw [run_append]
    refine (keeps_of_deed (account_deed_of_step env s _) ha).resolve_right ?_
    rintro ⟨body, call, h200, -⟩
    exact hs ⟨body, call⟩ h200
  · intro s query u future a call hold hnew ha
    rw [run_append] at hnew
    have hp := passwordless_of_callback env call hold hnew
    have hp' : Passwordless u (run env (past ++ [s]) .empty).db := by rw [run_append]; exact hp
    obtain ⟨b, hb, hid, hnone⟩ := passwordless_stays env (past ++ [s]) future hp'
    rw [List.append_assoc] at hb
    change b ∈ (run env (past ++ s :: future) .empty).db.users.rows at hb
    rw [← hid, Table.find_of_mem hb] at ha
    cases ha
    exact hnone
  · intro t ht
    obtain ⟨a, ha⟩ := Option.ne_none_iff_exists'.mp (hv.reset_user t ht)
    exact ⟨a, ha, hstep.reset_tokens t ht a (Table.mem_of_find ha) (Table.key_of_find ha)⟩

/-- Ann registers, and then logs in with her password and with no other. -/
theorem ann_logs_in_with_her_password :
    ((ann_logs_in "correct horse" "b" 2).handle .sample
      (run .sample [ann_registers "a" 1] .empty)).1.status_code = 200 ∧
    ((ann_logs_in "wrong horse" "b" 2).handle .sample
      (run .sample [ann_registers "a" 1] .empty)).1.status_code ≠ 200 := by
  have hverify : ∀ p salt q, Env.sample.ph_verify (Env.sample.ph_hash p salt) q = .verified ↔
      p = q := by
    intro p salt q
    simp [Env.sample]
  have hlaw := (the_latest_password_is_accepted .sample hverify [ann_registers "a" 1]).1
  have hlog : history .sample [ann_registers "a" 1] .empty = [(1, "correct horse")] := by decide
  rw [hlog] at hlaw
  have ha : new_user .sample ann_registration (.sample "a" 1) ∈
      (run .sample [ann_registers "a" 1] .empty).db.users.rows := by decide
  have hlocked : ¬ Locked .sample .sample 0 (run .sample [ann_registers "a" 1] .empty).store := by
    decide
  constructor
  · exact (hlaw (ann_logs_in "correct horse" "b" 2) _ _ rfl (by unfold FreshSession; decide) hlocked
      ha rfl).mpr ⟨by decide, stands_singleton.mpr rfl⟩
  · intro h
    have h := ((hlaw (ann_logs_in "wrong horse" "b" 2) _ _ rfl (by unfold FreshSession; decide)
      hlocked ha rfl).mp h).2
    have := stands_singleton.mp h
    simp at this

end shared_todos.password_history
