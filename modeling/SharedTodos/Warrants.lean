-- What a request has to have seen for what it writes and for what it answers. Each
-- handler of the application is followed through its reads: whatever the database
-- and the clock say, a statement comes with the evidence for it, and so does an answer.
import SharedTodos.Steadiness

open keyed_table transactions
open shared_todos.models shared_todos.http shared_todos.http.handler
open shared_todos.sessions shared_todos.authz shared_todos.auth shared_todos.oauth
open shared_todos.lists shared_todos.items shared_todos.shares shared_todos.csrf
open shared_todos.app shared_todos.server shared_todos.write_requests shared_todos.steadiness

namespace shared_todos.warrants

variable (env : Env)

/-! ## The evidence -/

/-- What a request has learned and done. -/
abbrev Learned := Sight DB Change DbError

/-- A read saw the one user of the session cookie. The session had not expired at a
clock reading that the request took. -/
def Recognised (s : Step) (g : Learned) (user : User) : Prop :=
  ∃ token now db, s.request.session = some token ∧ now ∈ g.times ∧ db ∈ g.states ∧
    session_users env token now db = [user]

/-- The user is recognised, and held a role that may do it in a state that was read. -/
def Permitted (s : Step) (g : Learned) (action : Action) (list_id : UUID) (user : User) : Prop :=
  Recognised env s g user ∧
    ∃ role db, action ∈ ALLOWED role ∧ db ∈ g.states ∧ RoleHeld db list_id user.id role

/-- The writes on a list, with the list. -/
def write_of : Call → Option (UUID × Write)
  | .rename_list id body => some (id, .rename_list body)
  | .delete_list id => some (id, .delete_list)
  | .create_item id body => some (id, .create_item body)
  | .update_item id item body => some (id, .update_item item body)
  | .delete_item id item => some (id, .delete_item item)
  | .create_share id body => some (id, .create_share body)
  | .change_role id user body => some (id, .change_role user body)
  | .revoke_share id user => some (id, .revoke_share user)
  | _ => none

/-- The session of a request, for a user. -/
def session_statement (s : Step) (user_id : UUID) (now : Time) : Statement :=
  insert_session (new_session env user_id (s.draws.token_urlsafe 0) s.draws.session_id now)

/-- The password was accepted for the account of the address. -/
structure Verifies (s : Step) (g : Learned) (body : LoginRequest) (user : User) : Prop where
  call : s.call = .login body
  found : ∃ db ∈ g.states, users_by_email body.email.val db = [user]
  verified : ∃ hash, user.password_hash = some hash ∧ env.ph_verify hash body.password = .verified

/-- Google vouched for the identity, and a read saw the accounts that have it. -/
structure Vouches (s : Step) (g : Learned) (who : Identity) (found : List User) : Prop where
  checked : ∃ query, s.call = .oauth_google_callback query ∧
    check_callback env query s.request s.draws = .passed who
  found : ∃ db ∈ g.states, users_by_identity who db = found

/-- The token of a reset was usable, and belonged to the user. -/
structure Resets (s : Step) (g : Learned) (body : PasswordResetCompleteBody)
    (prt : PasswordResetToken) (user : User) (now : Time) : Prop where
  call : s.call = .password_reset_complete body
  time : now ∈ g.times
  usable : ∃ db ∈ g.states, usable_tokens (hash_token env body.token) now db = [prt]
  owner : ∃ db ∈ g.states, db.users.find prt.user_id = some user

/-- The transactions that a request may commit, with what it has to have learned and
done before. -/
inductive Warranted (s : Step) (g : Learned) : List Statement → Prop where
  | register (body : RegisterRequest) (call : s.call = .register body)
      (free : ∃ db ∈ g.states, users_by_email body.email.val db = []) :
    Warranted s g [insert_user (new_user env body s.draws)]
  | first_session (body : RegisterRequest) (call : s.call = .register body)
      (made : [insert_user (new_user env body s.draws)] ∈ g.commits) (now : Time)
      (time : now ∈ g.times) : Warranted s g [session_statement env s s.draws.row_id now]
  | login (body : LoginRequest) (user : User) (verifies : Verifies env s g body user) (now : Time)
      (time : now ∈ g.times) : Warranted s g [session_statement env s user.id now]
  | logout (token : String) (call : s.call = .logout) (cookie : s.request.session = some token) :
    Warranted s g [delete_sessions fun x => decide (x.token_hash = hash_token env token)]
  | reset_request (body : PasswordResetRequestBody) (user : User)
      (call : s.call = .password_reset_request body)
      (found : ∃ db ∈ g.states, users_by_email body.email.val db = [user])
      (password : user.password_hash ≠ none) (now : Time) (time : now ∈ g.times) :
    Warranted s g
      [insert_reset_token (new_reset_token env user.id (s.draws.token_urlsafe 0) s.draws.row_id now)]
  | reset (body : PasswordResetCompleteBody) (prt : PasswordResetToken) (user : User)
      (now : Time) (resets : Resets env s g body prt user now) :
    Warranted s g
      [reset_statement prt user now (hash_password env body.new_password s.draws.salt),
        delete_sessions fun x => decide (x.user_id = user.id)]
  | google_account (who : Identity) (vouches : Vouches env s g who []) :
    Warranted s g [insert_user (google_user who s.draws)]
  | google_link (who : Identity) (user : User) (vouches : Vouches env s g who [user])
      (free : user.google_sub = none) : Warranted s g [update_google_sub user.id who.google_sub]
  | google_first_session (who : Identity) (vouches : Vouches env s g who [])
      (made : [insert_user (google_user who s.draws)] ∈ g.commits) (now : Time)
      (time : now ∈ g.times) : Warranted s g [session_statement env s s.draws.row_id now]
  | google_session (who : Identity) (user : User) (vouches : Vouches env s g who [user])
      (linked : user.google_sub = none → [update_google_sub user.id who.google_sub] ∈ g.commits)
      (now : Time) (time : now ∈ g.times) : Warranted s g [session_statement env s user.id now]
  | create_list (body : ListCreate) (user : User) (call : s.call = .create_list body)
      (recognised : Recognised env s g user) :
    Warranted s g [insert_list (new_list user.id body s.draws)]
  | write (list_id : UUID) (w : Write) (user : User) (gate : List DB) (plan : Plan)
      (call : write_of s.call = some (list_id, w))
      (permitted : Permitted env s g w.action list_id user)
      (planned : Planned list_id s.draws gate w g.states plan) : Warranted s g [plan.statement]

/-- The body shows a row. -/
def shows_rows : Body → Bool
  | .registered (some _) _ | .user _ | .list _ | .lists _ | .item _ | .items _ | .share _
  | .shares _ => true
  | _ => false

/-- The answers of a request that show rows, with what it has to have learned and done before. -/
inductive Answered (s : Step) (g : Learned) : Response → Prop where
  | plain {r : Response} (plain : shows_rows r.body = false) : Answered s g r
  | registered (body : RegisterRequest) (user : User) (now : Time) (db : DB)
      (call : s.call = .register body)
      (made : [insert_user (new_user env body s.draws)] ∈ g.commits)
      (opened : [session_statement env s user.id now] ∈ g.commits) (saw : db ∈ g.states)
      (found : db.users.find s.draws.row_id = some user) :
    Answered s g (registered env user (s.draws.token_urlsafe 0) s.draws)
  | logged_in (body : LoginRequest) (user : User) (now : Time)
      (verifies : Verifies env s g body user)
      (opened : [session_statement env s user.id now] ∈ g.commits) :
    Answered s g (logged_in env user (s.draws.token_urlsafe 0) s.draws)
  | session_info (user : User) (call : s.call = .session_info)
      (recognised : Recognised env s g user) : Answered s g (json 200 (.user (user_out user)))
  | create_list (body : ListCreate) (user : User) (db : DB) (row : ListRow)
      (call : s.call = .create_list body) (recognised : Recognised env s g user)
      (made : [insert_list (new_list user.id body s.draws)] ∈ g.commits) (saw : db ∈ g.states)
      (found : db.lists.find s.draws.row_id = some row) :
    Answered s g (json 201 (.list (.of row)))
  | list_lists (user : User) (a b : DB) (call : s.call = .list_lists)
      (recognised : Recognised env s g user) (saw_owned : a ∈ g.states) (saw_shared : b ∈ g.states) :
    Answered s g (json 200 (.lists ((without_repeats []
      (scanned (s.draws.order 0) ListRow.id
          (a.lists.select fun l => decide (l.owner_id = user.id)) ++
        scanned (s.draws.order 1) ListRow.id (shared_with user.id b))).map .of)))
  | get_list (list_id : UUID) (user : User) (db : DB) (row : ListRow)
      (call : s.call = .get_list list_id) (permitted : Permitted env s g .read_list list_id user)
      (saw : db ∈ g.states) (found : db.lists.find list_id = some row) :
    Answered s g (json 200 (.list (.of row)))
  | list_items (list_id : UUID) (user : User) (db : DB) (call : s.call = .list_items list_id)
      (permitted : Permitted env s g .list_items list_id user) (saw : db ∈ g.states) :
    Answered s g (json 200 (.items ((ordered_items list_id (s.draws.order 0) db).map .of)))
  | list_shares (list_id : UUID) (user : User) (db : DB) (call : s.call = .list_shares list_id)
      (permitted : Permitted env s g .share_list list_id user) (saw : db ∈ g.states) :
    Answered s g (json 200 (.shares ((scanned (s.draws.order 0) Share.user_id
      (db.shares.select fun x => decide (x.list_id = list_id))).map .of)))
  | write (list_id : UUID) (w : Write) (user : User) (plan : Plan) (db : DB) {r : Response}
      (call : write_of s.call = some (list_id, w))
      (permitted : Permitted env s g w.action list_id user)
      (planned : ∃ gate seen, Planned list_id s.draws gate w seen plan)
      (done : [plan.statement] ∈ g.commits) (saw : db ∈ g.states)
      (found : plan.reply.found db = some r) : Answered s g r

/-- A request goes through the middleware to its handler. -/
def served (s : Step) : Handler Response :=
  match dispatch s.call.method s.call.path s.request with
  | .error e => .raise e
  | .ok (.answer r) => return r
  | .ok .forward => handler_of env s.call s.request s.draws

/-! ## The parts of the handlers -/

section
variable {env} {T : Learned → List Statement → Prop} {g : Learned}

theorem same_row {ρ : Type} {a b : Option ρ} (h : a.toList = b.toList) : a = b := by
  cases a <;> cases b <;> simp_all

theorem transacts_utc_now :
    utc_now.Transacts Shape T (fun g' now => g' = g.at_time now) [] g :=
  ⟨rfl, fun _ _ => ⟨rfl, rfl⟩⟩

theorem transacts_execute {β : Type} (q : DB → β) :
    (execute q).Transacts Shape T (fun g' b => ∃ db, g' = g.saw db ∧ b = q db) [] g :=
  ⟨rfl, fun db => ⟨rfl, db, rfl, rfl⟩⟩

theorem transacts_scalar_one_or_none {ρ : Type} (rows : List ρ) :
    (scalar_one_or_none rows).Transacts Shape T (fun g' o => g' = g ∧ rows = o.toList) [] g := by
  rcases rows with _ | ⟨a, _ | ⟨b, rest⟩⟩
  · exact ⟨rfl, rfl, rfl⟩
  · exact ⟨rfl, rfl, rfl⟩
  · trivial

/-- A lookup of at most one row. -/
theorem transacts_lookup {ρ : Type} (q : DB → List ρ) :
    (do scalar_one_or_none (← execute q) : Handler (Option ρ)).Transacts Shape T
      (fun g' o => ∃ db, g' = g.saw db ∧ q db = o.toList) [] g := by
  refine Prog.transacts_bind (transacts_execute q) ?_
  rintro _ _ ⟨db, rfl, rfl⟩
  refine Prog.transacts_mono (transacts_scalar_one_or_none (q db)) (fun _ _ h => h) ?_
  rintro _ o ⟨rfl, ho⟩
  exact ⟨db, rfl, ho⟩

theorem transacts_refresh {ρ : Type} (q : DB → Option ρ) :
    (refresh q).Transacts Shape T (fun g' r => ∃ db, g' = g.saw db ∧ q db = some r) [] g := by
  refine ⟨rfl, fun db => ?_⟩
  cases h : q db with
  | none => trivial
  | some r => exact ⟨rfl, db, rfl, h⟩

/-- A transaction of one statement. -/
theorem transacts_flush_commit {A : Learned → Response → Prop} {st : Statement}
    {k : Handler Response} (hshape : AccountWrite st ∨ ListStatement st) (hst : T g [st])
    (hk : k.Transacts Shape T A [] (g.did [st])) :
    (do flush st; commit; k : Handler Response).Transacts Shape T A [] g :=
  ⟨.one st hshape, ⟨by simp, hst, hk⟩, fun _ => trivial⟩

theorem transacts_create_session {user_id : UUID} {token : String} {id : UUID}
    (hT : ∀ now, T (g.at_time now) [insert_session (new_session env user_id token id now)]) :
    (create_session env user_id token id).Transacts Shape T (fun g' t => t = token ∧
      ∃ now, g' = (g.at_time now).did [insert_session (new_session env user_id token id now)])
      [] g :=
  ⟨rfl, fun now _ => ⟨.one _ (Or.inl (.insert_session _)),
    ⟨by simp, hT now, rfl, rfl, now, rfl⟩, fun _ => trivial⟩⟩

theorem transacts_require_auth (session : Option String) :
    (require_auth env session).Transacts Shape T
      (fun g' user => ∃ token now db, session = some token ∧
        g' = (g.at_time now).saw db ∧ session_users env token now db = [user]) [] g := by
  unfold require_auth
  cases session with
  | none => trivial
  | some token =>
    refine Prog.transacts_bind (A := fun g' o => ∃ now db, g' = (g.at_time now).saw db ∧
      session_users env token now db = o.toList) ?_ ?_
    · unfold get_session_user
      refine Prog.transacts_bind transacts_utc_now ?_
      rintro _ now rfl
      refine Prog.transacts_mono (transacts_lookup (session_users env token now))
        (fun _ _ h => h) ?_
      rintro _ o ⟨db, rfl, ho⟩
      exact ⟨now, db, rfl, ho⟩
    · rintro _ user ⟨now, db, rfl, ho⟩
      cases user with
      | none => trivial
      | some user => exact ⟨rfl, token, now, db, rfl, rfl, ho⟩

/-- What the gate has learned of a request that it lets through. -/
inductive Passed (env : Env) (s : Step) (action : Action) (list_id : UUID) (g : Learned) :
    Learned → ListPermission → Prop where
  | passed (token : String) (now : Time) (user : User) (role : Role) (a o sh : DB)
      (cookie : s.request.session = some token) (signed_in : session_users env token now a = [user])
      (role_seen : RoleSeen list_id user.id o sh role) (allowed : action ∈ ALLOWED role) :
    Passed env s action list_id g ((((g.at_time now).saw a).saw o).saw sh) ⟨list_id, user.id, role⟩

theorem transacts_gate (s : Step) (action : Action) (list_id : UUID) :
    (require_list_permission env action list_id s.request.session).Transacts Shape T
      (Passed env s action list_id g) [] g := by
  unfold require_list_permission
  refine Prog.transacts_bind (transacts_require_auth s.request.session) ?_
  rintro _ user ⟨token, now, a, hcookie, rfl, huser⟩
  rw [← Prog.bind_assoc]
  refine Prog.transacts_bind (transacts_lookup (owned_list list_id user.id)) ?_
  rintro _ owner ⟨o, rfl, howner⟩
  rw [← Prog.bind_assoc]
  refine Prog.transacts_bind (transacts_lookup (share_roles list_id user.id)) ?_
  rintro _ share_role ⟨sh, rfl, hshare⟩
  rw [owned_list_eq] at howner
  rw [share_roles_eq] at hshare
  obtain rfl := same_row howner
  obtain rfl := same_row hshare
  have hisowner : (if owner_of o list_id = some user.id then some list_id else none).isSome =
      decide (owner_of o list_id = some user.id) := by
    by_cases h : owner_of o list_id = some user.id <;> simp [h]
  rw [hisowner]
  cases hrole : effective_role (decide (owner_of o list_id = some user.id))
      (share_role_of sh list_id user.id) with
  | error e => trivial
  | ok role =>
    cases role with
    | none => trivial
    | some role =>
      dsimp only
      split
      · trivial
      · rename_i hcan
        exact ⟨rfl, .passed token now user role a o sh hcookie huser
          (write_requests.role_seen hrole) (by simpa [can_perform] using hcan)⟩

end

/-! ## The handlers of the accounts -/

section
variable {env} {s : Step}

/-- A handler with all its statements and answers warranted. -/
def Careful (env : Env) (s : Step) (h : Handler Response) (g : Learned) : Prop :=
  h.Transacts Shape (Warranted env s) (Answered env s) [] g

theorem careful_plain {g : Learned} {r : Response} (h : shows_rows r.body = false) :
    Careful env s (.ret r) g := ⟨rfl, .plain h⟩

/-- The end of a handler that opens a session. -/
theorem careful_session {g : Learned} {user_id : UUID} (reply : String → Response)
    (hst : ∀ now, Warranted env s (g.at_time now) [session_statement env s user_id now])
    (hreply : ∀ now, Answered env s ((g.at_time now).did [session_statement env s user_id now])
      (reply (s.draws.token_urlsafe 0))) :
    Careful env s (open_and_answer env user_id s.draws reply) g := by
  refine Prog.transacts_bind (transacts_create_session hst) ?_
  rintro _ token ⟨rfl, now, rfl⟩
  exact ⟨rfl, hreply now⟩

theorem register_careful {body : RegisterRequest} (hcall : s.call = .register body) :
    Careful env s (register env body s.draws) .none := by
  unfold Careful register
  rw [← Prog.bind_assoc]
  refine Prog.transacts_bind (transacts_lookup (users_by_email body.email.val)) ?_
  rintro _ existing ⟨db, rfl, hexisting⟩
  cases existing with
  | some user => exact careful_plain rfl
  | none =>
    refine transacts_flush_commit (Or.inl (.insert_user _))
      (.register body hcall ⟨db, by simp, hexisting⟩) ?_
    refine Prog.transacts_bind (transacts_refresh _) ?_
    rintro _ user ⟨db', rfl, huser⟩
    have hid : user.id = s.draws.row_id := Table.key_of_find huser
    have hmade : ∀ g : Learned, g.commits = [[insert_user (new_user env body s.draws)]] →
        [insert_user (new_user env body s.draws)] ∈ g.commits := by
      intro g hg
      simp [hg]
    rw [hid]
    refine careful_session (fun token => registered env user token s.draws)
      (fun now => .first_session body hcall (hmade _ rfl) now (by simp)) fun now => ?_
    refine .registered body user now db' hcall ?_ ?_ (by simp) huser
    · exact List.mem_cons_of_mem _ (hmade _ rfl)
    · rw [hid]
      exact List.mem_cons_self ..

theorem login_careful {body : LoginRequest} (hcall : s.call = .login body) :
    Careful env s (login env body s.request s.draws) .none := by
  have hrejected : ∀ g, Careful env s (login_rejected env s.request) g :=
    fun g => ⟨rfl, fun _ _ => trivial⟩
  refine ⟨rfl, fun now m => ?_⟩
  beta_reduce
  split
  · trivial
  refine ⟨rfl, fun db => ?_⟩
  change Prog.Transacts _ _ _ (scalar_one_or_none (users_by_email body.email.val db) >>=
    login_found env body s.request s.draws) _ _
  refine Prog.transacts_bind (transacts_scalar_one_or_none _) ?_
  rintro _ user ⟨rfl, huser⟩
  unfold login_found
  split
  · rename_i user hash hhash
    unfold verify_password
    split
    · rename_i hverified
      refine ⟨rfl, fun now' m' => ?_⟩
      have hverifies : ∀ g : Learned, db ∈ g.states → Verifies env s g body user :=
        fun g hdb => ⟨hcall, ⟨db, hdb, huser⟩, hash, hhash, hverified⟩
      refine careful_session (fun token => logged_in env user token s.draws)
        (fun t => .login body user (hverifies _ (by simp)) t (by simp)) fun t => ?_
      exact .logged_in body user t (hverifies _ (List.mem_cons_self ..)) (List.mem_cons_self ..)
    · exact hrejected _
    · trivial
  · unfold verify_password
    split
    · exact hrejected _
    · exact hrejected _
    · trivial

theorem logout_careful (hcall : s.call = .logout) :
    Careful env s (logout env s.request) .none := by
  unfold logout
  split
  · exact careful_plain rfl
  · rename_i token htoken
    split
    · exact careful_plain rfl
    · exact transacts_flush_commit (Or.inl (.delete_sessions _)) (.logout token hcall htoken)
        (careful_plain rfl)

theorem session_info_careful (hcall : s.call = .session_info) :
    Careful env s (get_session_info env s.request) .none := by
  refine Prog.transacts_bind (transacts_require_auth s.request.session) ?_
  rintro _ user ⟨token, now, db, hcookie, rfl, huser⟩
  exact ⟨rfl, .session_info user hcall ⟨token, now, db, hcookie, by simp, by simp, huser⟩⟩

theorem reset_request_careful {body : PasswordResetRequestBody}
    (hcall : s.call = .password_reset_request body) :
    Careful env s (password_reset_request env body s.draws) .none := by
  unfold Careful password_reset_request
  rw [← Prog.bind_assoc]
  refine Prog.transacts_bind (transacts_lookup (users_by_email body.email.val)) ?_
  rintro _ user ⟨db, rfl, huser⟩
  cases user with
  | none => exact careful_plain rfl
  | some user =>
    dsimp only
    cases hpassword : user.password_hash with
    | none => exact careful_plain rfl
    | some hash =>
      refine Prog.transacts_bind transacts_utc_now ?_
      rintro _ now rfl
      refine transacts_flush_commit (Or.inl (.insert_reset_token _))
        (.reset_request body user hcall ⟨db, by simp, huser⟩ (by simp [hpassword]) now (by simp)) ?_
      cases send_password_reset_email s.draws with
      | ok => exact careful_plain rfl
      | error e => exact careful_plain rfl

theorem reset_validate_careful (token : String) :
    Careful env s (password_reset_validate env token) .none := by
  refine Prog.transacts_bind transacts_utc_now ?_
  rintro _ now rfl
  change Prog.Transacts _ _ _ (execute _ >>= fun rows => scalar_one_or_none rows >>= _) _ _
  rw [← Prog.bind_assoc]
  refine Prog.transacts_bind (transacts_lookup (usable_tokens (hash_token env token) now)) ?_
  rintro _ prt ⟨db, rfl, hprt⟩
  cases prt with
  | none => trivial
  | some prt => exact careful_plain rfl

theorem reset_complete_careful {body : PasswordResetCompleteBody}
    (hcall : s.call = .password_reset_complete body) :
    Careful env s (password_reset_complete env body s.draws) .none := by
  refine Prog.transacts_bind transacts_utc_now ?_
  rintro _ now rfl
  change Prog.Transacts _ _ _ (execute _ >>= fun rows => scalar_one_or_none rows >>= _) _ _
  rw [← Prog.bind_assoc]
  refine Prog.transacts_bind (transacts_lookup (usable_tokens (hash_token env body.token) now)) ?_
  rintro _ prt ⟨db, rfl, hprt⟩
  cases prt with
  | none => trivial
  | some prt =>
    refine ⟨rfl, fun db' => ?_⟩
    change Prog.Transacts _ _ _ (scalar_one (db'.users.find prt.user_id).toList >>=
      fun user => password_reset_write env body s.draws now prt user) _ _
    cases huser : db'.users.find prt.user_id with
    | none => trivial
    | some user =>
      have hresets : Resets env s ((((Sight.none.at_time now).saw db).saw db')) body prt user now :=
        ⟨hcall, by simp, ⟨db, by simp, hprt⟩, ⟨db', by simp, huser⟩⟩
      exact ⟨.one _ (Or.inl (.reset_statement prt user now _)),
        ⟨.reset prt user now _ _, ⟨by simp, .reset body prt user now hresets, rfl, .plain rfl⟩,
          fun _ => trivial⟩, fun _ => trivial⟩

theorem google_careful {query : CallbackQuery} (hcall : s.call = .oauth_google_callback query) :
    Careful env s (oauth_google_callback env query s.request s.draws) .none := by
  unfold oauth_google_callback
  cases hcheck : check_callback env query s.request s.draws with
  | raised e => trivial
  | answered r =>
    rcases check_callback_answered hcheck with rfl | rfl
    · exact careful_plain rfl
    · exact careful_plain rfl
  | passed who =>
    unfold Careful
    dsimp only
    unfold sign_in
    rw [← Prog.bind_assoc]
    refine Prog.transacts_bind (transacts_lookup (users_by_identity who)) ?_
    rintro _ user ⟨db, rfl, huser⟩
    have hvouches : ∀ g : Learned, db ∈ g.states → Vouches env s g who user.toList :=
      fun g hdb => ⟨⟨query, hcall, hcheck⟩, db, hdb, huser⟩
    cases user with
    | none =>
      refine transacts_flush_commit (Or.inl (.insert_user _))
        (.google_account who (hvouches _ (by simp))) ?_
      refine Prog.transacts_bind (transacts_refresh _) ?_
      rintro _ user ⟨db', rfl, hfound⟩
      have hid : user.id = s.draws.row_id := Table.key_of_find hfound
      rw [hid]
      refine careful_session (fun token => signed_in env token s.draws)
        (fun now => ?_) fun now => .plain rfl
      refine .google_first_session who (hvouches _ ?_) ?_ now (by simp)
      · exact List.mem_cons_of_mem _ (List.mem_cons_self ..)
      · exact List.mem_cons_self ..
    | some user =>
      unfold sign_in_found
      dsimp only
      split
      · rename_i hfree
        refine transacts_flush_commit (Or.inl (.update_google_sub _ _))
          (.google_link who user (hvouches _ (by simp)) hfree) ?_
        refine careful_session (fun token => signed_in env token s.draws)
          (fun now => ?_) fun now => .plain rfl
        refine .google_session who user (hvouches _ ?_) (fun _ => ?_) now (by simp)
        · exact List.mem_cons_self ..
        · exact List.mem_cons_self ..
      · rename_i hlinked
        refine careful_session (fun token => signed_in env token s.draws)
          (fun now => ?_) fun now => .plain rfl
        exact .google_session who user (hvouches _ (List.mem_cons_self ..))
          (fun h => absurd h hlinked) now (by simp)

end

/-! ## The handlers of the lists -/

section
variable {env} {s : Step}

theorem permitted_of_passed {action : Action} {L : UUID} {g : Learned} {perm : ListPermission}
    (h : Passed env s action L .none g perm) :
    ∃ user, perm.list_id = L ∧ perm.user_id = user.id ∧ Recognised env s g user ∧
      Permitted env s g action L user := by
  obtain ⟨token, now, user, role, a, o, sh, hcookie, huser, hseen, hallowed⟩ := h
  have hrecognised : Recognised env s ((((Sight.none.at_time now).saw a).saw o).saw sh) user :=
    ⟨token, now, a, hcookie, by simp, by simp, huser⟩
  refine ⟨user, rfl, rfl, hrecognised, hrecognised, ?_⟩
  cases role with
  | owner => exact ⟨.owner, o, hallowed, by simp, hseen⟩
  | editor => exact ⟨.editor, sh, hallowed, by simp, hseen⟩
  | viewer => exact ⟨.viewer, sh, hallowed, by simp, hseen⟩

theorem recognised_later {g g' : Learned} {user : User} (h : Recognised env s g user)
    (hstates : ∀ db ∈ g.states, db ∈ g'.states) (htimes : ∀ t ∈ g.times, t ∈ g'.times) :
    Recognised env s g' user := by
  obtain ⟨token, now, db, hcookie, hnow, hdb, huser⟩ := h
  exact ⟨token, now, db, hcookie, htimes now hnow, hstates db hdb, huser⟩

/-- What was learned stays learned. -/
theorem permitted_later {g g' : Learned} {action : Action} {L : UUID} {user : User}
    (h : Permitted env s g action L user) (hstates : ∀ db ∈ g.states, db ∈ g'.states)
    (htimes : ∀ t ∈ g.times, t ∈ g'.times) : Permitted env s g' action L user := by
  obtain ⟨hrecognised, role, db, hallowed, hdb, hheld⟩ := h
  exact ⟨recognised_later hrecognised hstates htimes, role, db, hallowed, hstates db hdb, hheld⟩

theorem create_list_careful {body : ListCreate} (hcall : s.call = .create_list body) :
    Careful env s (lists.create_list env body s.request s.draws) .none := by
  refine Prog.transacts_bind (transacts_require_auth s.request.session) ?_
  rintro _ user ⟨token, now, db, hcookie, rfl, huser⟩
  refine transacts_flush_commit (Or.inr (.insert_list _))
    (.create_list body user hcall ⟨token, now, db, hcookie, by simp, by simp, huser⟩) ?_
  refine Prog.transacts_bind (transacts_refresh _) ?_
  rintro _ lst ⟨db', rfl, hlst⟩
  refine ⟨rfl, .create_list body user db' lst hcall ?_ (by simp) (by simp) hlst⟩
  exact ⟨token, now, db, hcookie, by simp, by simp, huser⟩

theorem list_lists_careful (hcall : s.call = .list_lists) :
    Careful env s (lists.list_lists env s.request s.draws) .none := by
  refine Prog.transacts_bind (transacts_require_auth s.request.session) ?_
  rintro _ user ⟨token, now, db, hcookie, rfl, huser⟩
  refine ⟨rfl, fun a => ⟨rfl, fun b => ⟨rfl, ?_⟩⟩⟩
  exact .list_lists user a b hcall ⟨token, now, db, hcookie, by simp, by simp, huser⟩ (by simp)
    (by simp)

theorem get_list_careful {L : UUID} (hcall : s.call = .get_list L) :
    Careful env s (lists.get_list env L s.request) .none := by
  refine Prog.transacts_bind (transacts_gate s .read_list L) ?_
  intro g perm hpassed
  obtain ⟨user, hlist, -, -, hpermitted⟩ := permitted_of_passed hpassed
  refine ⟨rfl, fun db => ?_⟩
  beta_reduce
  rw [hlist]
  cases hlst : db.lists.find L with
  | none => trivial
  | some lst =>
    refine ⟨rfl, .get_list L user db lst hcall ?_ (by simp) hlst⟩
    exact permitted_later hpermitted (fun _ h => List.mem_cons_of_mem _ h) fun _ h => h

theorem list_items_careful {L : UUID} (hcall : s.call = .list_items L) :
    Careful env s (items.list_items env L s.request s.draws) .none := by
  refine Prog.transacts_bind (transacts_gate s .list_items L) ?_
  intro g perm hpassed
  obtain ⟨user, hlist, -, -, hpermitted⟩ := permitted_of_passed hpassed
  refine ⟨rfl, fun db => ⟨rfl, ?_⟩⟩
  rw [hlist]
  refine .list_items L user db hcall ?_ (by simp)
  exact permitted_later hpermitted (fun _ h => List.mem_cons_of_mem _ h) fun _ h => h

theorem list_shares_careful {L : UUID} (hcall : s.call = .list_shares L) :
    Careful env s (shares.list_shares env L s.request s.draws) .none := by
  refine Prog.transacts_bind (transacts_gate s .share_list L) ?_
  intro g perm hpassed
  obtain ⟨user, hlist, -, -, hpermitted⟩ := permitted_of_passed hpassed
  refine ⟨rfl, fun db => ⟨rfl, ?_⟩⟩
  rw [hlist]
  refine .list_shares L user db hcall ?_ (by simp)
  exact permitted_later hpermitted (fun _ h => List.mem_cons_of_mem _ h) fun _ h => h

/-- The end of a request that writes: its answer, or a row that it reads back. -/
theorem reply_transacts {T : Learned → List Statement → Prop} (r : Reply) (g : Learned)
    (hplain : ∀ x, r = .answer x → shows_rows x.body = false) :
    r.prog.Transacts Shape T (fun g' x => shows_rows x.body = false ∨
      ∃ db, g' = g.saw db ∧ r.found db = some x) [] g := by
  cases r with
  | answer x => exact ⟨rfl, Or.inl (hplain x rfl)⟩
  | list id =>
    refine Prog.transacts_bind (transacts_refresh _) ?_
    rintro _ row ⟨db, rfl, hrow⟩
    refine ⟨rfl, Or.inr ⟨db, rfl, ?_⟩⟩
    simp [Reply.found, hrow]
  | item status_code id =>
    refine Prog.transacts_bind (transacts_refresh _) ?_
    rintro _ row ⟨db, rfl, hrow⟩
    refine ⟨rfl, Or.inr ⟨db, rfl, ?_⟩⟩
    simp [Reply.found, hrow]
  | share status_code key =>
    refine Prog.transacts_bind (transacts_refresh _) ?_
    rintro _ row ⟨db, rfl, hrow⟩
    refine ⟨rfl, Or.inr ⟨db, rfl, ?_⟩⟩
    simp [Reply.found, hrow]

/-- A planned answer shows no row. -/
theorem planned_answer {L : UUID} {d : Draws} {gate seen : List DB} {w : Write} {plan : Plan}
    (h : Planned L d gate w seen plan) {x : Response} (hx : plan.reply = .answer x) :
    shows_rows x.body = false := by
  cases h <;> cases hx <;> rfl

theorem planned_list_statement {L : UUID} {d : Draws} {gate seen : List DB} {w : Write}
    {plan : Plan} (h : Planned L d gate w seen plan) : ListStatement plan.statement := by
  cases h with
  | rename_list body s lst found => exact accounts.rename_statement_kind lst body.name d.db_now
  | delete_list s lst found => exact .delete_list_row _
  | create_item body => exact .insert_item _
  | update_item item_id body s item found on_list => exact .update_item_row ..
  | delete_item item_id s item found on_list => exact .delete_item_row _
  | create_share body a s target found free => exact .insert_share _
  | change_role user_id body s share found => exact accounts.role_statement_kind share body.role
  | revoke_share user_id s share found => exact .delete_share_row ..

theorem write_careful {L : UUID} {w : Write} (hcall : write_of s.call = some (L, w)) :
    Careful env s (w.handler env L s.request s.draws) .none := by
  unfold Careful
  rw [handler_eq]
  unfold Write.prepare
  rw [Prog.bind_assoc]
  refine Prog.transacts_bind (transacts_gate s w.action L) ?_
  intro g perm hpassed
  obtain ⟨user, hlist, -, -, hpermitted⟩ := permitted_of_passed hpassed
  have hlength : g.states.length = 3 := by cases hpassed; rfl
  have hlooks := lookup_looks w s.draws perm hlength
  rw [hlist] at hlooks
  refine Prog.transacts_bind (Prog.transacts_of_looks hlooks) ?_
  rintro g' plan ⟨hplanned, hstates, htimes⟩
  have hpermitted' := permitted_later hpermitted hstates htimes
  refine ⟨.one _ (Or.inr (planned_list_statement hplanned)),
    ⟨by simp, .write L w user g.states plan hcall hpermitted' hplanned, ?_⟩, fun e => ?_⟩
  · refine Prog.transacts_mono
      (reply_transacts plan.reply (g'.did [plan.statement]) fun x => planned_answer hplanned)
      (fun _ _ h => h) ?_
    rintro g'' r (hplain | ⟨db, rfl, hfound⟩)
    · exact .plain hplain
    · refine .write L w user plan db hcall ?_ ⟨_, _, hplanned⟩ (by simp) (by simp) hfound
      exact permitted_later hpermitted' (fun _ h => List.mem_cons_of_mem _ h) fun _ h => h
  · unfold Plan.fail
    split <;> trivial

/-- Every request is careful. -/
theorem served_careful (s : Step) : Careful env s (served env s) .none := by
  unfold served
  split
  · trivial
  · rename_i r hr
    obtain ⟨text, rfl⟩ := dispatch_answer hr
    exact careful_plain rfl
  · obtain ⟨call, request, d⟩ := s
    cases call with
    | register body => exact register_careful rfl
    | login body => exact login_careful rfl
    | logout => exact logout_careful rfl
    | session_info => exact session_info_careful rfl
    | password_reset_request body => exact reset_request_careful rfl
    | password_reset_validate token => exact reset_validate_careful token
    | password_reset_complete body => exact reset_complete_careful rfl
    | oauth_google_initiate => exact careful_plain rfl
    | oauth_google_callback query => exact google_careful rfl
    | create_list body => exact create_list_careful rfl
    | list_lists => exact list_lists_careful rfl
    | get_list L => exact get_list_careful rfl
    | rename_list L body => exact write_careful (w := .rename_list body) rfl
    | delete_list L => exact write_careful (w := .delete_list) rfl
    | create_item L body => exact write_careful (w := .create_item body) rfl
    | list_items L => exact list_items_careful rfl
    | update_item L item body => exact write_careful (w := .update_item item body) rfl
    | delete_item L item => exact write_careful (w := .delete_item item) rfl
    | create_share L body => exact write_careful (w := .create_share body) rfl
    | list_shares L => exact list_shares_careful rfl
    | change_role L user body => exact write_careful (w := .change_role user body) rfl
    | revoke_share L user => exact write_careful (w := .revoke_share user) rfl

end

end shared_todos.warrants
