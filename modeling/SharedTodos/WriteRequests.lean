-- The requests that write a list, its items or its shares, side by side. Each has the
-- same parts: the gate and the lookups, which only read; one statement and its commit;
-- and the answer, which may read the row back.
import SharedTodos.Server
import SharedTodos.App

open keyed_table transactions
open shared_todos.models shared_todos.http shared_todos.http.handler
open shared_todos.sessions shared_todos.authz
open shared_todos.lists shared_todos.items shared_todos.shares shared_todos.server
open shared_todos.auth shared_todos.app

namespace shared_todos.write_requests

variable (env : Env)

/-! ## The requests -/

inductive Write where
  | rename_list (body : ListUpdate)
  | delete_list
  | create_item (body : ItemCreate)
  | update_item (item_id : UUID) (body : ItemUpdate)
  | delete_item (item_id : UUID)
  | create_share (body : ShareCreate)
  | change_role (user_id : UUID) (body : ShareUpdate)
  | revoke_share (user_id : UUID)

namespace Write

/-- The action that the gate of the handler names. -/
def action : Write → Action
  | .rename_list _ => .rename_list
  | .delete_list => .delete_list
  | .create_item _ => .create_item
  | .update_item _ _ => .update_item
  | .delete_item _ => .delete_item
  | .create_share _ => .share_list
  | .change_role _ _ => .change_collaborator_role
  | .revoke_share _ => .revoke_share

def handler (list_id : UUID) (request : Request) (d : Draws) : Write → Handler Response
  | .rename_list body => lists.rename_list env list_id body request d
  | .delete_list => lists.delete_list env list_id request
  | .create_item body => items.create_item env list_id body request d
  | .update_item item_id body => items.update_item env list_id item_id body request d
  | .delete_item item_id => items.delete_item env list_id item_id request
  | .create_share body => shares.create_share env list_id body request d
  | .change_role user_id body => shares.change_role env list_id user_id body request
  | .revoke_share user_id => shares.revoke_share env list_id user_id request

/-- A viewer passes none of their gates. -/
theorem not_allowed_viewer (w : Write) : w.action ∉ ALLOWED .viewer := by
  cases w <;> simp [action, ALLOWED]

end Write

/-! ## Their parts -/

/-- The end of a request: an answer, or a row that is read back into it. -/
inductive Reply where
  | answer (r : Response)
  | list (id : UUID)
  | item (status_code : Nat) (id : UUID)
  | share (status_code : Nat) (key : UUID × UUID)

def Reply.prog : Reply → Handler Response
  | .answer r => return r
  | .list id => do
    let lst ← refresh fun db => db.lists.find id
    return json 200 (.list (.of lst))
  | .item status_code id => do
    let item ← refresh fun db => db.items.find id
    return json status_code (.item (.of item))
  | .share status_code key => do
    let share ← refresh fun db => db.shares.find key
    return json status_code (.share (.of share))

/-- What a request does after its lookups. -/
structure Plan where
  statement : Statement
  /-- What it makes of an error of the statement. -/
  failure : DbError → Exn
  /-- An error is caught, to roll the transaction back. -/
  in_try : Bool
  reply : Reply

/-- The request after an error of its statement. -/
def Plan.fail (p : Plan) (e : DbError) : Handler Response :=
  if p.in_try then .rollback (.raise (p.failure e)) else .raise (p.failure e)

def Plan.prog (p : Plan) : Handler Response :=
  .write p.statement fun
    | .ok () => .commit p.reply.prog
    | .error e => p.fail e

/-- A flush and a commit outside of a `try`. -/
def Plan.flushed (statement : Statement) (reply : Reply) : Plan where
  statement := statement
  failure := .db
  in_try := false
  reply := reply

theorem flushed_prog (statement : Statement) (reply : Reply) :
    (Plan.flushed statement reply).prog = (do flush statement; commit; reply.prog) := by
  change Prog.write _ _ = Prog.write _ _
  congr 1
  funext r
  cases r <;> rfl

def rename_plan (lst : ListRow) (body : ListUpdate) (d : Draws) : Plan :=
  .flushed (rename_statement lst body.name d.db_now) (.list lst.id)

def delete_list_plan (lst : ListRow) : Plan :=
  .flushed (delete_list_row lst.id) (.answer (json 204 .empty))

def create_item_plan (list_id : UUID) (body : ItemCreate) (d : Draws) : Plan :=
  .flushed (insert_item (new_item list_id body d)) (.item 201 d.row_id)

def update_item_plan (item : Item) (body : ItemUpdate) (d : Draws) : Plan :=
  .flushed (update_item_row item.id (changed_columns item body) d.db_now) (.item 200 item.id)

def delete_item_plan (item : Item) : Plan :=
  .flushed (delete_item_row item.id) (.answer (json 204 .empty))

/-- The flush and the commit of a new share are in a `try`. -/
def create_share_plan (list_id : UUID) (body : ShareCreate) (d : Draws) : Plan where
  statement := insert_share (new_share list_id body d)
  failure := share_error
  in_try := true
  reply := .share 201 (list_id, body.user_id)

def change_role_plan (share : Share) (body : ShareUpdate) : Plan :=
  .flushed (role_statement share body.role) (.share 200 share.key)

def revoke_share_plan (share : Share) : Plan :=
  .flushed (delete_share_row share.list_id share.user_id) (.answer (json 204 .empty))

/-- The lookups of a request that has passed its gate. -/
def Write.lookup (d : Draws) (perm : ListPermission) : Write → Handler Plan
  | .rename_list body => do
    match ← execute fun db => db.lists.find perm.list_id with
    | none => not_found
    | some lst => return rename_plan lst body d
  | .delete_list => do
    match ← execute fun db => db.lists.find perm.list_id with
    | none => not_found
    | some lst => return delete_list_plan lst
  | .create_item body => return create_item_plan perm.list_id body d
  | .update_item item_id body => do
    match ← execute fun db => db.items.find item_id with
    | none => not_found
    | some item =>
      if item.list_id ≠ perm.list_id then not_found else return update_item_plan item body d
  | .delete_item item_id => do
    match ← execute fun db => db.items.find item_id with
    | none => not_found
    | some item =>
      if item.list_id ≠ perm.list_id then not_found else return delete_item_plan item
  | .create_share body => do
    if body.user_id = perm.user_id then http_error 400 "Cannot share with yourself"
    else
      match ← execute fun db => db.users.find body.user_id with
      | none => not_found
      | some _ =>
        let existing ← scalar_one_or_none (← execute (shares_of_pair perm.list_id body.user_id))
        match existing with
        | some _ => http_error 409 "User already has access"
        | none => return create_share_plan perm.list_id body d
  | .change_role user_id body => do
    let share ← scalar_one_or_none (← execute (shares_of_pair perm.list_id user_id))
    match share with
    | none => not_found
    | some share => return change_role_plan share body
  | .revoke_share user_id => do
    let share ← scalar_one_or_none (← execute (shares_of_pair perm.list_id user_id))
    match share with
    | none => not_found
    | some share => return revoke_share_plan share

/-- The gate and the lookups. -/
def Write.prepare (list_id : UUID) (request : Request) (d : Draws) (w : Write) : Handler Plan := do
  let perm ← require_list_permission env w.action list_id request.session
  w.lookup d perm

/-- A lookup and the rest. -/
theorem parts_of_execute {β : Type} (q : DB → β) {k : β → Handler Response} {l : β → Handler Plan}
    (h : ∀ b, k b = l b >>= Plan.prog) :
    (execute q >>= k) = (execute q >>= l) >>= Plan.prog := by
  rw [Prog.bind_assoc]
  congr 1
  funext b
  exact h b

/-- A row that is looked up by a `select`, and the rest. -/
theorem parts_of_select {ρ : Type} (q : DB → List ρ) {k : Option ρ → Handler Response}
    {l : Option ρ → Handler Plan} (h : ∀ o, k o = l o >>= Plan.prog) :
    (execute q >>= fun rows => scalar_one_or_none rows >>= k) =
      (execute q >>= fun rows => scalar_one_or_none rows >>= l) >>= Plan.prog := by
  apply parts_of_execute
  intro rows
  rw [Prog.bind_assoc]
  congr 1
  funext o
  exact h o

/-- The parts make up the handler. -/
theorem handler_eq (w : Write) (list_id : UUID) (request : Request) (d : Draws) :
    w.handler env list_id request d = w.prepare env list_id request d >>= Plan.prog := by
  unfold Write.prepare
  rw [Prog.bind_assoc]
  have hparts : ∀ {k k' : ListPermission → Handler Response}, (∀ perm, k perm = k' perm) →
      (require_list_permission env w.action list_id request.session >>= k) =
        require_list_permission env w.action list_id request.session >>= k' :=
    fun h => congrArg _ (funext h)
  cases w with
  | rename_list body =>
    apply hparts
    intro perm
    unfold Write.lookup
    dsimp only
    apply parts_of_execute
    intro found
    rcases found with _ | lst
    · rfl
    exact (flushed_prog (rename_statement lst body.name d.db_now) (.list lst.id)).symm
  | delete_list =>
    apply hparts
    intro perm
    unfold Write.lookup
    dsimp only
    apply parts_of_execute
    intro found
    rcases found with _ | lst
    · rfl
    exact (flushed_prog (delete_list_row lst.id) (.answer (json 204 .empty))).symm
  | create_item body =>
    apply hparts
    intro perm
    exact (flushed_prog (insert_item (new_item perm.list_id body d)) (.item 201 d.row_id)).symm
  | update_item item_id body =>
    apply hparts
    intro perm
    unfold Write.lookup
    dsimp only
    apply parts_of_execute
    intro found
    rcases found with _ | item
    · rfl
    dsimp only
    split
    · rfl
    · exact (flushed_prog (update_item_row item.id (changed_columns item body) d.db_now)
        (.item 200 item.id)).symm
  | delete_item item_id =>
    apply hparts
    intro perm
    unfold Write.lookup
    dsimp only
    apply parts_of_execute
    intro found
    rcases found with _ | item
    · rfl
    dsimp only
    split
    · rfl
    · exact (flushed_prog (delete_item_row item.id) (.answer (json 204 .empty))).symm
  | create_share body =>
    apply hparts
    intro perm
    unfold Write.lookup
    dsimp only
    split
    · rfl
    apply parts_of_execute
    intro found
    rcases found with _ | target
    · rfl
    apply parts_of_select
    intro existing
    cases existing with
    | some x => rfl
    | none =>
      change Prog.write _ _ = Prog.write _ _
      congr 1
      funext r
      cases r <;> rfl
  | change_role user_id body =>
    apply hparts
    intro perm
    unfold Write.lookup
    dsimp only
    apply parts_of_select
    intro share
    cases share with
    | none => rfl
    | some share =>
      exact (flushed_prog (role_statement share body.role) (.share 200 share.key)).symm
  | revoke_share user_id =>
    apply hparts
    intro perm
    unfold Write.lookup
    dsimp only
    apply parts_of_select
    intro share
    cases share with
    | none => rfl
    | some share =>
      exact (flushed_prog (delete_share_row share.list_id share.user_id)
        (.answer (json 204 .empty))).symm

/-! ## What the gate and the lookups have seen -/

/-- The role of a permission, in the states that the owner query and the share query saw. -/
def RoleSeen (list_id user_id : UUID) (owner_query share_query : DB) : Role → Prop
  | .owner => IsOwner owner_query list_id user_id
  | .editor => HasShare share_query list_id user_id "editor"
  | .viewer => HasShare share_query list_id user_id "viewer"

/-- The gate let the request through. It saw three states: of the session query, of
the owner query and of the share query. -/
inductive Admitted (action : Action) (list_id : UUID) (session : Option String) :
    List DB → ListPermission → Prop where
  | admitted (token : String) (now : Time) (user : User) (role : Role) (a o s : DB)
      (cookie : session = some token) (signed_in : session_users env token now a = [user])
      (role_seen : RoleSeen list_id user.id o s role) (allowed : action ∈ ALLOWED role) :
    Admitted action list_id session [s, o, a] ⟨list_id, user.id, role⟩

/-- How many reads the lookups make. -/
def Write.lookups : Write → Nat
  | .create_item _ => 0
  | .create_share _ => 2
  | _ => 1

/-- What a request raises before its statement: an error, and after the gate a 404 or
a 409 for what its lookups saw. -/
structure Turned (lookups : Nat) (seen : List DB) (e : Exn) : Prop where
  status : 400 ≤ e.response.status_code
  after_gate : 3 < seen.length → e.response.status_code = 404 ∨ e.response.status_code = 409
  length_le : seen.length ≤ 3 + lookups

/-- What the gate raises: for a request without a session, or a 404, or for a role that a
share may not have. -/
inductive GateRaised : List DB → Exn → Prop where
  | session {seen : List DB} {e : Exn} (length_le : seen.length ≤ 1)
      (status : 400 ≤ e.response.status_code) : GateRaised seen e
  | not_found {seen : List DB} (length_le : seen.length ≤ 3) : GateRaised seen not_found_error
  | role {seen : List DB} (length_le : seen.length ≤ 3) {db : DB} (saw : db ∈ seen) {share : Share}
      (stored : share ∈ db.shares.rows) (invalid : ¬ role_valid share.role) :
    GateRaised seen .value_error

/-- The plan for the rows that the lookups saw, after the states that the gate saw. -/
inductive Planned (list_id : UUID) (d : Draws) (gate : List DB) : Write → List DB → Plan → Prop
    where
  | rename_list (body : ListUpdate) (s : DB) (lst : ListRow)
      (found : s.lists.find list_id = some lst) :
    Planned list_id d gate (.rename_list body) (s :: gate) (rename_plan lst body d)
  | delete_list (s : DB) (lst : ListRow) (found : s.lists.find list_id = some lst) :
    Planned list_id d gate .delete_list (s :: gate) (delete_list_plan lst)
  | create_item (body : ItemCreate) :
    Planned list_id d gate (.create_item body) gate (create_item_plan list_id body d)
  | update_item (item_id : UUID) (body : ItemUpdate) (s : DB) (item : Item)
      (found : s.items.find item_id = some item) (on_list : item.list_id = list_id) :
    Planned list_id d gate (.update_item item_id body) (s :: gate) (update_item_plan item body d)
  | delete_item (item_id : UUID) (s : DB) (item : Item)
      (found : s.items.find item_id = some item) (on_list : item.list_id = list_id) :
    Planned list_id d gate (.delete_item item_id) (s :: gate) (delete_item_plan item)
  | create_share (body : ShareCreate) (a s : DB) (target : User)
      (found : a.users.find body.user_id = some target)
      (free : s.shares.find (list_id, body.user_id) = none) :
    Planned list_id d gate (.create_share body) (s :: a :: gate) (create_share_plan list_id body d)
  | change_role (user_id : UUID) (body : ShareUpdate) (s : DB) (share : Share)
      (found : s.shares.find (list_id, user_id) = some share) :
    Planned list_id d gate (.change_role user_id body) (s :: gate) (change_role_plan share body)
  | revoke_share (user_id : UUID) (s : DB) (share : Share)
      (found : s.shares.find (list_id, user_id) = some share) :
    Planned list_id d gate (.revoke_share user_id) (s :: gate) (revoke_share_plan share)

section
variable {env}

theorem looks_scalar_one_or_none {ρ : Type} {rows : List ρ} {A : List DB → Option ρ → Prop}
    {X : List DB → Exn → Prop} {seen : List DB} (hA : ∀ o, rows = o.toList → A seen o)
    (hX : X seen .multiple_results_found) : (scalar_one_or_none rows).Looks A X seen := by
  rcases rows with _ | ⟨a, _ | ⟨b, rest⟩⟩
  · exact hA none rfl
  · exact hA (some a) rfl
  · exact hX

theorem turned_in_gate {n : Nat} {seen : List DB} {e : Exn} (hlength : seen.length ≤ 3)
    (he : 400 ≤ e.response.status_code) : Turned n seen e :=
  ⟨he, fun h => absurd h (Nat.not_lt.mpr hlength), by omega⟩

theorem turned_of_gate {n : Nat} {seen : List DB} {e : Exn} (h : GateRaised seen e) :
    Turned n seen e := by
  cases h with
  | session length_le status => exact turned_in_gate (by omega) status
  | not_found length_le => exact turned_in_gate length_le (by decide)
  | role length_le saw stored invalid => exact turned_in_gate length_le (by decide)

theorem turned_not_found {n : Nat} {seen : List DB} (hlength : seen.length ≤ 3 + n) :
    Turned n seen not_found_error :=
  ⟨by decide, fun _ => Or.inl rfl, hlength⟩

theorem turned_taken {n : Nat} {seen : List DB} (hlength : seen.length ≤ 3 + n) :
    Turned n seen (.http_exception 409 "User already has access" []) :=
  ⟨by decide, fun _ => Or.inr rfl, hlength⟩

theorem get_session_user_looks (token : String) :
    (get_session_user env token).Looks (fun seen o => ∃ now a, seen = [a] ∧
      session_users env token now a = o.toList) GateRaised [] := by
  intro now a
  apply looks_scalar_one_or_none
  · intro o ho
    exact ⟨now, a, rfl, ho⟩
  · exact .session (by simp) (by decide)

theorem require_auth_looks (session : Option String) :
    (require_auth env session).Looks (fun seen user => ∃ token now a, seen = [a] ∧
      session = some token ∧ session_users env token now a = [user]) GateRaised [] := by
  unfold require_auth
  cases session with
  | none => exact .session (by simp) (by decide)
  | some token =>
    apply Prog.looks_bind (get_session_user_looks token)
    rintro _ user ⟨now, a, rfl, huser⟩
    cases user with
    | none => exact .session (by simp) (by decide)
    | some user => exact ⟨token, now, a, rfl, rfl, huser⟩

/-- The one row, where there are no more. -/
theorem one_row_looks {ρ : Type} {rows : List ρ} {row : Option ρ} {X : List DB → Exn → Prop}
    (hrows : rows = row.toList) (seen : List DB) :
    (scalar_one_or_none rows).Looks (fun later o => later = seen ∧ o = row) X seen := by
  rw [hrows]
  cases row with
  | none => exact ⟨rfl, rfl⟩
  | some r => exact ⟨rfl, rfl⟩

theorem role_seen {list_id user_id : UUID} {o s : DB} {role : Role}
    (h : effective_role (decide (owner_of o list_id = some user_id))
      (share_role_of s list_id user_id) = .ok (some role)) : RoleSeen list_id user_id o s role := by
  unfold effective_role at h
  split at h
  · rename_i ho
    cases h
    simpa [RoleSeen, IsOwner] using ho
  split at h
  · cases h; assumption
  split at h
  · cases h; assumption
  split at h
  · cases h
  · cases h

theorem effective_role_error {is_owner : Bool} {share_role : Option String} {e : Exn}
    (h : effective_role is_owner share_role = .error e) :
    e = .value_error ∧ ∃ role, share_role = some role ∧ ¬ role_valid role := by
  unfold effective_role at h
  split at h
  · cases h
  split at h
  · cases h
  split at h
  · cases h
  split at h
  · cases h
    rename_i heditor hviewer hrole
    obtain ⟨role, rfl⟩ := Option.ne_none_iff_exists'.mp hrole
    exact ⟨rfl, role, rfl, fun hvalid => hvalid.elim (by simpa using heditor) (by simpa using hviewer)⟩
  · cases h

theorem session_user_error {session : Option String} {now : Time} {db : DB} {e : Exn}
    (h : session_user env session now db = .error e) : 400 ≤ e.response.status_code := by
  unfold session_user at h
  split at h
  · cases h; decide
  split at h
  · cases h; decide
  · cases h
  · cases h; decide

/-- What the gate raises is answered with an error. -/
theorem gate_error {action : Action} {list_id : UUID} {session : Option String} {now : Time}
    {db : DB} {e : Exn} (h : gate env action list_id session now db = .error e) :
    400 ≤ e.response.status_code := by
  unfold gate at h
  cases hu : session_user env session now db with
  | error e' =>
    rw [hu] at h
    cases h
    exact session_user_error hu
  | ok u =>
    rw [hu] at h
    dsimp only at h
    cases hrole : effective_role (decide (owner_of db list_id = some u.id))
        (share_role_of db list_id u.id) with
    | error e' =>
      rw [hrole] at h
      cases h
      rw [(effective_role_error hrole).1]
      decide
    | ok role =>
      rw [hrole] at h
      cases role with
      | none => cases h; decide
      | some role =>
        dsimp only at h
        split at h
        · cases h
        · cases h; decide

theorem share_error_status (e : DbError) : 400 ≤ (share_error e).response.status_code := by
  cases e <;> decide

/-! ### What holds of a failure and of the rest holds of both -/

section
variable {w : World} {P : Response × World → Prop}
  (hfail : ∀ r : Response, 400 ≤ r.status_code → P (r, w))
include hfail

theorem after_dispatch {s : Step}
    (h : P (perform (handler_of env s.call s.request s.draws) s.draws.now w)) :
    P (s.handle env w) := by
  rcases handle_cases env s w with ⟨r, hr, hrefused⟩ | hr
  · rw [hr]
    exact hfail r (refused_status hrefused)
  · rw [hr]
    exact h

theorem after_session {session : Option String} {now : Time} {k : User → Response × World}
    (h : ∀ user, session_user env session now w.db = .ok user → P (k user)) :
    P (proceed (session_user env session now w.db) w k) := by
  cases hu : session_user env session now w.db with
  | error e => exact hfail _ (session_user_error hu)
  | ok user => exact h user hu

theorem after_gate {action : Action} {list_id : UUID} {session : Option String} {now : Time}
    {k : ListPermission → Response × World}
    (h : ∀ user role, session_user env session now w.db = .ok user → action ∈ ALLOWED role →
      RoleHeld w.db list_id user.id role → P (k ⟨list_id, user.id, role⟩)) :
    P (proceed (gate env action list_id session now w.db) w k) := by
  cases hgate : gate env action list_id session now w.db with
  | error e => exact hfail _ (gate_error hgate)
  | ok perm =>
    obtain ⟨user, role, hu, rfl, hallowed, hheld⟩ := gate_ok env hgate
    exact h user role hu hallowed hheld

omit env in
theorem after_attempt {st : Statement} {k : World → Response × World}
    (h : ∀ cs, st w.db = .ok cs → P (k (w.commit cs))) : P (attempt st w k) := by
  cases hs : st w.db with
  | ok cs => rw [attempt_ok hs]; exact h cs hs
  | error e => rw [attempt_error hs]; exact hfail _ (by cases e <;> decide)

end

theorem gate_looks (action : Action) (list_id : UUID) (session : Option String) :
    (require_list_permission env action list_id session).Looks
      (Admitted env action list_id session) GateRaised [] := by
  unfold require_list_permission
  apply Prog.looks_bind (require_auth_looks session)
  rintro _ user ⟨token, now, a, rfl, hcookie, huser⟩
  intro o
  apply Prog.looks_bind (one_row_looks (owned_list_eq list_id user.id o) [o, a])
  rintro _ owner ⟨rfl, rfl⟩
  intro s
  apply Prog.looks_bind (one_row_looks (share_roles_eq list_id user.id s) [s, o, a])
  rintro _ share_role ⟨rfl, rfl⟩
  have howner : (if owner_of o list_id = some user.id then some list_id else none).isSome =
      decide (owner_of o list_id = some user.id) := by
    by_cases h : owner_of o list_id = some user.id <;> simp [h]
  rw [howner]
  cases hrole : effective_role (decide (owner_of o list_id = some user.id))
      (share_role_of s list_id user.id) with
  | error e =>
    obtain ⟨rfl, role, hshare, hvalid⟩ := effective_role_error hrole
    obtain ⟨x, hx, rfl⟩ := Option.map_eq_some_iff.mp hshare
    exact .role (by simp) (show s ∈ [s, o, a] by simp) (Table.mem_of_find hx) hvalid
  | ok role =>
    cases role with
    | none => exact .not_found (by simp)
    | some role =>
      dsimp only
      split
      · exact .not_found (by simp)
      · rename_i hcan
        refine .admitted token now user role a o s hcookie huser (role_seen hrole) ?_
        simpa [can_perform] using hcan

theorem shares_of_pair_looks (list_id user_id : UUID) (n : Nat) (seen : List DB) :
    (do scalar_one_or_none (← execute (shares_of_pair list_id user_id)) :
      Handler (Option Share)).Looks
      (fun later o => ∃ s, later = s :: seen ∧ o = s.shares.find (list_id, user_id))
      (Turned n) seen := by
  intro s
  have h := one_row_looks (X := Turned n) (shares_of_pair_eq list_id user_id s) (s :: seen)
  exact Prog.looks_mono h (fun later o _ ho => ⟨s, ho.1, ho.2⟩) fun _ _ _ he => he

theorem execute_looks {β : Type} (q : DB → β) (n : Nat) (seen : List DB) :
    (execute q).Looks (fun later b => ∃ s, later = s :: seen ∧ q s = b) (Turned n) seen :=
  fun s => ⟨s, rfl, rfl⟩

theorem lookup_looks (w : Write) (d : Draws) (perm : ListPermission) {gate : List DB}
    (hgate : gate.length = 3) :
    (w.lookup d perm).Looks (Planned perm.list_id d gate w) (Turned w.lookups) gate := by
  cases w with
  | rename_list body =>
    apply Prog.looks_bind (execute_looks (fun db => db.lists.find perm.list_id) _ gate)
    rintro _ lst ⟨s, rfl, hs⟩
    cases lst with
    | none => exact turned_not_found (by simp [Write.lookups, hgate])
    | some lst => exact .rename_list body s lst hs
  | delete_list =>
    apply Prog.looks_bind (execute_looks (fun db => db.lists.find perm.list_id) _ gate)
    rintro _ lst ⟨s, rfl, hs⟩
    cases lst with
    | none => exact turned_not_found (by simp [Write.lookups, hgate])
    | some lst => exact .delete_list s lst hs
  | create_item body => exact .create_item body
  | update_item item_id body =>
    apply Prog.looks_bind (execute_looks (fun db => db.items.find item_id) _ gate)
    rintro _ item ⟨s, rfl, hs⟩
    cases item with
    | none => exact turned_not_found (by simp [Write.lookups, hgate])
    | some item =>
      dsimp only
      split
      · exact turned_not_found (by simp [Write.lookups, hgate])
      · rename_i hlist
        exact .update_item item_id body s item hs (not_not.mp hlist)
  | delete_item item_id =>
    apply Prog.looks_bind (execute_looks (fun db => db.items.find item_id) _ gate)
    rintro _ item ⟨s, rfl, hs⟩
    cases item with
    | none => exact turned_not_found (by simp [Write.lookups, hgate])
    | some item =>
      dsimp only
      split
      · exact turned_not_found (by simp [Write.lookups, hgate])
      · rename_i hlist
        exact .delete_item item_id s item hs (not_not.mp hlist)
  | create_share body =>
    unfold Write.lookup
    dsimp only
    split
    · exact turned_in_gate (by omega) (by decide)
    apply Prog.looks_bind (execute_looks (fun db => db.users.find body.user_id) _ gate)
    rintro _ target ⟨a, rfl, ha⟩
    cases target with
    | none => exact turned_not_found (by simp [Write.lookups, hgate])
    | some target =>
      dsimp only
      rw [← Prog.bind_assoc]
      apply Prog.looks_bind (shares_of_pair_looks perm.list_id body.user_id _ (a :: gate))
      rintro _ existing ⟨s, rfl, hs⟩
      cases existing with
      | some share => exact turned_taken (by simp [Write.lookups, hgate])
      | none => exact .create_share body a s target ha hs.symm
  | change_role user_id body =>
    unfold Write.lookup
    dsimp only
    rw [← Prog.bind_assoc]
    apply Prog.looks_bind (shares_of_pair_looks perm.list_id user_id _ gate)
    rintro _ share ⟨s, rfl, hs⟩
    cases share with
    | none => exact turned_not_found (by simp [Write.lookups, hgate])
    | some share => exact .change_role user_id body s share hs.symm
  | revoke_share user_id =>
    unfold Write.lookup
    dsimp only
    rw [← Prog.bind_assoc]
    apply Prog.looks_bind (shares_of_pair_looks perm.list_id user_id _ gate)
    rintro _ share ⟨s, rfl, hs⟩
    cases share with
    | none => exact turned_not_found (by simp [Write.lookups, hgate])
    | some share => exact .revoke_share user_id s share hs.symm

end

/-! ## Where a request can be -/

/-- A request on a list, with what the process draws for it. -/
structure WriteRequest where
  list_id : UUID
  write : Write
  request : Request
  draws : Draws

namespace WriteRequest

variable (q : WriteRequest)

def handler : Handler Response := q.write.handler env q.list_id q.request q.draws

def prepare : Handler Plan := q.write.prepare env q.list_id q.request q.draws

/-- The gate and the lookups saw what the plan needs. -/
def Ready (seen : List DB) (plan : Plan) : Prop :=
  ∃ gate perm, Admitted env q.write.action q.list_id q.request.session gate perm ∧
    Planned q.list_id q.draws gate q.write seen plan

/-- It is at its gate or its lookups, or it has its plan. -/
structure Looking (g : Handler Plan) (t : Running) : Prop where
  prog : t.prog = (g >>= Plan.prog)
  pending : t.pending = []
  looks : g.Looks (q.Ready env) (Turned q.write.lookups) t.reads

/-- The statement of the plan is done, in a state that accepted it. -/
structure Flushed (plan : Plan) (t : Running) : Prop where
  prog : t.prog = .commit plan.reply.prog
  pending : ∃ s, plan.statement s = .ok t.pending
  ready : q.Ready env t.reads plan

/-- The changes are committed. -/
structure Replying (plan : Plan) (t : Running) : Prop where
  prog : t.prog = plan.reply.prog
  pending : t.pending = []
  ready : q.Ready env t.reads plan

/-- The statement met an error. -/
structure Failing (plan : Plan) (e : DbError) (t : Running) : Prop where
  prog : t.prog = plan.fail e
  pending : t.pending = []
  ready : q.Ready env t.reads plan

/-- It is at its gate or its lookups, and what it has seen leaves it no plan. -/
structure Doomed (g : Handler Plan) (t : Running) : Prop where
  prog : t.prog = (g >>= Plan.prog)
  pending : t.pending = []
  raises : g.Looks (fun _ _ => False) (Turned q.write.lookups) t.reads

/-- Its next step reads a row back. -/
def reading_back (t : Running) : Bool :=
  t.prog.reading && decide (3 + q.write.lookups ≤ t.reads.length)

/-- It has passed its gate, and has not committed. -/
def on_its_way (t : Running) : Bool :=
  !t.prog.done && decide (3 ≤ t.reads.length) && !q.reading_back t

section
variable {env q} {g : Handler Plan} {plan : Plan} {t : Running} {seen : List DB}

theorem Looking.ready (h : q.Looking env (.ret plan) t) : q.Ready env t.reads plan := h.looks

theorem Ready.length (h : q.Ready env seen plan) : seen.length = 3 + q.write.lookups := by
  obtain ⟨gate, perm, hgate, hplanned⟩ := h
  have hlength : gate.length = 3 := by cases hgate; rfl
  generalize q.write = w at hplanned ⊢
  cases hplanned <;> simp [Write.lookups, hlength]

/-- The first three reads of a request that came to its statement are those of its gate. -/
theorem Ready.admitted (h : q.Ready env seen plan) {gate : List DB} (hseen : gate <:+ seen)
    (hlength : gate.length = 3) :
    ∃ perm, Admitted env q.write.action q.list_id q.request.session gate perm := by
  obtain ⟨gate', perm, hgate, hplanned⟩ := h
  have hlength' : gate'.length = 3 := by cases hgate; rfl
  have hseen' : gate' <:+ seen := by
    generalize q.write = w at hplanned
    cases hplanned with
    | create_item body => exact List.suffix_rfl
    | create_share body a s target found free =>
      exact (List.suffix_cons a gate').trans (List.suffix_cons s _)
    | _ => exact List.suffix_cons _ _
  have heq : gate' = gate :=
    (List.suffix_of_suffix_length_le hseen' hseen (by omega)).eq_of_length (by omega)
  exact ⟨perm, heq ▸ hgate⟩

/-- A request may still come to its statement, or it is doomed. -/
theorem Looking.ready_or_doomed (h : q.Looking env g t) :
    (∃ later plan, t.reads <:+ later ∧ q.Ready env later plan) ∨ q.Doomed g t :=
  (Prog.looks_or_raises h.looks).imp_right fun hraises => ⟨h.prog, h.pending, hraises⟩

theorem Doomed.looking (h : q.Doomed g t) : q.Looking env g t :=
  ⟨h.prog, h.pending, Prog.looks_mono h.raises (fun _ _ _ => False.elim) fun _ _ _ he => he⟩

/-- The reads of the gate and of the lookups come before. -/
theorem Looking.not_reading_back (h : q.Looking env g t) : q.reading_back t = false := by
  unfold reading_back
  have hlooks := h.looks
  rw [h.prog]
  cases g with
  | query s k =>
    obtain ⟨later, hseen, hend⟩ := Prog.looks_end .empty (fun _ => []) (hlooks .empty)
    have hlength := hseen.length_le
    have hlater : later.length ≤ 3 + q.write.lookups := by
      rcases hend with ⟨plan, hready⟩ | ⟨e, he⟩
      · exact hready.length.le
      · exact he.length_le
    rw [List.length_cons] at hlength
    simp only [Bool.and_eq_false_iff, decide_eq_false_iff_not]
    omega
  | _ => rfl

theorem Looking.on_its_way (h : q.Looking env g t) (hdone : t.prog.done = false)
    (hlength : 3 ≤ t.reads.length) : q.on_its_way t = true := by
  simp [WriteRequest.on_its_way, hdone, hlength, h.not_reading_back]

theorem Flushed.on_its_way (h : q.Flushed env plan t) : q.on_its_way t = true := by
  have hlength := h.ready.length
  have hreading : t.prog.reading = false := by rw [h.prog]; rfl
  have hdone : t.prog.done = false := by rw [h.prog]; rfl
  have hgate : 3 ≤ t.reads.length := by omega
  simp [WriteRequest.on_its_way, reading_back, hdone, hreading, hgate]

end

/-! Only a request whose statement is done has its commit before it. -/

section
variable {env q} {g : Handler Plan} {plan : Plan} {e : DbError} {t : Running}

theorem Looking.not_committing (h : q.Looking env g t) : t.prog.committing = false := by
  have hlooks := h.looks
  rw [h.prog]
  cases g with
  | commit k => exact hlooks.elim
  | _ => rfl

theorem Replying.not_committing (h : q.Replying env plan t) : t.prog.committing = false := by
  rw [h.prog]
  cases plan.reply <;> rfl

theorem Failing.not_committing (h : q.Failing env plan e t) : t.prog.committing = false := by
  rw [h.prog]
  unfold Plan.fail
  split <;> rfl

end

end WriteRequest

/-- What the end of a request answers in a state. -/
def Reply.found : Reply → DB → Option Response
  | .answer r, _ => some r
  | .list id, db => (db.lists.find id).map fun lst => json 200 (.list (.of lst))
  | .item status_code id, db => (db.items.find id).map fun item => json status_code (.item (.of item))
  | .share status_code key, db =>
    (db.shares.find key).map fun share => json status_code (.share (.of share))

variable {ι : Type} [DecidableEq ι] [Fintype ι]

/-- A step of a request that looks: it reads what is stored, or nothing. -/
structure Read (c c' : Server ι) (i : ι) : Prop where
  not_writing : (c.threads i).prog.writing = false
  reads : (c.threads i).prog.reading = false ∧ (c'.threads i).reads = (c.threads i).reads ∨
    (c'.threads i).reads = c.db :: (c.threads i).reads

/-- What a request does with a step before its statement is done. It commits nothing. -/
inductive Look (q : WriteRequest) (g : Handler Plan) (c c' : Server ι) (i : ι) : Prop where
  | looked (g' : Handler Plan) (after : q.Looking env g' (c'.threads i)) (read : Read c c' i)
  | flushed (plan : Plan) (planned : g = .ret plan)
      (accepted : plan.statement c.db = .ok (c'.threads i).pending)
      (after : q.Flushed env plan (c'.threads i))
      (reads : (c'.threads i).reads = (c.threads i).reads)
  | rejected (plan : Plan) (e : DbError) (planned : g = .ret plan)
      (refused : plan.statement c.db = .error e) (after : q.Failing env plan e (c'.threads i))
      (reads : (c'.threads i).reads = (c.threads i).reads)

section
variable {env} {q : WriteRequest} {c c' : Server ι} {i : ι} {now : Time}

theorem prepare_looks (q : WriteRequest) :
    (q.prepare env).Looks (q.Ready env) (Turned q.write.lookups) [] := by
  have hgate := @gate_looks env q.write.action q.list_id q.request.session
  refine Prog.looks_bind (Prog.looks_mono hgate (fun _ _ _ h => h) fun _ _ _ => turned_of_gate) ?_
  intro gate perm hperm
  have hlist : perm.list_id = q.list_id := by cases hperm; rfl
  have hgate : gate.length = 3 := by cases hperm; rfl
  have hlookup := lookup_looks q.write q.draws perm hgate
  rw [hlist] at hlookup
  exact Prog.looks_mono hlookup (fun later plan _ h => ⟨gate, perm, hperm, h⟩) fun _ _ _ he => he

/-- A request at its arrival. -/
theorem looking_at_arrival (q : WriteRequest) :
    q.Looking env (q.prepare env) ⟨q.handler env, [], []⟩ :=
  ⟨handler_eq env q.write q.list_id q.request q.draws, rfl, prepare_looks q⟩

/-- The errors of a statement become errors of the request. -/
theorem failure_status {list_id : UUID} {d : Draws} {w : Write} {gate seen : List DB} {plan : Plan}
    (h : Planned list_id d gate w seen plan) (e : DbError) :
    400 ≤ (plan.failure e).response.status_code := by
  cases h with
  | create_share body a s target found free =>
    change 400 ≤ (share_error e).response.status_code
    cases e <;> decide
  | _ => exact (by decide : 400 ≤ 500)

theorem looking_step {g : Handler Plan} (h : q.Looking env g (c.threads i))
    (hs : c.step i now = some c') : c'.db = c.db ∧ Look env q g c c' i := by
  rcases System.looks_of_step h.prog h.pending h.looks hs with
    ⟨plan, rfl⟩ | ⟨hdb, hwriting, hpending, hreads, g', hprog, hlooks⟩
  · have hview := System.view_of_nothing_pending h.pending
    rcases System.step_write h.prog hs with ⟨e, he, rfl⟩ | ⟨cs, hcs, -, rfl⟩
    · rw [hview] at he
      refine ⟨rfl, .rejected plan e rfl he ⟨by simp, by simp, ?_⟩ (by simp)⟩
      simpa using h.ready
    · rw [hview] at hcs
      refine ⟨rfl, .flushed plan rfl (by simpa [h.pending] using hcs) ⟨by simp, ?_, ?_⟩ (by simp)⟩
      · exact ⟨c.db, by simpa [h.pending] using hcs⟩
      · simpa using h.ready
  · exact ⟨hdb, .looked g' ⟨hprog, hpending, hlooks⟩ ⟨hwriting, hreads⟩⟩

theorem doomed_step {g : Handler Plan} (h : q.Doomed g (c.threads i))
    (hs : c.step i now = some c') :
    c'.db = c.db ∧ Read c c' i ∧ ∃ g', q.Doomed g' (c'.threads i) := by
  rcases System.looks_of_step h.prog h.pending h.raises hs with
    ⟨plan, rfl⟩ | ⟨hdb, hwriting, hpending, hreads, g', hprog, hraises⟩
  · exact h.raises.elim
  · exact ⟨hdb, ⟨hwriting, hreads⟩, g', hprog, hpending, hraises⟩

theorem flushed_step {plan : Plan} (h : q.Flushed env plan (c.threads i))
    (hs : c.step i now = some c') :
    c'.db = c.view i ∧ q.Replying env plan (c'.threads i) ∧
      (c'.threads i).reads = (c.threads i).reads := by
  rw [System.step_commit h.prog hs]
  refine ⟨rfl, ⟨by simp, by simp, ?_⟩, by simp⟩
  simpa using h.ready

/-- A request that reads a row back. -/
theorem read_back_step {plan : Plan} {ρ : Type} {find : DB → Option ρ} {r : ρ → Response}
    (h : q.Replying env plan (c.threads i))
    (hprog : plan.reply.prog = refresh find >>= fun row => .ret (r row))
    (hfound : ∀ db, plan.reply.found db = (find db).map r) (hs : c.step i now = some c') :
    c'.db = c.db ∧
      ((∃ r, plan.reply.found c.db = some r ∧ (c'.threads i).prog = .ret r) ∨
        plan.reply.found c.db = none ∧ (c'.threads i).prog = .raise .invalid_request) := by
  have hview := System.view_of_nothing_pending h.pending
  rcases step_refresh (h.prog.trans hprog) hs with ⟨hnone, rfl⟩ | ⟨row, hrow, rfl⟩
  · rw [hview] at hnone
    refine ⟨rfl, Or.inr ⟨?_, by simp⟩⟩
    rw [hfound, hnone]
    rfl
  · rw [hview] at hrow
    refine ⟨rfl, Or.inl ⟨r row, ?_, by simp⟩⟩
    rw [hfound, hrow]
    rfl

theorem replying_step {plan : Plan} (h : q.Replying env plan (c.threads i))
    (hs : c.step i now = some c') :
    c'.db = c.db ∧
      ((∃ r, plan.reply.found c.db = some r ∧ (c'.threads i).prog = .ret r) ∨
        plan.reply.found c.db = none ∧ (c'.threads i).prog = .raise .invalid_request) := by
  cases hreply : plan.reply with
  | answer r =>
    exact absurd hs (System.not_step_of_done (by rw [h.prog, hreply]; rfl))
  | list id =>
    rw [← hreply]
    exact read_back_step h (by rw [hreply]; rfl) (fun db => by rw [hreply]; rfl) hs
  | item status_code id =>
    rw [← hreply]
    exact read_back_step h (by rw [hreply]; rfl) (fun db => by rw [hreply]; rfl) hs
  | share status_code key =>
    rw [← hreply]
    exact read_back_step h (by rw [hreply]; rfl) (fun db => by rw [hreply]; rfl) hs

theorem failing_step {plan : Plan} {e : DbError} (h : q.Failing env plan e (c.threads i))
    (hs : c.step i now = some c') :
    c'.db = c.db ∧ (c'.threads i).prog = .raise (plan.failure e) := by
  have hprog := h.prog
  unfold Plan.fail at hprog
  split at hprog
  · unfold System.step at hs
    rw [hprog] at hs
    cases hs
    exact ⟨rfl, by simp⟩
  · exact absurd hs (System.not_step_of_done (by rw [hprog]; rfl))

/-! ## What a request answers before its commit -/

omit [DecidableEq ι] [Fintype ι] in
theorem answer_of_looking {g : Handler Plan} (h : q.Looking env g (c.threads i)) {r : Response}
    (hr : answer c i = some r) : ∃ e, Turned q.write.lookups (c.threads i).reads e ∧ r = e.response := by
  have hprog := h.prog
  cases g with
  | raise e =>
    rw [answer_raise hprog] at hr
    exact ⟨e, h.looks, (Option.some.inj hr).symm⟩
  | _ =>
    rw [answer_of_not_done (by rw [hprog]; rfl)] at hr
    cases hr

omit [DecidableEq ι] [Fintype ι] in
theorem answer_of_failing {plan : Plan} {e : DbError} (h : q.Failing env plan e (c.threads i))
    {r : Response} (hr : answer c i = some r) : r = (plan.failure e).response := by
  have hprog := h.prog
  unfold Plan.fail at hprog
  split at hprog
  · rw [answer_of_not_done (by rw [hprog]; rfl)] at hr
    cases hr
  · rw [answer_raise hprog] at hr
    exact (Option.some.inj hr).symm

end

/-! ## Requests on one list -/

/-- Requests that write a list, its items or its shares, beside other requests. -/
structure Writers (κ ι : Type) where
  world : World
  list_id : UUID
  write : κ → Write
  request : κ → Request
  draws : κ → Draws
  others : ι → Handler Response

variable {κ ι : Type}

/-- One of the requests on the list. -/
def Writers.one (w : Writers κ ι) (k : κ) : WriteRequest :=
  ⟨w.list_id, w.write k, w.request k, w.draws k⟩

/-- The requests at their arrival. -/
def writers (w : Writers κ ι) : Server (κ ⊕ ι) :=
  serve w.world fun
    | .inl k => (w.one k).handler env
    | .inr j => w.others j

/-! ## A list to try the model with -/

def bob : EmailStr := ⟨"bob@post.example", by decide, by decide, by decide⟩

def bob_registers : Step where
  call := .register ⟨bob, "sailing boat", by decide⟩
  request := .sample
  draws := .sample "b" 2

/-- A request with a session. -/
def signed_in_as (token : String) : Request := { Request.sample with session := some token }

def ann_does (call : Call) (row_id : UUID) : Step := ⟨call, signed_in_as "a", .sample "x" row_id⟩

def shopping : ListCreate := ⟨"shopping", by decide⟩

def bread : ItemCreate := ⟨"bread", by decide, 1⟩

def bob_as_editor : ShareCreate := ⟨2, "editor", Or.inl rfl⟩

/-- Ann has a list with an item, and Bob is an editor of it. -/
def shared_list : World :=
  run .sample [ann_registers "a" 1, bob_registers,
    ann_does (.create_list shopping) 7,
    ann_does (.create_item 7 ⟨"milk", by decide, 0⟩) 9,
    ann_does (.create_share 7 bob_as_editor) 0] .empty

end shared_todos.write_requests
