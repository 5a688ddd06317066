-- Who may do what with a list: the matrix (`authz/permissions.py`) and the
-- gate that each handler of a list names (`authz/dependencies.py`).
import SharedTodos.Sessions

open keyed_table transactions
open shared_todos.models shared_todos.http shared_todos.http.handler shared_todos.sessions

namespace shared_todos.authz

/-! ## The matrix -/

inductive Role where
  | owner
  | editor
  | viewer
deriving DecidableEq

inductive Action where
  | read_list
  | list_items
  | create_item
  | update_item
  | delete_item
  | rename_list
  | share_list
  | change_collaborator_role
  | revoke_share
  | delete_list
deriving DecidableEq

def ALLOWED : Role → List Action
  | .owner =>
    [.read_list, .list_items, .create_item, .update_item, .delete_item, .rename_list, .share_list,
      .change_collaborator_role, .revoke_share, .delete_list]
  | .editor => [.read_list, .list_items, .create_item, .update_item, .delete_item]
  | .viewer => [.read_list, .list_items]

/-- It raises for a role that the share table may not hold. -/
def effective_role (is_owner : Bool) (share_role : Option String) : Except Exn (Option Role) :=
  if is_owner then .ok (some .owner)
  else if share_role = some "editor" then .ok (some .editor)
  else if share_role = some "viewer" then .ok (some .viewer)
  else if share_role ≠ none then .error .value_error
  else .ok none

def can_perform (role : Role) (action : Action) : Bool := decide (action ∈ ALLOWED role)

/-! ## The gate -/

structure ListPermission where
  list_id : UUID
  user_id : UUID
  role : Role
deriving DecidableEq

variable (env : Env)

/-- `select(List.id).where(List.id == list_id, List.owner_id == user.id)`. -/
def owned_list (list_id user_id : UUID) (db : DB) : List UUID :=
  (db.lists.select fun l => decide (l.id = list_id ∧ l.owner_id = user_id)).map (·.id)

/-- `select(Share.role).where(Share.list_id == list_id, Share.user_id == user.id)`. -/
def share_roles (list_id user_id : UUID) (db : DB) : List String :=
  (db.shares.select fun s => decide (s.list_id = list_id ∧ s.user_id = user_id)).map (·.role)

def not_found_error : Exn := .http_exception 404 "Not found" []

def not_found {α : Type} : Handler α := .raise not_found_error

def require_list_permission (required_action : Action) (list_id : UUID) (session : Option String) :
    Handler ListPermission := do
  let user ← require_auth env session
  let owner_result ← scalar_one_or_none (← execute (owned_list list_id user.id))
  let is_owner := owner_result.isSome
  let share_role ← scalar_one_or_none (← execute (share_roles list_id user.id))
  match effective_role is_owner share_role with
  | .error e => .raise e
  | .ok none => not_found
  | .ok (some role) =>
    if ¬ can_perform role required_action then not_found
    else return { list_id, user_id := user.id, role }

/-! ## The gate, as a function of the database -/

def owner_of (db : DB) (list_id : UUID) : Option UUID :=
  (db.lists.find list_id).map (·.owner_id)

def share_role_of (db : DB) (list_id user_id : UUID) : Option String :=
  (db.shares.find (list_id, user_id)).map (·.role)

theorem owned_list_eq (list_id user_id : UUID) (db : DB) :
    owned_list list_id user_id db =
      (if owner_of db list_id = some user_id then some list_id else none).toList := by
  unfold owned_list owner_of
  have h : db.lists.select (fun l => decide (l.id = list_id ∧ l.owner_id = user_id)) =
      (db.lists.select fun l => decide (l.id = list_id)).filter
        (fun l => decide (l.owner_id = user_id)) := by
    unfold Table.select
    rw [List.filter_filter]
    congr 1
    funext l
    simp [Bool.and_comm]
  rw [h, Table.select_key]
  cases hf : db.lists.find list_id with
  | none => rfl
  | some l =>
    have hid := Table.key_of_find hf
    by_cases ho : l.owner_id = user_id <;> simp [ho, hid]

theorem share_roles_eq (list_id user_id : UUID) (db : DB) :
    share_roles list_id user_id db = (share_role_of db list_id user_id).toList := by
  unfold share_roles share_role_of
  have h : (fun s : Share => decide (s.list_id = list_id ∧ s.user_id = user_id)) =
      fun s => decide (s.key = (list_id, user_id)) := by
    funext s
    simp [Share.key]
  rw [h, Table.select_key]
  cases db.shares.find (list_id, user_id) <;> rfl

/-- What the gate decides. -/
def gate (action : Action) (list_id : UUID) (session : Option String) (now : Time) (db : DB) :
    Except Exn ListPermission :=
  match session_user env session now db with
  | .error e => .error e
  | .ok user =>
    match effective_role (decide (owner_of db list_id = some user.id))
        (share_role_of db list_id user.id) with
    | .error e => .error e
    | .ok none => .error not_found_error
    | .ok (some role) =>
      if can_perform role action then .ok { list_id, user_id := user.id, role }
      else .error not_found_error

theorem require_list_permission_run (action : Action) (list_id : UUID) (session : Option String)
    (c : Nat → Time) (db : DB) (m : RateStore) :
    (require_list_permission env action list_id session).run ⟨c, db, [], m⟩ =
      (gate env action list_id session (c 0) db, ⟨clock_after session c, db, [], m⟩) := by
  unfold require_list_permission gate
  simp only [Prog.run_then, require_auth_run]
  cases session_user env session (c 0) db with
  | error e => rfl
  | ok user =>
    simp only [run_execute, Prog.Solo.view, Prog.applyAll_nil, owned_list_eq, share_roles_eq,
      run_scalar_one_or_none_toList]
    have ho : (if owner_of db list_id = some user.id then some list_id else none).isSome =
        decide (owner_of db list_id = some user.id) := by
      by_cases h : owner_of db list_id = some user.id <;> simp [h]
    rw [ho]
    rcases effective_role (decide (owner_of db list_id = some user.id))
      (share_role_of db list_id user.id) with e | _ | role
    · rfl
    · rfl
    · by_cases h : can_perform role action <;> simp [h, not_found]

theorem perform_gate (action : Action) (list_id : UUID) (session : Option String)
    (k : ListPermission → Handler Response) (c : Nat → Time) (w : World) :
    perform (require_list_permission env action list_id session >>= k) c w =
      proceed (gate env action list_id session (c 0) w.db) w fun perm =>
        perform (k perm) (clock_after session c) w :=
  perform_part c w w (require_list_permission_run env action list_id session c w.db w.store)

/-! ### Whom the gate lets through -/

def IsOwner (db : DB) (list_id user_id : UUID) : Prop := owner_of db list_id = some user_id

def HasShare (db : DB) (list_id user_id : UUID) (role : String) : Prop :=
  share_role_of db list_id user_id = some role

/-- What a role stands for in the database. -/
def RoleHeld (db : DB) (list_id user_id : UUID) : Role → Prop
  | .owner => IsOwner db list_id user_id
  | .editor => HasShare db list_id user_id "editor"
  | .viewer => HasShare db list_id user_id "viewer"

theorem effective_role_held {db : DB} {list_id user_id : UUID} {role : Role}
    (h : effective_role (decide (owner_of db list_id = some user_id))
      (share_role_of db list_id user_id) = .ok (some role)) : RoleHeld db list_id user_id role := by
  unfold effective_role at h
  split at h
  · rename_i ho
    cases h
    simpa [RoleHeld, IsOwner] using ho
  split at h
  · cases h; assumption
  split at h
  · cases h; assumption
  split at h
  · cases h
  · cases h

/-- The gate lets a signed-in user through who holds a role that may do it. -/
theorem gate_ok {action : Action} {list_id : UUID} {session : Option String} {now : Time} {db : DB}
    {perm : ListPermission} (h : gate env action list_id session now db = .ok perm) :
    ∃ u role, session_user env session now db = .ok u ∧
      perm = { list_id, user_id := u.id, role } ∧
      action ∈ ALLOWED role ∧ RoleHeld db list_id u.id role := by
  unfold gate at h
  cases hu : session_user env session now db with
  | error e => rw [hu] at h; cases h
  | ok u =>
    rw [hu] at h
    dsimp only at h
    cases hr : effective_role (decide (owner_of db list_id = some u.id))
        (share_role_of db list_id u.id) with
    | error e => rw [hr] at h; cases h
    | ok o =>
      rw [hr] at h
      cases o with
      | none => cases h
      | some role =>
        dsimp only at h
        split at h
        · rename_i hc
          cases h
          exact ⟨u, role, rfl, rfl, by simpa [can_perform] using hc, effective_role_held hr⟩
        · cases h

/-- The actions of the owner alone. -/
def Action.owner_only : Action → Bool
  | .rename_list | .share_list | .change_collaborator_role | .revoke_share | .delete_list => true
  | _ => false

/-- The actions that change an item. -/
def Action.writes_items : Action → Bool
  | .create_item | .update_item | .delete_item => true
  | _ => false

theorem role_of_owner_only {action : Action} (ha : action.owner_only = true) {role : Role}
    (h : action ∈ ALLOWED role) : role = .owner := by
  cases role <;> cases action <;> simp_all [ALLOWED, Action.owner_only]

theorem role_of_writes_items {action : Action} (ha : action.writes_items = true) {role : Role}
    (h : action ∈ ALLOWED role) : role = .owner ∨ role = .editor := by
  cases role <;> cases action <;> simp_all [ALLOWED, Action.writes_items]

end shared_todos.authz
