-- The handlers of `shares/router.py`.
import SharedTodos.Authz

open keyed_table transactions
open shared_todos.models shared_todos.http shared_todos.http.handler
open shared_todos.sessions shared_todos.authz

namespace shared_todos.shares

/-- The pattern `^(editor|viewer)$` of the bodies. -/
structure ShareCreate where
  user_id : UUID
  role : String
  role_pattern : role = "editor" ∨ role = "viewer"

structure ShareUpdate where
  role : String
  role_pattern : role = "editor" ∨ role = "viewer"

variable (env : Env)

/-- `select(Share).where(Share.list_id == list_id, Share.user_id == user_id)`. -/
def shares_of_pair (list_id user_id : UUID) (db : DB) : List Share :=
  db.shares.select fun s => decide (s.list_id = list_id ∧ s.user_id = user_id)

def new_share (list_id : UUID) (body : ShareCreate) (d : Draws) : Share :=
  { list_id, user_id := body.user_id, role := body.role, granted_at := d.db_now }

/-- What `create_share` makes of an error of its commit: a pair that another
request took first is a 409, a row that is gone is a 404. -/
def share_error : DbError → Exn
  | .unique_violation => .http_exception 409 "User already has access" []
  | .foreign_key_violation => .http_exception 404 "Not found" []
  | e => .db e

/-- The flush and the commit in the `try` of `create_share`. -/
def commit_share (share : Share) : Handler Unit :=
  .write (insert_share share) fun
    | .ok () => .commit (.ret ())
    | .error e => .rollback (.raise (share_error e))

def create_share (list_id : UUID) (body : ShareCreate) (request : Request) (d : Draws) :
    Handler Response := do
  let perm ← require_list_permission env .share_list list_id request.session
  if body.user_id = perm.user_id then http_error 400 "Cannot share with yourself"
  else
    match ← execute fun db => db.users.find body.user_id with
    | none => not_found
    | some _ =>
      let existing ← scalar_one_or_none (← execute (shares_of_pair perm.list_id body.user_id))
      match existing with
      | some _ => http_error 409 "User already has access"
      | none =>
        commit_share (new_share perm.list_id body d)
        let share ← refresh fun db => db.shares.find (perm.list_id, body.user_id)
        return json 201 (.share (.of share))

def list_shares (list_id : UUID) (request : Request) (d : Draws) : Handler Response := do
  let perm ← require_list_permission env .share_list list_id request.session
  let shares ← execute fun db =>
    scanned (d.order 0) Share.user_id
      (db.shares.select fun s => decide (s.list_id = perm.list_id))
  return json 200 (.shares (shares.map .of))

/-- The flush of a changed role. With the role it had there is no `UPDATE`. -/
def role_statement (share : Share) (role : String) : Statement :=
  if role = share.role then fun _ => .ok [] else update_role share.list_id share.user_id role

def change_role (list_id target_user_id : UUID) (body : ShareUpdate) (request : Request) :
    Handler Response := do
  let perm ← require_list_permission env .change_collaborator_role list_id request.session
  let share ← scalar_one_or_none (← execute (shares_of_pair perm.list_id target_user_id))
  match share with
  | none => not_found
  | some share =>
    flush (role_statement share body.role)
    commit
    let share ← refresh fun db => db.shares.find share.key
    return json 200 (.share (.of share))

def revoke_share (list_id target_user_id : UUID) (request : Request) : Handler Response := do
  let perm ← require_list_permission env .revoke_share list_id request.session
  let share ← scalar_one_or_none (← execute (shares_of_pair perm.list_id target_user_id))
  match share with
  | none => not_found
  | some share =>
    flush (delete_share_row share.list_id share.user_id)
    commit
    return json 204 .empty

theorem role_statement_ok {share : Share} {role : String} {db : DB} {cs : List Change}
    (h : role_statement share role db = .ok cs) :
    cs = [] ∨ cs = [.set_role share.list_id share.user_id role] ∧ role_valid role := by
  unfold role_statement at h
  split at h
  · cases h
    exact Or.inl rfl
  · obtain ⟨rfl, hrole, -⟩ := update_role_ok h
    exact Or.inr ⟨rfl, hrole⟩

/-! ## Their effects alone -/

theorem shares_of_pair_eq (list_id user_id : UUID) (db : DB) :
    shares_of_pair list_id user_id db = (db.shares.find (list_id, user_id)).toList := by
  rw [← Table.select_key]
  unfold shares_of_pair
  congr 1
  funext s
  simp [Share.key]

section
variable (request : Request) (d : Draws) (c : Nat → Time) (w : World)

theorem perform_commit_share (share : Share) (k : Handler Response) :
    perform (do commit_share share; k) c w =
      match insert_share share w.db with
      | .ok cs => perform k c (w.commit cs)
      | .error e => ((share_error e).response, w) := by
  unfold perform commit_share
  simp only [Prog.run_then, Prog.run, Prog.Solo.view, Prog.applyAll_nil]
  cases insert_share share w.db <;> rfl

theorem create_share_effect (list_id : UUID) (body : ShareCreate) :
    perform (create_share env list_id body request d) c w =
      proceed (gate env .share_list list_id request.session (c 0) w.db) w fun perm =>
        if body.user_id = perm.user_id then
          (⟨400, .detail "Cannot share with yourself", [], []⟩, w)
        else
          match w.db.users.find body.user_id, w.db.shares.find (perm.list_id, body.user_id) with
          | none, _ => (not_found_error.response, w)
          | some _, some _ => (⟨409, .detail "User already has access", [], []⟩, w)
          | some _, none =>
            match insert_share (new_share perm.list_id body d) w.db with
            | .ok cs => (json 201 (.share (.of (new_share perm.list_id body d))), w.commit cs)
            | .error e => ((share_error e).response, w) := by
  unfold create_share
  rw [perform_gate]
  congr 1
  funext perm
  split
  · rfl
  · rw [perform_execute]
    cases hu : w.db.users.find body.user_id with
    | none => rfl
    | some target =>
      dsimp only
      rw [perform_execute, shares_of_pair_eq, perform_scalar_toList]
      cases hs : w.db.shares.find (perm.list_id, body.user_id) with
      | some s => rfl
      | none =>
        dsimp only
        rw [perform_commit_share]
        cases h : insert_share (new_share perm.list_id body d) w.db with
        | error e => rfl
        | ok cs =>
          obtain ⟨rfl, -, hfree, -⟩ := insert_share_ok h
          dsimp only
          rw [perform_refresh]
          have hf : (w.commit [.insert_share (new_share perm.list_id body d)]).db.shares.find
              (perm.list_id, body.user_id) = some (new_share perm.list_id body d) := by
            simp only [World.commit, Prog.applyAll_cons, Prog.applyAll_nil, apply_eq, Change.apply]
            rw [Table.find_insert_of_free hfree]
            simp [new_share, Share.key]
          rw [hf]
          rfl

theorem list_shares_effect (list_id : UUID) :
    perform (list_shares env list_id request d) c w =
      proceed (gate env .share_list list_id request.session (c 0) w.db) w fun perm =>
        (json 200 (.shares ((scanned (d.order 0) Share.user_id
          (w.db.shares.select fun s => decide (s.list_id = perm.list_id))).map .of)), w) := by
  unfold list_shares
  rw [perform_gate]
  rfl

theorem change_role_effect (list_id target_user_id : UUID) (body : ShareUpdate) :
    perform (change_role env list_id target_user_id body request) c w =
      proceed (gate env .change_collaborator_role list_id request.session (c 0) w.db) w fun perm =>
        match w.db.shares.find (perm.list_id, target_user_id) with
        | none => (not_found_error.response, w)
        | some share =>
          attempt (role_statement share body.role) w fun w' =>
            proceed (read_back (w'.db.shares.find share.key)) w' fun share =>
              (json 200 (.share (.of share)), w') := by
  unfold change_role
  rw [perform_gate]
  congr 1
  funext perm
  rw [perform_execute, shares_of_pair_eq, perform_scalar_toList]
  cases w.db.shares.find (perm.list_id, target_user_id) with
  | none => rfl
  | some share =>
    dsimp only
    rw [perform_flush_commit]
    congr 1
    funext w'
    rw [perform_refresh]
    rfl

theorem revoke_share_effect (list_id target_user_id : UUID) :
    perform (revoke_share env list_id target_user_id request) c w =
      proceed (gate env .revoke_share list_id request.session (c 0) w.db) w fun perm =>
        match w.db.shares.find (perm.list_id, target_user_id) with
        | none => (not_found_error.response, w)
        | some share =>
          (json 204 .empty, w.commit [.delete_share share.list_id share.user_id]) := by
  unfold revoke_share
  rw [perform_gate]
  congr 1
  funext perm
  rw [perform_execute, shares_of_pair_eq, perform_scalar_toList]
  cases w.db.shares.find (perm.list_id, target_user_id) with
  | none => rfl
  | some share =>
    dsimp only
    rw [perform_flush_commit]
    rfl

end

end shared_todos.shares
