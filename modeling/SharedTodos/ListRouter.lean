-- The handlers of `lists/router.py`.
import SharedTodos.Authz

open keyed_table transactions
open shared_todos.models shared_todos.http shared_todos.http.handler
open shared_todos.sessions shared_todos.authz

namespace shared_todos.lists

/-- The bodies `ListCreate` and `ListUpdate`, which are the same. -/
structure ListBody where
  name : String
  name_length : 1 ≤ name.length ∧ name.length ≤ 256

abbrev ListCreate := ListBody

abbrev ListUpdate := ListBody

variable (env : Env)

def new_list (user_id : UUID) (body : ListCreate) (d : Draws) : ListRow :=
  { id := d.row_id, owner_id := user_id, name := body.name, created_at := d.db_now,
    updated_at := d.db_now }

def create_list (body : ListCreate) (request : Request) (d : Draws) : Handler Response := do
  let user ← require_auth env request.session
  flush (insert_list (new_list user.id body d))
  commit
  let lst ← refresh fun db => db.lists.find d.row_id
  return json 201 (.list (.of lst))

/-- `select(List).join(Share, ..).where(Share.user_id == user.id)`. -/
def shared_with (user_id : UUID) (db : DB) : List ListRow :=
  db.lists.rows.flatMap fun l =>
    (db.shares.select fun s => decide (s.list_id = l.id ∧ s.user_id = user_id)).map fun _ => l

/-- The lists of both queries, each id once. -/
def without_repeats : List UUID → List ListRow → List ListRow
  | _, [] => []
  | seen, l :: rest =>
    if l.id ∈ seen then without_repeats seen rest
    else l :: without_repeats (l.id :: seen) rest

def list_lists (request : Request) (d : Draws) : Handler Response := do
  let user ← require_auth env request.session
  let owned_lists ← execute fun db =>
    scanned (d.order 0) ListRow.id (db.lists.select fun l => decide (l.owner_id = user.id))
  let shared_lists ← execute fun db =>
    scanned (d.order 1) ListRow.id (shared_with user.id db)
  return json 200 (.lists ((without_repeats [] (owned_lists ++ shared_lists)).map .of))

def get_list (list_id : UUID) (request : Request) : Handler Response := do
  let perm ← require_list_permission env .read_list list_id request.session
  match ← execute fun db => db.lists.find perm.list_id with
  | none => not_found
  | some lst => return json 200 (.list (.of lst))

/-- The flush of a renamed list. With the name it had there is no `UPDATE`. -/
def rename_statement (lst : ListRow) (name : String) (now : Time) : Statement :=
  if name = lst.name then fun _ => .ok [] else update_list_name lst.id name now

def rename_list (list_id : UUID) (body : ListUpdate) (request : Request) (d : Draws) :
    Handler Response := do
  let perm ← require_list_permission env .rename_list list_id request.session
  match ← execute fun db => db.lists.find perm.list_id with
  | none => not_found
  | some lst =>
    flush (rename_statement lst body.name d.db_now)
    commit
    let lst ← refresh fun db => db.lists.find lst.id
    return json 200 (.list (.of lst))

def delete_list (list_id : UUID) (request : Request) : Handler Response := do
  let perm ← require_list_permission env .delete_list list_id request.session
  match ← execute fun db => db.lists.find perm.list_id with
  | none => not_found
  | some lst =>
    flush (delete_list_row lst.id)
    commit
    return json 204 .empty

theorem rename_statement_ok {lst : ListRow} {name : String} {now : Time} {db : DB}
    {cs : List Change} (h : rename_statement lst name now db = .ok cs) :
    cs = [] ∨ cs = [.set_list_name lst.id name now] := by
  unfold rename_statement at h
  split at h
  · cases h
    exact Or.inl rfl
  · exact Or.inr (update_list_name_ok h).1

/-! ## Their effects alone -/

section
variable (request : Request) (d : Draws) (c : Nat → Time) (w : World)

theorem create_list_effect (body : ListCreate) :
    perform (create_list env body request d) c w =
      proceed (session_user env request.session (c 0) w.db) w fun user =>
        attempt (insert_list (new_list user.id body d)) w fun w' =>
          (json 201 (.list (.of (new_list user.id body d))), w') := by
  unfold create_list
  rw [perform_require_auth]
  congr 1
  funext user
  rw [perform_flush_commit]
  apply attempt_congr
  intro cs h
  obtain ⟨rfl, hfree, -⟩ := insert_list_ok h
  have hf : (w.commit [.insert_list (new_list user.id body d)]).db.lists.find d.row_id =
      some (new_list user.id body d) :=
    Table.find_insert_self hfree
  rw [perform_refresh, hf]
  rfl

theorem list_lists_effect :
    perform (list_lists env request d) c w =
      proceed (session_user env request.session (c 0) w.db) w fun user =>
        (json 200 (.lists ((without_repeats []
          (scanned (d.order 0) ListRow.id
              (w.db.lists.select fun l => decide (l.owner_id = user.id)) ++
            scanned (d.order 1) ListRow.id (shared_with user.id w.db))).map .of)), w) := by
  unfold list_lists
  rw [perform_require_auth]
  rfl

theorem get_list_effect (list_id : UUID) :
    perform (get_list env list_id request) c w =
      proceed (gate env .read_list list_id request.session (c 0) w.db) w fun perm =>
        match w.db.lists.find perm.list_id with
        | none => (not_found_error.response, w)
        | some lst => (json 200 (.list (.of lst)), w) := by
  unfold get_list
  rw [perform_gate]
  congr 1
  funext perm
  rw [perform_execute]
  cases w.db.lists.find perm.list_id <;> rfl

theorem rename_list_effect (list_id : UUID) (body : ListUpdate) :
    perform (rename_list env list_id body request d) c w =
      proceed (gate env .rename_list list_id request.session (c 0) w.db) w fun perm =>
        match w.db.lists.find perm.list_id with
        | none => (not_found_error.response, w)
        | some lst =>
          attempt (rename_statement lst body.name d.db_now) w fun w' =>
            proceed (read_back (w'.db.lists.find lst.id)) w' fun lst =>
              (json 200 (.list (.of lst)), w') := by
  unfold rename_list
  rw [perform_gate]
  congr 1
  funext perm
  rw [perform_execute]
  cases w.db.lists.find perm.list_id with
  | none => rfl
  | some lst =>
    dsimp only
    rw [perform_flush_commit]
    congr 1
    funext w'
    rw [perform_refresh]
    rfl

theorem delete_list_effect (list_id : UUID) :
    perform (delete_list env list_id request) c w =
      proceed (gate env .delete_list list_id request.session (c 0) w.db) w fun perm =>
        match w.db.lists.find perm.list_id with
        | none => (not_found_error.response, w)
        | some lst => (json 204 .empty, { w with db := w.db.without_list lst.id }) := by
  unfold delete_list
  rw [perform_gate]
  congr 1
  funext perm
  rw [perform_execute]
  cases w.db.lists.find perm.list_id with
  | none => rfl
  | some lst =>
    dsimp only
    rw [perform_flush_commit]
    have h : delete_list_row lst.id w.db = .ok _ := rfl
    rw [attempt_ok h, World.commit, delete_list_row_ok h]
    rfl

end

end shared_todos.lists
