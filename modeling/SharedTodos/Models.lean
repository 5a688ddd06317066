-- The tables of the backend (`app/models`) and what PostgreSQL does with a
-- statement on them: the constraints it checks, the rows it changes and the
-- locks it takes until the transaction ends.
import SharedTodos.Library.Table
import SharedTodos.Library.Program

open keyed_table transactions

namespace shared_todos.models

abbrev UUID := BitVec 128

/-! ## The rows -/

structure User where
  id : UUID
  email : String
  display_name : String
  password_hash : Option String
  google_sub : Option String
deriving DecidableEq

structure Session where
  id : UUID
  user_id : UUID
  token_hash : String
  expires_at : Time
deriving DecidableEq

structure PasswordResetToken where
  id : UUID
  user_id : UUID
  token_hash : String
  expires_at : Time
  used_at : Option Time
deriving DecidableEq

/-- The class `List` of `app/models/list_.py`. -/
structure ListRow where
  id : UUID
  owner_id : UUID
  name : String
  created_at : Time
  updated_at : Time
deriving DecidableEq

structure Item where
  id : UUID
  list_id : UUID
  content : String
  completed : Bool
  order : Int
  created_at : Time
  updated_at : Time
deriving DecidableEq

structure Share where
  list_id : UUID
  user_id : UUID
  role : String
  granted_at : Time
deriving DecidableEq

/-- The composite primary key of a share. -/
def Share.key (s : Share) : UUID × UUID := (s.list_id, s.user_id)

structure DB where
  users : Table User.id
  sessions : Table Session.id
  password_reset_tokens : Table PasswordResetToken.id
  lists : Table ListRow.id
  items : Table Item.id
  shares : Table Share.key

def DB.empty : DB := ⟨.empty, .empty, .empty, .empty, .empty, .empty⟩

/-! ## The columns -/

/-- A text that a column of `n` characters holds. PostgreSQL has no NUL in a text. -/
def text_fits (n : Nat) (s : String) : Prop := s.length ≤ n ∧ Char.ofNat 0 ∉ s.toList

instance (n : Nat) (s : String) : Decidable (text_fits n s) := inferInstanceAs (Decidable (_ ∧ _))

/-- A text of a column with no limit. -/
def text_storable (s : String) : Prop := Char.ofNat 0 ∉ s.toList

instance (s : String) : Decidable (text_storable s) := inferInstanceAs (Decidable (_ ∉ _))

/-- The range of the type `INTEGER`. -/
def integer_fits (n : Int) : Prop := -2147483648 ≤ n ∧ n ≤ 2147483647

instance (n : Int) : Decidable (integer_fits n) := inferInstanceAs (Decidable (_ ∧ _))

def User.fits (u : User) : Prop :=
  text_fits 254 u.email ∧ text_fits 128 u.display_name ∧ ∀ s ∈ u.google_sub, text_fits 256 s

instance (u : User) : Decidable u.fits := inferInstanceAs (Decidable (_ ∧ _ ∧ _))

/-- The check constraint `ck_users_has_auth_method`. -/
def User.has_auth_method (u : User) : Prop := u.password_hash ≠ none ∨ u.google_sub ≠ none

instance (u : User) : Decidable u.has_auth_method := inferInstanceAs (Decidable (_ ∨ _))

/-- The check constraint `role_valid`. -/
def role_valid (role : String) : Prop := role = "editor" ∨ role = "viewer"

instance (role : String) : Decidable (role_valid role) := inferInstanceAs (Decidable (_ ∨ _))

/-! ## The changes of a statement -/

/-- The columns that an `UPDATE` of an item sets. -/
structure ItemPatch where
  content : Option String
  completed : Option Bool
  order : Option Int
deriving DecidableEq

/-- A change of one row. -/
inductive Change where
  | insert_user (u : User)
  | set_password_hash (id : UUID) (hash : String)
  | set_google_sub (id : UUID) (sub : String)
  | insert_session (s : Session)
  | delete_session (id : UUID)
  | insert_reset_token (t : PasswordResetToken)
  | set_used_at (id : UUID) (used_at : Time)
  | insert_list (l : ListRow)
  | set_list_name (id : UUID) (name : String) (updated_at : Time)
  | delete_list (id : UUID)
  | insert_item (i : Item)
  | patch_item (id : UUID) (p : ItemPatch) (updated_at : Time)
  | delete_item (id : UUID)
  | insert_share (s : Share)
  | set_role (list_id user_id : UUID) (role : String)
  | delete_share (list_id user_id : UUID)
deriving DecidableEq

def Item.patch (i : Item) (p : ItemPatch) (updated_at : Time) : Item :=
  { i with
    content := p.content.getD i.content
    completed := p.completed.getD i.completed
    order := p.order.getD i.order
    updated_at }

theorem Item.patch_id (i : Item) (p : ItemPatch) (updated_at : Time) :
    (i.patch p updated_at).id = i.id := rfl

def Share.with_role (s : Share) (role : String) : Share := { s with role }

theorem Share.with_role_key (s : Share) (role : String) : (s.with_role role).key = s.key := rfl

def Change.apply : Change → DB → DB
  | .insert_user u, db => { db with users := db.users.insert u }
  | .set_password_hash id h, db =>
    { db with
      users := db.users.update id (fun u => { u with password_hash := some h }) fun _ => rfl }
  | .set_google_sub id s, db =>
    { db with users := db.users.update id (fun u => { u with google_sub := some s }) fun _ => rfl }
  | .insert_session s, db => { db with sessions := db.sessions.insert s }
  | .delete_session id, db =>
    { db with sessions := db.sessions.deleteWhere fun s => decide (s.id = id) }
  | .insert_reset_token t, db =>
    { db with password_reset_tokens := db.password_reset_tokens.insert t }
  | .set_used_at id t, db =>
    { db with
      password_reset_tokens :=
        db.password_reset_tokens.update id (fun r => { r with used_at := some t }) fun _ => rfl }
  | .insert_list l, db => { db with lists := db.lists.insert l }
  | .set_list_name id name t, db =>
    { db with
      lists := db.lists.update id (fun l => { l with name, updated_at := t }) fun _ => rfl }
  | .delete_list id, db => { db with lists := db.lists.deleteWhere fun l => decide (l.id = id) }
  | .insert_item i, db => { db with items := db.items.insert i }
  | .patch_item id p t, db =>
    { db with items := db.items.update id (fun i => i.patch p t) fun i => i.patch_id p t }
  | .delete_item id, db => { db with items := db.items.deleteWhere fun i => decide (i.id = id) }
  | .insert_share s, db => { db with shares := db.shares.insert s }
  | .set_role l u role, db =>
    { db with
      shares :=
        db.shares.update (l, u) (fun s => s.with_role role) fun s => s.with_role_key role }
  | .delete_share l u, db =>
    { db with shares := db.shares.deleteWhere fun s => decide (s.key = (l, u)) }

/-! ## The locks -/

/-- What a lock holds: a row by its primary key, or a value of a unique index. -/
inductive LockKey where
  | user (id : UUID)
  | user_email (email : String)
  | user_sub (sub : String)
  | session (id : UUID)
  | session_hash (hash : String)
  | reset_token (id : UUID)
  | reset_token_hash (hash : String)
  | list (id : UUID)
  | item (id : UUID)
  | share (list_id user_id : UUID)
deriving DecidableEq

/-- The row locks of PostgreSQL that the statements take. -/
inductive LockMode where
  | key_share
  | no_key_update
  | exclusive
deriving DecidableEq

/-- A row that is referenced may change a column that is no key. -/
def LockMode.compatible : LockMode → LockMode → Bool
  | .key_share, .key_share => true
  | .key_share, .no_key_update => true
  | .no_key_update, .key_share => true
  | _, _ => false

/-- A foreign key takes a key share lock on the row that it references. -/
def Change.locks : Change → List (LockKey × LockMode)
  | .insert_user u =>
    [(.user u.id, .exclusive), (.user_email u.email, .exclusive)] ++
      u.google_sub.toList.map fun s => (.user_sub s, .exclusive)
  | .set_password_hash id _ => [(.user id, .no_key_update)]
  | .set_google_sub id s => [(.user id, .exclusive), (.user_sub s, .exclusive)]
  | .insert_session s =>
    [(.session s.id, .exclusive), (.session_hash s.token_hash, .exclusive),
      (.user s.user_id, .key_share)]
  | .delete_session id => [(.session id, .exclusive)]
  | .insert_reset_token t =>
    [(.reset_token t.id, .exclusive), (.reset_token_hash t.token_hash, .exclusive),
      (.user t.user_id, .key_share)]
  | .set_used_at id _ => [(.reset_token id, .no_key_update)]
  | .insert_list l => [(.list l.id, .exclusive), (.user l.owner_id, .key_share)]
  | .set_list_name id _ _ => [(.list id, .no_key_update)]
  | .delete_list id => [(.list id, .exclusive)]
  | .insert_item i => [(.item i.id, .exclusive), (.list i.list_id, .key_share)]
  | .patch_item id _ _ => [(.item id, .no_key_update)]
  | .delete_item id => [(.item id, .exclusive)]
  | .insert_share s =>
    [(.share s.list_id s.user_id, .exclusive), (.list s.list_id, .key_share),
      (.user s.user_id, .key_share)]
  | .set_role l u _ => [(.share l u, .no_key_update)]
  | .delete_share l u => [(.share l u, .exclusive)]

instance : Database DB Change where
  apply := Change.apply
  blocks c d := c.locks.any fun a => d.locks.any fun b => decide (a.1 = b.1) && !a.2.compatible b.2

/-! ## The statements -/

inductive DbError where
  | unique_violation
  | foreign_key_violation
  | check_violation
  /-- A value that does not fit its column. -/
  | data_error
  /-- An `UPDATE` of the unit of work that matches no row. -/
  | stale_data
deriving DecidableEq

abbrev Statement := DB → Except DbError (List Change)

def insert_user (u : User) : Statement := fun db =>
  if ¬ u.fits then .error .data_error
  else if ¬ u.has_auth_method then .error .check_violation
  else if db.users.find u.id ≠ none ∨ (∃ v ∈ db.users.rows, v.email = u.email) ∨
      (∃ v ∈ db.users.rows, v.google_sub ≠ none ∧ v.google_sub = u.google_sub) then
    .error .unique_violation
  else .ok [.insert_user u]

def update_password_hash (id : UUID) (hash : String) : Statement := fun db =>
  if db.users.find id = none then .error .stale_data
  else .ok [.set_password_hash id hash]

def update_google_sub (id : UUID) (sub : String) : Statement := fun db =>
  if ¬ text_fits 256 sub then .error .data_error
  else if db.users.find id = none then .error .stale_data
  else if ∃ v ∈ db.users.rows, v.id ≠ id ∧ v.google_sub = some sub then .error .unique_violation
  else .ok [.set_google_sub id sub]

def insert_session (s : Session) : Statement := fun db =>
  if db.sessions.find s.id ≠ none ∨ (∃ r ∈ db.sessions.rows, r.token_hash = s.token_hash) then
    .error .unique_violation
  else if db.users.find s.user_id = none then .error .foreign_key_violation
  else .ok [.insert_session s]

/-- `DELETE FROM sessions WHERE p`: it deletes the rows that it sees. -/
def delete_sessions (p : Session → Bool) : Statement := fun db =>
  .ok ((db.sessions.select p).map fun s => .delete_session s.id)

def insert_reset_token (t : PasswordResetToken) : Statement := fun db =>
  if db.password_reset_tokens.find t.id ≠ none ∨
      (∃ r ∈ db.password_reset_tokens.rows, r.token_hash = t.token_hash) then
    .error .unique_violation
  else if db.users.find t.user_id = none then .error .foreign_key_violation
  else .ok [.insert_reset_token t]

def update_used_at (id : UUID) (used_at : Time) : Statement := fun db =>
  if db.password_reset_tokens.find id = none then .error .stale_data
  else .ok [.set_used_at id used_at]

def insert_list (l : ListRow) : Statement := fun db =>
  if ¬ text_fits 256 l.name then .error .data_error
  else if db.lists.find l.id ≠ none then .error .unique_violation
  else if db.users.find l.owner_id = none then .error .foreign_key_violation
  else .ok [.insert_list l]

def update_list_name (id : UUID) (name : String) (updated_at : Time) : Statement := fun db =>
  if ¬ text_fits 256 name then .error .data_error
  else if db.lists.find id = none then .error .stale_data
  else .ok [.set_list_name id name updated_at]

/-- `DELETE FROM lists WHERE id = ..`, with the cascade to the items and shares. -/
def delete_list_row (id : UUID) : Statement := fun db =>
  .ok ((db.items.select fun i => decide (i.list_id = id)).map (fun i => .delete_item i.id) ++
    (db.shares.select fun s => decide (s.list_id = id)).map
      (fun s => .delete_share s.list_id s.user_id) ++
    [.delete_list id])

def insert_item (i : Item) : Statement := fun db =>
  if ¬ (text_storable i.content ∧ integer_fits i.order) then .error .data_error
  else if db.items.find i.id ≠ none then .error .unique_violation
  else if db.lists.find i.list_id = none then .error .foreign_key_violation
  else .ok [.insert_item i]

/-- The flush of a changed item. With no changed column there is no `UPDATE`. -/
def update_item_row (id : UUID) (p : ItemPatch) (updated_at : Time) : Statement := fun db =>
  if p = ⟨none, none, none⟩ then .ok []
  else if ¬ ((∀ c ∈ p.content, text_storable c) ∧ ∀ o ∈ p.order, integer_fits o) then
    .error .data_error
  else if db.items.find id = none then .error .stale_data
  else .ok [.patch_item id p updated_at]

def delete_item_row (id : UUID) : Statement := fun _ => .ok [.delete_item id]

def insert_share (s : Share) : Statement := fun db =>
  if ¬ role_valid s.role then .error .check_violation
  else if db.shares.find s.key ≠ none then .error .unique_violation
  else if db.lists.find s.list_id = none ∨ db.users.find s.user_id = none then
    .error .foreign_key_violation
  else .ok [.insert_share s]

def update_role (list_id user_id : UUID) (role : String) : Statement := fun db =>
  if ¬ role_valid role then .error .check_violation
  else if db.shares.find (list_id, user_id) = none then .error .stale_data
  else .ok [.set_role list_id user_id role]

def delete_share_row (list_id user_id : UUID) : Statement := fun _ =>
  .ok [.delete_share list_id user_id]

/-- Two statements of one flush. -/
def Statement.also (a b : Statement) : Statement := fun db => do
  let cs ← a db
  let ds ← b (Prog.applyAll cs db)
  return cs ++ ds

end shared_todos.models
