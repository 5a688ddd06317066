-- The handlers of `items/router.py`.
import SharedTodos.Authz

open keyed_table transactions
open shared_todos.models shared_todos.http shared_todos.http.handler
open shared_todos.sessions shared_todos.authz

namespace shared_todos.items

def content_length (content : String) : Prop := 1 ≤ content.length ∧ content.length ≤ 4096

instance (content : String) : Decidable (content_length content) :=
  inferInstanceAs (Decidable (_ ∧ _))

structure ItemCreate where
  content : String
  content_length : content_length content
  order : Int

structure ItemUpdate where
  content : Option String
  content_length : ∀ c ∈ content, content_length c
  completed : Option Bool
  order : Option Int

variable (env : Env)

def new_item (list_id : UUID) (body : ItemCreate) (d : Draws) : Item :=
  { id := d.row_id, list_id, content := body.content, completed := false, order := body.order,
    created_at := d.db_now, updated_at := d.db_now }

def create_item (list_id : UUID) (body : ItemCreate) (request : Request) (d : Draws) :
    Handler Response := do
  let perm ← require_list_permission env .create_item list_id request.session
  flush (insert_item (new_item perm.list_id body d))
  commit
  let item ← refresh fun db => db.items.find d.row_id
  return json 201 (.item (.of item))

/-- `select(Item).where(Item.list_id == list_id).order_by(Item.order)`: the
rows of one order stand as the database scans them. -/
def ordered_items (list_id : UUID) (order : UUID → Nat) (db : DB) : List Item :=
  (scanned order Item.id (db.items.select fun i => decide (i.list_id = list_id))).insertionSort
    fun a b => a.order ≤ b.order

def list_items (list_id : UUID) (request : Request) (d : Draws) : Handler Response := do
  let perm ← require_list_permission env .list_items list_id request.session
  let items ← execute (ordered_items perm.list_id (d.order 0))
  return json 200 (.items (items.map .of))

/-- The columns that the flush of an item sets: those that the body gives and
whose value is not the one that the request loaded. -/
def changed_columns (item : Item) (body : ItemUpdate) : ItemPatch :=
  { content := body.content.filter fun c => decide (c ≠ item.content)
    completed := body.completed.filter fun c => decide (c ≠ item.completed)
    order := body.order.filter fun o => decide (o ≠ item.order) }

def update_item (list_id item_id : UUID) (body : ItemUpdate) (request : Request) (d : Draws) :
    Handler Response := do
  let perm ← require_list_permission env .update_item list_id request.session
  match ← execute fun db => db.items.find item_id with
  | none => not_found
  | some item =>
    if item.list_id ≠ perm.list_id then not_found
    else
      flush (update_item_row item.id (changed_columns item body) d.db_now)
      commit
      let item ← refresh fun db => db.items.find item.id
      return json 200 (.item (.of item))

def delete_item (list_id item_id : UUID) (request : Request) : Handler Response := do
  let perm ← require_list_permission env .delete_item list_id request.session
  match ← execute fun db => db.items.find item_id with
  | none => not_found
  | some item =>
    if item.list_id ≠ perm.list_id then not_found
    else
      flush (delete_item_row item.id)
      commit
      return json 204 .empty

/-! ## Their effects alone -/

section
variable (request : Request) (d : Draws) (c : Nat → Time) (w : World)

theorem create_item_effect (list_id : UUID) (body : ItemCreate) :
    perform (create_item env list_id body request d) c w =
      proceed (gate env .create_item list_id request.session (c 0) w.db) w fun perm =>
        attempt (insert_item (new_item perm.list_id body d)) w fun w' =>
          (json 201 (.item (.of (new_item perm.list_id body d))), w') := by
  unfold create_item
  rw [perform_gate]
  congr 1
  funext perm
  rw [perform_flush_commit]
  apply attempt_congr
  intro cs h
  obtain ⟨rfl, hfree, -⟩ := insert_item_ok h
  have hf : (w.commit [.insert_item (new_item perm.list_id body d)]).db.items.find d.row_id =
      some (new_item perm.list_id body d) :=
    Table.find_insert_self hfree
  rw [perform_refresh, hf]
  rfl

theorem list_items_effect (list_id : UUID) :
    perform (list_items env list_id request d) c w =
      proceed (gate env .list_items list_id request.session (c 0) w.db) w fun perm =>
        (json 200 (.items ((ordered_items perm.list_id (d.order 0) w.db).map .of)), w) := by
  unfold list_items
  rw [perform_gate]
  rfl

theorem update_item_effect (list_id item_id : UUID) (body : ItemUpdate) :
    perform (update_item env list_id item_id body request d) c w =
      proceed (gate env .update_item list_id request.session (c 0) w.db) w fun perm =>
        match w.db.items.find item_id with
        | none => (not_found_error.response, w)
        | some item =>
          if item.list_id ≠ perm.list_id then (not_found_error.response, w)
          else
            attempt (update_item_row item.id (changed_columns item body) d.db_now) w fun w' =>
              proceed (read_back (w'.db.items.find item.id)) w' fun item =>
                (json 200 (.item (.of item)), w') := by
  unfold update_item
  rw [perform_gate]
  congr 1
  funext perm
  rw [perform_execute]
  cases w.db.items.find item_id with
  | none => rfl
  | some item =>
    dsimp only
    split
    · rfl
    · rw [perform_flush_commit]
      congr 1
      funext w'
      rw [perform_refresh]
      rfl

theorem delete_item_effect (list_id item_id : UUID) :
    perform (delete_item env list_id item_id request) c w =
      proceed (gate env .delete_item list_id request.session (c 0) w.db) w fun perm =>
        match w.db.items.find item_id with
        | none => (not_found_error.response, w)
        | some item =>
          if item.list_id ≠ perm.list_id then (not_found_error.response, w)
          else (json 204 .empty, w.commit [.delete_item item.id]) := by
  unfold delete_item
  rw [perform_gate]
  congr 1
  funext perm
  rw [perform_execute]
  cases w.db.items.find item_id with
  | none => rfl
  | some item =>
    dsimp only
    split
    · rfl
    · rw [perform_flush_commit]
      rfl

end

end shared_todos.items
