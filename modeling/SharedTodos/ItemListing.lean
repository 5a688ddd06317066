-- The items of a list as the answers left them, and what `list_items` shows of them. A log
-- keeps the items in the order of their creation. The listing sorts them by `order`, and
-- items with one order stand as the database scans them.
import SharedTodos.ItemRaces
import SharedTodos.Accounts
import SharedTodos.Authorization
import SharedTodos.Library.OrderBy

open keyed_table transactions order_by
open shared_todos.models shared_todos.http shared_todos.http.handler
open shared_todos.sessions shared_todos.authz
open shared_todos.lists shared_todos.items shared_todos.shares
open shared_todos.app shared_todos.accounts shared_todos.authorization
open shared_todos.write_requests shared_todos.item_races

namespace shared_todos.item_listing

variable (env : Env)

/-! ## The log of a list -/

/-- An item of the log. -/
structure Entry where
  id : UUID
  values : Values
deriving DecidableEq

/-- The entry with the id after an edit. -/
def Entry.edited (item_id : UUID) (body : ItemUpdate) (e : Entry) : Entry :=
  if e.id = item_id then { e with values := assign body e.values } else e

/-- The log of list `L` after a request with its answer. -/
def note (L : UUID) (s : Step) (r : Response) (log : List Entry) : List Entry :=
  match s.call with
  | .create_item M body =>
    if M = L ∧ r.status_code = 201 then
      log ++ (item_outs r.body).map fun i => ⟨i.id, body.content, false, body.order⟩
    else log
  | .update_item M i body => if M = L ∧ r.status_code = 200 then log.map (.edited i body) else log
  | .delete_item M i =>
    if M = L ∧ r.status_code = 204 then log.filter fun e => decide (e.id ≠ i) else log
  | .delete_list M => if M = L ∧ r.status_code = 204 then [] else log
  | _ => log

/-- The log after a run. -/
def history (L : UUID) : List Step → World → List Entry → List Entry
  | [], _, log => log
  | s :: rest, w, log => history L rest (s.after env w) (note L s (s.handle env w).1 log)

/-! ## The rows of a list -/

def entry_of (i : Item) : Entry := ⟨i.id, values i⟩

/-- The items that stand in the list. -/
def standing (db : DB) (L : UUID) : List Item := db.items.select fun i => decide (i.list_id = L)

def entries (db : DB) (L : UUID) : List Entry := (standing db L).map entry_of

section
variable {db : DB} {L : UUID}

theorem mem_standing {i : Item} : i ∈ standing db L ↔ i ∈ db.items.rows ∧ i.list_id = L := by
  simp [standing]

theorem ids_of_entries : (entries db L).map (·.id) = (standing db L).map (·.id) := by
  simp [entries, entry_of]

theorem ids_nodup : ((entries db L).map (·.id)).Nodup := by
  rw [ids_of_entries]
  exact db.items.nodup.sublist (List.filter_sublist.map _)

theorem entries_insert {i : Item} (hfree : db.items.find i.id = none) :
    entries (Change.apply (.insert_item i) db) L =
      if i.list_id = L then entries db L ++ [entry_of i] else entries db L := by
  have hrows : (Change.apply (.insert_item i) db).items.rows = db.items.rows ++ [i] :=
    Table.rows_insert hfree
  unfold entries standing Table.select
  rw [hrows, List.filter_append, List.map_append]
  by_cases h : i.list_id = L <;> simp [h]

theorem entries_delete (item_id : UUID) :
    entries (Change.apply (.delete_item item_id) db) L =
      (entries db L).filter fun e => decide (e.id ≠ item_id) := by
  simp only [entries, standing, Table.select, Change.apply, Table.deleteWhere, List.filter_map,
    List.filter_filter]
  congr 1
  apply List.filter_congr
  intro i _
  by_cases h : i.id = item_id <;> simp [entry_of, h]

/-- An entry with the id of a row has its values. -/
theorem entry_of_id {item : Item} (hitem : item ∈ db.items.rows) {e : Entry}
    (he : e ∈ entries db L) (hid : e.id = item.id) : e = entry_of item := by
  obtain ⟨i, hi, rfl⟩ := List.mem_map.mp he
  rw [db.items.eq_of_key_eq (mem_standing.mp hi).1 hitem hid]

theorem entries_patch {loaded : Item} (body : ItemUpdate) (now : Time)
    (hloaded : loaded ∈ db.items.rows) :
    entries (Change.apply (.patch_item loaded.id (changed_columns loaded body) now) db) L =
      (entries db L).map (.edited loaded.id body) := by
  simp only [entries, standing, Table.select, Change.apply, Table.update, List.filter_map,
    List.map_map]
  rw [List.filter_congr (q := fun i => decide (i.list_id = L)) ?_]
  · apply List.map_congr_left
    intro i hi
    by_cases h : i.id = loaded.id
    · obtain rfl : i = loaded := db.items.eq_of_key_eq (List.mem_filter.mp hi).1 hloaded h
      have hvalues : values (i.patch (changed_columns i body) now) = assign body (values i) :=
        merge_loaded body (values i)
      simp [entry_of, Entry.edited, Item.patch_id, hvalues]
    · simp [entry_of, Entry.edited, h]
  · intro i _
    simp only [Function.comp_apply]
    split <;> rfl

/-- The flush of an edit edits the entry, also where it finds nothing to change. -/
theorem entries_flush {loaded : Item} {body : ItemUpdate} {now : Time} {cs : List Change}
    (hloaded : db.items.find loaded.id = some loaded)
    (h : update_item_row loaded.id (changed_columns loaded body) now db = .ok cs) :
    entries (Prog.applyAll cs db) L = (entries db L).map (.edited loaded.id body) ∧
      ∃ row, (Prog.applyAll cs db).items.find loaded.id = some row := by
  have hmem := Table.mem_of_find hloaded
  have hvalues := values_after_flush db h
  rw [hloaded, Option.map_some, merge_loaded] at hvalues
  obtain ⟨row, hrow, hrowvalues⟩ := Option.map_eq_some_iff.mp hvalues
  refine ⟨?_, row, hrow⟩
  rcases update_item_row_ok h with ⟨rfl, -⟩ | ⟨rfl, -⟩
  · rw [Prog.applyAll_nil] at hrow ⊢
    rw [hloaded] at hrow
    cases hrow
    refine ((List.map_congr_left fun e he => ?_).trans (List.map_id _)).symm
    by_cases hid : e.id = loaded.id
    · rw [entry_of_id hmem he hid]
      simp [Entry.edited, entry_of, ← hrowvalues]
    · simp [Entry.edited, hid]
  · exact entries_patch body now hmem

/-- An item of another list has no entry. -/
theorem entry_id_ne {item : Item} (hitem : item ∈ db.items.rows) (hother : item.list_id ≠ L)
    {e : Entry} (he : e ∈ entries db L) : e.id ≠ item.id := by
  obtain ⟨i, hi, rfl⟩ := List.mem_map.mp he
  obtain ⟨hmem, hlist⟩ := mem_standing.mp hi
  intro hid
  rw [db.items.eq_of_key_eq hmem hitem hid] at hlist
  exact hother hlist

theorem edited_other {item : Item} (body : ItemUpdate) (hitem : item ∈ db.items.rows)
    (hother : item.list_id ≠ L) : (entries db L).map (.edited item.id body) = entries db L := by
  refine (List.map_congr_left fun e he => ?_).trans (List.map_id _)
  simp [Entry.edited, entry_id_ne hitem hother he]

theorem deleted_other {item : Item} (hitem : item ∈ db.items.rows) (hother : item.list_id ≠ L) :
    (entries db L).filter (fun e => decide (e.id ≠ item.id)) = entries db L := by
  rw [List.filter_eq_self]
  intro e he
  simpa using entry_id_ne hitem hother he

theorem entries_without_list (M : UUID) :
    entries (db.without_list M) L = if M = L then [] else entries db L := by
  unfold entries standing Table.select DB.without_list Table.deleteWhere
  rw [List.filter_filter]
  by_cases h : M = L
  · simp [h]
  · simp only [h, if_false]
    congr 1
    apply List.filter_congr
    intro i _
    by_cases hL : i.list_id = L <;> simp [hL, Ne.symm h]

end

/-! ## One request -/

/-- The rows of the list after the request are the log with the note of the request. -/
def Noted (L : UUID) (s : Step) (w : World) (x : Response × World) : Prop :=
  entries x.2.db L = note L s x.1 (entries w.db L)

section
variable {env} {L : UUID} {s : Step} {w : World}

theorem noted_of_failure (r : Response) (hr : 400 ≤ r.status_code) : Noted L s w (r, w) := by
  have hstatus : r.status_code ≠ 200 ∧ r.status_code ≠ 201 ∧ r.status_code ≠ 204 := by omega
  unfold Noted note
  cases s.call <;> simp [hstatus]

theorem noted_create_item {M : UUID} {body : ItemCreate} (hcall : s.call = .create_item M body) :
    Noted L s w (perform (create_item env M body s.request s.draws) s.draws.now w) := by
  rw [create_item_effect]
  refine after_gate noted_of_failure fun user role _ _ _ => ?_
  refine after_attempt noted_of_failure fun cs hcs => ?_
  obtain ⟨rfl, hfree, -⟩ := insert_item_ok hcs
  unfold Noted note
  rw [hcall]
  refine (entries_insert hfree).trans ?_
  by_cases h : M = L <;> simp [h, new_item, json, item_outs, ItemOut.of, entry_of, values]

theorem noted_update_item {M i : UUID} {body : ItemUpdate} (hcall : s.call = .update_item M i body) :
    Noted L s w (perform (update_item env M i body s.request s.draws) s.draws.now w) := by
  rw [update_item_effect]
  refine after_gate noted_of_failure fun user role _ _ _ => ?_
  dsimp only
  cases hfind : w.db.items.find i with
  | none => exact noted_of_failure _ (by decide)
  | some item =>
    have hid : item.id = i := Table.key_of_find hfind
    have hmem := Table.mem_of_find hfind
    dsimp only
    split
    · exact noted_of_failure _ (by decide)
    rename_i hlist
    have hM : item.list_id = M := by simpa using hlist
    refine after_attempt noted_of_failure fun cs hcs => ?_
    rw [← hid] at hfind
    obtain ⟨hentries, row, hrow⟩ := entries_flush (L := L) hfind hcs
    have hfound : (w.commit cs).db.items.find item.id = some row := hrow
    rw [hfound]
    unfold Noted note
    rw [hcall, ← hid]
    refine hentries.trans ?_
    by_cases h : M = L
    · simp [h, read_back, json]
    · simp only [h, false_and, if_false]
      exact edited_other body hmem (by rw [hM]; exact h)

theorem noted_delete_item {M i : UUID} (hcall : s.call = .delete_item M i) :
    Noted L s w (perform (delete_item env M i s.request) s.draws.now w) := by
  rw [delete_item_effect]
  refine after_gate noted_of_failure fun user role _ _ _ => ?_
  dsimp only
  cases hfind : w.db.items.find i with
  | none => exact noted_of_failure _ (by decide)
  | some item =>
    have hid : item.id = i := Table.key_of_find hfind
    have hmem := Table.mem_of_find hfind
    dsimp only
    split
    · exact noted_of_failure _ (by decide)
    · rename_i hlist
      have hM : item.list_id = M := by simpa using hlist
      unfold Noted note
      rw [hcall, ← hid]
      refine (entries_delete item.id).trans ?_
      by_cases h : M = L
      · simp [h, json]
      · simp only [h, false_and, if_false]
        exact deleted_other hmem (by rw [hM]; exact h)

theorem noted_delete_list {M : UUID} (hcall : s.call = .delete_list M) :
    Noted L s w (perform (delete_list env M s.request) s.draws.now w) := by
  rw [delete_list_effect]
  refine after_gate noted_of_failure fun user role _ _ _ => ?_
  dsimp only
  cases hfind : w.db.lists.find M with
  | none => exact noted_of_failure _ (by decide)
  | some lst =>
    have hid : lst.id = M := Table.key_of_find hfind
    unfold Noted note
    rw [hcall, ← hid]
    refine (entries_without_list lst.id).trans ?_
    simp [json]

end

/-! ### The requests that leave the items -/

def LeavesItems (st : Statement) : Prop := ∀ items, Prog.Keeps (fun db => db.items = items) st

theorem account_statement_leaves_items {st : Statement} (h : AccountStatement st) :
    LeavesItems st := by
  intro items
  induction h with
  | insert_user u => intro db cs hdb h; obtain ⟨rfl, -⟩ := insert_user_ok h; exact hdb
  | update_password_hash id hash =>
    intro db cs hdb h
    obtain ⟨rfl, -⟩ := update_password_hash_ok h
    exact hdb
  | update_google_sub id sub =>
    intro db cs hdb h
    obtain ⟨rfl, -⟩ := update_google_sub_ok h
    exact hdb
  | insert_session x => intro db cs hdb h; obtain ⟨rfl, -⟩ := insert_session_ok h; exact hdb
  | delete_sessions p => intro db cs hdb h; rw [delete_sessions_ok h]; exact hdb
  | insert_reset_token x =>
    intro db cs hdb h
    obtain ⟨rfl, -⟩ := insert_reset_token_ok h
    exact hdb
  | update_used_at id now => intro db cs hdb h; obtain ⟨rfl, -⟩ := update_used_at_ok h; exact hdb
  | also a b _ _ ha hb => exact also_keeps ha hb

theorem insert_list_leaves_items (l : ListRow) : LeavesItems (insert_list l) := by
  intro items db cs hdb h
  obtain ⟨rfl, -⟩ := insert_list_ok h
  exact hdb

theorem rename_statement_leaves_items (l : ListRow) (name : String) (now : Time) :
    LeavesItems (rename_statement l name now) := by
  intro items db cs hdb h
  rcases rename_statement_ok h with rfl | rfl <;> exact hdb

theorem insert_share_leaves_items (x : Share) : LeavesItems (insert_share x) := by
  intro items db cs hdb h
  obtain ⟨rfl, -⟩ := insert_share_ok h
  exact hdb

theorem role_statement_leaves_items (x : Share) (role : String) :
    LeavesItems (role_statement x role) := by
  intro items db cs hdb h
  rcases role_statement_ok h with rfl | ⟨rfl, -⟩ <;> exact hdb

theorem delete_share_row_leaves_items (M u : UUID) : LeavesItems (delete_share_row M u) := by
  intro items db cs hdb h
  cases h
  exact hdb

/-- The requests that add, change or delete items. -/
def concerns_items : Call → Bool
  | .create_item _ _ | .update_item _ _ _ | .delete_item _ _ | .delete_list _ => true
  | _ => false

theorem other_handlers_leave_items {call : Call} (h : concerns_items call = false)
    (request : Request) (d : Draws) : (handler_of env call request d).Writes LeavesItems := by
  have haccount : call.on_lists = false → (handler_of env call request d).Writes LeavesItems :=
    fun h => Prog.writes_mono (fun _ => account_statement_leaves_items)
      (account_handler_writes env request d h)
  cases call with
  | create_list body => exact writes_create_list env request d body insert_list_leaves_items
  | list_lists => exact writes_list_lists env request d
  | get_list L => exact writes_get_list env request L
  | rename_list L body =>
    exact writes_rename_list env request d L body fun _ => rename_statement_leaves_items _ _ _
  | list_items L => exact writes_list_items env request d L
  | create_share L body => exact writes_create_share env request d L body insert_share_leaves_items
  | list_shares L => exact writes_list_shares env request d L
  | change_role L u body =>
    exact writes_change_role env request L u body fun _ => role_statement_leaves_items _ _
  | revoke_share L u => exact writes_revoke_share env request L u delete_share_row_leaves_items
  | create_item L body => cases h
  | update_item L i body => cases h
  | delete_item L i => cases h
  | delete_list L => cases h
  | _ => exact haccount rfl

/-! ## Runs -/

section
variable (L : UUID)

theorem noted_step (s : Step) (w : World) : Noted L s w (s.handle env w) := by
  refine after_dispatch noted_of_failure ?_
  cases hcall : concerns_items s.call with
  | false =>
    have hitems : (perform (handler_of env s.call s.request s.draws) s.draws.now w).2.db.items =
        w.db.items :=
      perform_keeps (P := fun db => db.items = w.db.items) (fun st hst => hst w.db.items)
        (other_handlers_leave_items env hcall s.request s.draws) rfl
    unfold Noted entries standing note
    rw [hitems]
    split <;> rename_i h <;> first | rfl | (rw [h] at hcall; cases hcall)
  | true =>
    cases h : s.call with
    | create_item M body => exact noted_create_item h
    | update_item M i body => exact noted_update_item h
    | delete_item M i => exact noted_delete_item h
    | delete_list M => exact noted_delete_list h
    | _ => rw [h] at hcall; cases hcall

/-- The rows of a list after a run are its log. -/
theorem entries_of_run (steps : List Step) (w : World) :
    entries (run env steps w).db L = history env L steps w (entries w.db L) := by
  induction steps generalizing w with
  | nil => rfl
  | cons s rest ih =>
    unfold history
    rw [← noted_step env L s w]
    exact ih (s.after env w)

end

/-! ## The listing -/

/-- The request, where the database scans the tables in other orders. -/
def scanning (s : Step) (order : Nat → UUID → Nat) : Step :=
  { s with draws := { s.draws with order } }

/-- What the response shows of its items. -/
def shown (r : Response) : List Entry :=
  (item_outs r.body).map fun i => ⟨i.id, i.content, i.completed, i.order⟩

def order_of (e : Entry) : Int := e.values.order

/-- The items that stand in the list have distinct orders. -/
def OrdersApart (db : DB) (L : UUID) : Prop := ((standing db L).map (·.order)).Nodup

instance (db : DB) (L : UUID) : Decidable (OrdersApart db L) :=
  inferInstanceAs (Decidable (List.Nodup _))

theorem orders_of_entries (db : DB) (L : UUID) :
    (entries db L).map order_of = (standing db L).map (·.order) := by
  simp [entries, order_of, entry_of, values]

section
variable {env} {L : UUID} {r : Step} {w : World}

theorem list_items_answer (hcall : r.call = .list_items L) (order : Nat → UUID → Nat) :
    (scanning r order).handle env w =
      proceed (gate env .list_items L r.request.session (r.draws.now 0) w.db) w fun perm =>
        (json 200 (.items ((ordered_items perm.list_id (order 0) w.db).map .of)), w) := by
  have hget : (scanning r order).call.method = "GET" := by
    change r.call.method = "GET"
    rw [hcall]
    rfl
  have heffect := list_items_effect env r.request (scanning r order).draws r.draws.now w L
  rw [handle_of_get env hget]
  refine Eq.trans ?_ heffect
  unfold scanning
  dsimp only
  rw [hcall]
  rfl

theorem entries_of_ordered_items (db : DB) (scan : UUID → Nat) :
    (ordered_items L scan db).map entry_of =
      (scanned scan Entry.id (entries db L)).insertionSort fun a b => order_of a ≤ order_of b := by
  have hscan : (scanned scan Item.id (standing db L)).map entry_of =
      scanned scan Entry.id (entries db L) :=
    List.map_insertionSort _ _ _ _ fun _ _ _ _ => Iff.rfl
  rw [← hscan]
  exact List.map_insertionSort _ _ _ _ fun _ _ _ _ => Iff.rfl

/-- An answered listing: the log, sorted by the scan and then by the orders. -/
theorem shown_of_list_items (hcall : r.call = .list_items L)
    (hstatus : (r.handle env w).1.status_code = 200) (order : Nat → UUID → Nat) :
    shown ((scanning r order).handle env w).1 =
      (scanned (order 0) Entry.id (entries w.db L)).insertionSort
        fun a b => order_of a ≤ order_of b := by
  have hanswer : r.handle env w = _ := list_items_answer hcall r.draws.order
  rw [hanswer] at hstatus
  rw [list_items_answer hcall]
  cases hgate : gate env .list_items L r.request.session (r.draws.now 0) w.db with
  | error e =>
    have herror := gate_error hgate
    rw [hgate, proceed_error] at hstatus
    exact absurd hstatus (by dsimp only; omega)
  | ok perm =>
    obtain ⟨user, role, -, rfl, -⟩ := gate_ok env hgate
    rw [← entries_of_ordered_items]
    simp only [proceed_ok, json, shown, item_outs, List.map_map]
    rfl

theorem ordered_shown (hcall : r.call = .list_items L)
    (hstatus : (r.handle env w).1.status_code = 200) (order : Nat → UUID → Nat) :
    Ordered order_of (entries w.db L) (shown ((scanning r order).handle env w).1) := by
  rw [shown_of_list_items hcall hstatus order]
  exact ordered_insertionSort (List.perm_insertionSort _ _)

/-- Any allowed answer is the answer to some scan. -/
theorem shown_of_ordered (hcall : r.call = .list_items L)
    (hstatus : (r.handle env w).1.status_code = 200) {out : List Entry}
    (ho : Ordered order_of (entries w.db L) out) :
    ∃ order, shown ((scanning r order).handle env w).1 = out := by
  refine ⟨fun _ id => (out.map Entry.id).idxOf id, ?_⟩
  rw [shown_of_list_items hcall hstatus]
  exact sort_of_ordered ids_nodup ho

end

/-- A listing shows the items of the log with their values, each once and in the order of
`order`, whatever the scan. It shows items with one order in the order of their creation
in every scan exactly when no two items that stand in the list have one order. -/
theorem list_items_is_stable_iff (past : List Step) (L : UUID) (r : Step)
    (hcall : r.call = .list_items L)
    (hstatus : (r.handle env (run env past .empty)).1.status_code = 200) :
    ((history env L past .empty []).map (·.id)).Nodup ∧
      (∀ order, Ordered order_of (history env L past .empty [])
        (shown ((scanning r order).handle env (run env past .empty)).1)) ∧
      ((∀ order, Stable order_of (history env L past .empty [])
          (shown ((scanning r order).handle env (run env past .empty)).1)) ↔
        OrdersApart (run env past .empty).db L) := by
  have hlog : history env L past .empty [] = entries (run env past .empty).db L :=
    (entries_of_run env L past .empty).symm
  rw [hlog]
  refine ⟨ids_nodup, ordered_shown hcall hstatus, ?_⟩
  unfold OrdersApart
  rw [← orders_of_entries, ← always_stable_iff (ids_nodup.of_map _)]
  constructor
  · intro h out ho
    obtain ⟨order, rfl⟩ := shown_of_ordered hcall hstatus ho
    exact h order
  · exact fun h order => h _ (ordered_shown hcall hstatus order)

/-- Ann adds two items, the second one with the order. -/
def two_items (order : Int) : List Step :=
  [ann_registers "a" 1, ann_does (.create_list shopping) 7,
    ann_does (.create_item 7 ⟨"tea", by decide, 0⟩) 9,
    ann_does (.create_item 7 ⟨"salt", by decide, order⟩) 10]

def ann_reads : Step := ann_does (.list_items 7) 0

/-- The database scans the newer row first. -/
def newest_first : Nat → UUID → Nat := fun _ id => 10 - id.toNat

/-- Both items have the order 0, and the second one is shown first. -/
theorem the_second_item_comes_first :
    (history .sample 7 (two_items 0) .empty []).map (·.id) = [9, 10] ∧
      (shown ((scanning ann_reads newest_first).handle .sample
        (run .sample (two_items 0) .empty)).1).map (·.id) = [10, 9] ∧
      ¬ ∀ order, Stable order_of (history .sample 7 (two_items 0) .empty [])
        (shown ((scanning ann_reads order).handle .sample (run .sample (two_items 0) .empty)).1) := by
  refine ⟨by decide, by decide, fun h => ?_⟩
  have hzero := congrArg (List.map Entry.id) (h newest_first 0)
  revert hzero
  decide

/-- With the orders 0 and 1 they stand in the order of their creation in every scan. -/
theorem orders_keep_the_items_in_place :
    OrdersApart (run .sample (two_items 1) .empty).db 7 ∧
      ∀ order, Stable order_of (history .sample 7 (two_items 1) .empty [])
        (shown ((scanning ann_reads order).handle .sample (run .sample (two_items 1) .empty)).1) := by
  have hapart : OrdersApart (run .sample (two_items 1) .empty).db 7 := by decide
  have hlaw := list_items_is_stable_iff .sample (two_items 1) 7 ann_reads rfl (by decide)
  exact ⟨hapart, hlaw.2.2.mpr hapart⟩

end shared_todos.item_listing
