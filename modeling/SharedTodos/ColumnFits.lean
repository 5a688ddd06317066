-- What the bodies admit and what the columns hold. A handler that writes a text or
-- a number of its request runs into a data error of the database exactly when the
-- value does not fit, as the checks of the body do not cover the columns.
import SharedTodos.App

open keyed_table transactions transactions.Prog
open shared_todos.models shared_todos.http shared_todos.http.handler
open shared_todos.sessions shared_todos.auth shared_todos.authz shared_todos.oauth
open shared_todos.lists shared_todos.items shared_todos.app

namespace shared_todos.column_fits

/-! ## The data error -/

/-- The request alone ends with the error of the database for a value that does not
fit its column, which no handler catches. -/
def DataError (handler : Handler Response) (c : Nat → Time) (w : World) : Prop :=
  (handler.run ⟨c, w.db, [], w.store⟩).1 = .error (.db .data_error)

/-- An exception of another kind. -/
def Other (e : Exn) : Prop := e ≠ .db .data_error

/-- The body fits the columns that its handler writes. An address and the name in front of
its sign always do. -/
def BodyFits : Call → Prop
  | .create_list body => text_storable body.name
  | .rename_list _ body => text_storable body.name
  | .create_item _ body => text_storable body.content ∧ integer_fits body.order
  | .update_item _ _ body =>
    (∀ c ∈ body.content, text_storable c) ∧ ∀ o ∈ body.order, integer_fits o
  | _ => True

/-- The bodies whose fields a handler writes into a row as they are. -/
def WritesBody : Call → Prop
  | .register _ | .create_list _ | .rename_list _ _ | .create_item _ _ | .update_item _ _ _ => True
  | _ => False

/-- The claims that the callback takes from Google fit the columns of a user. -/
def IdentityFits (who : Identity) : Prop :=
  text_fits 254 who.email ∧ text_fits 128 who.display_name ∧ text_fits 256 who.google_sub

/-! ## The statements -/

section
variable {db : DB}

theorem insert_user_data_error {u : User} :
    insert_user u db = .error .data_error ↔ ¬ u.fits := by
  unfold insert_user
  by_cases hf : u.fits
  · rw [if_neg (not_not.mpr hf)]
    split_ifs <;> simp [hf]
  · simp [hf]

theorem update_google_sub_data_error {id : UUID} {sub : String} :
    update_google_sub id sub db = .error .data_error ↔ ¬ text_fits 256 sub := by
  unfold update_google_sub
  by_cases hf : text_fits 256 sub
  · rw [if_neg (not_not.mpr hf)]
    split_ifs <;> simp [hf]
  · simp [hf]

theorem insert_list_data_error {l : ListRow} :
    insert_list l db = .error .data_error ↔ ¬ text_fits 256 l.name := by
  unfold insert_list
  by_cases hf : text_fits 256 l.name
  · rw [if_neg (not_not.mpr hf)]
    split_ifs <;> simp [hf]
  · simp [hf]

theorem rename_data_error {lst : ListRow} {name : String} {now : Time} :
    rename_statement lst name now db = .error .data_error ↔
      name ≠ lst.name ∧ ¬ text_fits 256 name := by
  unfold rename_statement update_list_name
  by_cases hn : name = lst.name
  · simp [hn]
  rw [if_neg hn]
  by_cases hf : text_fits 256 name
  · rw [if_neg (not_not.mpr hf)]
    split_ifs <;> simp [hf]
  · simp [hf, hn]

theorem insert_item_data_error {i : Item} :
    insert_item i db = .error .data_error ↔ ¬ (text_storable i.content ∧ integer_fits i.order) := by
  unfold insert_item
  by_cases hf : text_storable i.content ∧ integer_fits i.order
  · rw [if_neg (not_not.mpr hf)]
    split_ifs <;> simp [hf]
  · simp [hf]

/-- With no changed column there is nothing that could fail to fit. -/
theorem update_item_data_error {id : UUID} {p : ItemPatch} {now : Time} :
    update_item_row id p now db = .error .data_error ↔
      ¬ ((∀ c ∈ p.content, text_storable c) ∧ ∀ o ∈ p.order, integer_fits o) := by
  unfold update_item_row
  by_cases hp : p = ⟨none, none, none⟩
  · simp [hp]
  rw [if_neg hp]
  by_cases hf : (∀ c ∈ p.content, text_storable c) ∧ ∀ o ∈ p.order, integer_fits o
  · rw [if_neg (not_not.mpr hf)]
    split_ifs <;> exact iff_of_false (by simp) (not_not.mpr hf)
  · rw [if_pos hf]
    exact iff_of_true rfl hf

end

/-! ## Values that fit -/

section
variable (env : Env)

theorem raises_flush {st : Statement} (h : ∀ db, st db ≠ .error .data_error) :
    (flush st).Raises Other :=
  ⟨trivial, fun db e he hx => by cases hx; exact h db he⟩

theorem raises_scalar {ρ : Type} (rows : List ρ) : (scalar_one_or_none rows).Raises Other := by
  rcases rows with _ | ⟨a, _ | ⟨b, rest⟩⟩
  · trivial
  · trivial
  · simp [scalar_one_or_none, Raises, Other]

theorem raises_refresh {ρ : Type} (q : DB → Option ρ) : (refresh q).Raises Other := by
  intro b
  cases b with
  | none => simp [Raises, Other]
  | some r => trivial

theorem raises_auth (session : Option String) : (require_auth env session).Raises Other := by
  cases session with
  | none => simp [require_auth, http_error, Raises, Other]
  | some token =>
    refine raises_bind (raises_bind (fun _ => trivial) fun now => ?_) fun user => ?_
    · exact raises_bind (fun _ => trivial) fun rows => raises_scalar rows
    · cases user with
      | none => simp [http_error, Raises, Other]
      | some user => trivial

theorem raises_gate (action : Action) (list_id : UUID) (session : Option String) :
    (require_list_permission env action list_id session).Raises Other := by
  refine raises_bind (raises_auth env session) fun user => ?_
  refine raises_bind (fun _ => trivial) fun owned => raises_bind (raises_scalar _) fun owner => ?_
  refine raises_bind (fun _ => trivial) fun roles => raises_bind (raises_scalar _) fun role => ?_
  unfold effective_role
  split
  · rename_i e he
    repeat' split at he
    all_goals cases he
    simp [Raises, Other]
  · simp [not_found, not_found_error, Raises, Other]
  · split
    · simp [not_found, not_found_error, Raises, Other]
    · trivial

theorem raises_create_session (user_id : UUID) (token : String) (id : UUID) :
    (create_session env user_id token id).Raises Other := by
  refine raises_bind (fun _ => trivial) fun now => raises_bind (raises_flush fun db h => ?_) fun _ => ?_
  · unfold insert_session at h
    repeat' split at h
    all_goals cases h
  · exact raises_bind trivial fun _ => trivial

/-- The part of a handler that adds a row and reads it back. -/
theorem raises_added {ρ : Type} {st : Statement} (h : ∀ db, st db ≠ .error .data_error)
    (q : DB → Option ρ) {k : ρ → Handler Response} (hk : ∀ r, (k r).Raises Other) :
    (do flush st; commit; let r ← refresh q; k r).Raises Other :=
  raises_bind (raises_flush h) fun _ => raises_bind trivial fun _ =>
    raises_bind (raises_refresh q) hk

theorem register_fits (body : RegisterRequest) (d : Draws) :
    (register env body d).Raises Other := by
  unfold register
  refine raises_bind (fun _ => trivial) fun rows => raises_bind (raises_scalar rows) fun found => ?_
  cases found with
  | some user => trivial
  | none =>
    refine raises_added (fun db hdb => ?_) _ fun user => ?_
    · have hfits : (new_user env body d).fits := by
        have hname : (new_user env body d).display_name.length ≤ 128 :=
          body.email.local_part_length_le.trans (by decide)
        refine ⟨⟨body.email.length_le, body.email.storable⟩, ⟨hname, ?_⟩, by simp [new_user]⟩
        intro hm
        simp only [new_user, local_part, String.toList_ofList] at hm
        exact body.email.storable ((List.takeWhile_sublist _).subset hm)
      exact insert_user_data_error.mp hdb hfits
    · exact raises_bind (raises_create_session env _ _ _) fun _ => trivial

theorem create_list_fits {body : ListCreate} (h : BodyFits (.create_list body)) (request : Request)
    (d : Draws) : (create_list env body request d).Raises Other := by
  unfold create_list
  refine raises_bind (raises_auth env _) fun user => raises_added (fun db hdb => ?_) _ fun _ => trivial
  have hfits : text_fits 256 (new_list user.id body d).name := ⟨body.name_length.2, h⟩
  exact insert_list_data_error.mp hdb hfits

theorem rename_list_fits {list_id : UUID} {body : ListUpdate}
    (h : BodyFits (.rename_list list_id body)) (request : Request) (d : Draws) : (rename_list env list_id body request d).Raises Other := by
  unfold rename_list
  refine raises_bind (raises_gate env _ _ _) fun perm => raises_bind (fun _ => trivial) fun found => ?_
  cases found with
  | none => simp [not_found, not_found_error, Raises, Other]
  | some lst =>
    refine raises_added (fun db hdb => ?_) _ fun _ => trivial
    exact (rename_data_error.mp hdb).2 ⟨body.name_length.2, h⟩

theorem create_item_fits {list_id : UUID} {body : ItemCreate}
    (h : BodyFits (.create_item list_id body)) (request : Request) (d : Draws) : (create_item env list_id body request d).Raises Other := by
  unfold create_item
  refine raises_bind (raises_gate env _ _ _) fun perm =>
    raises_added (fun db hdb => ?_) _ fun _ => trivial
  exact insert_item_data_error.mp hdb h

theorem update_item_fits {list_id item_id : UUID} {body : ItemUpdate}
    (h : BodyFits (.update_item list_id item_id body)) (request : Request) (d : Draws) :
    (update_item env list_id item_id body request d).Raises Other := by
  unfold update_item
  refine raises_bind (raises_gate env _ _ _) fun perm => raises_bind (fun _ => trivial) fun found => ?_
  cases found with
  | none => simp [not_found, not_found_error, Raises, Other]
  | some item =>
    dsimp only
    split
    · simp [not_found, not_found_error, Raises, Other]
    refine raises_added (fun db hdb => ?_) _ fun _ => trivial
    -- a changed column has the value of the body
    have hfits : (∀ c ∈ (changed_columns item body).content, text_storable c) ∧
        ∀ o ∈ (changed_columns item body).order, integer_fits o := by
      refine ⟨fun c hc => h.1 c ?_, fun o ho => h.2 o ?_⟩
      · exact (Option.mem_filter_iff.mp hc).1
      · exact (Option.mem_filter_iff.mp ho).1
    exact update_item_data_error.mp hdb hfits

/-- A handler whose body fits meets no data error, in whatever state and beside
whatever other requests it runs. -/
theorem handler_fits {call : Call} (hw : WritesBody call) (h : BodyFits call) (request : Request)
    (d : Draws) : (handler_of env call request d).Raises Other := by
  cases call with
  | register body => exact register_fits env body d
  | create_list body => exact create_list_fits env h request d
  | rename_list id body => exact rename_list_fits env h request d
  | create_item id body => exact create_item_fits env h request d
  | update_item id item body => exact update_item_fits env h request d
  | _ => exact hw.elim

theorem sign_in_fits {who : Identity} (h : IdentityFits who) (d : Draws) :
    (sign_in env who d).Raises Other := by
  have hopen : ∀ id, (open_session env id d).Raises Other := fun id =>
    raises_bind (raises_create_session env _ _ _) fun _ => trivial
  unfold sign_in
  refine raises_bind (fun _ => trivial) fun rows => raises_bind (raises_scalar rows) fun found => ?_
  cases found with
  | none =>
    refine raises_added (fun db hdb => ?_) _ fun user => hopen user.id
    have hfits : (google_user who d).fits :=
      ⟨h.1, h.2.1, fun s hs => by cases hs; exact h.2.2⟩
    exact insert_user_data_error.mp hdb hfits
  | some user =>
    unfold sign_in_found
    dsimp only
    split
    · refine raises_bind (raises_flush fun db hdb => ?_) fun _ =>
        raises_bind trivial fun _ => hopen user.id
      exact update_google_sub_data_error.mp hdb h.2.2
    · exact hopen user.id

end

/-! ## Values that do not fit -/

section
variable (env : Env) (list_id item_id : UUID)

def resident : User := ⟨1, "resident@example.com", "resident", some "hash", none⟩

/-- A signed-in user with a list and an item in it. -/
def home : World where
  db :=
    { DB.empty with
      users := Table.empty.insert resident
      sessions := Table.empty.insert ⟨4, 1, hash_token env "token", 1⟩
      lists := Table.empty.insert ⟨list_id, 1, "home", 0, 0⟩
      items := Table.empty.insert ⟨item_id, list_id, "tea", false, 0, 0, 0⟩ }
  store := fun _ => []

def at_home : Request := { Request.sample with session := some "token" }

theorem home_user : session_user env (some "token") 0 (home env list_id item_id).db = .ok resident := by
  have hu : (home env list_id item_id).db.users.rows = [resident] := rfl
  have hs : (home env list_id item_id).db.sessions.rows = [⟨4, 1, hash_token env "token", 1⟩] := rfl
  simp [session_user, session_users, Table.select, hu, hs, resident]

theorem home_list :
    (home env list_id item_id).db.lists.find list_id = some ⟨list_id, 1, "home", 0, 0⟩ := by
  have hfree : (Table.empty : Table ListRow.id).find
      (ListRow.id ⟨list_id, 1, "home", 0, 0⟩) = none := rfl
  exact Table.find_insert_self hfree

theorem home_item :
    (home env list_id item_id).db.items.find item_id =
      some ⟨item_id, list_id, "tea", false, 0, 0, 0⟩ := by
  have hfree : (Table.empty : Table Item.id).find
      (Item.id ⟨item_id, list_id, "tea", false, 0, 0, 0⟩) = none := rfl
  exact Table.find_insert_self hfree

theorem home_gate (action : Action) :
    gate env action list_id (some "token") 0 (home env list_id item_id).db =
      .ok ⟨list_id, 1, .owner⟩ := by
  have ho : owner_of (home env list_id item_id).db list_id = some resident.id := by
    unfold owner_of
    rw [home_list]
    rfl
  unfold gate
  rw [home_user, ho]
  cases action <;> rfl

theorem sign_in_misfit {who : Identity} (h : ¬ IdentityFits who) (d : Draws) :
    DataError (sign_in env who d) (fun _ => 0) .empty := by
  have hfits : ¬ (google_user who d).fits := fun hf => h ⟨hf.1, hf.2.1, hf.2.2 _ rfl⟩
  have hst : insert_user (google_user who d) .empty = _ := insert_user_data_error.mpr hfits
  have hnone : users_by_identity who World.empty.db = [] := rfl
  unfold DataError sign_in sign_in_found create_google_user
  simp only [Prog.run_then, run_execute, Solo.view, applyAll_nil, hnone, run_scalar_one_or_none,
    run_flush]
  rw [show World.empty.db = DB.empty from rfl, hst]

theorem create_list_misfit {body : ListCreate} (h : ¬ BodyFits (.create_list body)) (d : Draws) :
    DataError (create_list env body at_home d) (fun _ => 0) (home env 2 3) := by
  have hfits : ¬ text_fits 256 (new_list resident.id body d).name := fun hf => h hf.2
  have hst : insert_list (new_list resident.id body d) (home env 2 3).db = _ :=
    insert_list_data_error.mpr hfits
  unfold DataError create_list at_home
  simp only [Prog.run_then, require_auth_run, home_user, run_flush, Solo.view, applyAll_nil, hst]

theorem rename_list_misfit {body : ListUpdate} (h : ¬ BodyFits (.rename_list list_id body))
    (d : Draws) :
    DataError (rename_list env list_id body at_home d) (fun _ => 0) (home env list_id item_id) := by
  have hname : body.name ≠ "home" := by
    intro hn
    have hfits : text_storable body.name := by rw [hn]; decide
    exact h hfits
  have hst : rename_statement ⟨list_id, 1, "home", 0, 0⟩ body.name d.db_now
      (home env list_id item_id).db = _ :=
    rename_data_error.mpr ⟨hname, fun hf => h hf.2⟩
  unfold DataError rename_list at_home
  simp only [Prog.run_then, require_list_permission_run, home_gate, run_execute, Solo.view,
    applyAll_nil, home_list, run_flush, hst]

theorem create_item_misfit {body : ItemCreate} (h : ¬ BodyFits (.create_item list_id body))
    (d : Draws) :
    DataError (create_item env list_id body at_home d) (fun _ => 0) (home env list_id item_id) := by
  have hst : insert_item (new_item list_id body d) (home env list_id item_id).db = _ :=
    insert_item_data_error.mpr h
  unfold DataError create_item at_home
  simp only [Prog.run_then, require_list_permission_run, home_gate, Solo.view, applyAll_nil,
    run_flush, hst]

theorem update_item_misfit {body : ItemUpdate} (h : ¬ BodyFits (.update_item list_id item_id body))
    (d : Draws) :
    DataError (update_item env list_id item_id body at_home d) (fun _ => 0)
      (home env list_id item_id) := by
  -- a value that does not fit is not the one that the item has
  have hst : update_item_row item_id
      (changed_columns ⟨item_id, list_id, "tea", false, 0, 0, 0⟩ body) d.db_now
      (home env list_id item_id).db = .error .data_error := by
    refine update_item_data_error.mpr fun hf => h ⟨fun c hc => ?_, fun o ho => ?_⟩
    · by_cases hsame : c = "tea"
      · rw [hsame]; decide
      · exact hf.1 c (Option.mem_filter_iff.mpr ⟨hc, by simpa using hsame⟩)
    · by_cases hsame : o = 0
      · rw [hsame]; decide
      · exact hf.2 o (Option.mem_filter_iff.mpr ⟨ho, by simpa using hsame⟩)
  unfold DataError update_item at_home
  simp only [Prog.run_then, require_list_permission_run, home_gate, run_execute, Solo.view,
    applyAll_nil, home_item, run_flush, hst, ne_eq, not_true_eq_false, if_false]

/-- A body that does not fit fails in a state with its list and its item. -/
theorem handler_misfit {call : Call} (hw : WritesBody call) (h : ¬ BodyFits call) (d : Draws) :
    ∃ request c w, DataError (handler_of env call request d) c w := by
  cases call with
  | register body => exact absurd trivial h
  | create_list body => exact ⟨_, _, _, create_list_misfit env h d⟩
  | rename_list id body => exact ⟨_, _, _, rename_list_misfit env id 3 h d⟩
  | create_item id body => exact ⟨_, _, _, create_item_misfit env id 3 h d⟩
  | update_item id item body => exact ⟨_, _, _, update_item_misfit env id item h d⟩
  | _ => exact hw.elim

end

/-! ## The bodies and the payloads that are storable -/

/-- No request with the body fails in the flush, in any state, exactly if the body
fits; and no callback with the identity fails, in any state, exactly if the identity
fits. -/
theorem storable_iff_fits (env : Env) (d : Draws) :
    (∀ call, WritesBody call →
      ((∀ request c w, ¬ DataError (handler_of env call request d) c w) ↔ BodyFits call)) ∧
    ∀ query request who, check_callback env query request d = .passed who →
      ((∀ c w, ¬ DataError (oauth_google_callback env query request d) c w) ↔ IdentityFits who) := by
  constructor
  · intro call hw
    constructor
    · intro h
      by_contra hf
      obtain ⟨request, c, w, hx⟩ := handler_misfit env hw hf d
      exact h request c w hx
    · intro hf request c w hx
      exact run_raises (handler_fits env hw hf request d) _ hx rfl
  · intro query request who hwho
    have hcallback : oauth_google_callback env query request d = sign_in env who d := by
      unfold oauth_google_callback
      rw [hwho]
    rw [hcallback]
    constructor
    · intro h
      by_contra hf
      exact h _ _ (sign_in_misfit env hf d)
    · intro hf c w hx
      exact run_raises (sign_in_fits env hf d) _ hx rfl

/-! ## Bodies that fail -/

/-- Ann has an account and a list. -/
def list_of_ann : World :=
  run .sample
    [ann_registers "columns" 1,
      ⟨.create_list ⟨"errands", by decide⟩, { Request.sample with session := some "columns" },
        .sample "list" 2⟩] .empty

/-- The next number after the range of `INTEGER`. -/
def large_order : Call := .create_item 2 ⟨"stamps", by decide, 2147483648⟩

/-- A validated body that fails in the flush, in a reachable state. -/
theorem validated_bodies_fail :
    ∃ w, Reachable .sample w ∧ DataError (handler_of .sample large_order
      { Request.sample with session := some "columns" } (.sample "item" 3)) (fun _ => 0) w := by
  refine ⟨list_of_ann, ⟨_, rfl⟩, ?_⟩
  unfold DataError
  decide

/-- An item of the largest order is stored in every state. -/
theorem largest_order_stored :
    ∀ request c w, ¬ DataError
      (handler_of .sample (.create_item 2 ⟨"stamps", by decide, 2147483647⟩) request
        (.sample "item" 3)) c w :=
  ((storable_iff_fits .sample (.sample "item" 3)).1
    (.create_item 2 ⟨"stamps", by decide, 2147483647⟩) trivial).mpr ⟨by decide, by decide⟩

end shared_todos.column_fits
