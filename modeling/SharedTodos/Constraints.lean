-- What the statements do to the tables, and the constraints of the schema:
-- every change of a statement that PostgreSQL accepts keeps all of them.
import SharedTodos.Models

open keyed_table transactions transactions.Prog

namespace shared_todos.models

@[simp] theorem apply_eq (c : Change) (db : DB) : Database.apply c db = c.apply db := rfl

theorem applyAll_one (c : Change) (db : DB) : applyAll [c] db = c.apply db := rfl

/-! ## The accepted statements -/

theorem insert_user_ok {u : User} {db : DB} {cs : List Change} (h : insert_user u db = .ok cs) :
    cs = [.insert_user u] ∧ u.has_auth_method ∧ db.users.find u.id = none ∧
      (∀ v ∈ db.users.rows, v.email ≠ u.email) ∧
      ∀ v ∈ db.users.rows, v.google_sub ≠ none → v.google_sub ≠ u.google_sub := by
  unfold insert_user at h
  split at h
  · cases h
  split at h
  · cases h
  split at h
  · cases h
  · rename_i hm ht
    cases h
    simp only [not_or, not_exists, not_and, not_not] at hm ht
    exact ⟨rfl, hm, ht.1, ht.2.1, ht.2.2⟩

theorem update_password_hash_ok {id : UUID} {hash : String} {db : DB} {cs : List Change}
    (h : update_password_hash id hash db = .ok cs) :
    cs = [.set_password_hash id hash] ∧ db.users.find id ≠ none := by
  unfold update_password_hash at h
  split at h
  · cases h
  · cases h; exact ⟨rfl, by assumption⟩

theorem update_google_sub_ok {id : UUID} {sub : String} {db : DB} {cs : List Change}
    (h : update_google_sub id sub db = .ok cs) :
    cs = [.set_google_sub id sub] ∧ db.users.find id ≠ none ∧
      ∀ v ∈ db.users.rows, v.id ≠ id → v.google_sub ≠ some sub := by
  unfold update_google_sub at h
  split at h
  · cases h
  split at h
  · cases h
  split at h
  · cases h
  · rename_i hid hs
    cases h
    simp only [not_exists, not_and] at hs
    exact ⟨rfl, hid, hs⟩

theorem insert_session_ok {s : Session} {db : DB} {cs : List Change}
    (h : insert_session s db = .ok cs) :
    cs = [.insert_session s] ∧ db.sessions.find s.id = none ∧
      (∀ r ∈ db.sessions.rows, r.token_hash ≠ s.token_hash) ∧ db.users.find s.user_id ≠ none := by
  unfold insert_session at h
  split at h
  · cases h
  split at h
  · cases h
  · rename_i ht hu
    cases h
    simp only [not_or, not_not, not_exists, not_and] at ht
    exact ⟨rfl, ht.1, ht.2, hu⟩

theorem insert_reset_token_ok {t : PasswordResetToken} {db : DB} {cs : List Change}
    (h : insert_reset_token t db = .ok cs) :
    cs = [.insert_reset_token t] ∧ db.password_reset_tokens.find t.id = none ∧
      (∀ r ∈ db.password_reset_tokens.rows, r.token_hash ≠ t.token_hash) ∧
      db.users.find t.user_id ≠ none := by
  unfold insert_reset_token at h
  split at h
  · cases h
  split at h
  · cases h
  · rename_i ht hu
    cases h
    simp only [not_or, not_not, not_exists, not_and] at ht
    exact ⟨rfl, ht.1, ht.2, hu⟩

theorem update_used_at_ok {id : UUID} {used_at : Time} {db : DB} {cs : List Change}
    (h : update_used_at id used_at db = .ok cs) :
    cs = [.set_used_at id used_at] ∧ db.password_reset_tokens.find id ≠ none := by
  unfold update_used_at at h
  split at h
  · cases h
  · cases h; exact ⟨rfl, by assumption⟩

theorem insert_list_ok {l : ListRow} {db : DB} {cs : List Change} (h : insert_list l db = .ok cs) :
    cs = [.insert_list l] ∧ db.lists.find l.id = none ∧ db.users.find l.owner_id ≠ none := by
  unfold insert_list at h
  split at h
  · cases h
  split at h
  · cases h
  split at h
  · cases h
  · rename_i hl hu
    cases h
    exact ⟨rfl, by simpa using hl, hu⟩

theorem update_list_name_ok {id : UUID} {name : String} {now : Time} {db : DB} {cs : List Change}
    (h : update_list_name id name now db = .ok cs) :
    cs = [.set_list_name id name now] ∧ db.lists.find id ≠ none := by
  unfold update_list_name at h
  split at h
  · cases h
  split at h
  · cases h
  · cases h; exact ⟨rfl, by assumption⟩

theorem insert_item_ok {i : Item} {db : DB} {cs : List Change} (h : insert_item i db = .ok cs) :
    cs = [.insert_item i] ∧ db.items.find i.id = none ∧ db.lists.find i.list_id ≠ none := by
  unfold insert_item at h
  split at h
  · cases h
  split at h
  · cases h
  split at h
  · cases h
  · rename_i hi hl
    cases h
    exact ⟨rfl, by simpa using hi, hl⟩

theorem update_item_row_ok {id : UUID} {p : ItemPatch} {now : Time} {db : DB} {cs : List Change}
    (h : update_item_row id p now db = .ok cs) :
    (cs = [] ∧ p = ⟨none, none, none⟩) ∨
      (cs = [.patch_item id p now] ∧ db.items.find id ≠ none) := by
  unfold update_item_row at h
  split at h
  · cases h; exact Or.inl ⟨rfl, by assumption⟩
  split at h
  · cases h
  split at h
  · cases h
  · cases h; exact Or.inr ⟨rfl, by assumption⟩

theorem insert_share_ok {s : Share} {db : DB} {cs : List Change} (h : insert_share s db = .ok cs) :
    cs = [.insert_share s] ∧ role_valid s.role ∧ db.shares.find s.key = none ∧
      db.lists.find s.list_id ≠ none ∧ db.users.find s.user_id ≠ none := by
  unfold insert_share at h
  split at h
  · cases h
  split at h
  · cases h
  split at h
  · cases h
  · rename_i hr hk hf
    cases h
    simp only [not_or, not_not] at hr hk hf
    exact ⟨rfl, hr, hk, hf⟩

theorem update_role_ok {l u : UUID} {role : String} {db : DB} {cs : List Change}
    (h : update_role l u role db = .ok cs) :
    cs = [.set_role l u role] ∧ role_valid role ∧ db.shares.find (l, u) ≠ none := by
  unfold update_role at h
  split at h
  · cases h
  split at h
  · cases h
  · rename_i hr hk
    cases h
    exact ⟨rfl, by simpa using hr, hk⟩

/-! ## The deletions of several rows -/

theorem applyAll_delete_each_session (l : List Session) (db : DB) :
    applyAll (l.map fun s => Change.delete_session s.id) db =
      { db with
        sessions :=
          l.foldl (fun t r => t.deleteWhere fun x => decide (x.id = r.id)) db.sessions } := by
  induction l generalizing db with
  | nil => rfl
  | cons s l ih => exact ih _

theorem applyAll_delete_sessions (p : Session → Bool) (db : DB) :
    applyAll ((db.sessions.select p).map fun s => Change.delete_session s.id) db =
      { db with sessions := db.sessions.deleteWhere p } := by
  rw [applyAll_delete_each_session, Table.foldl_delete_select]

theorem applyAll_delete_items (p : Item → Bool) (db : DB) :
    applyAll ((db.items.select p).map fun i => Change.delete_item i.id) db =
      { db with items := db.items.deleteWhere p } := by
  have h : ∀ (l : List Item) (t : Table Item.id),
      applyAll (l.map fun i => Change.delete_item i.id) { db with items := t } =
        { db with
          items := l.foldl (fun t r => t.deleteWhere fun x => decide (x.id = r.id)) t } := by
    intro l
    induction l with
    | nil => intro t; rfl
    | cons s l ih => intro t; exact ih _
  rw [← Table.foldl_delete_select]
  exact h _ db.items

theorem applyAll_delete_shares (p : Share → Bool) (db : DB) :
    applyAll ((db.shares.select p).map fun s => Change.delete_share s.list_id s.user_id) db =
      { db with shares := db.shares.deleteWhere p } := by
  have h : ∀ (l : List Share) (t : Table Share.key),
      applyAll (l.map fun s => Change.delete_share s.list_id s.user_id) { db with shares := t } =
        { db with
          shares := l.foldl (fun t r => t.deleteWhere fun x => decide (x.key = r.key)) t } := by
    intro l
    induction l with
    | nil => intro t; rfl
    | cons s l ih => intro t; exact ih _
  rw [← Table.foldl_delete_select]
  exact h _ db.shares

/-- The database after the deletion of a list, with its items and shares. -/
def DB.without_list (db : DB) (id : UUID) : DB :=
  { db with
    items := db.items.deleteWhere fun i => decide (i.list_id = id)
    shares := db.shares.deleteWhere fun s => decide (s.list_id = id)
    lists := db.lists.deleteWhere fun l => decide (l.id = id) }

theorem delete_list_row_ok {id : UUID} {db : DB} {cs : List Change}
    (h : delete_list_row id db = .ok cs) : applyAll cs db = db.without_list id := by
  unfold delete_list_row at h
  cases h
  rw [applyAll_append, applyAll_append, applyAll_delete_items]
  have hs := applyAll_delete_shares (fun s => decide (s.list_id = id))
    { db with items := db.items.deleteWhere fun i => decide (i.list_id = id) }
  dsimp only at hs
  rw [hs]
  rfl

theorem delete_sessions_ok {p : Session → Bool} {db : DB} {cs : List Change}
    (h : delete_sessions p db = .ok cs) :
    applyAll cs db = { db with sessions := db.sessions.deleteWhere p } := by
  unfold delete_sessions at h
  cases h
  exact applyAll_delete_sessions p db

/-! ## The constraints -/

/-- The unique indexes, the foreign keys and the checks of the schema. -/
structure Valid (db : DB) : Prop where
  unique_email : ∀ a ∈ db.users.rows, ∀ b ∈ db.users.rows, a.email = b.email → a = b
  unique_google_sub : ∀ a ∈ db.users.rows, ∀ b ∈ db.users.rows, a.google_sub ≠ none →
    a.google_sub = b.google_sub → a = b
  auth_method : ∀ u ∈ db.users.rows, u.has_auth_method
  unique_session_hash : ∀ a ∈ db.sessions.rows, ∀ b ∈ db.sessions.rows,
    a.token_hash = b.token_hash → a = b
  session_user : ∀ s ∈ db.sessions.rows, db.users.find s.user_id ≠ none
  unique_reset_hash : ∀ a ∈ db.password_reset_tokens.rows, ∀ b ∈ db.password_reset_tokens.rows,
    a.token_hash = b.token_hash → a = b
  reset_user : ∀ t ∈ db.password_reset_tokens.rows, db.users.find t.user_id ≠ none
  list_owner : ∀ l ∈ db.lists.rows, db.users.find l.owner_id ≠ none
  item_list : ∀ i ∈ db.items.rows, db.lists.find i.list_id ≠ none
  share_list : ∀ s ∈ db.shares.rows, db.lists.find s.list_id ≠ none
  share_user : ∀ s ∈ db.shares.rows, db.users.find s.user_id ≠ none
  share_role : ∀ s ∈ db.shares.rows, role_valid s.role

theorem valid_empty : Valid .empty := by
  constructor <;> intro x hx <;> cases hx

/-- The statements on the accounts, their sessions and their reset tokens. -/
inductive AccountStatement : Statement → Prop where
  | insert_user (u : User) : AccountStatement (insert_user u)
  | update_password_hash (id : UUID) (hash : String) :
    AccountStatement (update_password_hash id hash)
  | update_google_sub (id : UUID) (sub : String) : AccountStatement (update_google_sub id sub)
  | insert_session (s : Session) : AccountStatement (insert_session s)
  | delete_sessions (p : Session → Bool) : AccountStatement (delete_sessions p)
  | insert_reset_token (t : PasswordResetToken) : AccountStatement (insert_reset_token t)
  | update_used_at (id : UUID) (used_at : Time) : AccountStatement (update_used_at id used_at)
  | also (a b : Statement) (ha : AccountStatement a) (hb : AccountStatement b) :
    AccountStatement (a.also b)

/-- The statements on the lists, their items and their shares. -/
inductive ListStatement : Statement → Prop where
  | unchanged : ListStatement fun _ => .ok []
  | insert_list (l : ListRow) : ListStatement (insert_list l)
  | update_list_name (id : UUID) (name : String) (now : Time) :
    ListStatement (update_list_name id name now)
  | delete_list_row (id : UUID) : ListStatement (delete_list_row id)
  | insert_item (i : Item) : ListStatement (insert_item i)
  | update_item_row (id : UUID) (p : ItemPatch) (now : Time) :
    ListStatement (update_item_row id p now)
  | delete_item_row (id : UUID) : ListStatement (delete_item_row id)
  | insert_share (s : Share) : ListStatement (insert_share s)
  | update_role (l u : UUID) (role : String) : ListStatement (update_role l u role)
  | delete_share_row (l u : UUID) : ListStatement (delete_share_row l u)

theorem insert_user_keeps (u : User) : Keeps Valid (insert_user u) := by
  intro db cs h hcs
  obtain ⟨rfl, hm, hid, he, hs⟩ := insert_user_ok hcs
  have hmem := Table.mem_insert_of_free hid
  exact { h with
    unique_email := by
      intro a ha b hb hab
      rcases (hmem a).mp ha with ha' | rfl <;> rcases (hmem b).mp hb with hb' | rfl
      · exact h.unique_email a ha' b hb' hab
      · exact absurd hab (he a ha')
      · exact absurd hab.symm (he b hb')
      · rfl
    unique_google_sub := by
      intro a ha b hb hne hab
      rcases (hmem a).mp ha with ha' | rfl <;> rcases (hmem b).mp hb with hb' | rfl
      · exact h.unique_google_sub a ha' b hb' hne hab
      · exact absurd hab (hs a ha' hne)
      · exact absurd hab.symm (hs b hb' (hab ▸ hne))
      · rfl
    auth_method := by
      intro a ha
      rcases (hmem a).mp ha with ha | rfl
      · exact h.auth_method a ha
      · exact hm
    session_user := fun s hs => Table.find_insert_ne_none (h.session_user s hs)
    reset_user := fun t ht => Table.find_insert_ne_none (h.reset_user t ht)
    list_owner := fun l hl => Table.find_insert_ne_none (h.list_owner l hl)
    share_user := fun s hs => Table.find_insert_ne_none (h.share_user s hs) }

/-- An update of one user that keeps the email, and whose subject no other user has. -/
theorem valid_of_user_update {db : DB} (h : Valid db) (id : UUID) (f : User → User)
    (hid : ∀ u, (f u).id = u.id) (hemail : ∀ u, (f u).email = u.email)
    (hauth : ∀ u ∈ db.users.rows, (f u).has_auth_method)
    (hsub : ∀ u ∈ db.users.rows, u.id = id → ∀ v ∈ db.users.rows, v.id ≠ id →
      (f u).google_sub ≠ none → v.google_sub ≠ (f u).google_sub) :
    Valid { db with users := db.users.update id f hid } := by
  have hsame : ∀ u ∈ db.users.rows, ∀ v ∈ db.users.rows, u.id = id → v.id = id → u = v := by
    intro u hu v hv hui hvi
    exact db.users.eq_of_key_eq hu hv (hui.trans hvi.symm)
  exact { h with
    unique_email := by
      intro a ha b hb hab
      simp only [Table.mem_update] at ha hb
      obtain ⟨u, hu, rfl⟩ := ha
      obtain ⟨v, hv, rfl⟩ := hb
      have hkept : ∀ x : User, (if x.id = id then f x else x).email = x.email := by
        intro x
        split
        · exact hemail x
        · rfl
      rw [hkept, hkept] at hab
      rw [h.unique_email u hu v hv hab]
    unique_google_sub := by
      intro a ha b hb hne hab
      simp only [Table.mem_update] at ha hb
      obtain ⟨u, hu, rfl⟩ := ha
      obtain ⟨v, hv, rfl⟩ := hb
      by_cases hui : u.id = id <;> by_cases hvi : v.id = id
      · rw [hsame u hu v hv hui hvi]
      · rw [if_pos hui] at hne hab
        rw [if_neg hvi] at hab
        exact absurd hab.symm (hsub u hu hui v hv hvi hne)
      · rw [if_neg hui] at hne hab
        rw [if_pos hvi] at hab
        exact absurd hab (hsub v hv hvi u hu hui (hab ▸ hne))
      · rw [if_neg hui] at hne hab
        rw [if_neg hvi] at hab
        rw [h.unique_google_sub u hu v hv hne hab]
    auth_method := by
      intro a ha
      simp only [Table.mem_update] at ha
      obtain ⟨u, hu, rfl⟩ := ha
      split
      · exact hauth u hu
      · exact h.auth_method u hu
    session_user := by simpa using h.session_user
    reset_user := by simpa using h.reset_user
    list_owner := by simpa using h.list_owner
    share_user := by simpa using h.share_user }

theorem update_password_hash_keeps (id : UUID) (hash : String) :
    Keeps Valid (update_password_hash id hash) := by
  intro db cs h hcs
  obtain ⟨rfl, -⟩ := update_password_hash_ok hcs
  apply valid_of_user_update h id (fun u => { u with password_hash := some hash }) (fun _ => rfl)
    (fun _ => rfl)
  · intro u _
    exact Or.inl (by simp)
  · intro u hu hid v hv hne hsub hv'
    rw [h.unique_google_sub u hu v hv hsub hv'.symm] at hid
    exact hne hid

theorem update_google_sub_keeps (id : UUID) (sub : String) :
    Keeps Valid (update_google_sub id sub) := by
  intro db cs h hcs
  obtain ⟨rfl, -, hs⟩ := update_google_sub_ok hcs
  apply valid_of_user_update h id (fun u => { u with google_sub := some sub }) (fun _ => rfl)
    (fun _ => rfl)
  · intro u _
    exact Or.inr (by simp)
  · intro u _ _ v hv hne _
    exact hs v hv hne

theorem insert_session_keeps (s : Session) : Keeps Valid (insert_session s) := by
  intro db cs h hcs
  obtain ⟨rfl, hid, hh, hu⟩ := insert_session_ok hcs
  have hmem := Table.mem_insert_of_free hid
  exact { h with
    unique_session_hash := by
      intro a ha b hb hab
      rcases (hmem a).mp ha with ha' | rfl <;> rcases (hmem b).mp hb with hb' | rfl
      · exact h.unique_session_hash a ha' b hb' hab
      · exact absurd hab (hh a ha')
      · exact absurd hab.symm (hh b hb')
      · rfl
    session_user := by
      intro a ha
      rcases (hmem a).mp ha with ha' | rfl
      · exact h.session_user a ha'
      · exact hu }

theorem delete_sessions_keeps (p : Session → Bool) : Keeps Valid (delete_sessions p) := by
  intro db cs h hcs
  rw [delete_sessions_ok hcs]
  exact { h with
    unique_session_hash := fun a ha b hb =>
      h.unique_session_hash a (Table.mem_deleteWhere.mp ha).1 b (Table.mem_deleteWhere.mp hb).1
    session_user := fun a ha => h.session_user a (Table.mem_deleteWhere.mp ha).1 }

theorem insert_reset_token_keeps (t : PasswordResetToken) : Keeps Valid (insert_reset_token t) := by
  intro db cs h hcs
  obtain ⟨rfl, hid, hh, hu⟩ := insert_reset_token_ok hcs
  have hmem := Table.mem_insert_of_free hid
  exact { h with
    unique_reset_hash := by
      intro a ha b hb hab
      rcases (hmem a).mp ha with ha' | rfl <;> rcases (hmem b).mp hb with hb' | rfl
      · exact h.unique_reset_hash a ha' b hb' hab
      · exact absurd hab (hh a ha')
      · exact absurd hab.symm (hh b hb')
      · rfl
    reset_user := by
      intro a ha
      rcases (hmem a).mp ha with ha' | rfl
      · exact h.reset_user a ha'
      · exact hu }

theorem update_used_at_keeps (id : UUID) (used_at : Time) :
    Keeps Valid (update_used_at id used_at) := by
  intro db cs h hcs
  obtain ⟨rfl, -⟩ := update_used_at_ok hcs
  exact { h with
    unique_reset_hash := by
      intro a ha b hb hab
      simp only [applyAll_one, Change.apply, Table.mem_update] at ha hb
      obtain ⟨u, hu, rfl⟩ := ha
      obtain ⟨v, hv, rfl⟩ := hb
      have huv : u.token_hash = v.token_hash := by split at hab <;> split at hab <;> exact hab
      rw [h.unique_reset_hash u hu v hv huv]
    reset_user := by
      intro a ha
      simp only [applyAll_one, Change.apply, Table.mem_update] at ha
      obtain ⟨u, hu, rfl⟩ := ha
      split <;> exact h.reset_user u hu }

theorem also_keeps {P : DB → Prop} {a b : Statement} (ha : Keeps P a) (hb : Keeps P b) :
    Keeps P (a.also b) := by
  intro db cs h hcs
  unfold Statement.also at hcs
  cases h1 : a db with
  | error e => rw [h1] at hcs; cases hcs
  | ok as =>
    rw [h1] at hcs
    simp only [Bind.bind, Except.bind, Pure.pure, Except.pure] at hcs
    split at hcs
    · cases hcs
    · rename_i bs h2
      cases hcs
      rw [applyAll_append]
      exact hb _ bs (ha db as h h1) h2

/-- The statements on the accounts keep the constraints. -/
theorem account_statement_keeps {st : Statement} (h : AccountStatement st) : Keeps Valid st := by
  induction h with
  | insert_user u => exact insert_user_keeps u
  | update_password_hash id hash => exact update_password_hash_keeps id hash
  | update_google_sub id sub => exact update_google_sub_keeps id sub
  | insert_session s => exact insert_session_keeps s
  | delete_sessions p => exact delete_sessions_keeps p
  | insert_reset_token t => exact insert_reset_token_keeps t
  | update_used_at id t => exact update_used_at_keeps id t
  | also a b _ _ ha hb => exact also_keeps ha hb

/-! ### The lists -/

theorem insert_list_keeps (l : ListRow) : Keeps Valid (insert_list l) := by
  intro db cs h hcs
  obtain ⟨rfl, hid, hu⟩ := insert_list_ok hcs
  exact { h with
    list_owner := by
      intro a ha
      rcases (Table.mem_insert_of_free hid a).mp ha with ha' | rfl
      · exact h.list_owner a ha'
      · exact hu
    item_list := fun i hi => Table.find_insert_ne_none (h.item_list i hi)
    share_list := fun s hs => Table.find_insert_ne_none (h.share_list s hs) }

theorem update_list_name_keeps (id : UUID) (name : String) (now : Time) :
    Keeps Valid (update_list_name id name now) := by
  intro db cs h hcs
  obtain ⟨rfl, -⟩ := update_list_name_ok hcs
  exact { h with
    list_owner := by
      intro a ha
      simp only [applyAll_one, Change.apply, Table.mem_update] at ha
      obtain ⟨l, hl, rfl⟩ := ha
      split <;> exact h.list_owner l hl
    item_list := by simpa [applyAll_one, Change.apply] using h.item_list
    share_list := by simpa [applyAll_one, Change.apply] using h.share_list }

/-- The cascade leaves no item and no share of the deleted list. -/
theorem delete_list_row_keeps (id : UUID) : Keeps Valid (delete_list_row id) := by
  intro db cs h hcs
  rw [delete_list_row_ok hcs]
  have hlist : ∀ L, L ≠ id → db.lists.find L ≠ none →
      (db.lists.deleteWhere fun l => decide (l.id = id)).find L ≠ none := by
    intro L hL hf
    rw [Table.find_deleteWhere]
    cases hl : db.lists.find L with
    | none => exact absurd hl hf
    | some l =>
      have hk : l.id = L := Table.key_of_find hl
      rw [Option.filter_some_pos (by simpa [hk] using hL)]
      simp
  exact { h with
    list_owner := fun l hl => h.list_owner l (Table.mem_deleteWhere.mp hl).1
    item_list := by
      intro i hi
      obtain ⟨hi, hne⟩ := Table.mem_deleteWhere.mp hi
      exact hlist _ (by simpa using hne) (h.item_list i hi)
    share_list := by
      intro s hs
      obtain ⟨hs, hne⟩ := Table.mem_deleteWhere.mp hs
      exact hlist _ (by simpa using hne) (h.share_list s hs)
    share_user := fun s hs => h.share_user s (Table.mem_deleteWhere.mp hs).1
    share_role := fun s hs => h.share_role s (Table.mem_deleteWhere.mp hs).1 }

theorem insert_item_keeps (i : Item) : Keeps Valid (insert_item i) := by
  intro db cs h hcs
  obtain ⟨rfl, hid, hl⟩ := insert_item_ok hcs
  exact { h with
    item_list := by
      intro a ha
      rcases (Table.mem_insert_of_free hid a).mp ha with ha' | rfl
      · exact h.item_list a ha'
      · exact hl }

theorem update_item_row_keeps (id : UUID) (p : ItemPatch) (now : Time) :
    Keeps Valid (update_item_row id p now) := by
  intro db cs h hcs
  rcases update_item_row_ok hcs with ⟨rfl, -⟩ | ⟨rfl, -⟩
  · exact h
  · exact { h with
      item_list := by
        intro a ha
        simp only [applyAll_one, Change.apply, Table.mem_update] at ha
        obtain ⟨i, hi, rfl⟩ := ha
        split <;> exact h.item_list i hi }

theorem delete_item_row_keeps (id : UUID) : Keeps Valid (delete_item_row id) := by
  intro db cs h hcs
  cases hcs
  exact { h with item_list := fun i hi => h.item_list i (Table.mem_deleteWhere.mp hi).1 }

theorem insert_share_keeps (s : Share) : Keeps Valid (insert_share s) := by
  intro db cs h hcs
  obtain ⟨rfl, hr, hk, hl, hu⟩ := insert_share_ok hcs
  have hmem : ∀ {P : Share → Prop}, (∀ x ∈ db.shares.rows, P x) → P s →
      ∀ x ∈ (db.shares.insert s).rows, P x := by
    intro P hold hnew x hx
    rcases (Table.mem_insert_of_free hk x).mp hx with hx | rfl
    · exact hold x hx
    · exact hnew
  exact { h with
    share_list := hmem h.share_list hl
    share_user := hmem h.share_user hu
    share_role := hmem h.share_role hr }

theorem update_role_keeps (l u : UUID) (role : String) : Keeps Valid (update_role l u role) := by
  intro db cs h hcs
  obtain ⟨rfl, hr, -⟩ := update_role_ok hcs
  exact { h with
    share_list := by
      intro a ha
      simp only [applyAll_one, Change.apply, Table.mem_update] at ha
      obtain ⟨s, hs, rfl⟩ := ha
      split <;> exact h.share_list s hs
    share_user := by
      intro a ha
      simp only [applyAll_one, Change.apply, Table.mem_update] at ha
      obtain ⟨s, hs, rfl⟩ := ha
      split <;> exact h.share_user s hs
    share_role := by
      intro a ha
      simp only [applyAll_one, Change.apply, Table.mem_update] at ha
      obtain ⟨s, hs, rfl⟩ := ha
      split
      · exact hr
      · exact h.share_role s hs }

theorem delete_share_row_keeps (l u : UUID) : Keeps Valid (delete_share_row l u) := by
  intro db cs h hcs
  cases hcs
  exact { h with
    share_list := fun s hs => h.share_list s (Table.mem_deleteWhere.mp hs).1
    share_user := fun s hs => h.share_user s (Table.mem_deleteWhere.mp hs).1
    share_role := fun s hs => h.share_role s (Table.mem_deleteWhere.mp hs).1 }

/-- The statements on the lists keep the constraints. -/
theorem list_statement_keeps {st : Statement} (h : ListStatement st) : Keeps Valid st := by
  cases h with
  | unchanged => intro db cs h hcs; cases hcs; exact h
  | insert_list l => exact insert_list_keeps l
  | update_list_name id name now => exact update_list_name_keeps id name now
  | delete_list_row id => exact delete_list_row_keeps id
  | insert_item i => exact insert_item_keeps i
  | update_item_row id p now => exact update_item_row_keeps id p now
  | delete_item_row id => exact delete_item_row_keeps id
  | insert_share s => exact insert_share_keeps s
  | update_role l u role => exact update_role_keeps l u role
  | delete_share_row l u => exact delete_share_row_keeps l u

/-! ### The accounts under the statements on the lists -/

/-- The users, the sessions and the reset tokens are as before. -/
structure SameAccounts (db db' : DB) : Prop where
  users : db'.users = db.users
  sessions : db'.sessions = db.sessions
  password_reset_tokens : db'.password_reset_tokens = db.password_reset_tokens

theorem SameAccounts.refl (db : DB) : SameAccounts db db := ⟨rfl, rfl, rfl⟩

theorem SameAccounts.trans {a b c : DB} (h : SameAccounts a b) (k : SameAccounts b c) :
    SameAccounts a c :=
  ⟨k.users.trans h.users, k.sessions.trans h.sessions,
    k.password_reset_tokens.trans h.password_reset_tokens⟩

theorem list_statement_same_accounts {st : Statement} (h : ListStatement st) (db₀ : DB) :
    Keeps (SameAccounts db₀) st := by
  have hsingle : ∀ (db : DB) (c : Change), SameAccounts db (c.apply db) →
      SameAccounts db₀ db → SameAccounts db₀ (applyAll [c] db) := fun _ _ hc h0 => h0.trans hc
  intro db cs h0 hcs
  cases h with
  | unchanged => cases hcs; exact h0
  | insert_list l => obtain ⟨rfl, -⟩ := insert_list_ok hcs; exact hsingle _ _ ⟨rfl, rfl, rfl⟩ h0
  | update_list_name id name now =>
    obtain ⟨rfl, -⟩ := update_list_name_ok hcs
    exact hsingle _ _ ⟨rfl, rfl, rfl⟩ h0
  | delete_list_row id =>
    rw [delete_list_row_ok hcs]
    exact h0.trans ⟨rfl, rfl, rfl⟩
  | insert_item i => obtain ⟨rfl, -⟩ := insert_item_ok hcs; exact hsingle _ _ ⟨rfl, rfl, rfl⟩ h0
  | update_item_row id p now =>
    rcases update_item_row_ok hcs with ⟨rfl, -⟩ | ⟨rfl, -⟩
    · exact h0
    · exact hsingle _ _ ⟨rfl, rfl, rfl⟩ h0
  | delete_item_row id => cases hcs; exact hsingle _ _ ⟨rfl, rfl, rfl⟩ h0
  | insert_share s => obtain ⟨rfl, -⟩ := insert_share_ok hcs; exact hsingle _ _ ⟨rfl, rfl, rfl⟩ h0
  | update_role l u role =>
    obtain ⟨rfl, -⟩ := update_role_ok hcs
    exact hsingle _ _ ⟨rfl, rfl, rfl⟩ h0
  | delete_share_row l u => cases hcs; exact hsingle _ _ ⟨rfl, rfl, rfl⟩ h0

end shared_todos.models
