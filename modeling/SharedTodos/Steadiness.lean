-- What the locks of a statement are good for: until its transaction ends, the
-- changes that they let through leave the statement as good as it was. A deletion of
-- sessions is the exception. It deletes the rows that it saw, and new ones may come.
import SharedTodos.Library.Serial
import SharedTodos.RoleInvariant

open keyed_table transactions
open transactions.Prog (Keeps applyAll)
open shared_todos.models shared_todos.lists shared_todos.shares shared_todos.auth
open shared_todos.role_invariant

namespace shared_todos.steadiness

/-! ## What a lock keeps -/

/-- The row or the value of a unique index is there. -/
def Has (db : DB) : LockKey → Prop
  | .user id => db.users.find id ≠ none
  | .user_email email => ∃ u ∈ db.users.rows, u.email = email
  | .user_sub sub => ∃ u ∈ db.users.rows, u.google_sub = some sub
  | .session id => db.sessions.find id ≠ none
  | .session_hash hash => ∃ s ∈ db.sessions.rows, s.token_hash = hash
  | .reset_token id => db.password_reset_tokens.find id ≠ none
  | .reset_token_hash hash => ∃ t ∈ db.password_reset_tokens.rows, t.token_hash = hash
  | .list id => db.lists.find id ≠ none
  | .item id => db.items.find id ≠ none
  | .share l u => db.shares.find (l, u) ≠ none

section
variable {ρ κ : Type} {key : ρ → κ} [DecidableEq κ] {t : Table key} {r : ρ} {k : κ}

/-- A row that an insert adds. -/
theorem found_of_insert (h : (t.insert r).find k ≠ none) : t.find k ≠ none ∨ k = key r := by
  rw [Table.find_insert] at h
  by_cases hk : key r = k
  · exact Or.inr hk.symm
  · rw [if_neg hk, Option.or_none] at h
    exact Or.inl h

/-- A row that a deletion leaves. -/
theorem found_of_delete {p : ρ → Bool} (h : (t.deleteWhere p).find k ≠ none) : t.find k ≠ none := by
  intro hnone
  rw [Table.find_deleteWhere, hnone] at h
  exact h rfl

/-- A row that a deletion by key spares. -/
theorem found_after_delete {d : κ} (h : t.find k ≠ none) (hne : k ≠ d) :
    (t.deleteWhere fun r => decide (key r = d)).find k ≠ none := by
  obtain ⟨r, hr⟩ := Option.ne_none_iff_exists'.mp h
  have hkey := Table.key_of_find hr
  rw [Table.find_deleteWhere, hr, Option.filter_some_pos (by simpa [hkey] using hne)]
  simp

/-- A column that an update keeps. -/
theorem column_of_update {γ : Type} {f : ρ → ρ} {hf : ∀ r, key (f r) = key r} (col : ρ → γ)
    (h : r ∈ (t.update k f hf).rows) (hcol : ∀ r, col (f r) = col r) :
    ∃ x ∈ t.rows, key x = key r ∧ col x = col r := by
  obtain ⟨x, hx, rfl⟩ := (Table.mem_update r).mp h
  refine ⟨x, hx, ?_⟩
  split
  · exact ⟨(hf x).symm, (hcol x).symm⟩
  · exact ⟨rfl, rfl⟩

end

section
variable {a b : Change} {db : DB} {k : LockKey} {m n : LockMode}

/-- The user after a change was there before, or is new, or has got a subject. -/
theorem user_of_apply {u : User} (h : u ∈ (b.apply db).users.rows) :
    b = .insert_user u ∨ ∃ v ∈ db.users.rows, v.id = u.id ∧ v.email = u.email ∧
      (v.google_sub = u.google_sub ∨
        ∃ sub, u.google_sub = some sub ∧ b = .set_google_sub u.id sub) := by
  cases b with
  | insert_user x =>
    rcases Table.mem_of_mem_insert h with h | rfl
    · exact Or.inr ⟨u, h, rfl, rfl, Or.inl rfl⟩
    · exact Or.inl rfl
  | set_password_hash id hash =>
    simp only [Change.apply, Table.mem_update] at h
    obtain ⟨v, hv, rfl⟩ := h
    refine Or.inr ⟨v, hv, ?_⟩
    split <;> exact ⟨rfl, rfl, Or.inl rfl⟩
  | set_google_sub id sub =>
    simp only [Change.apply, Table.mem_update] at h
    obtain ⟨v, hv, rfl⟩ := h
    refine Or.inr ⟨v, hv, ?_⟩
    split
    · rename_i hid
      exact ⟨rfl, rfl, Or.inr ⟨sub, rfl, by rw [← hid]⟩⟩
    · exact ⟨rfl, rfl, Or.inl rfl⟩
  | _ => exact Or.inr ⟨u, h, rfl, rfl, Or.inl rfl⟩

/-- No user is ever deleted. -/
theorem user_stays {id : UUID} (h : db.users.find id ≠ none) : (b.apply db).users.find id ≠ none :=
  show (Prog.applyAll [b] db).users.find id ≠ none from users_kept h

/-- What is there after a change was there before, or the change holds it alone. -/
theorem had_before (h : Has (b.apply db) k) : Has db k ∨ (k, .exclusive) ∈ b.locks := by
  cases k with
  | user id =>
    cases b with
    | insert_user u =>
      refine (found_of_insert h).imp_right ?_
      rintro rfl
      simp [Change.locks]
    | set_password_hash u hash => exact Or.inl (by simpa [Has, Change.apply] using h)
    | set_google_sub u sub => exact Or.inl (by simpa [Has, Change.apply] using h)
    | _ => exact Or.inl h
  | user_email email =>
    obtain ⟨u, hu, rfl⟩ := h
    rcases user_of_apply hu with rfl | ⟨v, hv, -, hemail, -⟩
    · exact Or.inr (by simp [Change.locks])
    · exact Or.inl ⟨v, hv, hemail⟩
  | user_sub sub =>
    obtain ⟨u, hu, hsub⟩ := h
    rcases user_of_apply hu with rfl | ⟨v, hv, -, -, hkept | ⟨other, hother, rfl⟩⟩
    · exact Or.inr (by simp [Change.locks, hsub])
    · exact Or.inl ⟨v, hv, hkept.trans hsub⟩
    · rw [hsub] at hother
      cases hother
      exact Or.inr (by simp [Change.locks])
  | session id =>
    cases b with
    | insert_session s =>
      refine (found_of_insert h).imp_right ?_
      rintro rfl
      simp [Change.locks]
    | delete_session s => exact Or.inl (found_of_delete h)
    | _ => exact Or.inl h
  | session_hash hash =>
    obtain ⟨s, hs, rfl⟩ := h
    cases b with
    | insert_session x =>
      rcases Table.mem_of_mem_insert hs with hs | rfl
      · exact Or.inl ⟨s, hs, rfl⟩
      · exact Or.inr (by simp [Change.locks])
    | delete_session x => exact Or.inl ⟨s, (Table.mem_deleteWhere.mp hs).1, rfl⟩
    | _ => exact Or.inl ⟨s, hs, rfl⟩
  | reset_token id =>
    cases b with
    | insert_reset_token t =>
      refine (found_of_insert h).imp_right ?_
      rintro rfl
      simp [Change.locks]
    | set_used_at t used_at => exact Or.inl (by simpa [Has, Change.apply] using h)
    | _ => exact Or.inl h
  | reset_token_hash hash =>
    obtain ⟨t, ht, rfl⟩ := h
    cases b with
    | insert_reset_token x =>
      rcases Table.mem_of_mem_insert ht with ht | rfl
      · exact Or.inl ⟨t, ht, rfl⟩
      · exact Or.inr (by simp [Change.locks])
    | set_used_at x used_at =>
      simp only [Change.apply] at ht
      obtain ⟨y, hy, -, hhash⟩ := column_of_update PasswordResetToken.token_hash ht fun _ => rfl
      exact Or.inl ⟨y, hy, hhash⟩
    | _ => exact Or.inl ⟨t, ht, rfl⟩
  | list id =>
    cases b with
    | insert_list l =>
      refine (found_of_insert h).imp_right ?_
      rintro rfl
      simp [Change.locks]
    | set_list_name l name t => exact Or.inl (by simpa [Has, Change.apply] using h)
    | delete_list l => exact Or.inl (found_of_delete h)
    | _ => exact Or.inl h
  | item id =>
    cases b with
    | insert_item i =>
      refine (found_of_insert h).imp_right ?_
      rintro rfl
      simp [Change.locks]
    | patch_item i p t => exact Or.inl (by simpa [Has, Change.apply] using h)
    | delete_item i => exact Or.inl (found_of_delete h)
    | _ => exact Or.inl h
  | share l u =>
    cases b with
    | insert_share s =>
      refine (found_of_insert h).imp_right fun hkey => ?_
      simp only [Share.key, Prod.mk.injEq] at hkey
      simp [Change.locks, hkey.1, hkey.2]
    | set_role l' u' role => exact Or.inl (by simpa [Has, Change.apply] using h)
    | delete_share l' u' => exact Or.inl (found_of_delete h)
    | _ => exact Or.inl h

/-- A row, not a value of an index. -/
def is_row : LockKey → Bool
  | .user_email _ | .user_sub _ | .session_hash _ | .reset_token_hash _ => false
  | _ => true

/-- A row that is there before a change is there after it, or the change holds it alone. -/
theorem has_after (hrow : is_row k = true) (h : Has db k) :
    Has (b.apply db) k ∨ (k, .exclusive) ∈ b.locks := by
  cases k with
  | user id => exact Or.inl (user_stays h)
  | session id =>
    cases b with
    | insert_session s => exact Or.inl (Table.find_insert_ne_none h)
    | delete_session s =>
      by_cases hs : id = s
      · exact Or.inr (by simp [Change.locks, hs])
      · exact Or.inl (found_after_delete h hs)
    | _ => exact Or.inl h
  | reset_token id =>
    cases b with
    | insert_reset_token t => exact Or.inl (Table.find_insert_ne_none h)
    | set_used_at t used_at => exact Or.inl (by simpa [Has, Change.apply] using h)
    | _ => exact Or.inl h
  | list id =>
    cases b with
    | insert_list l => exact Or.inl (Table.find_insert_ne_none h)
    | set_list_name l name t => exact Or.inl (by simpa [Has, Change.apply] using h)
    | delete_list l =>
      by_cases hl : id = l
      · exact Or.inr (by simp [Change.locks, hl])
      · exact Or.inl (found_after_delete h hl)
    | _ => exact Or.inl h
  | item id =>
    cases b with
    | insert_item i => exact Or.inl (Table.find_insert_ne_none h)
    | patch_item i p t => exact Or.inl (by simpa [Has, Change.apply] using h)
    | delete_item i =>
      by_cases hi : id = i
      · exact Or.inr (by simp [Change.locks, hi])
      · exact Or.inl (found_after_delete h hi)
    | _ => exact Or.inl h
  | share l u =>
    cases b with
    | insert_share s => exact Or.inl (Table.find_insert_ne_none h)
    | set_role l' u' role => exact Or.inl (by simpa [Has, Change.apply] using h)
    | delete_share l' u' =>
      by_cases hs : (l, u) = (l', u')
      · cases hs
        exact Or.inr (by simp [Change.locks])
      · exact Or.inl (found_after_delete h hs)
    | _ => exact Or.inl h
  | _ => cases hrow

/-- Two changes on their way at once have locks that go together. -/
theorem compatible_of_clear (h : Database.blocks a b = false) (ha : (k, m) ∈ a.locks)
    (hb : (k, n) ∈ b.locks) : m.compatible n = true := by
  by_contra hmode
  have hblocks := blocks_of_locks ha hb rfl (by simpa using hmode)
  rw [h] at hblocks
  cases hblocks

/-- No lock goes with an exclusive one. -/
theorem not_exclusive (h : Database.blocks a b = false) (ha : (k, m) ∈ a.locks) :
    (k, .exclusive) ∉ b.locks := by
  intro hb
  have hmode := compatible_of_clear h ha hb
  cases m <;> cases hmode

/-- What a change holds alone and is not there does not come. -/
theorem stays_free (hclear : Database.blocks a b = false) (ha : (k, .exclusive) ∈ a.locks)
    (h : ¬ Has db k) : ¬ Has (b.apply db) k := by
  intro hafter
  rcases had_before hafter with hbefore | hb
  · exact h hbefore
  · exact not_exclusive hclear ha hb

/-- A row with a lock stays. -/
theorem stays (hclear : Database.blocks a b = false) (ha : (k, m) ∈ a.locks)
    (hrow : is_row k = true) (h : Has db k) : Has (b.apply db) k :=
  (has_after hrow h).resolve_right (not_exclusive hclear ha)

/-- No other user gets the subject. -/
theorem sub_stays_free {id : UUID} {sub : String} (hclear : Database.blocks a b = false)
    (ha : (.user_sub sub, .exclusive) ∈ a.locks)
    (h : ∀ v ∈ db.users.rows, v.id ≠ id → v.google_sub ≠ some sub) :
    ∀ v ∈ (b.apply db).users.rows, v.id ≠ id → v.google_sub ≠ some sub := by
  intro v hv hne hsub
  rcases user_of_apply hv with rfl | ⟨w, hw, hid, -, hkept | ⟨other, hother, rfl⟩⟩
  · exact not_exclusive hclear ha (by simp [Change.locks, hsub])
  · exact h w hw (hid ▸ hne) (hkept.trans hsub)
  · rw [hsub] at hother
    cases hother
    exact not_exclusive hclear ha (by simp [Change.locks])

end

/-! ## The statements stay good -/

/-- A state that accepts the statement goes on to do so while its locks are held, with
the same changes. -/
def Firm (st : Statement) : Prop :=
  ∀ db cs b, st db = .ok cs → (∀ a ∈ cs, Database.blocks a b = false) → st (b.apply db) = .ok cs

theorem insert_user_firm (u : User) : Firm (insert_user u) := by
  intro db cs b h hclear
  obtain ⟨rfl, hauth, hid, hemail, hsub⟩ := insert_user_ok h
  have hfits : u.fits := by
    by_contra hfits
    simp [insert_user, hfits] at h
  have hb : Database.blocks (.insert_user u) b = false := hclear _ (by simp)
  have hid' := stays_free (k := .user u.id) hb (by simp [Change.locks]) (not_not.mpr hid)
  have hemail' := stays_free (k := .user_email u.email) hb (by simp [Change.locks])
    (by rintro ⟨v, hv, he⟩; exact hemail v hv he)
  unfold insert_user
  rw [if_neg (not_not.mpr hfits), if_neg (not_not.mpr hauth), if_neg]
  rintro (hid'' | hemail'' | ⟨v, hv, hne, hsame⟩)
  · exact hid' hid''
  · exact hemail' hemail''
  · obtain ⟨sub, hsome⟩ := Option.ne_none_iff_exists'.mp (hsame ▸ hne)
    refine stays_free (k := .user_sub sub) hb (by simp [Change.locks, hsome]) ?_
      ⟨v, hv, hsame.trans hsome⟩
    rintro ⟨x, hx, hxsub⟩
    exact hsub x hx (by simp [hxsub]) (hxsub.trans hsome.symm)

theorem update_google_sub_firm (id : UUID) (sub : String) : Firm (update_google_sub id sub) := by
  intro db cs b h hclear
  obtain ⟨rfl, hid, hsub⟩ := update_google_sub_ok h
  have hfits : text_fits 256 sub := by
    by_contra hfits
    simp [update_google_sub, hfits] at h
  have hsub' := sub_stays_free (hclear _ (List.mem_singleton.mpr rfl)) (by simp [Change.locks]) hsub
  unfold update_google_sub
  rw [if_neg (not_not.mpr hfits), if_neg (user_stays hid), if_neg]
  rintro ⟨v, hv, hne, hsame⟩
  exact hsub' v hv hne hsame

theorem insert_session_firm (x : Session) : Firm (insert_session x) := by
  intro db cs b h hclear
  obtain ⟨rfl, hid, hhash, huser⟩ := insert_session_ok h
  have hb : Database.blocks (.insert_session x) b = false := hclear _ (by simp)
  have hid' := stays_free (k := .session x.id) hb (by simp [Change.locks]) (not_not.mpr hid)
  have hhash' := stays_free (k := .session_hash x.token_hash) hb (by simp [Change.locks])
    (by rintro ⟨r, hr, he⟩; exact hhash r hr he)
  unfold insert_session
  rw [if_neg, if_neg (user_stays huser)]
  rintro (hid'' | hhash'')
  · exact hid' hid''
  · exact hhash' hhash''

theorem insert_reset_token_firm (x : PasswordResetToken) : Firm (insert_reset_token x) := by
  intro db cs b h hclear
  obtain ⟨rfl, hid, hhash, huser⟩ := insert_reset_token_ok h
  have hb : Database.blocks (.insert_reset_token x) b = false := hclear _ (by simp)
  have hid' := stays_free (k := .reset_token x.id) hb (by simp [Change.locks]) (not_not.mpr hid)
  have hhash' := stays_free (k := .reset_token_hash x.token_hash) hb (by simp [Change.locks])
    (by rintro ⟨r, hr, he⟩; exact hhash r hr he)
  unfold insert_reset_token
  rw [if_neg, if_neg (user_stays huser)]
  rintro (hid'' | hhash'')
  · exact hid' hid''
  · exact hhash' hhash''

/-- The two rows that a reset changes are never deleted. -/
theorem reset_statement_firm (prt : PasswordResetToken) (user : User) (now : Time) (hash : String) :
    Firm (reset_statement prt user now hash) := by
  intro db cs b h hclear
  obtain ⟨rfl, huser, hprt⟩ := reset_statement_ok h
  have hprt' : (b.apply db).password_reset_tokens.find prt.id ≠ none :=
    stays (k := .reset_token prt.id) (m := .no_key_update)
      (hclear (.set_used_at prt.id now) (by simp)) (by simp [Change.locks]) rfl hprt
  have hpassword : update_password_hash user.id hash (b.apply db) =
      .ok [.set_password_hash user.id hash] := by
    unfold update_password_hash
    rw [if_neg (user_stays huser)]
  have hused : update_used_at prt.id now
      (Prog.applyAll [Change.set_password_hash user.id hash] (b.apply db)) =
        .ok [.set_used_at prt.id now] := by
    unfold update_used_at
    exact if_neg hprt'
  unfold reset_statement Statement.also
  simp only [hpassword, bind, Except.bind, hused, pure, Except.pure, List.singleton_append]

theorem insert_list_firm (l : ListRow) : Firm (insert_list l) := by
  intro db cs b h hclear
  obtain ⟨rfl, hid, huser⟩ := insert_list_ok h
  have hfits : text_fits 256 l.name := by
    by_contra hfits
    simp [insert_list, hfits] at h
  have hid' : ¬ (b.apply db).lists.find l.id ≠ none :=
    stays_free (k := .list l.id) (hclear (.insert_list l) (by simp)) (by simp [Change.locks])
      (not_not.mpr hid)
  unfold insert_list
  rw [if_neg (not_not.mpr hfits), if_neg hid', if_neg (user_stays huser)]

theorem update_list_name_firm (id : UUID) (name : String) (now : Time) :
    Firm (update_list_name id name now) := by
  intro db cs b h hclear
  obtain ⟨rfl, hid⟩ := update_list_name_ok h
  have hfits : text_fits 256 name := by
    by_contra hfits
    simp [update_list_name, hfits] at h
  have hid' : (b.apply db).lists.find id ≠ none :=
    stays (k := .list id) (m := .no_key_update) (hclear (.set_list_name id name now) (by simp))
      (by simp [Change.locks]) rfl hid
  unfold update_list_name
  rw [if_neg (not_not.mpr hfits), if_neg hid']

theorem insert_item_firm (x : Item) : Firm (insert_item x) := by
  intro db cs b h hclear
  obtain ⟨rfl, hid, hlist⟩ := insert_item_ok h
  have hfits : text_storable x.content ∧ integer_fits x.order := by
    by_contra hfits
    simp only [insert_item, if_pos hfits] at h
    cases h
  have hb : Database.blocks (.insert_item x) b = false := hclear _ (by simp)
  have hid' : ¬ (b.apply db).items.find x.id ≠ none :=
    stays_free (k := .item x.id) hb (by simp [Change.locks]) (not_not.mpr hid)
  have hlist' : (b.apply db).lists.find x.list_id ≠ none :=
    stays (k := .list x.list_id) (m := .key_share) hb (by simp [Change.locks]) rfl hlist
  unfold insert_item
  rw [if_neg (not_not.mpr hfits), if_neg hid', if_neg hlist']

theorem update_item_row_firm (id : UUID) (p : ItemPatch) (now : Time) :
    Firm (update_item_row id p now) := by
  intro db cs b h hclear
  unfold update_item_row at h ⊢
  split at h
  · rw [if_pos (by assumption)]
    exact h
  split at h
  · cases h
  split at h
  · cases h
  · rename_i hp hfits hid
    cases h
    have hid' : (b.apply db).items.find id ≠ none :=
      stays (k := .item id) (m := .no_key_update) (hclear (.patch_item id p now) (by simp))
        (by simp [Change.locks]) rfl hid
    rw [if_neg hp, if_neg hfits, if_neg hid']

theorem insert_share_firm (x : Share) : Firm (insert_share x) := by
  intro db cs b h hclear
  obtain ⟨rfl, hrole, hkey, hlist, huser⟩ := insert_share_ok h
  have hb : Database.blocks (.insert_share x) b = false := hclear _ (by simp)
  have hkey' : ¬ (b.apply db).shares.find x.key ≠ none :=
    stays_free (k := .share x.list_id x.user_id) hb (by simp [Change.locks]) (not_not.mpr hkey)
  have hlist' : (b.apply db).lists.find x.list_id ≠ none :=
    stays (k := .list x.list_id) (m := .key_share) hb (by simp [Change.locks]) rfl hlist
  unfold insert_share
  rw [if_neg (not_not.mpr hrole), if_neg hkey', if_neg]
  rintro (hlist'' | huser'')
  · exact hlist' hlist''
  · exact user_stays huser huser''

theorem update_role_firm (l u : UUID) (role : String) : Firm (update_role l u role) := by
  intro db cs b h hclear
  obtain ⟨rfl, hrole, hkey⟩ := update_role_ok h
  have hkey' : (b.apply db).shares.find (l, u) ≠ none :=
    stays (k := .share l u) (m := .no_key_update) (hclear (.set_role l u role) (by simp))
      (by simp [Change.locks]) rfl hkey
  unfold update_role
  rw [if_neg (not_not.mpr hrole), if_neg hkey']

/-! ### The deletion of a list with its cascade -/

section
variable {ρ κ γ : Type} {key : ρ → κ} [DecidableEq κ] {t : Table key} {p : ρ → Bool}

theorem select_insert {r : ρ} (hp : p r = false) : (t.insert r).select p = t.select p := by
  cases hf : t.find (key r) with
  | none => simp [Table.select, Table.rows_insert hf, hp]
  | some x => rw [Table.insert_of_taken hf]

omit [DecidableEq κ] in
theorem select_delete {q : ρ → Bool} (h : ∀ r ∈ t.select p, q r = false) :
    (t.deleteWhere q).select p = t.select p := by
  simp only [Table.select, Table.deleteWhere, List.filter_filter]
  apply List.filter_congr
  intro r hr
  cases hp : p r with
  | false => simp
  | true => simp [h r ((Table.mem_select t p r).mpr ⟨hr, hp⟩)]

/-- An update that keeps what is selected, and by what. -/
theorem map_select_update {k : κ} {f : ρ → ρ} (hf : ∀ r, key (f r) = key r) (g : ρ → γ)
    (hp : ∀ r, p (f r) = p r) (hg : ∀ r, g (f r) = g r) :
    ((t.update k f hf).select p).map g = (t.select p).map g := by
  have hsame : ∀ r, p (if key r = k then f r else r) = p r := by
    intro r
    split
    · exact hp r
    · rfl
  simp only [Table.select, Table.update, List.filter_map, List.map_map]
  have hcomp : (p ∘ fun r => if key r = k then f r else r) = p := funext hsame
  rw [hcomp]
  apply List.map_congr_left
  intro r _
  simp only [Function.comp_apply]
  split
  · exact hg r
  · rfl

end

/-- The items of the list stay those that were seen. -/
theorem items_of_list_stay {b : Change} {db : DB} {L : UUID}
    (hlist : Database.blocks (.delete_list L) b = false)
    (hitems : ∀ i ∈ db.items.select fun i => decide (i.list_id = L),
      Database.blocks (.delete_item i.id) b = false) :
    ((b.apply db).items.select fun i => decide (i.list_id = L)).map
        (fun i => Change.delete_item i.id) =
      (db.items.select fun i => decide (i.list_id = L)).map fun i => Change.delete_item i.id := by
  cases b with
  | insert_item x =>
    have hne : x.list_id ≠ L := by
      intro hx
      have hlock : (LockKey.list L, LockMode.key_share) ∈ (Change.insert_item x).locks := by
        simp [Change.locks, hx]
      cases compatible_of_clear (m := .exclusive) hlist (by simp [Change.locks]) hlock
    rw [Change.apply, select_insert (by simpa using hne)]
  | patch_item id p now =>
    exact map_select_update (fun i => i.patch_id p now) (fun i : Item => Change.delete_item i.id)
      (fun _ => rfl) fun _ => rfl
  | delete_item id =>
    rw [Change.apply, select_delete]
    intro i hi
    rw [decide_eq_false_iff_not]
    intro hid
    exact not_exclusive (k := .item i.id) (m := .exclusive) (hitems i hi) (by simp [Change.locks])
      (by simp [Change.locks, hid])
  | _ => rfl

/-- The shares of the list stay those that were seen. -/
theorem shares_of_list_stay {b : Change} {db : DB} {L : UUID}
    (hlist : Database.blocks (.delete_list L) b = false)
    (hshares : ∀ s ∈ db.shares.select fun s => decide (s.list_id = L),
      Database.blocks (.delete_share s.list_id s.user_id) b = false) :
    ((b.apply db).shares.select fun s => decide (s.list_id = L)).map
        (fun s => Change.delete_share s.list_id s.user_id) =
      (db.shares.select fun s => decide (s.list_id = L)).map
        fun s => Change.delete_share s.list_id s.user_id := by
  cases b with
  | insert_share x =>
    have hne : x.list_id ≠ L := by
      intro hx
      have hlock : (LockKey.list L, LockMode.key_share) ∈ (Change.insert_share x).locks := by
        simp [Change.locks, hx]
      cases compatible_of_clear (m := .exclusive) hlist (by simp [Change.locks]) hlock
    rw [Change.apply, select_insert (by simpa using hne)]
  | set_role l u role =>
    exact map_select_update (fun s => s.with_role_key role)
      (fun s : Share => Change.delete_share s.list_id s.user_id) (fun _ => rfl) fun _ => rfl
  | delete_share l u =>
    rw [Change.apply, select_delete]
    intro s hs
    rw [decide_eq_false_iff_not]
    intro hkey
    simp only [Share.key, Prod.mk.injEq] at hkey
    exact not_exclusive (k := .share s.list_id s.user_id) (m := .exclusive) (hshares s hs)
      (by simp [Change.locks]) (by simp [Change.locks, hkey.1, hkey.2])
  | _ => rfl

theorem delete_list_row_firm (L : UUID) : Firm (delete_list_row L) := by
  intro db cs b h hclear
  cases h
  have hlist : Database.blocks (.delete_list L) b = false := hclear _ (by simp)
  have hitems : ∀ i ∈ db.items.select fun i => decide (i.list_id = L),
      Database.blocks (.delete_item i.id) b = false := by
    intro i hi
    refine hclear _ (List.mem_append_left _ (List.mem_append_left _ ?_))
    exact List.mem_map.mpr ⟨i, hi, rfl⟩
  have hshares : ∀ s ∈ db.shares.select fun s => decide (s.list_id = L),
      Database.blocks (.delete_share s.list_id s.user_id) b = false := by
    intro s hs
    refine hclear _ (List.mem_append_left _ (List.mem_append_right _ ?_))
    exact List.mem_map.mpr ⟨s, hs, rfl⟩
  unfold delete_list_row
  rw [items_of_list_stay hlist hitems, shares_of_list_stay hlist hshares]

theorem list_statement_firm {st : Statement} (h : ListStatement st) : Firm st := by
  cases h with
  | unchanged => exact fun _ _ _ h _ => h
  | insert_list l => exact insert_list_firm l
  | update_list_name id name now => exact update_list_name_firm id name now
  | delete_list_row id => exact delete_list_row_firm id
  | insert_item i => exact insert_item_firm i
  | update_item_row id p now => exact update_item_row_firm id p now
  | delete_item_row id => exact fun _ _ _ h _ => h
  | insert_share s => exact insert_share_firm s
  | update_role l u role => exact update_role_firm l u role
  | delete_share_row l u => exact fun _ _ _ h _ => h

/-! ## The transactions of the handlers -/

/-- The statements on the accounts that a handler flushes. -/
inductive AccountWrite : Statement → Prop where
  | insert_user (u : User) : AccountWrite (insert_user u)
  | update_google_sub (id : UUID) (sub : String) : AccountWrite (update_google_sub id sub)
  | insert_session (s : Session) : AccountWrite (insert_session s)
  | delete_sessions (p : Session → Bool) : AccountWrite (delete_sessions p)
  | insert_reset_token (t : PasswordResetToken) : AccountWrite (insert_reset_token t)
  | reset_statement (prt : PasswordResetToken) (user : User) (now : Time) (hash : String) :
    AccountWrite (reset_statement prt user now hash)

theorem account_write_firm {st : Statement} (h : AccountWrite st) :
    Firm st ∨ ∃ p, st = delete_sessions p := by
  cases h with
  | insert_user u => exact Or.inl (insert_user_firm u)
  | update_google_sub id sub => exact Or.inl (update_google_sub_firm id sub)
  | insert_session s => exact Or.inl (insert_session_firm s)
  | delete_sessions p => exact Or.inr ⟨p, rfl⟩
  | insert_reset_token t => exact Or.inl (insert_reset_token_firm t)
  | reset_statement prt user now hash => exact Or.inl (reset_statement_firm prt user now hash)

/-- The statements of one transaction: one, or the two of a password reset. -/
inductive Shape : List Statement → Prop where
  | one (st : Statement) (h : AccountWrite st ∨ ListStatement st) : Shape [st]
  | reset (prt : PasswordResetToken) (user : User) (now : Time) (hash : String)
      (p : Session → Bool) : Shape [reset_statement prt user now hash, delete_sessions p]

/-- The changes that a statement may make when its turn comes: those that it makes there,
or some of them, if it deletes sessions. -/
def May (st : Statement) (db : DB) (cs : List Change) : Prop :=
  ∃ ds, st db = .ok ds ∧ (cs = ds ∨ (∃ p, st = delete_sessions p) ∧ cs.Sublist ds)

theorem may_of_ok {st : Statement} {db : DB} {cs : List Change} (h : st db = .ok cs) :
    May st db cs := ⟨cs, h, Or.inl rfl⟩

/-- What every deletion of sessions keeps is kept, one session after another. -/
theorem kept_by_deletions {P : DB → Prop} (hdelete : ∀ p, Keeps P (delete_sessions p)) {db : DB}
    {cs : List Change} (hdb : P db) (h : ∀ a ∈ cs, ∃ id, a = .delete_session id) :
    P (applyAll cs db) := by
  induction cs generalizing db with
  | nil => exact hdb
  | cons a rest ih =>
    obtain ⟨id, rfl⟩ := h a (List.mem_cons_self ..)
    refine ih ?_ fun b hb => h b (List.mem_cons_of_mem _ hb)
    have hkeeps := hdelete (fun s => decide (s.id = id)) db _ hdb rfl
    rwa [delete_sessions_ok rfl] at hkeeps

/-- What a statement keeps is also kept by what it may do. -/
theorem kept_by_may {P : DB → Prop} (hdelete : ∀ p, Keeps P (delete_sessions p)) {st : Statement}
    (hst : Keeps P st) {db : DB} {cs : List Change} (hdb : P db) (hmay : May st db cs) :
    P (applyAll cs db) := by
  obtain ⟨ds, hds, rfl | ⟨⟨p, rfl⟩, hsub⟩⟩ := hmay
  · exact hst db cs hdb hds
  · refine kept_by_deletions hdelete hdb fun a ha => ?_
    cases hds
    obtain ⟨s, -, rfl⟩ := List.mem_map.mp (hsub.subset ha)
    exact ⟨s.id, rfl⟩

/-- The sessions that were seen are still there, and new ones may be. -/
theorem session_deletion_stays {p : Session → Bool} {db : DB} {cs : List Change} {b : Change}
    (h : May (delete_sessions p) db cs) (hclear : ∀ a ∈ cs, Database.blocks a b = false) :
    May (delete_sessions p) (b.apply db) cs := by
  have hsub : cs.Sublist ((db.sessions.select p).map fun s => .delete_session s.id) := by
    obtain ⟨ds, hds, rfl | ⟨-, hsub⟩⟩ := h <;> cases hds
    · exact List.Sublist.refl _
    · exact hsub
  refine ⟨_, rfl, Or.inr ⟨⟨p, rfl⟩, ?_⟩⟩
  cases b with
  | insert_session s =>
    have hrows : db.sessions.rows.Sublist (db.sessions.insert s).rows := by
      cases hf : db.sessions.find s.id with
      | none =>
        rw [Table.rows_insert hf]
        exact List.sublist_append_left _ _
      | some x => rw [Table.insert_of_taken hf]
    exact hsub.trans ((hrows.filter p).map _)
  | delete_session id =>
    obtain ⟨rows, hrows, rfl⟩ := List.sublist_map_iff.mp hsub
    have hspared : ∀ s ∈ rows, s.id ≠ id := by
      rintro s hs rfl
      refine not_exclusive (k := .session s.id) (m := .exclusive)
        (hclear (.delete_session s.id) ?_) (by simp [Change.locks]) (by simp [Change.locks])
      exact List.mem_map_of_mem hs
    have hkeep : rows.filter (fun s => !decide (s.id = id)) = rows :=
      List.filter_eq_self.mpr fun s hs => by simp [hspared s hs]
    have hselect : ((Change.delete_session id).apply db).sessions.select p =
        (db.sessions.select p).filter fun s => !decide (s.id = id) := by
      simp only [Change.apply, Table.select, Table.deleteWhere, List.filter_filter, Bool.and_comm]
    rw [hselect, ← hkeep]
    exact (hrows.filter _).map _
  | _ => exact hsub

/-- A deletion of sessions looks at the sessions only. -/
theorem may_of_sessions {p : Session → Bool} {a b : DB} {cs : List Change}
    (h : a.sessions = b.sessions) :
    May (delete_sessions p) a cs ↔ May (delete_sessions p) b cs := by
  unfold May delete_sessions
  rw [h]

theorem may_stays {st : Statement} (hst : AccountWrite st ∨ ListStatement st) {db : DB}
    {cs : List Change} {b : Change} (h : May st db cs)
    (hclear : ∀ a ∈ cs, Database.blocks a b = false) : May st (b.apply db) cs := by
  have hfirm : Firm st ∨ ∃ p, st = delete_sessions p :=
    hst.elim account_write_firm fun hlist => Or.inl (list_statement_firm hlist)
  rcases hfirm with hfirm | ⟨p, rfl⟩
  · obtain ⟨ds, hds, rfl | ⟨⟨p, rfl⟩, hsub⟩⟩ := h
    · exact may_of_ok (hfirm db cs b hds hclear)
    · exact session_deletion_stays ⟨ds, hds, Or.inr ⟨⟨p, rfl⟩, hsub⟩⟩ hclear
  · exact session_deletion_stays h hclear

/-- A reset makes the changes that it makes: it is no deletion of sessions. -/
theorem changes_of_reset {prt : PasswordResetToken} {user : User} {now : Time} {hash : String}
    {db : DB} {cs : List Change} (h : May (reset_statement prt user now hash) db cs) :
    cs = [.set_password_hash user.id hash, .set_used_at prt.id now] := by
  obtain ⟨ds, hds, hcs⟩ := h
  obtain ⟨rfl, -⟩ := reset_statement_ok hds
  rcases hcs with rfl | ⟨⟨p, hp⟩, -⟩
  · rfl
  · -- Where there are no users, a reset fails, and a deletion of sessions does not.
    have hempty : reset_statement prt user now hash DB.empty = .ok [] := by
      rw [hp]
      rfl
    obtain ⟨hne, -⟩ := reset_statement_ok hempty
    cases hne

/-- The changes of a reset leave the sessions to its second statement. -/
theorem sessions_of_reset {prt : PasswordResetToken} {user : User} {now : Time} {hash : String}
    {db : DB} {cs : List Change} (h : May (reset_statement prt user now hash) db cs) (db' : DB) :
    (Prog.applyAll cs db').sessions = db'.sessions := by
  obtain rfl := changes_of_reset h
  rfl

theorem shapes_are_steady : Steady Shape May where
  of_ok := fun _ _ _ => may_of_ok
  kept := by
    intro sts db b hshape hruns hclear
    generalize hws : sts.map Prod.fst = ws at hshape
    cases hshape with
    | one st hst =>
      obtain ⟨⟨w, cs⟩, rfl, rfl⟩ := List.map_eq_singleton_iff.mp hws
      rw [changes_one] at hclear
      exact ⟨may_stays hst hruns.1 hclear, trivial⟩
    | reset prt user now hash p =>
      rcases sts with _ | ⟨⟨w, cs⟩, _ | ⟨⟨v, ds⟩, _ | ⟨x, rest⟩⟩⟩
      · cases hws
      · cases hws
      · obtain ⟨rfl, rfl⟩ : w = reset_statement prt user now hash ∧ v = delete_sessions p := by
          simpa using hws
        have hchanges : changes [(reset_statement prt user now hash, cs), (delete_sessions p, ds)] =
            cs ++ ds := by
          simp [changes]
        rw [hchanges] at hclear
        obtain ⟨hreset, hdelete, -⟩ := hruns
        refine ⟨may_stays (Or.inl (.reset_statement prt user now hash)) hreset
          (fun a ha => hclear a (List.mem_append_left _ ha)), ?_, trivial⟩
        rw [may_of_sessions (sessions_of_reset hreset _)] at hdelete
        change May (delete_sessions p) (Prog.applyAll cs (b.apply db)) ds
        rw [may_of_sessions (sessions_of_reset hreset _)]
        exact session_deletion_stays hdelete fun a ha => hclear a (List.mem_append_right _ ha)
      · cases hws

theorem two_statements {ws : List Statement} {w x y : Statement} (h : ws ++ [w] = [x, y]) :
    ws = [x] ∧ w = y := by
  obtain ⟨hws, hw⟩ := List.append_inj' (show ws ++ [w] = [x] ++ [y] from h) rfl
  exact ⟨hws, List.singleton_inj.mp hw⟩

/-- Nobody waits for what a reset holds at its first statement with what he holds
himself: two resets meet at their first statements. -/
theorem shapes_are_ordered : Ordered Shape := by
  intro ws w ws' w' a b hshape hshape' ha hb hblocks
  generalize hall : ws ++ [w] = all at hshape
  generalize hall' : ws' ++ [w'] = all' at hshape'
  have hreset : ∃ prt user now hash, ws' = [reset_statement prt user now hash] := by
    cases hshape' with
    | one st hst =>
      obtain ⟨st', hst', -⟩ := ha
      have hlength := congrArg List.length hall'
      simp only [List.length_append, List.length_singleton] at hlength
      rw [List.length_eq_zero_iff.mp (by omega : ws'.length = 0)] at hst'
      cases hst'
    | reset prt user now hash p =>
      exact ⟨prt, user, now, hash, (two_statements hall').1⟩
  obtain ⟨prt, user, now, hash, rfl⟩ := hreset
  cases hshape with
  | one st hst =>
    have hlength := congrArg List.length hall
    simp only [List.length_append, List.length_singleton] at hlength ⊢
    omega
  | reset prt' user' now' hash' p =>
    obtain ⟨-, rfl⟩ := two_statements hall
    exfalso
    obtain ⟨st, hst, s, cs, hcs, hacs⟩ := ha
    obtain rfl := List.mem_singleton.mp hst
    obtain ⟨rfl, -⟩ := reset_statement_ok hcs
    obtain ⟨st', hst', s', ds, hds, hbds⟩ := hb
    obtain rfl := List.mem_singleton.mp hst'
    cases hds
    obtain ⟨x, -, rfl⟩ := List.mem_map.mp hbds
    rcases List.mem_cons.mp hacs with rfl | hacs
    · simp [Database.blocks, Change.locks] at hblocks
    · obtain rfl := List.mem_singleton.mp hacs
      simp [Database.blocks, Change.locks] at hblocks

end shared_todos.steadiness
