-- The law of the gate: over every run, a request changes and shows of a list
-- only what the role of its user allows, and it touches no list but the one
-- that its path names.
import SharedTodos.App

open keyed_table transactions
open shared_todos.models shared_todos.http shared_todos.http.handler
open shared_todos.sessions shared_todos.rate_limiter shared_todos.auth shared_todos.oauth
open shared_todos.authz
open shared_todos.lists shared_todos.items shared_todos.shares shared_todos.app

namespace shared_todos.authorization

/-! ## What a response shows -/

def list_outs : Body → List ListOut
  | .list l => [l]
  | .lists ls => ls
  | _ => []

def item_outs : Body → List ItemOut
  | .item i => [i]
  | .items is => is
  | _ => []

def share_outs : Body → List ShareOut
  | .share s => [s]
  | .shares ss => ss
  | _ => []

/-- The response shows no row of a list, an item or a share. -/
def ShowsNothing (r : Response) : Prop :=
  list_outs r.body = [] ∧ item_outs r.body = [] ∧ share_outs r.body = []

theorem exn_shows_nothing (e : Exn) : ShowsNothing e.response := by
  cases e <;> exact ⟨rfl, rfl, rfl⟩

/-! ## What a request changes -/

/-- The item with id `i`, if it is an item of list `L`. -/
def item_of (db : DB) (L i : UUID) : Option Item :=
  (db.items.find i).filter fun x => decide (x.list_id = L)

theorem item_of_eq_some {db : DB} {L i : UUID} {x : Item} :
    item_of db L i = some x ↔ db.items.find i = some x ∧ x.list_id = L := by
  unfold item_of
  rw [Option.filter_eq_some_iff]
  simp

/-- The lists, the items and the shares are as before. -/
structure SameLists (db db' : DB) : Prop where
  lists : db'.lists = db.lists
  items : db'.items = db.items
  shares : db'.shares = db.shares

theorem SameLists.refl (db : DB) : SameLists db db := ⟨rfl, rfl, rfl⟩

theorem SameLists.trans {a b c : DB} (h : SameLists a b) (k : SameLists b c) : SameLists a c :=
  ⟨k.lists.trans h.lists, k.items.trans h.items, k.shares.trans h.shares⟩

/-- Every list but `L` has its row, its items and its shares as before. -/
structure OnlyList (L : UUID) (db db' : DB) : Prop where
  lists : ∀ M, M ≠ L → db'.lists.find M = db.lists.find M
  items : ∀ M, M ≠ L → ∀ i, item_of db' M i = item_of db M i
  shares : ∀ M, M ≠ L → ∀ v, db'.shares.find (M, v) = db.shares.find (M, v)

theorem OnlyList.refl (L : UUID) (db : DB) : OnlyList L db db :=
  ⟨fun _ _ => rfl, fun _ _ _ => rfl, fun _ _ _ => rfl⟩

theorem only_list_insert_item {db : DB} {i : Item} (hfree : db.items.find i.id = none) :
    OnlyList i.list_id db (Change.apply (.insert_item i) db) := by
  refine ⟨fun _ _ => rfl, ?_, fun _ _ _ => rfl⟩
  intro M hM k
  unfold item_of
  simp only [Change.apply]
  rw [Table.find_insert_of_free hfree]
  by_cases hk : i.id = k
  · subst hk
    rw [if_pos rfl, hfree, Option.filter_some_neg (by simpa using hM.symm), Option.filter_none]
  · rw [if_neg hk]

theorem only_list_patch_item {db : DB} {x : Item} (hx : db.items.find x.id = some x)
    (p : ItemPatch) (now : Time) :
    OnlyList x.list_id db (Change.apply (.patch_item x.id p now) db) := by
  refine ⟨fun _ _ => rfl, ?_, fun _ _ _ => rfl⟩
  intro M hM k
  unfold item_of
  simp only [Change.apply]
  rw [Table.find_update]
  by_cases hk : k = x.id
  · subst hk
    rw [if_pos rfl, hx]
    simp [Option.filter, Item.patch, hM.symm]
  · rw [if_neg hk]

theorem only_list_delete_item {db : DB} {x : Item} (hx : db.items.find x.id = some x) :
    OnlyList x.list_id db (Change.apply (.delete_item x.id) db) := by
  refine ⟨fun _ _ => rfl, ?_, fun _ _ _ => rfl⟩
  intro M hM k
  unfold item_of
  simp only [Change.apply]
  rw [Table.find_deleteWhere]
  by_cases hk : k = x.id
  · subst hk
    rw [hx, Option.filter_some_neg (by simp), Option.filter_some_neg (by simpa using hM.symm),
      Option.filter_none]
  · congr 1
    cases hf : db.items.find k with
    | none => rfl
    | some y =>
      have hy := Table.key_of_find hf
      exact Option.filter_some_pos (by simpa [hy] using hk)

theorem find_insert_share {db : DB} {x : Share} (hfree : db.shares.find x.key = none) (L v : UUID) :
    (Change.apply (.insert_share x) db).shares.find (L, v) =
      if x.key = (L, v) then some x else db.shares.find (L, v) := by
  simp only [Change.apply]
  rw [Table.find_insert_of_free hfree]

theorem find_set_role {db : DB} (L k : UUID) (role : String) (M v : UUID) :
    (Change.apply (.set_role L k role) db).shares.find (M, v) =
      if (M, v) = (L, k) then (db.shares.find (L, k)).map (fun s => s.with_role role)
      else db.shares.find (M, v) := by
  simp only [Change.apply]
  rw [Table.find_update]

theorem find_delete_share {db : DB} (L k M v : UUID) :
    (Change.apply (.delete_share L k) db).shares.find (M, v) =
      if (M, v) = (L, k) then none else db.shares.find (M, v) := by
  simp only [Change.apply]
  rw [Table.find_deleteWhere]
  split
  · rename_i hk
    rw [Option.filter_eq_none_iff]
    intro x hx
    simp [Table.key_of_find hx, hk]
  · rename_i hk
    cases hf : db.shares.find (M, v) with
    | none => rfl
    | some x =>
      rw [Option.filter_some_pos]
      rw [Table.key_of_find hf]
      simpa only [Bool.not_eq_true', decide_eq_false_iff_not] using hk

theorem only_list_insert_share {db : DB} {x : Share} (hfree : db.shares.find x.key = none) :
    OnlyList x.list_id db (Change.apply (.insert_share x) db) := by
  refine ⟨fun _ _ => rfl, fun _ _ _ => rfl, ?_⟩
  intro M hM v
  rw [find_insert_share hfree, if_neg]
  simp [Share.key, hM.symm]

theorem only_list_set_role (db : DB) (L k : UUID) (role : String) :
    OnlyList L db (Change.apply (.set_role L k role) db) := by
  refine ⟨fun _ _ => rfl, fun _ _ _ => rfl, ?_⟩
  intro M hM v
  rw [find_set_role, if_neg]
  simp [hM]

theorem only_list_delete_share (db : DB) (L k : UUID) :
    OnlyList L db (Change.apply (.delete_share L k) db) := by
  refine ⟨fun _ _ => rfl, fun _ _ _ => rfl, ?_⟩
  intro M hM v
  rw [find_delete_share, if_neg]
  simp [hM]

theorem only_list_insert_list {db : DB} {l : ListRow} (hfree : db.lists.find l.id = none) :
    OnlyList l.id db (Change.apply (.insert_list l) db) := by
  refine ⟨?_, fun _ _ _ => rfl, fun _ _ _ => rfl⟩
  intro M hM
  simp only [Change.apply]
  rw [Table.find_insert_of_free hfree, if_neg hM.symm]

theorem only_list_set_list_name {db : DB} (L : UUID) (name : String) (now : Time) :
    OnlyList L db (Change.apply (.set_list_name L name now) db) := by
  refine ⟨?_, fun _ _ _ => rfl, fun _ _ _ => rfl⟩
  intro M hM
  simp only [Change.apply]
  rw [Table.find_update, if_neg hM]

theorem only_list_without_list (db : DB) (L : UUID) : OnlyList L db (db.without_list L) := by
  refine ⟨?_, ?_, ?_⟩
  · intro M hM
    simp only [DB.without_list]
    rw [Table.find_deleteWhere]
    cases hf : db.lists.find M with
    | none => rfl
    | some l =>
      have hl := Table.key_of_find hf
      exact Option.filter_some_pos (by simpa [hl] using hM)
  · intro M hM i
    unfold item_of
    simp only [DB.without_list]
    rw [Table.find_deleteWhere]
    cases hf : db.items.find i with
    | none => rfl
    | some x =>
      by_cases hx : x.list_id = L
      · rw [Option.filter_some_neg (by simpa using hx), Option.filter_none,
          Option.filter_some_neg (by simpa [hx] using hM.symm)]
      · rw [Option.filter_some_pos (by simpa using hx)]
  · intro M hM v
    simp only [DB.without_list]
    rw [Table.find_deleteWhere]
    cases hf : db.shares.find (M, v) with
    | none => rfl
    | some x =>
      have hx := Table.key_of_find hf
      simp only [Share.key, Prod.mk.injEq] at hx
      exact Option.filter_some_pos (by simpa [hx.1] using hM)

/-! ## What a request does with the lists, in four cases -/

variable (env : Env)

/-- The session of the request names the user. -/
def SignedIn (s : Step) (w : World) (u : User) : Prop :=
  ∃ t, s.request.session = some t ∧
    ((get_session_user env t).run ⟨s.draws.now, w.db, [], w.store⟩).1 = .ok (some u)

theorem signed_in_of_session_user {s : Step} {w : World} {u : User}
    (h : session_user env s.request.session (s.draws.now 0) w.db = .ok u) :
    SignedIn env s w u := by
  cases ht : s.request.session with
  | none => rw [ht] at h; cases h
  | some t =>
    rw [ht] at h
    unfold session_user at h
    refine ⟨t, ht, ?_⟩
    unfold get_session_user
    simp only [Prog.run_then, run_utc_now, run_execute, run_scalar_one_or_none, Prog.Solo.view,
      Prog.applyAll_nil]
    dsimp only at h
    rcases hs : session_users env t (s.draws.now 0) w.db with _ | ⟨a, _ | ⟨b, rest⟩⟩ <;>
      rw [hs] at h <;> cases h
    rfl

/-- A request on list `L` by a user who holds `role` there. -/
structure ActedOn (s : Step) (w : World) (r : Response) (w' : World) (L : UUID) (u : User)
    (role : Role) : Prop where
  path : s.call.list_id = some L
  signed_in : SignedIn env s w u
  held : RoleHeld w.db L u.id role
  only_list : OnlyList L w.db w'.db
  list_by_owner : w'.db.lists ≠ w.db.lists → role = .owner
  shares_by_owner : w'.db.shares ≠ w.db.shares → role = .owner
  items_by_editor : w'.db.items ≠ w.db.items → role = .owner ∨ role = .editor
  owner_kept : owner_of w'.db L = owner_of w.db L ∨ owner_of w'.db L = none
  shows_list : ∀ l ∈ list_outs r.body, l.id = L
  shows_items : ∀ i ∈ item_outs r.body, i.list_id = L
  shows_shares : ∀ x ∈ share_outs r.body, x.list_id = L ∧ role = .owner

inductive Deed (s : Step) (w : World) (r : Response) (w' : World) : Prop where
  /-- The lists stay as they are, and the response shows none. -/
  | nothing (same : SameLists w.db w'.db) (shows : ShowsNothing r)
  | created (u : User) (l : ListRow) (signed_in : SignedIn env s w u) (owner : l.owner_id = u.id)
      (call : ∃ body, s.call = .create_list body) (free : w.db.lists.find l.id = none)
      (db : w'.db = Change.apply (.insert_list l) w.db) (body : r.body = .list (.of l))
  | dashboard (u : User) (signed_in : SignedIn env s w u) (same : w' = w)
      (rows : ∀ l ∈ list_outs r.body,
        IsOwner w.db l.id u.id ∨ ∃ role, HasShare w.db l.id u.id role)
      (no_items : item_outs r.body = []) (no_shares : share_outs r.body = [])
  | acted (L : UUID) (u : User) (role : Role) (acted : ActedOn env s w r w' L u role)

section
variable {s : Step} {w : World}

theorem deed_error (e : Exn) : Deed env s w e.response w :=
  .nothing (.refl _) (exn_shows_nothing e)

theorem deed_proceed {α : Type} {r : Except Exn α} {k : α → Response × World}
    (h : ∀ a, r = .ok a → Deed env s w (k a).1 (k a).2) :
    Deed env s w (proceed r w k).1 (proceed r w k).2 := by
  cases r with
  | ok a => exact h a rfl
  | error e => exact deed_error env e

/-- A statement that fails leaves the lists of `w₁`, which are those of `w`. -/
theorem deed_attempt {st : Statement} {w₁ : World} {k : World → Response × World}
    (hsame : SameLists w.db w₁.db)
    (h : ∀ cs, st w₁.db = .ok cs → Deed env s w (k (w₁.commit cs)).1 (k (w₁.commit cs)).2) :
    Deed env s w (attempt st w₁ k).1 (attempt st w₁ k).2 := by
  cases hs : st w₁.db with
  | ok cs => rw [attempt_ok hs]; exact h cs hs
  | error e => rw [attempt_error hs]; exact .nothing hsame (exn_shows_nothing _)

/-- The gate of a handler, and then what the handler does for the user who passed. -/
theorem deed_gate {action : Action} {L : UUID} {k : ListPermission → Response × World}
    (h : ∀ u role, SignedIn env s w u → action ∈ ALLOWED role → RoleHeld w.db L u.id role →
      Deed env s w (k ⟨L, u.id, role⟩).1 (k ⟨L, u.id, role⟩).2) :
    Deed env s w
      (proceed (gate env action L s.request.session (s.draws.now 0) w.db) w k).1
      (proceed (gate env action L s.request.session (s.draws.now 0) w.db) w k).2 := by
  apply deed_proceed
  intro perm hperm
  obtain ⟨u, role, hu, rfl, ha, hr⟩ := gate_ok env hperm
  exact h u role (signed_in_of_session_user env hu) ha hr

/-! ## The handlers -/

theorem deed_create_list (body : ListCreate) (hcall : s.call = .create_list body) :
    Deed env s w (perform (create_list env body s.request s.draws) s.draws.now w).1
      (perform (create_list env body s.request s.draws) s.draws.now w).2 := by
  rw [create_list_effect]
  apply deed_proceed
  intro u hu
  apply deed_attempt env (.refl _)
  intro cs hcs
  obtain ⟨rfl, hfree, -⟩ := insert_list_ok hcs
  exact .created u (new_list u.id body s.draws) (signed_in_of_session_user env hu) rfl ⟨body, hcall⟩
    hfree rfl rfl

theorem mem_without_repeats {seen : List UUID} {rows : List ListRow} {l : ListRow}
    (h : l ∈ without_repeats seen rows) : l ∈ rows := by
  induction rows generalizing seen with
  | nil => exact h
  | cons x rest ih =>
    unfold without_repeats at h
    split at h
    · exact List.mem_cons_of_mem _ (ih h)
    · rcases List.mem_cons.mp h with rfl | h
      · exact List.mem_cons_self
      · exact List.mem_cons_of_mem _ (ih h)

theorem mem_scanned {ρ : Type} (order : UUID → Nat) (id : ρ → UUID) (rows : List ρ) (x : ρ) :
    x ∈ scanned order id rows ↔ x ∈ rows := List.mem_insertionSort _

theorem mem_shared_with {u : UUID} {db : DB} {l : ListRow} :
    l ∈ shared_with u db ↔ db.lists.find l.id = some l ∧ ∃ role, HasShare db l.id u role := by
  unfold shared_with HasShare share_role_of
  simp only [List.mem_flatMap, List.mem_map, Table.mem_select, decide_eq_true_eq,
    Option.map_eq_some_iff]
  constructor
  · rintro ⟨m, hm, x, ⟨hx, hxl, hxu⟩, rfl⟩
    refine ⟨Table.find_of_mem hm, x.role, x, ?_, rfl⟩
    rw [Table.find_eq_some_iff]
    exact ⟨hx, by simp [Share.key, hxl, hxu]⟩
  · rintro ⟨hl, role, x, hx, -⟩
    obtain ⟨hx1, hx2⟩ := (Table.find_eq_some_iff _ _ _).mp hx
    simp only [Share.key, Prod.mk.injEq] at hx2
    exact ⟨l, Table.mem_of_find hl, x, ⟨hx1, hx2.1, hx2.2⟩, rfl⟩

theorem deed_list_lists :
    Deed env s w (perform (list_lists env s.request s.draws) s.draws.now w).1
      (perform (list_lists env s.request s.draws) s.draws.now w).2 := by
  rw [list_lists_effect]
  apply deed_proceed
  intro u hu
  refine .dashboard u (signed_in_of_session_user env hu) rfl ?_ rfl rfl
  intro out hout
  simp only [json, list_outs, List.mem_map] at hout
  obtain ⟨l, hl, rfl⟩ := hout
  rcases List.mem_append.mp (mem_without_repeats hl) with h | h
  · rw [mem_scanned, Table.mem_select, decide_eq_true_eq] at h
    refine Or.inl ?_
    unfold IsOwner owner_of
    rw [ListOut.of, Table.find_of_mem h.1, Option.map_some, h.2]
  · rw [mem_scanned] at h
    exact Or.inr (mem_shared_with.mp h).2

/-- A request that reads, and shows only list `L`. -/
theorem acted_read {L : UUID} {u : User} {role : Role} {r : Response}
    (hpath : s.call.list_id = some L) (hu : SignedIn env s w u) (hr : RoleHeld w.db L u.id role)
    (hl : ∀ l ∈ list_outs r.body, l.id = L) (hi : ∀ i ∈ item_outs r.body, i.list_id = L)
    (hx : ∀ x ∈ share_outs r.body, x.list_id = L ∧ role = .owner) : Deed env s w r w :=
  .acted L u role
    { path := hpath, signed_in := hu, held := hr, only_list := .refl _ _
      list_by_owner := fun h => absurd rfl h
      shares_by_owner := fun h => absurd rfl h
      items_by_editor := fun h => absurd rfl h
      owner_kept := Or.inl rfl
      shows_list := hl, shows_items := hi, shows_shares := hx }

theorem deed_get_list (L : UUID) (hcall : s.call = .get_list L) :
    Deed env s w (perform (get_list env L s.request) s.draws.now w).1
      (perform (get_list env L s.request) s.draws.now w).2 := by
  rw [get_list_effect]
  have hpath : s.call.list_id = some L := by rw [hcall]; rfl
  apply deed_gate
  intro u role hu ha hr
  dsimp only
  cases hf : w.db.lists.find L with
  | none => exact deed_error env not_found_error
  | some l =>
    have hid : l.id = L := Table.key_of_find hf
    apply acted_read env hpath hu hr
    · intro out hout
      simp only [json, list_outs, List.mem_singleton] at hout
      rw [hout]
      exact hid
    · intro i hi; cases hi
    · intro x hx; cases hx

theorem deed_list_items (L : UUID) (hcall : s.call = .list_items L) :
    Deed env s w (perform (list_items env L s.request s.draws) s.draws.now w).1
      (perform (list_items env L s.request s.draws) s.draws.now w).2 := by
  rw [list_items_effect]
  have hpath : s.call.list_id = some L := by rw [hcall]; rfl
  apply deed_gate
  intro u role hu ha hr
  apply acted_read env hpath hu hr
  · intro out hout; cases hout
  · intro out hout
    simp only [json, item_outs, List.mem_map, ordered_items, List.mem_insertionSort, mem_scanned,
      Table.mem_select, decide_eq_true_eq] at hout
    obtain ⟨i, ⟨-, hi⟩, rfl⟩ := hout
    exact hi
  · intro x hx; cases hx

theorem deed_list_shares (L : UUID) (hcall : s.call = .list_shares L) :
    Deed env s w (perform (list_shares env L s.request s.draws) s.draws.now w).1
      (perform (list_shares env L s.request s.draws) s.draws.now w).2 := by
  rw [list_shares_effect]
  have hpath : s.call.list_id = some L := by rw [hcall]; rfl
  apply deed_gate
  intro u role hu ha hr
  apply acted_read env hpath hu hr
  · intro out hout; cases hout
  · intro i hi; cases hi
  · intro out hout
    simp only [json, share_outs, List.mem_map, mem_scanned, Table.mem_select,
      decide_eq_true_eq] at hout
    obtain ⟨x, ⟨-, hx⟩, rfl⟩ := hout
    exact ⟨hx, role_of_owner_only rfl ha⟩

/-- A request of the owner that changes only list `L`. -/
theorem acted_owner {L : UUID} {u : User} {role : Role} {r : Response} {w' : World}
    (hpath : s.call.list_id = some L) (hu : SignedIn env s w u) (hr : RoleHeld w.db L u.id role)
    (hrole : role = .owner) (honly : OnlyList L w.db w'.db)
    (hkept : owner_of w'.db L = owner_of w.db L ∨ owner_of w'.db L = none)
    (hl : ∀ l ∈ list_outs r.body, l.id = L) (hi : ∀ i ∈ item_outs r.body, i.list_id = L)
    (hx : ∀ x ∈ share_outs r.body, x.list_id = L) : Deed env s w r w' :=
  .acted L u role
    { path := hpath, signed_in := hu, held := hr, only_list := honly
      list_by_owner := fun _ => hrole
      shares_by_owner := fun _ => hrole
      items_by_editor := fun _ => Or.inl hrole
      owner_kept := hkept
      shows_list := hl, shows_items := hi, shows_shares := fun x h => ⟨hx x h, hrole⟩ }

theorem owner_of_set_list_name (db : DB) (L M : UUID) (name : String) (now : Time) :
    owner_of (Change.apply (.set_list_name L name now) db) M = owner_of db M := by
  unfold owner_of
  simp only [Change.apply]
  rw [Table.find_update]
  by_cases h : M = L
  · subst h
    rw [if_pos rfl, Option.map_map]
    rfl
  · rw [if_neg h]

theorem deed_rename_list (L : UUID) (body : ListUpdate) (hcall : s.call = .rename_list L body) :
    Deed env s w (perform (rename_list env L body s.request s.draws) s.draws.now w).1
      (perform (rename_list env L body s.request s.draws) s.draws.now w).2 := by
  rw [rename_list_effect]
  have hpath : s.call.list_id = some L := by rw [hcall]; rfl
  apply deed_gate
  intro u role hu ha hr
  have hrole := role_of_owner_only rfl ha
  dsimp only
  cases hf : w.db.lists.find L with
  | none => exact deed_error env not_found_error
  | some l =>
    have hid := Table.key_of_find hf
    apply deed_attempt env (.refl _)
    intro cs hcs
    have hdb : OnlyList L w.db (w.commit cs).db ∧
        owner_of (w.commit cs).db L = owner_of w.db L := by
      rcases rename_statement_ok hcs with rfl | rfl
      · exact ⟨.refl _ _, rfl⟩
      · rw [hid]
        exact ⟨only_list_set_list_name _ _ _, owner_of_set_list_name _ _ _ _ _⟩
    rw [hid]
    cases hf' : (w.commit cs).db.lists.find L with
    | none =>
      apply acted_owner env hpath hu hr hrole hdb.1 (Or.inl hdb.2)
      · intro l hl; cases hl
      · intro i hi; cases hi
      · intro x hx; cases hx
    | some l' =>
      have hid' : l'.id = L := Table.key_of_find hf'
      apply acted_owner env hpath hu hr hrole hdb.1 (Or.inl hdb.2)
      · intro out hout
        simp only [read_back, proceed_ok, json, list_outs, List.mem_singleton] at hout
        rw [hout]
        exact hid'
      · intro i hi; cases hi
      · intro x hx; cases hx

theorem deed_delete_list (L : UUID) (hcall : s.call = .delete_list L) :
    Deed env s w (perform (delete_list env L s.request) s.draws.now w).1
      (perform (delete_list env L s.request) s.draws.now w).2 := by
  rw [delete_list_effect]
  have hpath : s.call.list_id = some L := by rw [hcall]; rfl
  apply deed_gate
  intro u role hu ha hr
  dsimp only
  cases hf : w.db.lists.find L with
  | none => exact deed_error env not_found_error
  | some l =>
    dsimp only
    rw [Table.key_of_find hf]
    apply acted_owner env hpath hu hr (role_of_owner_only rfl ha)
      (only_list_without_list w.db L)
    · refine Or.inr ?_
      unfold owner_of DB.without_list
      dsimp only
      rw [Table.find_deleteWhere, hf, Option.filter_some_neg (by simp [Table.key_of_find hf])]
      rfl
    · intro l hl; cases hl
    · intro i hi; cases hi
    · intro x hx; cases hx

/-- A request of the owner or an editor that changes only items of list `L`. -/
theorem acted_editor {L : UUID} {u : User} {role : Role} {r : Response} {w' : World}
    (hpath : s.call.list_id = some L) (hu : SignedIn env s w u) (hr : RoleHeld w.db L u.id role)
    (hrole : role = .owner ∨ role = .editor) (honly : OnlyList L w.db w'.db)
    (hlists : w'.db.lists = w.db.lists) (hshares : w'.db.shares = w.db.shares)
    (hl : list_outs r.body = []) (hi : ∀ i ∈ item_outs r.body, i.list_id = L)
    (hx : share_outs r.body = []) : Deed env s w r w' :=
  .acted L u role
    { path := hpath, signed_in := hu, held := hr, only_list := honly
      list_by_owner := fun h => absurd hlists h
      shares_by_owner := fun h => absurd hshares h
      items_by_editor := fun _ => hrole
      owner_kept := Or.inl (by unfold owner_of; rw [hlists])
      shows_list := by rw [hl]; intro l hl'; cases hl'
      shows_items := hi
      shows_shares := by rw [hx]; intro x hx'; cases hx' }

theorem deed_create_item (L : UUID) (body : ItemCreate) (hcall : s.call = .create_item L body) :
    Deed env s w (perform (create_item env L body s.request s.draws) s.draws.now w).1
      (perform (create_item env L body s.request s.draws) s.draws.now w).2 := by
  rw [create_item_effect]
  have hpath : s.call.list_id = some L := by rw [hcall]; rfl
  apply deed_gate
  intro u role hu ha hr
  apply deed_attempt env (.refl _)
  intro cs hcs
  obtain ⟨rfl, hfree, -⟩ := insert_item_ok hcs
  have honly : OnlyList L w.db (w.commit [.insert_item (new_item L body s.draws)]).db :=
    only_list_insert_item (i := new_item L body s.draws) hfree
  apply acted_editor env hpath hu hr (role_of_writes_items rfl ha) honly rfl rfl rfl _ rfl
  intro i hi
  simp only [json, item_outs, List.mem_singleton] at hi
  rw [hi]
  rfl

theorem deed_update_item (L item_id : UUID) (body : ItemUpdate)
    (hcall : s.call = .update_item L item_id body) :
    Deed env s w (perform (update_item env L item_id body s.request s.draws) s.draws.now w).1
      (perform (update_item env L item_id body s.request s.draws) s.draws.now w).2 := by
  rw [update_item_effect]
  have hpath : s.call.list_id = some L := by rw [hcall]; rfl
  apply deed_gate
  intro u role hu ha hr
  have hrole := role_of_writes_items rfl ha
  dsimp only
  cases hf : w.db.items.find item_id with
  | none => exact deed_error env not_found_error
  | some item =>
    dsimp only
    split
    · exact deed_error env not_found_error
    · rename_i hlist
      have hL : item.list_id = L := by simpa using hlist
      have hid : item.id = item_id := Table.key_of_find hf
      apply deed_attempt env (.refl _)
      intro cs hcs
      -- An item of the list stays an item of the list.
      have hdb : OnlyList L w.db (w.commit cs).db ∧
          (w.commit cs).db.lists = w.db.lists ∧ (w.commit cs).db.shares = w.db.shares ∧
          ∀ x, (w.commit cs).db.items.find item.id = some x → x.list_id = L := by
        rcases update_item_row_ok hcs with ⟨rfl, -⟩ | ⟨rfl, -⟩
        · refine ⟨.refl _ _, rfl, rfl, ?_⟩
          intro x hx
          have hx' : w.db.items.find item.id = some x := hx
          rw [hid, hf] at hx'
          cases hx'
          exact hL
        · have hfi : w.db.items.find item.id = some item := by rw [hid, hf]
          refine ⟨hL ▸ only_list_patch_item hfi _ _, rfl, rfl, ?_⟩
          intro x hx
          simp only [World.commit, Prog.applyAll_cons, Prog.applyAll_nil, apply_eq,
            Change.apply] at hx
          rw [Table.find_update, if_pos rfl, hfi, Option.map_some] at hx
          cases hx
          exact hL
      obtain ⟨honly, hlists, hshares, hitem⟩ := hdb
      cases hf' : (w.commit cs).db.items.find item.id with
      | none =>
        apply acted_editor env hpath hu hr hrole honly hlists hshares rfl _ rfl
        intro i hi; cases hi
      | some x =>
        apply acted_editor env hpath hu hr hrole honly hlists hshares rfl _ rfl
        intro i hi
        simp only [read_back, proceed_ok, json, item_outs, List.mem_singleton] at hi
        rw [hi]
        exact hitem x hf'

theorem deed_delete_item (L item_id : UUID) (hcall : s.call = .delete_item L item_id) :
    Deed env s w (perform (delete_item env L item_id s.request) s.draws.now w).1
      (perform (delete_item env L item_id s.request) s.draws.now w).2 := by
  rw [delete_item_effect]
  have hpath : s.call.list_id = some L := by rw [hcall]; rfl
  apply deed_gate
  intro u role hu ha hr
  dsimp only
  cases hf : w.db.items.find item_id with
  | none => exact deed_error env not_found_error
  | some item =>
    dsimp only
    split
    · exact deed_error env not_found_error
    · rename_i hlist
      have hL : item.list_id = L := by simpa using hlist
      have hfi : w.db.items.find item.id = some item := by
        have hid : item.id = item_id := Table.key_of_find hf
        rw [hid, hf]
      have honly : OnlyList L w.db (w.commit [.delete_item item.id]).db :=
        hL ▸ only_list_delete_item hfi
      apply acted_editor env hpath hu hr (role_of_writes_items rfl ha) honly rfl rfl rfl _ rfl
      intro i hi; cases hi

/-- A request of the owner that changes only shares of list `L`. -/
theorem acted_sharing {L : UUID} {u : User} {role : Role} {r : Response} {w' : World}
    (hpath : s.call.list_id = some L) (hu : SignedIn env s w u) (hr : RoleHeld w.db L u.id role)
    (hrole : role = .owner) (honly : OnlyList L w.db w'.db)
    (howner : owner_of w'.db L = owner_of w.db L)
    (hl : list_outs r.body = []) (hi : item_outs r.body = [])
    (hx : ∀ x ∈ share_outs r.body, x.list_id = L) : Deed env s w r w' := by
  refine acted_owner env hpath hu hr hrole honly (Or.inl howner) ?_ ?_ hx
  · rw [hl]; intro l hl'; cases hl'
  · rw [hi]; intro i hi'; cases hi'

theorem response_of_share_error (e : DbError) : ShowsNothing (share_error e).response := by
  cases e <;> exact ⟨rfl, rfl, rfl⟩

theorem deed_create_share (L : UUID) (body : ShareCreate) (hcall : s.call = .create_share L body) :
    Deed env s w (perform (create_share env L body s.request s.draws) s.draws.now w).1
      (perform (create_share env L body s.request s.draws) s.draws.now w).2 := by
  rw [create_share_effect]
  have hpath : s.call.list_id = some L := by rw [hcall]; rfl
  apply deed_gate
  intro u role hu ha hr
  dsimp only
  split
  · exact .nothing (.refl _) ⟨rfl, rfl, rfl⟩
  cases w.db.users.find body.user_id with
  | none => exact deed_error env not_found_error
  | some target =>
    cases w.db.shares.find (L, body.user_id) with
    | some x => exact .nothing (.refl _) ⟨rfl, rfl, rfl⟩
    | none =>
      dsimp only
      cases hcs : insert_share (new_share L body s.draws) w.db with
      | error e => exact .nothing (.refl _) (response_of_share_error e)
      | ok cs =>
        obtain ⟨rfl, -, hfree, -⟩ := insert_share_ok hcs
        have honly : OnlyList L w.db (w.commit [.insert_share (new_share L body s.draws)]).db :=
          only_list_insert_share hfree
        apply acted_sharing env hpath hu hr (role_of_owner_only rfl ha) honly rfl rfl rfl
        intro x hx
        simp only [json, share_outs, List.mem_singleton] at hx
        rw [hx]
        rfl

theorem deed_change_role (L target : UUID) (body : ShareUpdate)
    (hcall : s.call = .change_role L target body) :
    Deed env s w (perform (change_role env L target body s.request) s.draws.now w).1
      (perform (change_role env L target body s.request) s.draws.now w).2 := by
  rw [change_role_effect]
  have hpath : s.call.list_id = some L := by rw [hcall]; rfl
  apply deed_gate
  intro u role hu ha hr
  have hrole := role_of_owner_only rfl ha
  dsimp only
  cases hf : w.db.shares.find (L, target) with
  | none => exact deed_error env not_found_error
  | some share =>
    have hkey : share.key = (L, target) := Table.key_of_find hf
    have hL : share.list_id = L := (Prod.mk.inj hkey).1
    apply deed_attempt env (.refl _)
    intro cs hcs
    obtain ⟨honly, howner⟩ : OnlyList L w.db (w.commit cs).db ∧
        owner_of (w.commit cs).db L = owner_of w.db L := by
      rcases role_statement_ok hcs with rfl | ⟨rfl, -⟩
      · exact ⟨.refl _ _, rfl⟩
      · exact ⟨hL ▸ only_list_set_role _ _ _ _, rfl⟩
    cases hf' : (w.commit cs).db.shares.find share.key with
    | none =>
      apply acted_sharing env hpath hu hr hrole honly howner rfl rfl
      intro x hx; cases hx
    | some y =>
      apply acted_sharing env hpath hu hr hrole honly howner rfl rfl
      intro x hx
      simp only [read_back, proceed_ok, json, share_outs, List.mem_singleton] at hx
      rw [hx]
      have hy : y.key = share.key := Table.key_of_find hf'
      rw [hkey] at hy
      exact (Prod.mk.inj hy).1

theorem deed_revoke_share (L target : UUID) (hcall : s.call = .revoke_share L target) :
    Deed env s w (perform (revoke_share env L target s.request) s.draws.now w).1
      (perform (revoke_share env L target s.request) s.draws.now w).2 := by
  rw [revoke_share_effect]
  have hpath : s.call.list_id = some L := by rw [hcall]; rfl
  apply deed_gate
  intro u role hu ha hr
  dsimp only
  cases hf : w.db.shares.find (L, target) with
  | none => exact deed_error env not_found_error
  | some share =>
    have hkey : share.key = (L, target) := Table.key_of_find hf
    have hL : share.list_id = L := (Prod.mk.inj hkey).1
    have honly : OnlyList L w.db (w.commit [.delete_share share.list_id share.user_id]).db :=
      hL ▸ only_list_delete_share _ _ _
    apply acted_sharing env hpath hu hr (role_of_owner_only rfl ha) honly rfl rfl rfl
    intro x hx; cases hx

/-! ## The requests of the account -/

theorem deed_session_insert {w₁ : World} {session : Session} {r : Response}
    (hsame : SameLists w.db w₁.db) (hr : ShowsNothing r) :
    Deed env s w (attempt (insert_session session) w₁ fun w' => (r, w')).1
      (attempt (insert_session session) w₁ fun w' => (r, w')).2 := by
  apply deed_attempt env hsame
  intro cs hcs
  obtain ⟨rfl, -⟩ := insert_session_ok hcs
  exact .nothing (hsame.trans ⟨rfl, rfl, rfl⟩) hr

theorem deed_register (body : RegisterRequest) :
    Deed env s w (perform (register env body s.draws) s.draws.now w).1
      (perform (register env body s.draws) s.draws.now w).2 := by
  rw [register_effect]
  apply deed_proceed
  intro existing _
  cases existing with
  | some u => exact .nothing (.refl _) ⟨rfl, rfl, rfl⟩
  | none =>
    dsimp only
    rw [register_new_effect]
    apply deed_attempt env (.refl _)
    intro cs hcs
    obtain ⟨rfl, -⟩ := insert_user_ok hcs
    exact deed_session_insert env ⟨rfl, rfl, rfl⟩ ⟨rfl, rfl, rfl⟩

theorem deed_login_rejected (c : Nat → Time) :
    Deed env s w (perform (login_rejected env s.request) c w).1
      (perform (login_rejected env s.request) c w).2 :=
  .nothing ⟨rfl, rfl, rfl⟩ ⟨rfl, rfl, rfl⟩

theorem deed_login (body : LoginRequest) :
    Deed env s w (perform (login env body s.request s.draws) s.draws.now w).1
      (perform (login env body s.request s.draws) s.draws.now w).2 := by
  rw [login_effect]
  split
  · exact deed_error env (too_many_attempts env)
  apply deed_proceed
  intro user _
  rw [login_found_effect]
  split
  · split
    · rw [login_accepted_effect]
      exact deed_session_insert env ⟨rfl, rfl, rfl⟩ ⟨rfl, rfl, rfl⟩
    · exact deed_login_rejected env _
    · exact deed_error env .library
  · split
    · exact deed_error env .library
    · exact deed_login_rejected env _

theorem deed_logout :
    Deed env s w (perform (logout env s.request) s.draws.now w).1
      (perform (logout env s.request) s.draws.now w).2 := by
  rw [logout_effect]
  split
  · exact .nothing (.refl _) ⟨rfl, rfl, rfl⟩
  · split
    · exact .nothing (.refl _) ⟨rfl, rfl, rfl⟩
    · exact .nothing ⟨rfl, rfl, rfl⟩ ⟨rfl, rfl, rfl⟩

theorem deed_session_info :
    Deed env s w (perform (get_session_info env s.request) s.draws.now w).1
      (perform (get_session_info env s.request) s.draws.now w).2 := by
  rw [get_session_info_effect]
  apply deed_proceed
  intro u _
  exact .nothing (.refl _) ⟨rfl, rfl, rfl⟩

theorem deed_password_reset_request (body : PasswordResetRequestBody) :
    Deed env s w (perform (password_reset_request env body s.draws) s.draws.now w).1
      (perform (password_reset_request env body s.draws) s.draws.now w).2 := by
  rw [password_reset_request_effect]
  apply deed_proceed
  intro user _
  split
  · apply deed_attempt env (.refl _)
    intro cs hcs
    obtain ⟨rfl, -⟩ := insert_reset_token_ok hcs
    exact .nothing ⟨rfl, rfl, rfl⟩ ⟨rfl, rfl, rfl⟩
  · exact .nothing (.refl _) ⟨rfl, rfl, rfl⟩

theorem deed_password_reset_validate (token : String) :
    Deed env s w (perform (password_reset_validate env token) s.draws.now w).1
      (perform (password_reset_validate env token) s.draws.now w).2 := by
  rw [password_reset_validate_effect]
  apply deed_proceed
  intro prt _
  cases prt <;> exact .nothing (.refl _) ⟨rfl, rfl, rfl⟩

theorem deed_password_reset_complete (body : PasswordResetCompleteBody) :
    Deed env s w (perform (password_reset_complete env body s.draws) s.draws.now w).1
      (perform (password_reset_complete env body s.draws) s.draws.now w).2 := by
  rw [password_reset_complete_effect]
  apply deed_proceed
  intro prt _
  cases prt with
  | none => exact .nothing (.refl _) ⟨rfl, rfl, rfl⟩
  | some prt =>
    dsimp only
    rw [password_reset_found_effect]
    split
    · exact deed_error env .no_result_found
    · rw [password_reset_write_effect]
      split
      · rename_i e _
        exact deed_error env (.db e)
      · rename_i cs hcs
        obtain ⟨rfl, -⟩ := reset_statement_ok hcs
        exact .nothing ⟨rfl, rfl, rfl⟩ ⟨rfl, rfl, rfl⟩

theorem deed_open_session {w₁ : World} (hsame : SameLists w.db w₁.db) (user_id : UUID) (d : Draws)
    (c : Nat → Time) :
    Deed env s w (perform (open_session env user_id d) c w₁).1
      (perform (open_session env user_id d) c w₁).2 := by
  rw [open_session_effect]
  exact deed_session_insert env hsame ⟨rfl, rfl, rfl⟩

theorem check_callback_shows_nothing {query : CallbackQuery} {request : Request} {d : Draws}
    {r : Response} (h : check_callback env query request d = .answered r) : ShowsNothing r := by
  have hc := check_callback_answered h
  rcases hc with rfl | rfl <;> exact ⟨rfl, rfl, rfl⟩

theorem deed_oauth_google_callback (query : CallbackQuery) :
    Deed env s w (perform (oauth_google_callback env query s.request s.draws) s.draws.now w).1
      (perform (oauth_google_callback env query s.request s.draws) s.draws.now w).2 := by
  rw [oauth_google_callback_effect]
  cases hc : check_callback env query s.request s.draws with
  | raised e => exact deed_error env e
  | answered r => exact .nothing (.refl _) (check_callback_shows_nothing env hc)
  | passed who =>
    dsimp only
    rw [sign_in_effect]
    apply deed_proceed
    intro user _
    cases user with
    | none =>
      dsimp only
      rw [create_google_user_effect]
      apply deed_attempt env (.refl _)
      intro cs hcs
      obtain ⟨rfl, -⟩ := insert_user_ok hcs
      have hsame : SameLists w.db (w.commit [.insert_user (google_user who s.draws)]).db :=
        ⟨rfl, rfl, rfl⟩
      exact deed_open_session env hsame _ _ _
    | some user =>
      dsimp only
      split
      · rw [link_google_user_effect]
        apply deed_attempt env (.refl _)
        intro cs hcs
        obtain ⟨rfl, -⟩ := update_google_sub_ok hcs
        have hsame : SameLists w.db (w.commit [.set_google_sub user.id who.google_sub]).db :=
          ⟨rfl, rfl, rfl⟩
        exact deed_open_session env hsame _ _ _
      · exact deed_open_session env (.refl _) _ _ _

end

/-- What every request does with the lists. -/
theorem deed_of_step (s : Step) (w : World) :
    Deed env s w (s.handle env w).1 (s.handle env w).2 := by
  rcases handle_cases env s w with ⟨r, h, rfl | ⟨text, rfl⟩⟩ | h
  · rw [h]
    exact deed_error env .type_error
  · rw [h]
    exact .nothing (.refl _) ⟨rfl, rfl, rfl⟩
  rw [h]
  cases hc : s.call with
  | register body => exact deed_register env body
  | login body => exact deed_login env body
  | logout => exact deed_logout env
  | session_info => exact deed_session_info env
  | password_reset_request body => exact deed_password_reset_request env body
  | password_reset_validate token => exact deed_password_reset_validate env token
  | password_reset_complete body => exact deed_password_reset_complete env body
  | oauth_google_initiate => exact .nothing (.refl _) ⟨rfl, rfl, rfl⟩
  | oauth_google_callback query => exact deed_oauth_google_callback env query
  | create_list body => exact deed_create_list env body hc
  | list_lists => exact deed_list_lists env
  | get_list L => exact deed_get_list env L hc
  | rename_list L body => exact deed_rename_list env L body hc
  | delete_list L => exact deed_delete_list env L hc
  | create_item L body => exact deed_create_item env L body hc
  | list_items L => exact deed_list_items env L hc
  | update_item L i body => exact deed_update_item env L i body hc
  | delete_item L i => exact deed_delete_item env L i hc
  | create_share L body => exact deed_create_share env L body hc
  | list_shares L => exact deed_list_shares env L hc
  | change_role L v body => exact deed_change_role env L v body hc
  | revoke_share L v => exact deed_revoke_share env L v hc

/-! ## The law -/

/-- The user may see list `L`. -/
def MaySee (db : DB) (L user_id : UUID) : Prop :=
  IsOwner db L user_id ∨ ∃ role, HasShare db L user_id role

/-- What one request may do: `r` is its response, and it takes `w` to `w'`. -/
structure Authorized (s : Step) (w : World) (r : Response) (w' : World) : Prop where
  /-- A row changes by the hand of its owner, and a new row belongs to its user. -/
  list_row : ∀ L, w'.db.lists.find L ≠ w.db.lists.find L → ∃ u, SignedIn env s w u ∧
    (IsOwner w.db L u.id ∨ w.db.lists.find L = none ∧ IsOwner w'.db L u.id)
  share_row : ∀ L v, w'.db.shares.find (L, v) ≠ w.db.shares.find (L, v) →
    ∃ u, SignedIn env s w u ∧ IsOwner w.db L u.id
  item_row : ∀ L i, item_of w'.db L i ≠ item_of w.db L i → ∃ u, SignedIn env s w u ∧
    (IsOwner w.db L u.id ∨ HasShare w.db L u.id "editor")
  shows_list : ∀ l ∈ list_outs r.body, ∃ u, SignedIn env s w u ∧
    (MaySee w.db l.id u.id ∨ w.db.lists.find l.id = none ∧ IsOwner w'.db l.id u.id)
  shows_items : ∀ i ∈ item_outs r.body, ∃ u, SignedIn env s w u ∧ MaySee w.db i.list_id u.id
  shows_shares : ∀ x ∈ share_outs r.body, ∃ u, SignedIn env s w u ∧ IsOwner w.db x.list_id u.id
  /-- The lists that the path does not name. -/
  others : ∀ L, s.call.list_id ≠ some L →
    (w'.db.lists.find L = w.db.lists.find L ∨
      (∃ body, s.call = .create_list body) ∧ w.db.lists.find L = none) ∧
    (∀ i, item_of w'.db L i = item_of w.db L i) ∧
    ∀ v, w'.db.shares.find (L, v) = w.db.shares.find (L, v)
  owner_kept : ∀ L o, IsOwner w.db L o → IsOwner w'.db L o ∨ w'.db.lists.find L = none

section
variable {env : Env} {s : Step} {w : World} {r : Response} {w' : World}

theorem may_see_of_held {db : DB} {L u : UUID} {role : Role} (h : RoleHeld db L u role) :
    MaySee db L u := by
  cases role with
  | owner => exact Or.inl h
  | editor => exact Or.inr ⟨_, h⟩
  | viewer => exact Or.inr ⟨_, h⟩

theorem authorized_of_nothing (same : SameLists w.db w'.db) (shows : ShowsNothing r) :
    Authorized env s w r w' := by
  obtain ⟨hl, hi, hs⟩ := same
  obtain ⟨sl, si, ss⟩ := shows
  constructor
  · intro L h; exact absurd (by rw [hl]) h
  · intro L v h; exact absurd (by rw [hs]) h
  · intro L i h; exact absurd (by unfold item_of; rw [hi]) h
  · rw [sl]; intro l h; cases h
  · rw [si]; intro l h; cases h
  · rw [ss]; intro l h; cases h
  · intro L _
    exact ⟨Or.inl (by rw [hl]), fun i => by unfold item_of; rw [hi], fun v => by rw [hs]⟩
  · intro L o h
    exact Or.inl (by unfold IsOwner owner_of at *; rw [hl]; exact h)

theorem authorized_of_created {u : User} {l : ListRow} (hu : SignedIn env s w u)
    (howner : l.owner_id = u.id) (hcall : ∃ body, s.call = .create_list body)
    (hfree : w.db.lists.find l.id = none) (hdb : w'.db = Change.apply (.insert_list l) w.db)
    (hbody : r.body = .list (.of l)) : Authorized env s w r w' := by
  have hfind : ∀ L, w'.db.lists.find L = if l.id = L then some l else w.db.lists.find L := by
    intro L
    rw [hdb]
    exact Table.find_insert_of_free hfree L
  have hitems : w'.db.items = w.db.items := by rw [hdb]; rfl
  have hshares : w'.db.shares = w.db.shares := by rw [hdb]; rfl
  have hown : IsOwner w'.db l.id u.id := by
    unfold IsOwner owner_of
    rw [hfind, if_pos rfl, Option.map_some, howner]
  constructor
  · intro L h
    rw [hfind] at h
    by_cases hL : l.id = L
    · subst hL
      exact ⟨u, hu, Or.inr ⟨hfree, hown⟩⟩
    · rw [if_neg hL] at h
      exact absurd rfl h
  · intro L v h; exact absurd (by rw [hshares]) h
  · intro L i h; exact absurd (by unfold item_of; rw [hitems]) h
  · intro out hout
    rw [hbody, list_outs, List.mem_singleton] at hout
    rw [hout]
    exact ⟨u, hu, Or.inr ⟨hfree, hown⟩⟩
  · rw [hbody]; intro i hi; cases hi
  · rw [hbody]; intro x hx; cases hx
  · intro L _
    refine ⟨?_, fun i => by unfold item_of; rw [hitems], fun v => by rw [hshares]⟩
    rw [hfind]
    by_cases hL : l.id = L
    · subst hL
      exact Or.inr ⟨hcall, hfree⟩
    · exact Or.inl (if_neg hL)
  · intro L o h
    refine Or.inl ?_
    unfold IsOwner owner_of at *
    rw [hfind]
    by_cases hL : l.id = L
    · subst hL
      rw [hfree] at h
      cases h
    · rw [if_neg hL]; exact h

theorem authorized_of_dashboard {u : User} (hu : SignedIn env s w u)
    (rows : ∀ l ∈ list_outs r.body, MaySee w.db l.id u.id) (no_items : item_outs r.body = [])
    (no_shares : share_outs r.body = []) : Authorized env s w r w := by
  constructor
  · intro L h; exact absurd rfl h
  · intro L v h; exact absurd rfl h
  · intro L i h; exact absurd rfl h
  · intro l hl; exact ⟨u, hu, Or.inl (rows l hl)⟩
  · rw [no_items]; intro i hi; cases hi
  · rw [no_shares]; intro x hx; cases hx
  · intro L _; exact ⟨Or.inl rfl, fun _ => rfl, fun _ => rfl⟩
  · intro L o h; exact Or.inl h

theorem authorized_of_acted {L : UUID} {u : User} {role : Role}
    (h : ActedOn env s w r w' L u role) : Authorized env s w r w' := by
  have hsee := may_see_of_held h.held
  have howner : role = .owner → IsOwner w.db L u.id := by
    rintro rfl
    exact h.held
  constructor
  · intro M hM
    by_cases hL : M = L
    · subst hL
      exact ⟨u, h.signed_in, Or.inl (howner (h.list_by_owner fun hl => hM (by rw [hl])))⟩
    · exact absurd (h.only_list.lists M hL) hM
  · intro M v hM
    by_cases hL : M = L
    · subst hL
      exact ⟨u, h.signed_in, howner (h.shares_by_owner fun hs => hM (by rw [hs]))⟩
    · exact absurd (h.only_list.shares M hL v) hM
  · intro M i hM
    by_cases hL : M = L
    · subst hL
      refine ⟨u, h.signed_in, ?_⟩
      rcases h.items_by_editor fun hi => hM (by unfold item_of; rw [hi]) with rfl | rfl
      · exact Or.inl h.held
      · exact Or.inr h.held
    · exact absurd (h.only_list.items M hL i) hM
  · intro l hl
    rw [h.shows_list l hl]
    exact ⟨u, h.signed_in, Or.inl hsee⟩
  · intro i hi
    rw [h.shows_items i hi]
    exact ⟨u, h.signed_in, hsee⟩
  · intro x hx
    obtain ⟨hL, hrole⟩ := h.shows_shares x hx
    rw [hL]
    exact ⟨u, h.signed_in, howner hrole⟩
  · intro M hM
    have hL : M ≠ L := by
      rintro rfl
      exact hM h.path
    exact ⟨Or.inl (h.only_list.lists M hL), h.only_list.items M hL, h.only_list.shares M hL⟩
  · intro M o ho
    by_cases hL : M = L
    · subst hL
      rcases h.owner_kept with hk | hk
      · exact Or.inl (hk.trans ho)
      · exact Or.inr (by simpa [owner_of] using hk)
    · refine Or.inl ?_
      unfold IsOwner owner_of at *
      rw [h.only_list.lists M hL]
      exact ho

/-- Every deed is authorized. -/
theorem authorized_of_deed (h : Deed env s w r w') : Authorized env s w r w' := by
  cases h with
  | nothing same shows => exact authorized_of_nothing same shows
  | created u l hu howner hcall hfree hdb hbody =>
    exact authorized_of_created hu howner hcall hfree hdb hbody
  | dashboard u hu same rows no_items no_shares =>
    subst same
    exact authorized_of_dashboard hu rows no_items no_shares
  | acted L u role h => exact authorized_of_acted h

end

/-- As long as a list is there, its owner stays. -/
theorem owner_stays (L o : UUID) (steps : List Step) (w : World) (ho : IsOwner w.db L o)
    (hthere : ∀ a b, steps = a ++ b → (run env a w).db.lists.find L ≠ none) :
    IsOwner (run env steps w).db L o := by
  induction steps generalizing w with
  | nil => exact ho
  | cons s steps ih =>
    have hs := (authorized_of_deed (deed_of_step env s w)).owner_kept L o ho
    apply ih (s.after env w)
    · exact hs.resolve_right (hthere [s] steps rfl)
    · rintro a b rfl
      exact hthere (s :: a) b rfl

/-- In every run every request keeps to what its user may do, and a list has one
owner from its creation to its deletion. -/
theorem nobody_oversteps_a_role (env : Env) (past : List Step) :
    (∀ s : Step, Authorized env s (run env past .empty) (s.handle env (run env past .empty)).1
      (s.handle env (run env past .empty)).2) ∧
    ∀ (L o : UUID) (future : List Step), IsOwner (run env past .empty).db L o →
      (∀ a b, future = a ++ b → (run env (past ++ a) .empty).db.lists.find L ≠ none) →
      IsOwner (run env (past ++ future) .empty).db L o := by
  constructor
  · intro s
    exact authorized_of_deed (deed_of_step env s _)
  · intro L o future ho hthere
    rw [run_append]
    apply owner_stays env L o future _ ho
    rintro a b rfl
    rw [← run_append]
    exact hthere a b rfl

def signed_in_as_ann : Request := { Request.sample with session := some "a" }

/-- Ann makes a list. -/
def ann_has_a_list : List Step :=
  [ann_registers "a" 1, ⟨.create_list ⟨"garden", by decide⟩, signed_in_as_ann, .sample "list" 2⟩]

def ann_renames_her_list : Step :=
  ⟨.rename_list 2 ⟨"orchard", by decide⟩, signed_in_as_ann, .sample "rename" 3⟩

theorem ann_keeps_her_list :
    ((run .sample (ann_has_a_list ++ [ann_renames_her_list]) .empty).db.lists.rows.map
        ListRow.name = ["orchard"]) ∧
      Authorized .sample ann_renames_her_list (run .sample ann_has_a_list .empty)
        (ann_renames_her_list.handle .sample (run .sample ann_has_a_list .empty)).1
        (ann_renames_her_list.handle .sample (run .sample ann_has_a_list .empty)).2 ∧
      IsOwner (run .sample (ann_has_a_list ++ [ann_renames_her_list]) .empty).db 2 1 := by
  have hall := nobody_oversteps_a_role .sample ann_has_a_list
  have howner : owner_of (run .sample ann_has_a_list .empty).db 2 = some 1 := by decide
  refine ⟨by decide, hall.1 ann_renames_her_list, ?_⟩
  refine hall.2 2 1 [ann_renames_her_list] howner fun a b hsplit => ?_
  rcases a with _ | ⟨s, a⟩
  · decide
  · obtain ⟨rfl, hrest⟩ := List.cons.inj hsplit
    obtain ⟨rfl, -⟩ := List.append_eq_nil_iff.mp hrest.symm
    decide

end shared_todos.authorization
