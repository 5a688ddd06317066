-- What a stranger learns about lists that are not his: nothing. Two runs of
-- the requests of one user start in states that differ only in lists where he
-- has no part, and they give the same responses, up to the ids and times that
-- each run draws and the order of rows that the database leaves open.
import SharedTodos.Accounts
import SharedTodos.Authorization
import SharedTodos.Library.SameRows

open keyed_table transactions same_rows
open shared_todos.models shared_todos.http shared_todos.http.handler
open shared_todos.sessions shared_todos.authz shared_todos.auth shared_todos.csrf
open shared_todos.lists shared_todos.items shared_todos.shares
open shared_todos.authorization shared_todos.accounts shared_todos.app

namespace shared_todos.strangers

-- `ρ` takes an id of a list or an item in the first run to the id that stands
-- for it in the second, `T` relates the times that stand for each other, and
-- `H` holds the lists in which the runs may differ.
variable (ρ : Equiv.Perm UUID) (T : Time → Time → Prop) (H : Set UUID)

/-! ## The same rows and responses -/

structure SameList (l l' : ListOut) : Prop where
  id : l'.id = ρ l.id
  owner_id : l'.owner_id = l.owner_id
  name : l'.name = l.name
  created_at : T l.created_at l'.created_at
  updated_at : T l.updated_at l'.updated_at

structure SameItem (i i' : ItemOut) : Prop where
  id : i'.id = ρ i.id
  list_id : i'.list_id = ρ i.list_id
  content : i'.content = i.content
  completed : i'.completed = i.completed
  order : i'.order = i.order
  created_at : T i.created_at i'.created_at
  updated_at : T i.updated_at i'.updated_at

structure SameShare (s s' : ShareOut) : Prop where
  list_id : s'.list_id = ρ s.list_id
  user_id : s'.user_id = s.user_id
  role : s'.role = s.role
  granted_at : T s.granted_at s'.granted_at

/-- The same body. The items stand in the same sequence of their orders. -/
def SameBody : Body → Body → Prop
  | .list l, .list l' => SameList ρ T l l'
  | .lists ls, .lists ls' => SameRows (SameList ρ T) ls ls'
  | .item i, .item i' => SameItem ρ T i i'
  | .items is, .items is' =>
    SameRows (SameItem ρ T) is is' ∧ is'.map ItemOut.order = is.map ItemOut.order
  | .share s, .share s' => SameShare ρ T s s'
  | .shares ss, .shares ss' => SameRows (SameShare ρ T) ss ss'
  | b, b' => b' = b

structure SameResponse (r r' : Response) : Prop where
  status_code : r'.status_code = r.status_code
  body : SameBody ρ T r.body r'.body
  headers : r'.headers = r.headers
  cookies : r'.cookies = r.cookies

theorem same_response_json {status : Nat} {b b' : Body} (h : SameBody ρ T b b') :
    SameResponse ρ T (json status b) (json status b') := ⟨rfl, h, rfl, rfl⟩

theorem same_response_detail (status : Nat) (text : String) (headers : List (String × String)) :
    SameResponse ρ T ⟨status, .detail text, headers, []⟩ ⟨status, .detail text, headers, []⟩ :=
  ⟨rfl, rfl, rfl, rfl⟩

theorem same_response_exn (e : Exn) : SameResponse ρ T e.response e.response := by
  cases e <;> exact ⟨rfl, rfl, rfl, rfl⟩

/-! ## The states that agree outside the lists of `H` -/

/-- List `L` of the first state and the list that stands for it in the second. -/
structure AgreeAt (L : UUID) (db db' : DB) : Prop where
  list : Option.Rel (fun l l' => SameList ρ T (.of l) (.of l')) (db.lists.find L)
    (db'.lists.find (ρ L))
  items : ∀ i, Option.Rel (fun x x' => SameItem ρ T (.of x) (.of x')) (item_of db L i)
    (item_of db' (ρ L) (ρ i))
  shares : ∀ v, Option.Rel (fun s s' => SameShare ρ T (.of s) (.of s')) (db.shares.find (L, v))
    (db'.shares.find (ρ L, v))

structure Agree (db db' : DB) : Prop where
  accounts : SameAccounts db db'
  lists : ∀ L ∉ H, AgreeAt ρ T L db db'

/-- The states are equal up to the lists of `H`, with their items and shares. -/
structure AgreeExactly (w w' : World) : Prop where
  store : w'.store = w.store
  accounts : SameAccounts w.db w'.db
  lists : ∀ L ∉ H, w'.db.lists.find L = w.db.lists.find L
  items : ∀ L ∉ H, ∀ i, item_of w'.db L i = item_of w.db L i
  shares : ∀ L ∉ H, ∀ v, w'.db.shares.find (L, v) = w.db.shares.find (L, v)

/-- The user has no part in the lists of `H`. -/
def Stranger (user_id : UUID) (db : DB) : Prop := ∀ L ∈ H, ¬ MaySee db L user_id

/-- Two states of the two runs. -/
structure Alike (user_id : UUID) (w w' : World) : Prop where
  agree : Agree ρ T H w.db w'.db
  store : w'.store = w.store
  left : Stranger H user_id w.db
  right : Stranger H user_id w'.db

/-- What one request gives in the two runs: the same response, and states alike. -/
structure Matched (user_id : UUID) (o o' : Response × World) : Prop where
  response : SameResponse ρ T o.1 o'.1
  alike : Alike ρ T H user_id o.2 o'.2

section
variable {ρ T H} {u : UUID} {w w' : World}

/-- A row that both databases have, or that both lack. -/
theorem rel_cases {α β : Type} {R : α → β → Prop} {a : Option α} {b : Option β}
    (h : Option.Rel R a b) : a = none ∧ b = none ∨ ∃ x y, a = some x ∧ b = some y ∧ R x y := by
  cases h with
  | none => exact Or.inl ⟨rfl, rfl⟩
  | some h => exact Or.inr ⟨_, _, rfl, rfl, h⟩

theorem AgreeAt.owner {L : UUID} {db db' : DB} (h : AgreeAt ρ T L db db') :
    owner_of db' (ρ L) = owner_of db L := by
  unfold owner_of
  rcases rel_cases h.list with ⟨hf, hf'⟩ | ⟨l, l', hf, hf', hl⟩
  · rw [hf, hf']
  · rw [hf, hf', Option.map_some, Option.map_some]
    exact congrArg some hl.owner_id

theorem AgreeAt.share_role {L : UUID} {db db' : DB} (h : AgreeAt ρ T L db db') (v : UUID) :
    share_role_of db' (ρ L) v = share_role_of db L v := by
  unfold share_role_of
  rcases rel_cases (h.shares v) with ⟨hf, hf'⟩ | ⟨x, x', hf, hf', hx⟩
  · rw [hf, hf']
  · rw [hf, hf', Option.map_some, Option.map_some]
    exact congrArg some hx.role

/-- What the lookup of an item in a list of the path comes to. -/
theorem AgreeAt.item_cases {L : UUID} {db db' : DB} (h : AgreeAt ρ T L db db') (i : UUID) :
    (∀ x ∈ db.items.find i, x.list_id ≠ L) ∧ (∀ x ∈ db'.items.find (ρ i), x.list_id ≠ ρ L) ∨
      ∃ x x', db.items.find i = some x ∧ x.list_id = L ∧ db'.items.find (ρ i) = some x' ∧
        x'.list_id = ρ L ∧ SameItem ρ T (.of x) (.of x') := by
  have hmissing : ∀ {db : DB} {L i : UUID}, item_of db L i = none →
      ∀ x ∈ db.items.find i, x.list_id ≠ L := by
    intro db L i hf x hx hL
    rw [item_of_eq_some.mpr ⟨hx, hL⟩] at hf
    cases hf
  rcases rel_cases (h.items i) with ⟨hf, hf'⟩ | ⟨x, x', hf, hf', hx⟩
  · exact Or.inl ⟨hmissing hf, hmissing hf'⟩
  · obtain ⟨hfind, hL⟩ := item_of_eq_some.mp hf
    obtain ⟨hfind', hL'⟩ := item_of_eq_some.mp hf'
    exact Or.inr ⟨x, x', hfind, hL, hfind', hL', hx⟩

/-- A change of one list outside `H`, done in both states. -/
theorem Alike.change {L : UUID} (h : Alike ρ T H u w w') (hL : L ∉ H) (hL' : ρ L ∉ H) {db db' : DB}
    (honly : OnlyList L w.db db) (honly' : OnlyList (ρ L) w'.db db')
    (haccounts : SameAccounts w.db db) (haccounts' : SameAccounts w'.db db')
    (hat : AgreeAt ρ T L db db') :
    Alike ρ T H u { w with db := db } { w' with db := db' } := by
  have hstranger : ∀ {K : UUID} {a b : DB}, K ∉ H → OnlyList K a b → Stranger H u a →
      Stranger H u b := by
    intro K a b hK hab hstranger M hM
    have hne : M ≠ K := by
      rintro rfl
      exact hK hM
    have hsee := hstranger M hM
    unfold MaySee IsOwner HasShare owner_of share_role_of at hsee ⊢
    rwa [hab.lists M hne, hab.shares M hne]
  refine ⟨⟨?_, ?_⟩, h.store, hstranger hL honly h.left, hstranger hL' honly' h.right⟩
  · obtain ⟨h1, h2, h3⟩ := haccounts
    obtain ⟨h1', h2', h3'⟩ := haccounts'
    obtain ⟨k1, k2, k3⟩ := h.agree.accounts
    exact ⟨by rw [h1', k1, h1], by rw [h2', k2, h2], by rw [h3', k3, h3]⟩
  · intro M hM
    by_cases hne : M = L
    · subst hne
      exact hat
    · have hne' : ρ M ≠ ρ L := fun he => hne (ρ.injective he)
      have hrest := h.agree.lists M hM
      refine ⟨?_, ?_, ?_⟩
      · rw [honly.lists M hne, honly'.lists _ hne']
        exact hrest.list
      · intro i
        rw [honly.items M hne, honly'.items _ hne']
        exact hrest.items i
      · intro v
        rw [honly.shares M hne, honly'.shares _ hne']
        exact hrest.shares v

end

/-! ## The requests of the two runs -/

/-- The same request, with the ids of lists and items renamed. -/
def renamed : Call → Call
  | .get_list L => .get_list (ρ L)
  | .rename_list L body => .rename_list (ρ L) body
  | .delete_list L => .delete_list (ρ L)
  | .create_item L body => .create_item (ρ L) body
  | .list_items L => .list_items (ρ L)
  | .update_item L i body => .update_item (ρ L) (ρ i) body
  | .delete_item L i => .delete_item (ρ L) (ρ i)
  | .create_share L body => .create_share (ρ L) body
  | .list_shares L => .list_shares (ρ L)
  | .change_role L v body => .change_role (ρ L) v body
  | .revoke_share L v => .revoke_share (ρ L) v
  | call => call

/-- The id of a new row is fresh, and the two ids stand for each other. -/
def DrawsRow (s s' : Step) (db db' : DB) : Prop :=
  match s.call with
  | .create_list _ =>
    s'.draws.row_id = ρ s.draws.row_id ∧ s.draws.row_id ∉ H ∧
      db.lists.find s.draws.row_id = none ∧ db'.lists.find s'.draws.row_id = none
  | .create_item _ _ =>
    s'.draws.row_id = ρ s.draws.row_id ∧
      db.items.find s.draws.row_id = none ∧ db'.items.find s'.draws.row_id = none
  | _ => True

variable (env : Env)

/-- The session of the request names the user. -/
def MadeBy (user_id : UUID) (s : Step) (w : World) : Prop :=
  ∃ user, session_user env s.request.session (s.draws.now 0) w.db = .ok user ∧ user.id = user_id

/-- One request of the user on the lists, in both runs. -/
structure Twins (user_id : UUID) (s s' : Step) (w w' : World) : Prop where
  on_lists : s.call.on_lists = true
  call : s'.call = renamed ρ s.call
  request : s'.request = s.request
  made : MadeBy env user_id s w
  made' : MadeBy env user_id s' w'
  db_now : T s.draws.db_now s'.draws.db_now
  row : DrawsRow ρ H s s' w.db w'.db

/-- The requests of the two runs, from the states on. -/
def TwinRuns (user_id : UUID) : List (Step × Step) → World → World → Prop
  | [], _, _ => True
  | (s, s') :: steps, w, w' =>
    Twins ρ T H env user_id s s' w w' ∧
      TwinRuns user_id steps (s.after env w) (s'.after env w')

/-- The responses of a run, one for each request. -/
def responses : List Step → World → List Response
  | [], _ => []
  | s :: steps, w => (s.handle env w).1 :: responses steps (s.after env w)

/-! ### The middleware -/

/-- No path of a list is exempt from the check of the middleware. -/
theorem path_of_list_call {call : Call} (h : call.on_lists = true) :
    call.path ∉ CSRF_EXEMPT_PATHS := by
  have hlist : ∃ rest, call.path = "/api/v1/lists" ++ rest := by
    cases call <;> first | cases h; done | exact ⟨"", rfl⟩ | skip
    all_goals
      simp only [Call.path, Call.list_path, String.append_assoc]
      exact ⟨"/" ++ _, rfl⟩
  obtain ⟨rest, hpath⟩ := hlist
  have hexempt : ∀ p ∈ CSRF_EXEMPT_PATHS, p.toList.take 9 = "/api/v1/a".toList := by decide
  intro hmem
  have h9 := hexempt _ hmem
  rw [hpath, String.toList_append] at h9
  simp at h9

theorem method_renamed (call : Call) : (renamed ρ call).method = call.method := by
  cases call <;> rfl

theorem on_lists_renamed (call : Call) : (renamed ρ call).on_lists = call.on_lists := by
  cases call <;> rfl

/-- The middleware does the same with the two requests. -/
theorem dispatch_renamed {call : Call} (h : call.on_lists = true) (request : Request) :
    dispatch (renamed ρ call).method (renamed ρ call).path request =
      dispatch call.method call.path request := by
  have hpath := path_of_list_call h
  have hpath' : (renamed ρ call).path ∉ CSRF_EXEMPT_PATHS :=
    path_of_list_call (by rw [on_lists_renamed, h])
  unfold dispatch
  rw [method_renamed, if_neg hpath, if_neg hpath']

/-! ## The two runs of a handler -/

section
variable {ρ T H env} {u : UUID} {w w' : World}

theorem matched_error (h : Alike ρ T H u w w') (e : Exn) :
    Matched ρ T H u (e.response, w) (e.response, w') := ⟨same_response_exn ρ T e, h⟩

theorem matched_detail (h : Alike ρ T H u w w') (status : Nat) (text : String)  :
    Matched ρ T H u (⟨status, .detail text, [], []⟩, w) (⟨status, .detail text, [], []⟩, w') :=
  ⟨same_response_detail ρ T status text [], h⟩

/-- A statement that both databases accept, or that fails with the same error in both. -/
theorem matched_attempt {st st' : Statement} {k k' : World → Response × World}
    (h : Alike ρ T H u w w')
    (hst : (∃ e, st w.db = .error e ∧ st' w'.db = .error e) ∨
      ∃ cs cs', st w.db = .ok cs ∧ st' w'.db = .ok cs' ∧
        Matched ρ T H u (k (w.commit cs)) (k' (w'.commit cs'))) :
    Matched ρ T H u (attempt st w k) (attempt st' w' k') := by
  rcases hst with ⟨e, he, he'⟩ | ⟨cs, cs', hcs, hcs', hk⟩
  · rw [attempt_error he, attempt_error he']
    exact matched_error h _
  · rw [attempt_ok hcs, attempt_ok hcs']
    exact hk

/-- The row that both handlers read back. -/
theorem matched_read_back {α : Type} {R : α → α → Prop} {o o' : Option α} {body : α → Body}
    (h : Alike ρ T H u w w') (hrel : Option.Rel R o o')
    (hbody : ∀ x x', R x x' → SameBody ρ T (body x) (body x')) :
    Matched ρ T H u (proceed (read_back o) w fun x => (json 200 (body x), w))
      (proceed (read_back o') w' fun x => (json 200 (body x), w')) := by
  cases hrel with
  | none => exact matched_error h Exn.invalid_request
  | some hx => exact ⟨same_response_json ρ T (hbody _ _ hx), h⟩

/-- The gate of a handler: it turns the user away in both runs, as always from
the lists of `H`, or it lets him through in both with the same role. -/
theorem matched_gate {action : Action} {L : UUID} {session session' : Option String}
    {now now' : Time} {user user' : User} {k k' : ListPermission → Response × World}
    (h : Alike ρ T H u w w') (hρ : ∀ L, ρ L ∈ H ↔ L ∈ H)
    (hu : session_user env session now w.db = .ok user) (hid : user.id = u)
    (hu' : session_user env session' now' w'.db = .ok user') (hid' : user'.id = u)
    (hk : ∀ role, L ∉ H → AgreeAt ρ T L w.db w'.db →
      Matched ρ T H u (k ⟨L, u, role⟩) (k' ⟨ρ L, u, role⟩)) :
    Matched ρ T H u (proceed (gate env action L session now w.db) w k)
      (proceed (gate env action (ρ L) session' now' w'.db) w' k') := by
  subst hid
  have hrole : L ∉ H ∨ owner_of w.db L ≠ some user.id ∧ owner_of w'.db (ρ L) ≠ some user.id ∧
      share_role_of w.db L user.id = none ∧ share_role_of w'.db (ρ L) user.id = none := by
    by_cases hL : L ∈ H
    · right
      have hsee := h.left L hL
      have hsee' := h.right (ρ L) ((hρ L).mpr hL)
      unfold MaySee IsOwner HasShare at hsee hsee'
      push Not at hsee hsee'
      refine ⟨hsee.1, hsee'.1, ?_, ?_⟩
      · exact Option.eq_none_iff_forall_ne_some.mpr hsee.2
      · exact Option.eq_none_iff_forall_ne_some.mpr hsee'.2
    · exact Or.inl hL
  unfold gate
  rw [hu, hu']
  dsimp only
  rw [hid']
  rcases hrole with hL | ⟨ho, ho', hs, hs'⟩
  · have hat := h.agree.lists L hL
    rw [hat.owner, hat.share_role]
    cases effective_role (decide (owner_of w.db L = some user.id))
        (share_role_of w.db L user.id) with
    | error e => exact matched_error h e
    | ok o =>
      cases o with
      | none => exact matched_error h not_found_error
      | some role =>
        dsimp only
        by_cases hc : can_perform role action = true
        · rw [if_pos hc, if_pos hc]
          exact hk role hL hat
        · rw [if_neg hc, if_neg hc]
          exact matched_error h not_found_error
  · rw [decide_eq_false ho, decide_eq_false ho', hs, hs']
    exact matched_error h not_found_error

end

/-! ### The handlers -/

section
variable {ρ T H env} {u : UUID} {w w' : World} {s s' : Step}

theorem agree_set_list_name {L : UUID} {db db' : DB} (h : AgreeAt ρ T L db db') (name : String)
    {now now' : Time} (hnow : T now now') :
    AgreeAt ρ T L (Change.apply (.set_list_name L name now) db)
      (Change.apply (.set_list_name (ρ L) name now') db') := by
  refine ⟨?_, h.items, h.shares⟩
  simp only [Change.apply]
  rw [Table.find_update, if_pos rfl, Table.find_update, if_pos rfl]
  rcases rel_cases h.list with ⟨hf, hf'⟩ | ⟨l, l', hf, hf', hl⟩
  · rw [hf, hf']
    exact .none
  · rw [hf, hf']
    exact .some ⟨hl.id, hl.owner_id, rfl, hl.created_at, hnow⟩

theorem agree_without_list (L : UUID) (db db' : DB) :
    AgreeAt ρ T L (db.without_list L) (db'.without_list (ρ L)) := by
  have hgone : ∀ (db : DB) (L : UUID), (db.without_list L).lists.find L = none ∧
      (∀ i, item_of (db.without_list L) L i = none) ∧
      ∀ v, (db.without_list L).shares.find (L, v) = none := by
    intro db L
    unfold item_of DB.without_list
    simp only [Table.find_deleteWhere]
    refine ⟨?_, ?_, ?_⟩
    · rw [Option.filter_eq_none_iff]
      intro l hl
      simp [Table.key_of_find hl]
    · intro i
      rw [Option.filter_filter, Option.filter_eq_none_iff]
      intro x _
      simp
    · intro v
      rw [Option.filter_eq_none_iff]
      intro x hx
      have hk := Table.key_of_find hx
      simp only [Share.key, Prod.mk.injEq] at hk
      simp [hk.1]
  obtain ⟨h1, h2, h3⟩ := hgone db L
  obtain ⟨h1', h2', h3'⟩ := hgone db' (ρ L)
  refine ⟨?_, ?_, ?_⟩
  · rw [h1, h1']
    exact .none
  · intro i
    rw [h2, h2']
    exact .none
  · intro v
    rw [h3, h3']
    exact .none

theorem agree_insert_list {l l' : ListRow} {db db' : DB} (h : AgreeAt ρ T l.id db db')
    (hl : SameList ρ T (.of l) (.of l')) (hfree : db.lists.find l.id = none)
    (hfree' : db'.lists.find l'.id = none) :
    AgreeAt ρ T l.id (Change.apply (.insert_list l) db) (Change.apply (.insert_list l') db') := by
  refine ⟨?_, h.items, h.shares⟩
  have hid : l'.id = ρ l.id := hl.id
  simp only [Change.apply]
  rw [Table.find_insert_of_free hfree, Table.find_insert_of_free hfree', if_pos rfl, if_pos hid]
  exact .some hl

/-! ### The change of an item -/

theorem item_of_insert_item {db : DB} {x : Item} (hfree : db.items.find x.id = none) (i : UUID) :
    item_of (Change.apply (.insert_item x) db) x.list_id i =
      if x.id = i then some x else item_of db x.list_id i := by
  unfold item_of
  simp only [Change.apply]
  rw [Table.find_insert_of_free hfree]
  split
  · exact Option.filter_some_pos (by simp)
  · rfl

theorem item_of_patch_item {db : DB} {L : UUID} (k : UUID) (p : ItemPatch) (now : Time) (i : UUID) :
    item_of (Change.apply (.patch_item k p now) db) L i =
      if i = k then (item_of db L i).map (fun x => x.patch p now) else item_of db L i := by
  unfold item_of
  simp only [Change.apply]
  rw [Table.find_update]
  split
  · rename_i hk
    subst hk
    rw [Option.filter_map]
    rfl
  · rfl

theorem item_of_delete_item {db : DB} {L : UUID} (k i : UUID) :
    item_of (Change.apply (.delete_item k) db) L i = if i = k then none else item_of db L i := by
  unfold item_of
  simp only [Change.apply]
  rw [Table.find_deleteWhere]
  split
  · rename_i hk
    rw [Option.filter_filter, Option.filter_eq_none_iff]
    intro x hx
    simp [Table.key_of_find hx, hk]
  · rename_i hk
    cases hf : db.items.find i with
    | none => rfl
    | some x =>
      rw [Option.filter_some_pos]
      simpa [Table.key_of_find hf] using hk

theorem agree_insert_item {x x' : Item} {db db' : DB} (h : AgreeAt ρ T x.list_id db db')
    (hx : SameItem ρ T (.of x) (.of x')) (hfree : db.items.find x.id = none)
    (hfree' : db'.items.find x'.id = none) :
    AgreeAt ρ T x.list_id (Change.apply (.insert_item x) db)
      (Change.apply (.insert_item x') db') := by
  refine ⟨h.list, ?_, h.shares⟩
  intro i
  have hid : x'.id = ρ x.id := hx.id
  have hlist : x'.list_id = ρ x.list_id := hx.list_id
  rw [item_of_insert_item hfree, ← hlist, item_of_insert_item hfree', hid, hlist]
  by_cases hi : x.id = i
  · rw [if_pos hi, if_pos (congrArg ρ hi)]
    exact .some hx
  · rw [if_neg hi, if_neg (fun he => hi (ρ.injective he))]
    exact h.items i

theorem agree_patch_item {L : UUID} {db db' : DB} (h : AgreeAt ρ T L db db') (k : UUID)
    (p : ItemPatch) {now now' : Time} (hnow : T now now') :
    AgreeAt ρ T L (Change.apply (.patch_item k p now) db)
      (Change.apply (.patch_item (ρ k) p now') db') := by
  refine ⟨h.list, ?_, h.shares⟩
  intro i
  rw [item_of_patch_item, item_of_patch_item]
  by_cases hi : i = k
  · rw [if_pos hi, if_pos (congrArg ρ hi)]
    rcases rel_cases (h.items i) with ⟨hf, hf'⟩ | ⟨x, x', hf, hf', hx⟩
    · rw [hf, hf']
      exact .none
    · rw [hf, hf']
      have hcontent : x'.content = x.content := hx.content
      have hcompleted : x'.completed = x.completed := hx.completed
      have horder : x'.order = x.order := hx.order
      refine .some ⟨hx.id, hx.list_id, ?_, ?_, ?_, hx.created_at, hnow⟩
      · simp [ItemOut.of, Item.patch, hcontent]
      · simp [ItemOut.of, Item.patch, hcompleted]
      · simp [ItemOut.of, Item.patch, horder]
  · rw [if_neg hi, if_neg (fun he => hi (ρ.injective he))]
    exact h.items i

theorem agree_delete_item {L : UUID} {db db' : DB} (h : AgreeAt ρ T L db db') (k : UUID) :
    AgreeAt ρ T L (Change.apply (.delete_item k) db) (Change.apply (.delete_item (ρ k)) db') := by
  refine ⟨h.list, ?_, h.shares⟩
  intro i
  rw [item_of_delete_item, item_of_delete_item]
  by_cases hi : i = k
  · rw [if_pos hi, if_pos (congrArg ρ hi)]
    exact .none
  · rw [if_neg hi, if_neg (fun he => hi (ρ.injective he))]
    exact h.items i

/-! ### The change of a share -/

theorem agree_insert_share {x x' : Share} {db db' : DB} (h : AgreeAt ρ T x.list_id db db')
    (hx : SameShare ρ T (.of x) (.of x')) (hfree : db.shares.find x.key = none)
    (hfree' : db'.shares.find x'.key = none) :
    AgreeAt ρ T x.list_id (Change.apply (.insert_share x) db)
      (Change.apply (.insert_share x') db') := by
  refine ⟨h.list, h.items, ?_⟩
  intro v
  have hlist : x'.list_id = ρ x.list_id := hx.list_id
  have huser : x'.user_id = x.user_id := hx.user_id
  rw [find_insert_share hfree, find_insert_share hfree']
  unfold Share.key
  rw [hlist, huser]
  by_cases hv : x.user_id = v
  · rw [if_pos (by rw [hv]), if_pos (by rw [hv])]
    exact .some hx
  · rw [if_neg (by simpa using hv), if_neg (by simpa using hv)]
    exact h.shares v

theorem agree_set_role {L : UUID} {db db' : DB} (h : AgreeAt ρ T L db db') (k : UUID)
    (role : String) :
    AgreeAt ρ T L (Change.apply (.set_role L k role) db)
      (Change.apply (.set_role (ρ L) k role) db') := by
  refine ⟨h.list, h.items, ?_⟩
  intro v
  rw [find_set_role, find_set_role]
  by_cases hv : v = k
  · rw [if_pos (by rw [hv]), if_pos (by rw [hv])]
    rcases rel_cases (h.shares k) with ⟨hf, hf'⟩ | ⟨x, x', hf, hf', hx⟩
    · rw [hf, hf']
      exact .none
    · rw [hf, hf']
      exact .some ⟨hx.list_id, hx.user_id, rfl, hx.granted_at⟩
  · rw [if_neg (by simpa using hv), if_neg (by simpa using hv)]
    exact h.shares v

theorem agree_delete_share {L : UUID} {db db' : DB} (h : AgreeAt ρ T L db db') (k : UUID) :
    AgreeAt ρ T L (Change.apply (.delete_share L k) db)
      (Change.apply (.delete_share (ρ L) k) db') := by
  refine ⟨h.list, h.items, ?_⟩
  intro v
  rw [find_delete_share, find_delete_share]
  by_cases hv : v = k
  · rw [if_pos (by rw [hv]), if_pos (by rw [hv])]
    exact .none
  · rw [if_neg (by simpa using hv), if_neg (by simpa using hv)]
    exact h.shares v

section
variable (h : Alike ρ T H u w w') (hρ : ∀ L, ρ L ∈ H ↔ L ∈ H) (hmade : MadeBy env u s w)
  (hmade' : MadeBy env u s' w')
include h hρ hmade hmade'

theorem matched_get_list (L : UUID) :
    Matched ρ T H u (perform (get_list env L s.request) s.draws.now w)
      (perform (get_list env (ρ L) s'.request) s'.draws.now w') := by
  obtain ⟨user, hu, hid⟩ := hmade
  obtain ⟨user', hu', hid'⟩ := hmade'
  rw [get_list_effect, get_list_effect]
  apply matched_gate h hρ hu hid hu' hid'
  intro role _ hat
  dsimp only
  rcases rel_cases hat.list with ⟨hf, hf'⟩ | ⟨l, l', hf, hf', hl⟩
  · rw [hf, hf']
    exact matched_error h not_found_error
  · rw [hf, hf']
    exact ⟨same_response_json ρ T hl, h⟩

theorem matched_rename_list (hnow : T s.draws.db_now s'.draws.db_now) (L : UUID)
    (body : ListUpdate) :
    Matched ρ T H u (perform (rename_list env L body s.request s.draws) s.draws.now w)
      (perform (rename_list env (ρ L) body s'.request s'.draws) s'.draws.now w') := by
  obtain ⟨user, hu, hid⟩ := hmade
  obtain ⟨user', hu', hid'⟩ := hmade'
  rw [rename_list_effect, rename_list_effect]
  apply matched_gate h hρ hu hid hu' hid'
  intro role hL hat
  have hL' : ρ L ∉ H := fun hm => hL ((hρ L).mp hm)
  -- What the handler reads back after its commit.
  have hback : ∀ {a a' : World}, Alike ρ T H u a a' →
      Matched ρ T H u
        (proceed (read_back (a.db.lists.find L)) a fun lst => (json 200 (.list (.of lst)), a))
        (proceed (read_back (a'.db.lists.find (ρ L))) a' fun lst =>
          (json 200 (.list (.of lst)), a')) :=
    fun ha => matched_read_back ha (ha.agree.lists L hL).list fun _ _ hl => hl
  dsimp only
  rcases rel_cases hat.list with ⟨hf, hf'⟩ | ⟨l, l', hf, hf', hl⟩
  · rw [hf, hf']
    exact matched_error h not_found_error
  · rw [hf, hf']
    dsimp only
    rw [Table.key_of_find hf, Table.key_of_find hf']
    apply matched_attempt h
    have hname : l'.name = l.name := hl.name
    unfold rename_statement update_list_name
    rw [Table.key_of_find hf, Table.key_of_find hf', hname]
    by_cases hsame : body.name = l.name
    · rw [if_pos hsame, if_pos hsame]
      exact Or.inr ⟨[], [], rfl, rfl, hback h⟩
    · rw [if_neg hsame, if_neg hsame]
      by_cases hfit : text_fits 256 body.name
      · refine Or.inr ⟨[.set_list_name L body.name s.draws.db_now],
          [.set_list_name (ρ L) body.name s'.draws.db_now], ?_, ?_, hback ?_⟩
        · simp [hfit, hf]
        · simp [hfit, hf']
        · exact h.change hL hL' (only_list_set_list_name _ _ _) (only_list_set_list_name _ _ _)
            ⟨rfl, rfl, rfl⟩ ⟨rfl, rfl, rfl⟩ (agree_set_list_name hat _ hnow)
      · exact Or.inl ⟨.data_error, by simp [hfit], by simp [hfit]⟩

theorem matched_delete_list (L : UUID) :
    Matched ρ T H u (perform (delete_list env L s.request) s.draws.now w)
      (perform (delete_list env (ρ L) s'.request) s'.draws.now w') := by
  obtain ⟨user, hu, hid⟩ := hmade
  obtain ⟨user', hu', hid'⟩ := hmade'
  rw [delete_list_effect, delete_list_effect]
  apply matched_gate h hρ hu hid hu' hid'
  intro role hL hat
  have hL' : ρ L ∉ H := fun hm => hL ((hρ L).mp hm)
  dsimp only
  rcases rel_cases hat.list with ⟨hf, hf'⟩ | ⟨l, l', hf, hf', -⟩
  · rw [hf, hf']
    exact matched_error h not_found_error
  · rw [hf, hf']
    dsimp only
    rw [Table.key_of_find hf, Table.key_of_find hf']
    exact ⟨same_response_json ρ T rfl,
      h.change hL hL' (only_list_without_list _ _) (only_list_without_list _ _)
        ⟨rfl, rfl, rfl⟩ ⟨rfl, rfl, rfl⟩ (agree_without_list _ _ _)⟩

theorem matched_create_list (hnow : T s.draws.db_now s'.draws.db_now)
    (hid : s'.draws.row_id = ρ s.draws.row_id) (hH : s.draws.row_id ∉ H)
    (hfree : w.db.lists.find s.draws.row_id = none)
    (hfree' : w'.db.lists.find s'.draws.row_id = none) (body : ListCreate) :
    Matched ρ T H u (perform (create_list env body s.request s.draws) s.draws.now w)
      (perform (create_list env body s'.request s'.draws) s'.draws.now w') := by
  obtain ⟨user, hu, huid⟩ := hmade
  obtain ⟨user', hu', huid'⟩ := hmade'
  have hH' : s'.draws.row_id ∉ H := by
    rw [hid]
    exact fun hm => hH ((hρ _).mp hm)
  rw [create_list_effect, create_list_effect, hu, hu']
  dsimp only [proceed_ok]
  rw [huid, huid']
  have hsame : SameList ρ T (.of (new_list u body s.draws)) (.of (new_list u body s'.draws)) :=
    ⟨hid, rfl, rfl, hnow, hnow⟩
  apply matched_attempt h
  unfold insert_list
  have husers : w'.db.users = w.db.users := h.agree.accounts.users
  by_cases hfit : text_fits 256 body.name
  · by_cases howner : w.db.users.find u = none
    · refine Or.inl ⟨.foreign_key_violation, ?_, ?_⟩
      · simp [new_list, hfit, hfree, howner]
      · simp [new_list, hfit, hfree', husers, howner]
    · refine Or.inr ⟨[.insert_list (new_list u body s.draws)],
        [.insert_list (new_list u body s'.draws)], ?_, ?_, same_response_json ρ T hsame, ?_⟩
      · simp [new_list, hfit, hfree, howner]
      · simp [new_list, hfit, hfree', husers, howner]
      · have honly := only_list_insert_list (l := new_list u body s.draws) hfree
        have honly' := only_list_insert_list (l := new_list u body s'.draws) hfree'
        have hat := h.agree.lists s.draws.row_id hH
        rw [show (new_list u body s'.draws).id = ρ s.draws.row_id from hid] at honly'
        exact h.change hH (hid ▸ hH') honly honly' ⟨rfl, rfl, rfl⟩ ⟨rfl, rfl, rfl⟩
          (agree_insert_list hat hsame hfree hfree')
  · exact Or.inl ⟨.data_error, by simp [new_list, hfit], by simp [new_list, hfit]⟩

theorem matched_create_item (hnow : T s.draws.db_now s'.draws.db_now)
    (hid : s'.draws.row_id = ρ s.draws.row_id) (hfree : w.db.items.find s.draws.row_id = none)
    (hfree' : w'.db.items.find s'.draws.row_id = none) (L : UUID) (body : ItemCreate) :
    Matched ρ T H u (perform (create_item env L body s.request s.draws) s.draws.now w)
      (perform (create_item env (ρ L) body s'.request s'.draws) s'.draws.now w') := by
  obtain ⟨user, hu, huid⟩ := hmade
  obtain ⟨user', hu', huid'⟩ := hmade'
  rw [create_item_effect, create_item_effect]
  apply matched_gate h hρ hu huid hu' huid'
  intro role hL hat
  have hL' : ρ L ∉ H := fun hm => hL ((hρ L).mp hm)
  have hsame : SameItem ρ T (.of (new_item L body s.draws)) (.of (new_item (ρ L) body s'.draws)) :=
    ⟨hid, rfl, rfl, rfl, rfl, hnow, hnow⟩
  have hlist : w'.db.lists.find (ρ L) = none ↔ w.db.lists.find L = none := by
    rcases rel_cases hat.list with ⟨hf, hf'⟩ | ⟨l, l', hf, hf', -⟩
    · simp [hf, hf']
    · simp [hf, hf']
  apply matched_attempt h
  unfold insert_item
  by_cases hfit : text_storable body.content ∧ integer_fits body.order
  · by_cases hthere : w.db.lists.find L = none
    · refine Or.inl ⟨.foreign_key_violation, ?_, ?_⟩
      · simp [new_item, hfit, hfree, hthere]
      · simp [new_item, hfit, hfree', hlist, hthere]
    · refine Or.inr ⟨[.insert_item (new_item L body s.draws)],
        [.insert_item (new_item (ρ L) body s'.draws)], ?_, ?_, same_response_json ρ T hsame, ?_⟩
      · simp [new_item, hfit, hfree, hthere]
      · simp [new_item, hfit, hfree', hlist, hthere]
      · have honly := only_list_insert_item (i := new_item L body s.draws) hfree
        have honly' := only_list_insert_item (i := new_item (ρ L) body s'.draws) hfree'
        exact h.change hL hL' honly honly' ⟨rfl, rfl, rfl⟩ ⟨rfl, rfl, rfl⟩
          (agree_insert_item hat hsame hfree hfree')
  · exact Or.inl ⟨.data_error, by simp [new_item, hfit], by simp [new_item, hfit]⟩

theorem matched_delete_item (L i : UUID) :
    Matched ρ T H u (perform (delete_item env L i s.request) s.draws.now w)
      (perform (delete_item env (ρ L) (ρ i) s'.request) s'.draws.now w') := by
  obtain ⟨user, hu, huid⟩ := hmade
  obtain ⟨user', hu', huid'⟩ := hmade'
  rw [delete_item_effect, delete_item_effect]
  apply matched_gate h hρ hu huid hu' huid'
  intro role hL hat
  have hL' : ρ L ∉ H := fun hm => hL ((hρ L).mp hm)
  dsimp only
  rcases hat.item_cases i with ⟨hf, hf'⟩ | ⟨x, x', hfind, hxL, hfind', hxL', hx⟩
  · cases ha : w.db.items.find i <;> cases hb : w'.db.items.find (ρ i) <;>
      simp_all [matched_error h not_found_error]
  · rw [hfind, hfind']
    dsimp only
    rw [if_neg (not_not.mpr hxL), if_neg (not_not.mpr hxL')]
    have honly := only_list_delete_item (x := x) (by rw [Table.key_of_find hfind, hfind])
    have honly' := only_list_delete_item (x := x') (by rw [Table.key_of_find hfind', hfind'])
    rw [hxL] at honly
    rw [hxL'] at honly'
    have hid : x'.id = ρ x.id := hx.id
    refine ⟨same_response_json ρ T rfl, h.change hL hL' honly honly' ⟨rfl, rfl, rfl⟩
      ⟨rfl, rfl, rfl⟩ ?_⟩
    rw [hid]
    exact agree_delete_item hat x.id

theorem matched_update_item (hnow : T s.draws.db_now s'.draws.db_now) (L i : UUID)
    (body : ItemUpdate) :
    Matched ρ T H u (perform (update_item env L i body s.request s.draws) s.draws.now w)
      (perform (update_item env (ρ L) (ρ i) body s'.request s'.draws) s'.draws.now w') := by
  obtain ⟨user, hu, huid⟩ := hmade
  obtain ⟨user', hu', huid'⟩ := hmade'
  rw [update_item_effect, update_item_effect]
  apply matched_gate h hρ hu huid hu' huid'
  intro role hL hat
  have hL' : ρ L ∉ H := fun hm => hL ((hρ L).mp hm)
  dsimp only
  rcases hat.item_cases i with ⟨hf, hf'⟩ | ⟨x, x', hfind, hxL, hfind', hxL', hx⟩
  · cases ha : w.db.items.find i <;> cases hb : w'.db.items.find (ρ i) <;>
      simp_all [matched_error h not_found_error]
  · rw [hfind, hfind']
    dsimp only
    rw [if_neg (not_not.mpr hxL), if_neg (not_not.mpr hxL')]
    have hid : x.id = i := Table.key_of_find hfind
    have hid' : x'.id = ρ i := Table.key_of_find hfind'
    -- What the handler reads back after its commit.
    have hback : ∀ {a a' : World}, Alike ρ T H u a a' →
        (∃ y, a.db.items.find i = some y ∧ y.list_id = L) →
        (∃ y, a'.db.items.find (ρ i) = some y ∧ y.list_id = ρ L) →
        Matched ρ T H u
          (proceed (read_back (a.db.items.find i)) a fun item => (json 200 (.item (.of item)), a))
          (proceed (read_back (a'.db.items.find (ρ i))) a' fun item =>
            (json 200 (.item (.of item)), a')) := by
      rintro a a' ha ⟨y, hy, hyL⟩ ⟨y', hy', hyL'⟩
      have hrel := (ha.agree.lists L hL).items i
      rw [item_of_eq_some.mpr ⟨hy, hyL⟩, item_of_eq_some.mpr ⟨hy', hyL'⟩] at hrel
      rw [hy, hy']
      exact matched_read_back ha hrel fun _ _ hyy => hyy
    have hcolumns : changed_columns x' body = changed_columns x body := by
      have hcontent : x'.content = x.content := hx.content
      have hcompleted : x'.completed = x.completed := hx.completed
      have horder : x'.order = x.order := hx.order
      unfold changed_columns
      rw [hcontent, hcompleted, horder]
    rw [hid, hid', hcolumns]
    apply matched_attempt h
    unfold update_item_row
    by_cases hnone : changed_columns x body = ⟨none, none, none⟩
    · rw [if_pos hnone, if_pos hnone]
      exact Or.inr ⟨[], [], rfl, rfl, hback h ⟨x, hfind, hxL⟩ ⟨x', hfind', hxL'⟩⟩
    · rw [if_neg hnone, if_neg hnone]
      by_cases hfit : (∀ c ∈ (changed_columns x body).content, text_storable c) ∧
          ∀ o ∈ (changed_columns x body).order, integer_fits o
      · have honly := only_list_patch_item (x := x) (by rw [hid, hfind]) (changed_columns x body)
          s.draws.db_now
        have honly' := only_list_patch_item (x := x') (by rw [hid', hfind'])
          (changed_columns x body) s'.draws.db_now
        rw [hid, hxL] at honly
        rw [hid', hxL'] at honly'
        refine Or.inr ⟨[.patch_item i (changed_columns x body) s.draws.db_now],
          [.patch_item (ρ i) (changed_columns x body) s'.draws.db_now], ?_, ?_, hback ?_ ?_ ?_⟩
        · rw [if_neg (not_not.mpr hfit), if_neg (by simp [hfind])]
        · rw [if_neg (not_not.mpr hfit), if_neg (by simp [hfind'])]
        · exact h.change hL hL' honly honly' ⟨rfl, rfl, rfl⟩ ⟨rfl, rfl, rfl⟩
            (agree_patch_item hat i _ hnow)
        · refine ⟨x.patch (changed_columns x body) s.draws.db_now, ?_, hxL⟩
          simp only [World.commit, Prog.applyAll_cons, Prog.applyAll_nil, apply_eq, Change.apply]
          rw [Table.find_update, if_pos rfl, hfind, Option.map_some]
        · refine ⟨x'.patch (changed_columns x body) s'.draws.db_now, ?_, hxL'⟩
          simp only [World.commit, Prog.applyAll_cons, Prog.applyAll_nil, apply_eq, Change.apply]
          rw [Table.find_update, if_pos rfl, hfind', Option.map_some]
      · exact Or.inl ⟨.data_error, by rw [if_pos hfit], by rw [if_pos hfit]⟩

theorem matched_create_share (hnow : T s.draws.db_now s'.draws.db_now) (L : UUID)
    (body : ShareCreate) :
    Matched ρ T H u (perform (create_share env L body s.request s.draws) s.draws.now w)
      (perform (create_share env (ρ L) body s'.request s'.draws) s'.draws.now w') := by
  obtain ⟨user, hu, huid⟩ := hmade
  obtain ⟨user', hu', huid'⟩ := hmade'
  rw [create_share_effect, create_share_effect]
  apply matched_gate h hρ hu huid hu' huid'
  intro role hL hat
  have hL' : ρ L ∉ H := fun hm => hL ((hρ L).mp hm)
  have husers : w'.db.users = w.db.users := h.agree.accounts.users
  have hlist : w'.db.lists.find (ρ L) = none ↔ w.db.lists.find L = none := by
    rcases rel_cases hat.list with ⟨hf, hf'⟩ | ⟨l, l', hf, hf', -⟩
    · simp [hf, hf']
    · simp [hf, hf']
  dsimp only
  by_cases hself : body.user_id = u
  · rw [if_pos hself, if_pos hself]
    exact matched_detail h _ _
  · rw [if_neg hself, if_neg hself, husers]
    cases htarget : w.db.users.find body.user_id with
    | none => exact matched_error h not_found_error
    | some target =>
      rcases rel_cases (hat.shares body.user_id) with ⟨hf, hf'⟩ | ⟨x, x', hf, hf', -⟩
      · rw [hf, hf']
        dsimp only
        have hrole : role_valid body.role := body.role_pattern
        by_cases hthere : w.db.lists.find L = none
        · have hleft : insert_share (new_share L body s.draws) w.db =
              .error .foreign_key_violation := by
            simp [insert_share, new_share, Share.key, hrole, hf, hthere]
          have hright : insert_share (new_share (ρ L) body s'.draws) w'.db =
              .error .foreign_key_violation := by
            simp [insert_share, new_share, Share.key, hrole, hf', hlist, hthere]
          rw [hleft, hright]
          exact matched_error h _
        · have hleft : insert_share (new_share L body s.draws) w.db =
              .ok [.insert_share (new_share L body s.draws)] := by
            simp [insert_share, new_share, Share.key, hrole, hf, hthere, htarget]
          have hright : insert_share (new_share (ρ L) body s'.draws) w'.db =
              .ok [.insert_share (new_share (ρ L) body s'.draws)] := by
            simp [insert_share, new_share, Share.key, hrole, hf', hlist, hthere, htarget, husers]
          rw [hleft, hright]
          have hsame : SameShare ρ T (.of (new_share L body s.draws))
              (.of (new_share (ρ L) body s'.draws)) := ⟨rfl, rfl, rfl, hnow⟩
          have honly := only_list_insert_share (x := new_share L body s.draws) hf
          have honly' := only_list_insert_share (x := new_share (ρ L) body s'.draws) hf'
          exact ⟨same_response_json ρ T hsame, h.change hL hL' honly honly' ⟨rfl, rfl, rfl⟩
            ⟨rfl, rfl, rfl⟩ (agree_insert_share hat hsame hf hf')⟩
      · rw [hf, hf']
        exact matched_detail h _ _

theorem matched_change_role (L v : UUID) (body : ShareUpdate) :
    Matched ρ T H u (perform (change_role env L v body s.request) s.draws.now w)
      (perform (change_role env (ρ L) v body s'.request) s'.draws.now w') := by
  obtain ⟨user, hu, huid⟩ := hmade
  obtain ⟨user', hu', huid'⟩ := hmade'
  rw [change_role_effect, change_role_effect]
  apply matched_gate h hρ hu huid hu' huid'
  intro role hL hat
  have hL' : ρ L ∉ H := fun hm => hL ((hρ L).mp hm)
  -- What the handler reads back after its commit.
  have hback : ∀ {a a' : World}, Alike ρ T H u a a' →
      Matched ρ T H u
        (proceed (read_back (a.db.shares.find (L, v))) a fun share =>
          (json 200 (.share (.of share)), a))
        (proceed (read_back (a'.db.shares.find (ρ L, v))) a' fun share =>
          (json 200 (.share (.of share)), a')) :=
    fun ha => matched_read_back ha ((ha.agree.lists L hL).shares v) fun _ _ hx => hx
  dsimp only
  rcases rel_cases (hat.shares v) with ⟨hf, hf'⟩ | ⟨x, x', hf, hf', hx⟩
  · rw [hf, hf']
    exact matched_error h not_found_error
  · rw [hf, hf']
    have hkey : x.key = (L, v) := Table.key_of_find hf
    have hkey' : x'.key = (ρ L, v) := Table.key_of_find hf'
    obtain ⟨hxL, hxv⟩ := Prod.mk.inj hkey
    obtain ⟨hxL', hxv'⟩ := Prod.mk.inj hkey'
    have hold : x'.role = x.role := hx.role
    have hrole : role_valid body.role := body.role_pattern
    dsimp only
    rw [hkey, hkey']
    apply matched_attempt h
    unfold role_statement update_role
    rw [hxL, hxv, hxL', hxv', hold]
    by_cases hsame : body.role = x.role
    · rw [if_pos hsame, if_pos hsame]
      exact Or.inr ⟨[], [], rfl, rfl, hback h⟩
    · rw [if_neg hsame, if_neg hsame]
      refine Or.inr ⟨[.set_role L v body.role], [.set_role (ρ L) v body.role], ?_, ?_, hback ?_⟩
      · simp [hrole, hf]
      · simp [hrole, hf']
      · exact h.change hL hL' (only_list_set_role _ _ _ _) (only_list_set_role _ _ _ _)
          ⟨rfl, rfl, rfl⟩ ⟨rfl, rfl, rfl⟩ (agree_set_role hat _ _)

theorem matched_revoke_share (L v : UUID) :
    Matched ρ T H u (perform (revoke_share env L v s.request) s.draws.now w)
      (perform (revoke_share env (ρ L) v s'.request) s'.draws.now w') := by
  obtain ⟨user, hu, huid⟩ := hmade
  obtain ⟨user', hu', huid'⟩ := hmade'
  rw [revoke_share_effect, revoke_share_effect]
  apply matched_gate h hρ hu huid hu' huid'
  intro role hL hat
  have hL' : ρ L ∉ H := fun hm => hL ((hρ L).mp hm)
  dsimp only
  rcases rel_cases (hat.shares v) with ⟨hf, hf'⟩ | ⟨x, x', hf, hf', -⟩
  · rw [hf, hf']
    exact matched_error h not_found_error
  · rw [hf, hf']
    have hkey : x.key = (L, v) := Table.key_of_find hf
    have hkey' : x'.key = (ρ L, v) := Table.key_of_find hf'
    obtain ⟨hxL, hxv⟩ := Prod.mk.inj hkey
    obtain ⟨hxL', hxv'⟩ := Prod.mk.inj hkey'
    dsimp only
    rw [hxL, hxv, hxL', hxv']
    exact ⟨same_response_json ρ T rfl,
      h.change hL hL' (only_list_delete_share _ _ _) (only_list_delete_share _ _ _)
        ⟨rfl, rfl, rfl⟩ ⟨rfl, rfl, rfl⟩ (agree_delete_share hat _)⟩

omit h hρ hmade hmade' in
theorem scanned_nodup {α : Type} {order : UUID → Nat} {id : α → UUID} {rows : List α}
    (hrows : rows.Nodup) : (scanned order id rows).Nodup :=
  (List.perm_insertionSort _ rows).nodup_iff.mpr hrows

theorem matched_list_shares (L : UUID) :
    Matched ρ T H u (perform (list_shares env L s.request s.draws) s.draws.now w)
      (perform (list_shares env (ρ L) s'.request s'.draws) s'.draws.now w') := by
  obtain ⟨user, hu, huid⟩ := hmade
  obtain ⟨user', hu', huid'⟩ := hmade'
  rw [list_shares_effect, list_shares_effect]
  apply matched_gate h hρ hu huid hu' huid'
  intro role hL hat
  refine ⟨same_response_json ρ T ?_, h⟩
  have hrow : ∀ (db : DB) (L : UUID) (order : UUID → Nat) (x : Share),
      x ∈ scanned order Share.user_id (db.shares.select fun s => decide (s.list_id = L)) ↔
        db.shares.find (L, x.user_id) = some x := by
    intro db L order x
    rw [mem_scanned, Table.mem_select, Table.find_eq_some_iff, decide_eq_true_eq]
    simp [Share.key]
  apply same_rows_map (R := fun x x' => SameShare ρ T (.of x) (.of x')) _ (fun _ _ hx => hx)
  exact same_rows_of_lookups (.refl UUID) Share.user_id Share.user_id
    (fun v => w.db.shares.find (L, v)) (fun v => w'.db.shares.find (ρ L, v))
    (scanned_nodup (Table.select_nodup _ _)) (scanned_nodup (Table.select_nodup _ _))
    (hrow w.db L _) (hrow w'.db (ρ L) _) hat.shares fun x x' hx => hx.user_id

theorem matched_list_items (L : UUID) :
    Matched ρ T H u (perform (list_items env L s.request s.draws) s.draws.now w)
      (perform (list_items env (ρ L) s'.request s'.draws) s'.draws.now w') := by
  obtain ⟨user, hu, huid⟩ := hmade
  obtain ⟨user', hu', huid'⟩ := hmade'
  rw [list_items_effect, list_items_effect]
  apply matched_gate h hρ hu huid hu' huid'
  intro role hL hat
  refine ⟨same_response_json ρ T ?_, h⟩
  have hrow : ∀ (db : DB) (L : UUID) (order : UUID → Nat) (x : Item),
      x ∈ ordered_items L order db ↔ item_of db L x.id = some x := by
    intro db L order x
    unfold ordered_items
    rw [List.mem_insertionSort, mem_scanned, Table.mem_select, item_of_eq_some,
      Table.mem_iff_find, decide_eq_true_eq]
  have hnodup : ∀ (db : DB) (L : UUID) (order : UUID → Nat), (ordered_items L order db).Nodup :=
    fun db L order => (List.perm_insertionSort _ _).nodup_iff.mpr
      (scanned_nodup (Table.select_nodup _ _))
  have hsorted : ∀ (db : DB) (L : UUID) (order : UUID → Nat),
      (ordered_items L order db).Pairwise fun a b => a.order ≤ b.order :=
    fun db L order => List.pairwise_insertionSort _ _
  have hrows : SameRows (fun x x' : Item => SameItem ρ T (.of x) (.of x'))
      (ordered_items L (s.draws.order 0) w.db) (ordered_items (ρ L) (s'.draws.order 0) w'.db) :=
    same_rows_of_lookups ρ Item.id Item.id (item_of w.db L) (item_of w'.db (ρ L)) (hnodup _ _ _)
      (hnodup _ _ _) (hrow w.db L _) (hrow w'.db (ρ L) _) hat.items fun x x' hx => hx.id
  refine ⟨same_rows_map hrows fun _ _ hx => hx, ?_⟩
  rw [List.map_map, List.map_map]
  exact (column_eq_of_sorted hrows (fun _ _ hx => hx.order.symm) (hsorted _ _ _)
    (hsorted _ _ _)).symm

omit h hρ hmade hmade' in
/-- A row stands in the list without repeats when a row with its id stood in the list. -/
theorem exists_of_without_repeats {seen : List UUID} {rows : List ListRow} {l : ListRow}
    (hl : l ∈ rows) (hseen : l.id ∉ seen) : ∃ m ∈ without_repeats seen rows, m.id = l.id := by
  induction rows generalizing seen with
  | nil => cases hl
  | cons x rest ih =>
    unfold without_repeats
    split
    · rename_i hx
      rcases List.mem_cons.mp hl with rfl | hl
      · exact absurd hx hseen
      · exact ih hl hseen
    · rcases List.mem_cons.mp hl with rfl | hl
      · exact ⟨l, List.mem_cons_self, rfl⟩
      · by_cases hx : l.id = x.id
        · exact ⟨x, List.mem_cons_self, hx.symm⟩
        · have hseen' : l.id ∉ x.id :: seen := by simp [hx, hseen]
          obtain ⟨m, hm, hid⟩ := ih hl hseen'
          exact ⟨m, List.mem_cons_of_mem _ hm, hid⟩

omit h hρ hmade hmade' in
theorem without_repeats_nodup (seen : List UUID) (rows : List ListRow) :
    (without_repeats seen rows).Nodup ∧ ∀ l ∈ without_repeats seen rows, l.id ∉ seen := by
  induction rows generalizing seen with
  | nil => exact ⟨List.nodup_nil, by intro l hl; cases hl⟩
  | cons x rest ih =>
    unfold without_repeats
    split
    · exact ih seen
    · rename_i hx
      obtain ⟨hnodup, hseen⟩ := ih (x.id :: seen)
      refine ⟨List.nodup_cons.mpr ⟨?_, hnodup⟩, ?_⟩
      · exact fun hmem => hseen x hmem List.mem_cons_self
      · intro l hl
        rcases List.mem_cons.mp hl with rfl | hl
        · exact hx
        · exact fun hmem => hseen l hl (List.mem_cons_of_mem _ hmem)

omit h hρ hmade hmade' in
/-- The lists of `list_lists` are the lists that the user may see. -/
theorem mem_visible_lists {db : DB} {v : UUID} {first second : UUID → Nat} (l : ListRow) :
    l ∈ without_repeats []
        (scanned first ListRow.id (db.lists.select fun l => decide (l.owner_id = v)) ++
          scanned second ListRow.id (shared_with v db)) ↔
      db.lists.find l.id = some l ∧ MaySee db l.id v := by
  have hrow : ∀ m, m ∈ scanned first ListRow.id (db.lists.select fun l => decide (l.owner_id = v)) ++
      scanned second ListRow.id (shared_with v db) ↔
        db.lists.find m.id = some m ∧ MaySee db m.id v := by
    intro m
    rw [List.mem_append, mem_scanned, mem_scanned, mem_shared_with, Table.mem_select,
      Table.mem_iff_find, decide_eq_true_eq]
    unfold MaySee IsOwner owner_of
    constructor
    · rintro (⟨hm, hv⟩ | ⟨hm, hrole⟩)
      · exact ⟨hm, Or.inl (by rw [hm, Option.map_some, hv])⟩
      · exact ⟨hm, Or.inr hrole⟩
    · rintro ⟨hm, hv | hrole⟩
      · rw [hm, Option.map_some, Option.some.injEq] at hv
        exact Or.inl ⟨hm, hv⟩
      · exact Or.inr ⟨hm, hrole⟩
  rw [← hrow]
  constructor
  · exact mem_without_repeats
  · intro hl
    obtain ⟨m, hm, hid⟩ := exists_of_without_repeats hl List.not_mem_nil
    have hfind := ((hrow m).mp (mem_without_repeats hm)).1
    rw [hid, ((hrow l).mp hl).1] at hfind
    cases hfind
    exact hm

theorem matched_list_lists :
    Matched ρ T H u (perform (list_lists env s.request s.draws) s.draws.now w)
      (perform (list_lists env s'.request s'.draws) s'.draws.now w') := by
  classical
  obtain ⟨user, hu, huid⟩ := hmade
  obtain ⟨user', hu', huid'⟩ := hmade'
  rw [list_lists_effect, list_lists_effect, hu, hu']
  dsimp only [proceed_ok]
  rw [huid, huid']
  refine ⟨same_response_json ρ T ?_, h⟩
  apply same_rows_map (R := fun l l' => SameList ρ T (.of l) (.of l')) _ (fun _ _ hl => hl)
  have hlook : ∀ {db : DB} {l : ListRow}, db.lists.find l.id = some l ∧ MaySee db l.id u ↔
      (if MaySee db l.id u then db.lists.find l.id else none) = some l := by
    intro db l
    by_cases hs : MaySee db l.id u
    · rw [if_pos hs, and_iff_left hs]
    · rw [if_neg hs]
      exact iff_of_false (fun hl => hs hl.2) (by simp)
  apply same_rows_of_lookups ρ ListRow.id ListRow.id
    (fun L => if MaySee w.db L u then w.db.lists.find L else none)
    (fun L => if MaySee w'.db L u then w'.db.lists.find L else none)
    (without_repeats_nodup _ _).1 (without_repeats_nodup _ _).1
    (fun l => (mem_visible_lists l).trans hlook) (fun l => (mem_visible_lists l).trans hlook)
  · intro L
    by_cases hL : L ∈ H
    · rw [if_neg (h.left L hL), if_neg (h.right _ ((hρ L).mpr hL))]
      exact .none
    · have hat := h.agree.lists L hL
      have hsee : MaySee w'.db (ρ L) u ↔ MaySee w.db L u := by
        unfold MaySee IsOwner HasShare
        rw [hat.owner, hat.share_role]
      by_cases hs : MaySee w.db L u
      · rw [if_pos hs, if_pos (hsee.mpr hs)]
        exact hat.list
      · rw [if_neg hs, if_neg (fun hm => hs (hsee.mp hm))]
        exact .none
  · exact fun l l' hl => hl.id

end

end

/-! ## One request and whole runs -/

section
variable {ρ T H env} {u : UUID} {w w' : World} {s s' : Step}

theorem matched_handler (h : Alike ρ T H u w w') (hρ : ∀ L, ρ L ∈ H ↔ L ∈ H)
    (ht : Twins ρ T H env u s s' w w') :
    Matched ρ T H u (perform (handler_of env s.call s.request s.draws) s.draws.now w)
      (perform (handler_of env s'.call s'.request s'.draws) s'.draws.now w') := by
  obtain ⟨on_lists, call, -, made, made', db_now, row⟩ := ht
  unfold DrawsRow at row
  rw [call]
  cases hcall : s.call with
  | create_list body =>
    rw [hcall] at row
    obtain ⟨hid, hH, hfree, hfree'⟩ := row
    exact matched_create_list h hρ made made' db_now hid hH hfree hfree' body
  | list_lists => exact matched_list_lists h hρ made made'
  | get_list L => exact matched_get_list h hρ made made' L
  | rename_list L body => exact matched_rename_list h hρ made made' db_now L body
  | delete_list L => exact matched_delete_list h hρ made made' L
  | create_item L body =>
    rw [hcall] at row
    obtain ⟨hid, hfree, hfree'⟩ := row
    exact matched_create_item h hρ made made' db_now hid hfree hfree' L body
  | list_items L => exact matched_list_items h hρ made made' L
  | update_item L i body => exact matched_update_item h hρ made made' db_now L i body
  | delete_item L i => exact matched_delete_item h hρ made made' L i
  | create_share L body => exact matched_create_share h hρ made made' db_now L body
  | list_shares L => exact matched_list_shares h hρ made made' L
  | change_role L v body => exact matched_change_role h hρ made made' L v body
  | revoke_share L v => exact matched_revoke_share h hρ made made' L v
  | _ =>
    rw [hcall] at on_lists
    cases on_lists

theorem matched_step (h : Alike ρ T H u w w') (hρ : ∀ L, ρ L ∈ H ↔ L ∈ H)
    (ht : Twins ρ T H env u s s' w w') :
    Matched ρ T H u (s.handle env w) (s'.handle env w') := by
  have hdispatch : dispatch s'.call.method s'.call.path s'.request =
      dispatch s.call.method s.call.path s.request := by
    rw [ht.call, ht.request]
    exact dispatch_renamed ρ ht.on_lists s.request
  unfold Step.handle
  rw [hdispatch]
  cases hd : dispatch s.call.method s.call.path s.request with
  | error e => exact matched_error h e
  | ok verdict =>
    cases verdict with
    | answer r =>
      obtain ⟨text, rfl⟩ := dispatch_answer hd
      exact ⟨same_response_json ρ T rfl, h⟩
    | forward => exact matched_handler h hρ ht

theorem matched_run (hρ : ∀ L, ρ L ∈ H ↔ L ∈ H) (steps : List (Step × Step)) (w w' : World)
    (h : Alike ρ T H u w w') (ht : TwinRuns ρ T H env u steps w w') :
    List.Forall₂ (SameResponse ρ T) (responses env (steps.map Prod.fst) w)
        (responses env (steps.map Prod.snd) w') ∧
      Alike ρ T H u (run env (steps.map Prod.fst) w) (run env (steps.map Prod.snd) w') := by
  induction steps generalizing w w' with
  | nil => exact ⟨.nil, h⟩
  | cons pair steps ih =>
    obtain ⟨s, s'⟩ := pair
    obtain ⟨htwins, hrest⟩ := ht
    obtain ⟨hresponse, halike⟩ := matched_step h hρ htwins
    obtain ⟨hresponses, hend⟩ := ih _ _ halike hrest
    exact ⟨.cons hresponse hresponses, hend⟩

end

/-! ## The law -/

/-- The renaming keeps the ids that stand in the state, and the lists of `H`
among themselves. -/
structure KeepsIds (db : DB) : Prop where
  hidden : ∀ L, ρ L ∈ H ↔ L ∈ H
  lists : ∀ L ∉ H, db.lists.find L ≠ none → ρ L = L
  items : ∀ L ∉ H, ∀ i, item_of db L i ≠ none → ρ L = L ∧ ρ i = i
  shares : ∀ L ∉ H, ∀ v, db.shares.find (L, v) ≠ none → ρ L = L

section
variable {ρ T H} {u : UUID} {w w' : World}

theorem rel_of_eq {α : Type} {R : α → α → Prop} {a b : Option α} (h : b = a)
    (hR : ∀ x, a = some x → R x x) : Option.Rel R a b := by
  subst h
  cases b with
  | none => exact .none
  | some x => exact .some (hR x rfl)

/-- What the renaming moves is in no row of the states. -/
theorem agree_of_exactly (h : AgreeExactly H w w') (hρ : KeepsIds ρ H w.db) (hT : ∀ t, T t t) :
    Agree ρ T H w.db w'.db := by
  refine ⟨h.accounts, ?_⟩
  intro L hL
  have hL' : ρ L ∉ H := fun hm => hL ((hρ.hidden L).mp hm)
  have hfixed : ρ (ρ L) = ρ L → ρ L = L := fun he => ρ.injective he
  refine ⟨?_, ?_, ?_⟩
  · apply rel_of_eq
    · rw [h.lists _ hL']
      by_cases hr : ρ L = L
      · rw [hr]
      · have hleft := mt (hρ.lists L hL) hr
        have hright := mt (hρ.lists _ hL') (fun he => hr (hfixed he))
        rw [not_not.mp hleft, not_not.mp hright]
    · intro l hl
      have hr := hρ.lists L hL (by rw [hl]; simp)
      have hid : l.id = L := Table.key_of_find hl
      exact ⟨by simp [ListOut.of, hid, hr], rfl, rfl, hT _, hT _⟩
  · intro i
    apply rel_of_eq
    · rw [h.items _ hL']
      by_cases hr : ρ L = L ∧ ρ i = i
      · rw [hr.1, hr.2]
      · have hleft := mt (hρ.items L hL i) hr
        have hright := mt (hρ.items _ hL' (ρ i))
          (fun he => hr ⟨hfixed he.1, ρ.injective he.2⟩)
        rw [not_not.mp hleft, not_not.mp hright]
    · intro x hx
      obtain ⟨hr, hri⟩ := hρ.items L hL i (by rw [hx]; simp)
      obtain ⟨hfind, hxL⟩ := item_of_eq_some.mp hx
      have hid : x.id = i := Table.key_of_find hfind
      exact ⟨by simp [ItemOut.of, hid, hri], by simp [ItemOut.of, hxL, hr], rfl, rfl, rfl, hT _,
        hT _⟩
  · intro v
    apply rel_of_eq
    · rw [h.shares _ hL']
      by_cases hr : ρ L = L
      · rw [hr]
      · have hleft := mt (hρ.shares L hL v) hr
        have hright := mt (hρ.shares _ hL' v) (fun he => hr (hfixed he))
        rw [not_not.mp hleft, not_not.mp hright]
    · intro x hx
      have hr := hρ.shares L hL v (by rw [hx]; simp)
      have hkey : x.key = (L, v) := Table.key_of_find hx
      exact ⟨by simp [ShareOut.of, (Prod.mk.inj hkey).1, hr], rfl, rfl, hT _⟩

end

/-- Two states agree but for lists in which the user has no part. Then the same
requests of the user, of any number, have the same responses in both, and the
states agree again at the end. -/
theorem a_stranger_learns_nothing (user_id : UUID) (w w' : World) (hsame : AgreeExactly H w w')
    (hleft : Stranger H user_id w.db) (hright : Stranger H user_id w'.db)
    (hρ : KeepsIds ρ H w.db) (hT : ∀ t, T t t) (steps : List (Step × Step))
    (htwins : TwinRuns ρ T H env user_id steps w w') :
    List.Forall₂ (SameResponse ρ T) (responses env (steps.map Prod.fst) w)
        (responses env (steps.map Prod.snd) w') ∧
      Alike ρ T H user_id (run env (steps.map Prod.fst) w) (run env (steps.map Prod.snd) w') :=
  matched_run hρ.hidden steps w w'
    ⟨agree_of_exactly hsame hρ hT, hsame.store, hleft, hright⟩ htwins

def bob : EmailStr := ⟨"bob@example.com", by decide, by decide, by decide⟩

def bob_registers : Step where
  call := .register ⟨bob, "battery staple", by decide⟩
  request := .sample
  draws := .sample "b" 2

/-- A request with a session. -/
def in_session (token : String) (call : Call) (row_id : UUID) : Step where
  call := call
  request := { Request.sample with session := some token }
  draws := .sample "x" row_id

def both_registered : World := run .sample [ann_registers "a" 1, bob_registers] .empty

def bob_has_a_list : World :=
  (in_session "b" (.create_list ⟨"plans", by decide⟩) 7).after .sample both_registered

/-- What Ann asks, with the id of Bob's list among it. -/
def ann_asks : List Step :=
  [in_session "a" .list_lists 0, in_session "a" (.get_list 7) 0,
    in_session "a" (.create_list ⟨"groceries", by decide⟩) 8,
    in_session "a" (.delete_item 8 9) 0]

/-- Ann has the same responses whether Bob has a list or not. -/
theorem ann_learns_nothing_of_bobs_list :
    List.Forall₂ (SameResponse (.refl UUID) Eq) (responses .sample ann_asks both_registered)
        (responses .sample ann_asks bob_has_a_list) ∧
      Alike (.refl UUID) Eq {7} 1 (run .sample ann_asks both_registered)
        (run .sample ann_asks bob_has_a_list) := by
  have hids : bob_has_a_list.db.lists.rows.map ListRow.id = [7] := by decide
  have hstranger : Stranger {7} 1 bob_has_a_list.db := by
    rintro L rfl
    unfold MaySee IsOwner HasShare
    rw [show owner_of bob_has_a_list.db 7 = some 2 by decide,
      show share_role_of bob_has_a_list.db 7 1 = none by decide]
    simp
  have hsame : AgreeExactly {7} both_registered bob_has_a_list := by
    refine ⟨rfl, ⟨rfl, rfl, rfl⟩, ?_, fun _ _ _ => rfl, fun _ _ _ => rfl⟩
    intro L hL
    rw [(Table.find_eq_none_iff _ L).mpr (by rw [hids]; simpa using hL)]
    rfl
  -- The row of Ann, which her session names.
  let a : User := new_user .sample ann_registration (.sample "a" 1)
  refine a_stranger_learns_nothing (.refl UUID) Eq {7} .sample 1 both_registered bob_has_a_list
    hsame ?_ hstranger ⟨fun _ => .rfl, fun _ _ _ => rfl, fun _ _ _ _ => ⟨rfl, rfl⟩,
      fun _ _ _ _ => rfl⟩ (fun _ => rfl) (ann_asks.map fun s => (s, s)) ?_
  · rintro L rfl
    unfold MaySee IsOwner HasShare
    rw [show owner_of both_registered.db 7 = none by decide,
      show share_role_of both_registered.db 7 1 = none by decide]
    simp
  · refine ⟨⟨rfl, rfl, rfl, ⟨a, rfl, rfl⟩, ⟨a, rfl, rfl⟩, rfl, trivial⟩,
      ⟨rfl, rfl, rfl, ⟨a, rfl, rfl⟩, ⟨a, rfl, rfl⟩, rfl, trivial⟩,
      ⟨rfl, rfl, rfl, ⟨a, rfl, rfl⟩, ⟨a, rfl, rfl⟩, rfl, rfl, by simp [in_session, Draws.sample],
        rfl, rfl⟩,
      ⟨rfl, rfl, rfl, ⟨a, rfl, rfl⟩, ⟨a, rfl, rfl⟩, rfl, trivial⟩, trivial⟩

end shared_todos.strangers
