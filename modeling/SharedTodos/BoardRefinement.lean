-- The handlers of the lists, the items and the shares play the board: each request leaves
-- the board that its move leaves, and is answered what the move is told.
import SharedTodos.Board
import SharedTodos.Library.DirtyColumn
import SharedTodos.Dashboard
import SharedTodos.Strangers

open keyed_table transactions
open shared_todos.models shared_todos.http shared_todos.sessions shared_todos.authz
open shared_todos.lists shared_todos.items shared_todos.shares
open shared_todos.csrf shared_todos.app shared_todos.accounts shared_todos.authorization
open shared_todos.strangers shared_todos.role_invariant shared_todos.dashboard shared_todos.board

namespace shared_todos.board_refinement

variable (env : Env)

/-! ## The board of a database -/

def guest_of (role : String) : Option Guest :=
  if role = "editor" then some .editor else if role = "viewer" then some .viewer else none

def card_of (i : Item) : Card := ⟨i.content, i.completed, i.order⟩

def sheet_of (db : DB) (l : ListRow) : Sheet UUID UUID where
  owner := l.owner_id
  name := l.name
  guests u := if u = l.owner_id then none else (share_role_of db l.id u).bind guest_of
  cards i := (item_of db l.id i).map card_of
  owner_is_no_guest := if_pos rfl

def sheet_at (db : DB) (L : UUID) : Option (Sheet UUID UUID) := (db.lists.find L).map (sheet_of db)

def board_of (db : DB) : Board UUID UUID UUID where
  known u := (db.users.find u).isSome
  sheets := sheet_at db

/-- What the columns hold. -/
def limits : Limits where
  name s := decide (text_fits 256 s)
  content s := decide (text_storable s)
  order n := decide (integer_fits n)

/-- The constraints and the roles, as every state of a run has them. -/
structure Sound (db : DB) : Prop where
  valid : Valid db
  roles : Roles db

section
variable {db db' : DB} {L u : UUID} {l : ListRow}

theorem sheet_at_of_find (h : db.lists.find L = some l) : sheet_at db L = some (sheet_of db l) := by
  simp [sheet_at, h]

theorem sheet_at_eq_none (h : db.lists.find L = none) : sheet_at db L = none := by
  simp [sheet_at, h]

/-- The owner has no share, so nothing is left out. -/
theorem guests_of_roles (h : Roles db) (hl : db.lists.find L = some l) (u : UUID) :
    (sheet_of db l).guests u = (share_role_of db L u).bind guest_of := by
  obtain rfl : l.id = L := Table.key_of_find hl
  simp only [sheet_of]
  split
  · rename_i hu
    have howner : IsOwner db l.id u := by simp [IsOwner, owner_of, hl, hu]
    have hnone := owner_has_no_share h howner
    simp [share_role_of, hnone]
  · rfl

/-- A guest is one who has a share. -/
theorem guests_cases (h : Roles db) (hl : db.lists.find L = some l) (u : UUID) :
    (sheet_of db l).guests u = none ∧ db.shares.find (L, u) = none ∨
      ∃ x guest, (sheet_of db l).guests u = some guest ∧ db.shares.find (L, u) = some x ∧
        guest_of x.role = some guest := by
  rw [guests_of_roles h hl]
  unfold share_role_of
  cases hfind : db.shares.find (L, u) with
  | none => exact Or.inl ⟨rfl, rfl⟩
  | some x =>
    rcases h.role x (Table.mem_of_find hfind) with hrole | hrole
    · exact Or.inr ⟨x, .editor, by simp [hrole, guest_of], rfl, by simp [hrole, guest_of]⟩
    · exact Or.inr ⟨x, .viewer, by simp [hrole, guest_of], rfl, by simp [hrole, guest_of]⟩

theorem cards_of_list (hl : db.lists.find L = some l) (i : UUID) :
    (sheet_of db l).cards i = (item_of db L i).map card_of := by
  obtain rfl : l.id = L := Table.key_of_find hl
  rfl

/-- A sheet is what its list, its items and its shares are. -/
theorem sheet_at_congr (hlists : db'.lists.find L = db.lists.find L)
    (hitems : ∀ i, item_of db' L i = item_of db L i)
    (hshares : ∀ v, db'.shares.find (L, v) = db.shares.find (L, v)) :
    sheet_at db' L = sheet_at db L := by
  unfold sheet_at
  rw [hlists]
  cases hl : db.lists.find L with
  | none => rfl
  | some l =>
    obtain rfl : l.id = L := Table.key_of_find hl
    simp only [Option.map_some, Option.some.injEq]
    ext
    · rfl
    · rfl
    · simp only [sheet_of, share_role_of, hshares]
    · simp only [sheet_of, hitems]

theorem sheet_at_of_only_list {M : UUID} (h : OnlyList M db db') (hL : L ≠ M) :
    sheet_at db' L = sheet_at db L :=
  sheet_at_congr (h.lists L hL) (h.items L hL) (h.shares L hL)

theorem board_of_same_lists (h : SameLists db db') :
    (board_of db').sheets = (board_of db).sheets := by
  funext L
  exact sheet_at_congr (by rw [h.lists]) (fun i => by unfold item_of; rw [h.items])
    fun v => by rw [h.shares]

end

/-! ## The moves of the requests -/

/-- The pattern of the bodies lets no other role through. -/
def guest_named (role : String) : Guest := if role = "editor" then .editor else .viewer

theorem guest_of_pattern {role : String} (h : role = "editor" ∨ role = "viewer") :
    guest_of role = some (guest_named role) := by
  rcases h with rfl | rfl <;> rfl

def edit_of (body : ItemUpdate) : Edit := ⟨body.content, body.completed, body.order⟩

abbrev BoardMove := Move UUID UUID UUID

abbrev BoardReply := Reply UUID UUID UUID

/-- The move of a request. A new list or item gets the id that the request draws. -/
def move_of (d : Draws) : Call → Option BoardMove
  | .create_list body => some (.on d.row_id (.create_list body.name))
  | .list_lists => some .list_lists
  | .get_list L => some (.on L (.work .get_list))
  | .rename_list L body => some (.on L (.work (.rename_list body.name)))
  | .delete_list L => some (.on L (.work .delete_list))
  | .create_item L body => some (.on L (.work (.create_item d.row_id body.content body.order)))
  | .list_items L => some (.on L (.work .list_items))
  | .update_item L i body => some (.on L (.work (.update_item i (edit_of body))))
  | .delete_item L i => some (.on L (.work (.delete_item i)))
  | .create_share L body => some (.on L (.work (.create_share body.user_id (guest_named body.role))))
  | .list_shares L => some (.on L (.work .list_shares))
  | .change_role L u body => some (.on L (.work (.change_role u (guest_named body.role))))
  | .revoke_share L u => some (.on L (.work (.revoke_share u)))
  | _ => none

/-! ## What an answer says -/

def response_of : Refusal → Response
  | .not_found => not_found_error.response
  | .yourself => ⟨400, .detail "Cannot share with yourself", [], []⟩
  | .already_shared => ⟨409, .detail "User already has access", [], []⟩
  | .not_stored => json 500 .internal_server_error

def status_of : BoardMove → Nat
  | .on _ (.create_list _) | .on _ (.work (.create_item ..)) | .on _ (.work (.create_share ..)) => 201
  | .on _ (.work .delete_list) | .on _ (.work (.delete_item _)) | .on _ (.work (.revoke_share _)) =>
    204
  | _ => 200

/-- The body shows what the reply says, each row once, and the items of a list by their order. -/
inductive Shows : BoardReply → Body → Prop where
  | list (out : ListOut) : Shows (.list out.id out.owner_id out.name) (.list out)
  | lists (seen : UUID → Option (UUID × String)) (outs : List ListOut)
      (once : (outs.map (·.id)).Nodup)
      (rows : ∀ L owner name, seen L = some (owner, name) ↔
        ∃ out ∈ outs, out.id = L ∧ out.owner_id = owner ∧ out.name = name) :
    Shows (.lists seen) (.lists outs)
  | item (out : ItemOut) :
    Shows (.item out.list_id out.id ⟨out.content, out.completed, out.order⟩) (.item out)
  | items (L : UUID) (cards : UUID → Option Card) (outs : List ItemOut)
      (once : (outs.map (·.id)).Nodup) (sorted : outs.Pairwise fun a b => a.order ≤ b.order)
      (here : ∀ out ∈ outs, out.list_id = L)
      (rows : ∀ i card, cards i = some card ↔
        ∃ out ∈ outs, out.id = i ∧ card = ⟨out.content, out.completed, out.order⟩) :
    Shows (.items L cards) (.items outs)
  | share (out : ShareOut) (guest : Guest) (role : guest_of out.role = some guest) :
    Shows (.share out.list_id out.user_id guest) (.share out)
  | shares (L : UUID) (guests : UUID → Option Guest) (outs : List ShareOut)
      (once : (outs.map (·.user_id)).Nodup) (here : ∀ out ∈ outs, out.list_id = L)
      (rows : ∀ u guest, guests u = some guest ↔
        ∃ out ∈ outs, out.user_id = u ∧ guest_of out.role = some guest) :
    Shows (.shares L guests) (.shares outs)
  | done : Shows .done .empty

/-- The response says what the move is told. -/
inductive Says (m : BoardMove) : Except Refusal BoardReply → Response → Prop where
  | refused (e : Refusal) : Says m (.error e) (response_of e)
  | done (reply : BoardReply) (body : Body) (shows_it : Shows reply body) :
    Says m (.ok reply) (json (status_of m) body)

/-- The request of the user plays the move. -/
structure Plays (w : World) (u : UUID) (m : BoardMove) (x : Response × World) : Prop where
  board : board_of x.2.db = (board_of w.db).after limits u m
  answer : Says m ((board_of w.db).told limits u m) x.1

section
variable {w : World} {u : UUID}

theorem plays_refused {m : BoardMove} {e : Refusal}
    (h : (board_of w.db).play limits u m = .error e) : Plays w u m (response_of e, w) := by
  constructor
  · simp [Board.after, h]
  · simp only [Board.told, h]
    exact .refused e

theorem plays_done {m : BoardMove} {b : Board UUID UUID UUID} (reply : BoardReply) {w' : World}
    {body : Body} (h : (board_of w.db).play limits u m = .ok (b, reply)) (hb : board_of w'.db = b)
    (hshows : Shows reply body) : Plays w u m (json (status_of m) body, w') := by
  constructor
  · simp [Board.after, h, hb]
  · simp only [Board.told, h]
    exact .done reply body hshows

end

/-! ## Through the gate -/

def need_of : Action → Need
  | .read_list | .list_items => .reader
  | .create_item | .update_item | .delete_item => .writer
  | .rename_list | .share_list | .change_collaborator_role | .revoke_share | .delete_list => .owner

section
variable {db : DB} {L u : UUID} {l : ListRow}

/-- The matrix gives an action to the roles that the board gives it to. -/
theorem allows_iff (h : Roles db) (hl : db.lists.find L = some l) {standing : Option Role}
    (hstands : ∀ other, Stands db L u other ↔ other = standing) (action : Action) :
    (sheet_of db l).allows u (need_of action) = true ↔
      ∃ role, standing = some role ∧ action ∈ ALLOWED role := by
  have howner : u = l.owner_id ↔ some .owner = standing := by
    rw [← hstands]
    simp [Stands, RoleHeld, IsOwner, owner_of, hl, eq_comm]
  have heditor : (sheet_of db l).guests u = some .editor ↔ some .editor = standing := by
    rw [← hstands, guests_of_roles h hl]
    rcases share_role_cases h L u with ⟨-, hrole⟩ | ⟨-, hrole | hrole⟩ <;>
      simp [Stands, RoleHeld, HasShare, hrole, guest_of]
  have hviewer : (sheet_of db l).guests u = some .viewer ↔ some .viewer = standing := by
    rw [← hstands, guests_of_roles h hl]
    rcases share_role_cases h L u with ⟨-, hrole⟩ | ⟨-, hrole | hrole⟩ <;>
      simp [Stands, RoleHeld, HasShare, hrole, guest_of]
  have hguest : (sheet_of db l).guests u ≠ none ↔
      some .editor = standing ∨ some .viewer = standing := by
    rw [← heditor, ← hviewer]
    rcases (sheet_of db l).guests u with _ | _ | _ <;> simp
  have hallows : ∀ need, (sheet_of db l).allows u need = true ↔
      some .owner = standing ∨ need ≠ .owner ∧ some .editor = standing ∨
        need = .reader ∧ some .viewer = standing := by
    intro need
    have hsheet : (sheet_of db l).owner = l.owner_id := rfl
    cases need <;> simp [Sheet.allows, hsheet, howner, heditor, hguest]
  rw [hallows]
  rcases standing with _ | _ | _ | _ <;> cases action <;> simp [need_of, ALLOWED]

theorem list_of_standing (h : Roles db) {role : Role} (hheld : RoleHeld db L u role) :
    ∃ l, db.lists.find L = some l := by
  have hshare : ∀ role, HasShare db L u role → ∃ l, db.lists.find L = some l := by
    intro role hshare
    obtain ⟨x, hx, -⟩ := Option.map_eq_some_iff.mp hshare
    obtain ⟨o, ho, -⟩ := h.list x (Table.mem_of_find hx)
    have hkey := Table.key_of_find hx
    simp only [Share.key, Prod.mk.injEq] at hkey
    rw [hkey.1] at ho
    exact (Option.map_eq_some_iff.mp ho).imp fun _ h => h.1
  cases role with
  | owner => exact (Option.map_eq_some_iff.mp hheld).imp fun _ h => h.1
  | editor => exact hshare _ hheld
  | viewer => exact hshare _ hheld

end

/-- The request does the work at the sheet of a list, and leaves the other lists alone. -/
inductive Works (w : World) (L : UUID) (s : Sheet UUID UUID) (k : Work UUID UUID) :
    Response × World → Prop where
  | refused (e : Refusal)
      (refuses : k.done limits (board_of w.db).known (board_of w.db).free L s = .error e) :
    Works w L s k (response_of e, w)
  | done (p : Option (Sheet UUID UUID)) (reply : BoardReply) (w' : World) (body : Body)
      (does : k.done limits (board_of w.db).known (board_of w.db).free L s = .ok (p, reply))
      (users : w'.db.users = w.db.users) (here : sheet_at w'.db L = p)
      (others : OnlyList L w.db w'.db) (shows_it : Shows reply body) :
    Works w L s k (json (status_of (.on L (.work k))) body, w')

section
variable {env} {w : World} {L u : UUID} {k : Work UUID UUID}

/-- The board after a change at one place. -/
theorem board_of_change (db : DB) {db' : DB} {p : Option (Sheet UUID UUID)}
    (husers : db'.users = db.users) (hhere : sheet_at db' L = p) (hothers : OnlyList L db db') :
    board_of db' = { board_of db with sheets := Function.update (sheet_at db) L p } := by
  unfold board_of
  rw [husers]
  congr 1
  funext M
  by_cases hM : M = L
  · subst hM
    rw [Function.update_self, hhere]
  · rw [Function.update_of_ne hM, sheet_at_of_only_list hothers hM]

theorem plays_of_works {l : ListRow} (hl : w.db.lists.find L = some l)
    (hallows : (sheet_of w.db l).allows u k.need = true) {x : Response × World}
    (h : Works w L (sheet_of w.db l) k x) : Plays w u (.on L (.work k)) x := by
  have hplace : (board_of w.db).sheets L = some (sheet_of w.db l) := sheet_at_of_find hl
  cases h with
  | refused e refuses =>
    apply plays_refused
    simp [Board.play, hplace, Task.act, hallows, refuses, Except.map]
  | done p reply w' body does users here others shows_it =>
    refine plays_done reply ?_ (board_of_change w.db users here others) shows_it
    simp only [Board.play, hplace, Task.act, hallows, does, Except.map, if_true]
    rfl

theorem plays_of_stranger
    (h : ∀ l, w.db.lists.find L = some l → (sheet_of w.db l).allows u k.need = false) :
    Plays w u (.on L (.work k)) (not_found_error.response, w) := by
  apply plays_refused (e := .not_found)
  cases hl : w.db.lists.find L with
  | none =>
    have hplace : (board_of w.db).sheets L = none := sheet_at_eq_none hl
    simp [Board.play, hplace, Task.act, Except.map]
  | some l =>
    have hplace : (board_of w.db).sheets L = some (sheet_of w.db l) := sheet_at_of_find hl
    simp [Board.play, hplace, Task.act, h l hl, Except.map]

/-- The gate lets through whom the sheet allows. -/
theorem plays_of_gate (hw : Roles w.db) {session : Option String} {now : Time} {user : User}
    (huser : session_user env session now w.db = .ok user) {action : Action}
    (hneed : k.need = need_of action) {rest : ListPermission → Response × World}
    (h : ∀ l role, w.db.lists.find L = some l →
      (sheet_of w.db l).allows user.id k.need = true →
      Works w L (sheet_of w.db l) k (rest ⟨L, user.id, role⟩)) :
    Plays w user.id (.on L (.work k)) (proceed (gate env action L session now w.db) w rest) := by
  obtain ⟨standing, hrole, hstands⟩ := one_role_of_roles hw L user.id
  have hallows : ∀ l, w.db.lists.find L = some l → ((sheet_of w.db l).allows user.id k.need = true ↔
      ∃ role, standing = some role ∧ action ∈ ALLOWED role) := by
    intro l hl
    rw [hneed]
    exact allows_iff hw hl hstands action
  unfold gate
  rw [huser]
  dsimp only
  rw [hrole]
  cases standing with
  | none =>
    refine plays_of_stranger fun l hl => ?_
    simpa using (hallows l hl).not
  | some role =>
    by_cases hallowed : action ∈ ALLOWED role
    · obtain ⟨l, hl⟩ := list_of_standing hw ((hstands (some role)).mpr rfl)
      have hsheet := (hallows l hl).mpr ⟨role, rfl, hallowed⟩
      simp only [can_perform, hallowed, decide_true, if_true, proceed_ok]
      exact plays_of_works hl hsheet (h l role hl hsheet)
    · simp only [can_perform, hallowed, decide_false, Bool.false_eq_true, if_false, proceed_error]
      refine plays_of_stranger fun l hl => ?_
      simpa [hallowed] using (hallows l hl).not

end

/-! ## The handlers -/

section
variable {env} {w : World} {s : Step} {user : User} {L : UUID} {l : ListRow}

/-- A request that only reads. -/
theorem works_of_read {k : Work UUID UUID} (reply : BoardReply) {body : Body}
    (hl : w.db.lists.find L = some l)
    (hdone : k.done limits (board_of w.db).known (board_of w.db).free L (sheet_of w.db l) =
      .ok (some (sheet_of w.db l), reply)) (hshows : Shows reply body) :
    Works w L (sheet_of w.db l) k (json (status_of (.on L (.work k))) body, w) :=
  .done _ reply w body hdone rfl (sheet_at_of_find hl) (.refl ..) hshows

/-! ### The lists -/

theorem find_set_list_name {db : DB} (hl : db.lists.find L = some l) (name : String) (now : Time) :
    (Change.apply (.set_list_name L name now) db).lists.find L =
      some { l with name, updated_at := now } := by
  simp only [Change.apply]
  rw [Table.find_update, if_pos rfl, hl]
  rfl

theorem sheet_of_set_list_name {db : DB} (hl : db.lists.find L = some l) (name : String)
    (now : Time) :
    sheet_at (Change.apply (.set_list_name L name now) db) L =
      some ((sheet_of db l).rename name) := by
  rw [sheet_at_of_find (find_set_list_name hl name now)]
  rfl

theorem works_get_list (hl : w.db.lists.find L = some l) :
    Works w L (sheet_of w.db l) .get_list (json 200 (.list (.of l)), w) := by
  obtain rfl : l.id = L := Table.key_of_find hl
  exact works_of_read _ hl rfl (.list (.of l))

theorem works_rename_list (hl : w.db.lists.find L = some l) (name : String) (now : Time) :
    Works w L (sheet_of w.db l) (.rename_list name)
      (attempt (rename_statement l name now) w fun w' =>
        proceed (read_back (w'.db.lists.find l.id)) w' fun l => (json 200 (.list (.of l)), w')) := by
  obtain rfl : l.id = L := Table.key_of_find hl
  have hname : (sheet_of w.db l).name = l.name := rfl
  by_cases hsame : name = l.name
  · have hst : rename_statement l name now w.db = .ok [] := by simp [rename_statement, hsame]
    rw [attempt_ok hst]
    change Works w l.id _ _ (proceed (read_back (w.db.lists.find l.id)) w _)
    rw [hl]
    have hrename : (sheet_of w.db l).rename name = sheet_of w.db l := by rw [hsame]; rfl
    have hdone : (Work.rename_list name).done limits (board_of w.db).known (board_of w.db).free l.id
        (sheet_of w.db l) = .ok (some ((sheet_of w.db l).rename name), .list l.id l.owner_id name) := by
      simp only [Work.done, hname, hsame, true_or, if_true]
      rfl
    rw [hrename] at hdone
    refine works_of_read _ hl hdone ?_
    rw [hsame]
    exact .list (.of l)
  · by_cases hfits : text_fits 256 name
    · have hst : rename_statement l name now w.db = .ok [.set_list_name l.id name now] := by
        simp [rename_statement, update_list_name, hsame, hfits, hl]
      have hfind : (w.commit [.set_list_name l.id name now]).db.lists.find l.id =
          some { l with name, updated_at := now } := find_set_list_name hl name now
      rw [attempt_ok hst, hfind]
      refine .done _ (.list l.id l.owner_id name) _ _ ?_ rfl (sheet_of_set_list_name hl name now)
        (only_list_set_list_name ..) (.list (.of { l with name, updated_at := now }))
      simp only [Work.done, hname, limits, hfits, decide_true, or_true, if_true]
      rfl
    · have hst : rename_statement l name now w.db = .error .data_error := by
        simp [rename_statement, update_list_name, hsame, hfits]
      rw [attempt_error hst]
      refine .refused .not_stored ?_
      simp [Work.done, hname, limits, hsame, hfits]

theorem works_delete_list (hl : w.db.lists.find L = some l) :
    Works w L (sheet_of w.db l) .delete_list
      (json 204 .empty, { w with db := w.db.without_list l.id }) := by
  obtain rfl : l.id = L := Table.key_of_find hl
  refine .done none .done _ _ rfl rfl (sheet_at_eq_none ?_) (only_list_without_list ..) .done
  simp only [DB.without_list]
  rw [Table.find_deleteWhere, hl, Option.filter_some_neg (by simp)]

/-! ### The items -/

/-- The sheet after a change of one item. -/
theorem sheet_of_set_card {db db' : DB} (hl : db.lists.find L = some l)
    (hlists : db'.lists = db.lists) (hshares : db'.shares = db.shares) {i : UUID}
    {card : Option Card}
    (hitems : ∀ j, (item_of db' L j).map card_of =
      if j = i then card else (item_of db L j).map card_of) :
    sheet_at db' L = some ((sheet_of db l).set_card i card) := by
  obtain rfl : l.id = L := Table.key_of_find hl
  rw [sheet_at_of_find (by rw [hlists]; exact hl)]
  congr 1
  ext
  · rfl
  · rfl
  · simp only [sheet_of, Sheet.set_card, share_role_of, hshares]
  · simp only [sheet_of, Sheet.set_card, Function.update_apply, hitems]

/-- Every item stands on a list, so an item that no sheet has is not there at all. -/
theorem free_iff {db : DB} (h : Valid db) (i : UUID) :
    (board_of db).free i = true ↔ db.items.find i = none := by
  rw [Board.free_eq_true]
  constructor
  · intro hfree
    cases hfind : db.items.find i with
    | none => rfl
    | some x =>
      cases hl : db.lists.find x.list_id with
      | none => exact absurd hl (h.item_list x (Table.mem_of_find hfind))
      | some l =>
        have hcard := hfree x.list_id _ (sheet_at_of_find hl)
        rw [cards_of_list hl, item_of_eq_some.mpr ⟨hfind, rfl⟩] at hcard
        cases hcard
  · intro hfind M sheet hsheet
    obtain ⟨l, hl, rfl⟩ := Option.map_eq_some_iff.mp hsheet
    rw [cards_of_list hl]
    simp [item_of, hfind]

theorem works_create_item (hw : Valid w.db) (hl : w.db.lists.find L = some l) (body : ItemCreate)
    (d : Draws) :
    Works w L (sheet_of w.db l) (.create_item d.row_id body.content body.order)
      (attempt (insert_item (new_item L body d)) w fun w' =>
        (json 201 (.item (.of (new_item L body d))), w')) := by
  by_cases hfits : text_storable body.content ∧ integer_fits body.order
  · by_cases hfree : w.db.items.find d.row_id = none
    · have hst : insert_item (new_item L body d) w.db = .ok [.insert_item (new_item L body d)] := by
        simp [insert_item, new_item, hfits, hfree, hl]
      rw [attempt_ok hst]
      refine .done
        (some ((sheet_of w.db l).set_card d.row_id (some ⟨body.content, false, body.order⟩))) _ _ _ ?_ rfl ?_ (only_list_insert_item (i := new_item L body d) hfree)
        (.item (.of (new_item L body d)))
      · simp only [Work.done, limits, hfits.1, hfits.2, (free_iff hw _).mpr hfree, decide_true,
          and_self, if_true]
        rfl
      · refine sheet_of_set_card hl ?_ ?_ fun j => ?_
        · rfl
        · rfl
        have hitem := item_of_insert_item (x := new_item L body d) hfree j
        change (item_of (Change.apply (.insert_item (new_item L body d)) w.db)
          (new_item L body d).list_id j).map card_of = _
        rw [hitem]
        by_cases hj : j = d.row_id
        · rw [if_pos hj, if_pos (by rw [hj]; rfl)]
          rfl
        · rw [if_neg hj, if_neg (fun h => hj h.symm)]
          rfl
    · have hst : insert_item (new_item L body d) w.db = .error .unique_violation := by
        simp [insert_item, new_item, hfits, hfree]
      rw [attempt_error hst]
      have hnot := mt (free_iff hw d.row_id).mp hfree
      exact .refused .not_stored (by simp [Work.done, hnot])
  · have hst : insert_item (new_item L body d) w.db = .error .data_error := by
      unfold insert_item
      exact if_pos hfits
    rw [attempt_error hst]
    refine .refused .not_stored ?_
    simp only [Work.done, limits, decide_eq_true_eq]
    rw [if_neg fun h => hfits ⟨h.1, h.2.1⟩]

theorem works_list_items (hl : w.db.lists.find L = some l) (order : UUID → Nat) :
    Works w L (sheet_of w.db l) .list_items
      (json 200 (.items ((ordered_items L order w.db).map .of)), w) := by
  have hmem : ∀ x, x ∈ ordered_items L order w.db ↔ item_of w.db L x.id = some x := by
    intro x
    unfold ordered_items
    rw [List.mem_insertionSort, mem_scanned, Table.mem_select, item_of_eq_some, decide_eq_true_eq,
      Table.mem_iff_find]
  refine works_of_read _ hl rfl (.items L _ _ ?_ ?_ ?_ fun i card => ?_)
  · have hperm := (List.perm_insertionSort (fun a b : Item => a.order ≤ b.order)
      (scanned order Item.id (w.db.items.select fun i => decide (i.list_id = L)))).trans
      (List.perm_insertionSort _ _)
    rw [List.map_map]
    exact (hperm.map Item.id).nodup_iff.mpr (w.db.items.nodup.sublist (List.filter_sublist.map _))
  · exact List.pairwise_map.mpr (List.pairwise_insertionSort _ _)
  · intro out hout
    obtain ⟨x, hx, rfl⟩ := List.mem_map.mp hout
    exact (item_of_eq_some.mp ((hmem x).mp hx)).2
  · rw [cards_of_list hl, Option.map_eq_some_iff]
    constructor
    · rintro ⟨x, hx, rfl⟩
      obtain rfl : x.id = i := Table.key_of_find (item_of_eq_some.mp hx).1
      exact ⟨.of x, List.mem_map_of_mem ((hmem x).mpr hx), rfl, rfl⟩
    · rintro ⟨out, hout, rfl, rfl⟩
      obtain ⟨x, hx, rfl⟩ := List.mem_map.mp hout
      exact ⟨x, (hmem x).mp hx, rfl⟩

theorem works_delete_item {item : Item} (hl : w.db.lists.find L = some l)
    (hitem : item_of w.db L item.id = some item) :
    Works w L (sheet_of w.db l) (.delete_item item.id)
      (json 204 .empty, w.commit [.delete_item item.id]) := by
  obtain ⟨hfind, hlist⟩ := item_of_eq_some.mp hitem
  refine .done (some ((sheet_of w.db l).set_card item.id none)) .done _ _ ?_ rfl ?_
    (hlist ▸ only_list_delete_item hfind) .done
  · simp only [Work.done, cards_of_list hl, hitem, Option.map_some]
  · refine sheet_of_set_card hl ?_ ?_ fun j => ?_
    · rfl
    · rfl
    change (item_of (Change.apply (.delete_item item.id) w.db) L j).map card_of = _
    rw [item_of_delete_item]
    split <;> rfl

/-- An item that is not on the list is not there. -/
theorem works_without_item {k : Work UUID UUID} {i : UUID} (hl : w.db.lists.find L = some l)
    (hitem : item_of w.db L i = none)
    (hk : k = .delete_item i ∨ ∃ edit, k = .update_item i edit) :
    Works w L (sheet_of w.db l) k (not_found_error.response, w) := by
  refine .refused .not_found ?_
  rcases hk with rfl | ⟨edit, rfl⟩ <;> simp [Work.done, cards_of_list hl, hitem]

/-- The changed columns make of an item what the edit makes of its card. -/
theorem card_of_patch (item : Item) (body : ItemUpdate) (now : Time) :
    card_of (item.patch (changed_columns item body) now) =
      (card_of item).edited (edit_of body) := by
  simp only [card_of, Item.patch, Card.edited, edit_of, changed_columns, Card.mk.injEq]
  exact ⟨dirty_column.dirty_getD .., dirty_column.dirty_getD .., dirty_column.dirty_getD ..⟩

theorem changed_fits {α : Type} [DecidableEq α] (new : Option α) (old : α) (fits : α → Prop)
    [DecidablePred fits] :
    (decide (new.getD old = old) || decide (fits (new.getD old))) = true ↔
      ∀ a ∈ new.filter fun a => decide (a ≠ old), fits a := by
  cases new with
  | none => simp
  | some a =>
    by_cases h : a = old
    · simp [h]
    · simp [h, Option.filter]

/-- The columns that the flush sets hold their new values if the card may be written again. -/
theorem rewrites_iff (item : Item) (body : ItemUpdate) :
    limits.rewrites (card_of item) ((card_of item).edited (edit_of body)) = true ↔
      (∀ c ∈ (changed_columns item body).content, text_storable c) ∧
        ∀ o ∈ (changed_columns item body).order, integer_fits o := by
  unfold Limits.rewrites
  rw [Bool.and_eq_true]
  exact and_congr (changed_fits body.content item.content text_storable)
    (changed_fits body.order item.order integer_fits)

theorem works_update_item {item : Item} (hl : w.db.lists.find L = some l)
    (hitem : item_of w.db L item.id = some item) (body : ItemUpdate) (now : Time) :
    Works w L (sheet_of w.db l) (.update_item item.id (edit_of body))
      (attempt (update_item_row item.id (changed_columns item body) now) w fun w' =>
        proceed (read_back (w'.db.items.find item.id)) w' fun item =>
          (json 200 (.item (.of item)), w')) := by
  obtain ⟨hfind, hlist⟩ := item_of_eq_some.mp hitem
  have hcard : (sheet_of w.db l).cards item.id = some (card_of item) := by
    rw [cards_of_list hl, hitem]
    rfl
  by_cases hnone : changed_columns item body = ⟨none, none, none⟩
  · have hst : update_item_row item.id (changed_columns item body) now w.db = .ok [] := by
      simp [update_item_row, hnone]
    have hsame : (card_of item).edited (edit_of body) = card_of item := by
      rw [← card_of_patch item body now, hnone]
      rfl
    rw [attempt_ok hst]
    change Works w L _ _ (proceed (read_back (w.db.items.find item.id)) w _)
    rw [hfind]
    have hput : (sheet_of w.db l).set_card item.id (some (card_of item)) = sheet_of w.db l := by
      ext
      · rfl
      · rfl
      · rfl
      · simp only [Sheet.set_card, ← hcard, Function.update_eq_self]
    refine works_of_read (.item L item.id (card_of item)) hl ?_ (hlist ▸ .item (.of item))
    simp only [Work.done, hcard, hsame, hput]
    rw [if_pos (by simp [Limits.rewrites])]
  · by_cases hfits : (∀ c ∈ (changed_columns item body).content, text_storable c) ∧
        ∀ o ∈ (changed_columns item body).order, integer_fits o
    · have hst : update_item_row item.id (changed_columns item body) now w.db =
          .ok [.patch_item item.id (changed_columns item body) now] := by
        unfold update_item_row
        rw [if_neg hnone, if_neg (not_not.mpr hfits), if_neg (by simp [hfind])]
      have hafter : (w.commit [.patch_item item.id (changed_columns item body) now]).db.items.find
          item.id = some (item.patch (changed_columns item body) now) :=
        Table.find_update_self _ (fun i => i.patch_id _ now) hfind
      rw [attempt_ok hst, hafter]
      have hdone : (Work.update_item item.id (edit_of body)).done limits (board_of w.db).known
          (board_of w.db).free L (sheet_of w.db l) =
          .ok (some ((sheet_of w.db l).set_card item.id
              (some ((card_of item).edited (edit_of body)))),
            .item L item.id ((card_of item).edited (edit_of body))) := by
        simp only [Work.done, hcard]
        rw [if_pos ((rewrites_iff item body).mpr hfits)]
      refine .done _ _ _ _ hdone rfl ?_ (hlist ▸ only_list_patch_item hfind _ now) ?_
      · refine sheet_of_set_card hl ?_ ?_ fun j => ?_
        · rfl
        · rfl
        change (item_of (Change.apply (.patch_item item.id (changed_columns item body) now) w.db)
          L j).map card_of = _
        rw [item_of_patch_item]
        by_cases hj : j = item.id
        · rw [if_pos hj, if_pos hj, hj, hitem, ← card_of_patch item body now]
          rfl
        · rw [if_neg hj, if_neg hj]
      · rw [← card_of_patch item body now, ← hlist]
        exact .item (.of (item.patch (changed_columns item body) now))
    · have hst : update_item_row item.id (changed_columns item body) now w.db =
          .error .data_error := by
        unfold update_item_row
        rw [if_neg hnone, if_pos hfits]
      rw [attempt_error hst]
      refine .refused .not_stored ?_
      simp only [Work.done, hcard]
      rw [if_neg fun h => hfits ((rewrites_iff item body).mp h)]

/-! ### The shares -/

/-- The sheet after a change of one share that is not the owner's. -/
theorem sheet_of_set_guest {db db' : DB} (hl : db.lists.find L = some l)
    (hlists : db'.lists = db.lists) (hitems : db'.items = db.items) {u : UUID}
    {guest : Option Guest}
    (hshares : ∀ v, (share_role_of db' L v).bind guest_of =
      if v = u then guest else (share_role_of db L v).bind guest_of) :
    sheet_at db' L = some ((sheet_of db l).set_guest u guest) := by
  obtain rfl : l.id = L := Table.key_of_find hl
  rw [sheet_at_of_find (by rw [hlists]; exact hl)]
  congr 1
  ext v
  · rfl
  · rfl
  · simp only [sheet_of, Sheet.set_guest, Function.update_apply, hshares]
    by_cases hv : v = l.owner_id <;> simp [hv]
  · simp only [sheet_of, Sheet.set_guest, item_of, hitems]

theorem works_create_share (hw : Roles w.db) (hl : w.db.lists.find L = some l) {u : UUID}
    (howner : u = l.owner_id) (body : ShareCreate) (d : Draws) {x : Response × World}
    (hx : x = if body.user_id = u then (⟨400, .detail "Cannot share with yourself", [], []⟩, w)
      else
        match w.db.users.find body.user_id, w.db.shares.find (L, body.user_id) with
        | none, _ => (not_found_error.response, w)
        | some _, some _ => (⟨409, .detail "User already has access", [], []⟩, w)
        | some _, none =>
          match insert_share (new_share L body d) w.db with
          | .ok cs => (json 201 (.share (.of (new_share L body d))), w.commit cs)
          | .error e => ((share_error e).response, w)) :
    Works w L (sheet_of w.db l) (.create_share body.user_id (guest_named body.role)) x := by
  subst hx
  have hsheet : (sheet_of w.db l).owner = l.owner_id := rfl
  by_cases hself : body.user_id = u
  · rw [if_pos hself]
    exact .refused .yourself (by simp [Work.done, hsheet, hself, howner])
  rw [if_neg hself]
  have hself' : ¬ body.user_id = l.owner_id := fun h => hself (h.trans howner.symm)
  cases huser : w.db.users.find body.user_id with
  | none => exact .refused .not_found (by simp [Work.done, hsheet, hself', board_of, huser])
  | some target =>
    have hknown : (board_of w.db).known body.user_id = true := by simp [board_of, huser]
    rcases guests_cases hw hl body.user_id with ⟨hguest, hfind⟩ | ⟨y, guest, hguest, hfind, -⟩
    · have hrole : role_valid body.role := body.role_pattern
      have hst : insert_share (new_share L body d) w.db =
          .ok [.insert_share (new_share L body d)] := by
        simp [insert_share, new_share, Share.key, hrole, hfind, hl, huser]
      rw [hfind, hst]
      refine .done _ (.share L body.user_id (guest_named body.role)) _ _
        (by simp [Work.done, hsheet, hself', hknown, hguest]; rfl) rfl ?_
        (only_list_insert_share (x := new_share L body d) hfind)
        (.share (.of (new_share L body d)) _ (guest_of_pattern body.role_pattern))
      refine sheet_of_set_guest hl ?_ ?_ fun v => ?_
      · rfl
      · rfl
      change Option.bind (Option.map _ ((Change.apply (.insert_share (new_share L body d))
        w.db).shares.find (L, v))) _ = _
      rw [find_insert_share hfind]
      by_cases hv : v = body.user_id
      · subst hv
        simp [new_share, Share.key, guest_of_pattern body.role_pattern]
      · rw [if_neg (by simp [new_share, Share.key, Ne.symm hv]), if_neg hv]
        rfl
    · rw [hfind]
      exact .refused .already_shared (by simp [Work.done, hsheet, hself', hknown, hguest])

theorem works_list_shares (hw : Roles w.db) (hl : w.db.lists.find L = some l)
    (order : UUID → Nat) :
    Works w L (sheet_of w.db l) .list_shares
      (json 200 (.shares ((scanned order Share.user_id
        (w.db.shares.select fun s => decide (s.list_id = L))).map .of)), w) := by
  have hmem : ∀ x, x ∈ scanned order Share.user_id
      (w.db.shares.select fun s => decide (s.list_id = L)) ↔
      w.db.shares.find (L, x.user_id) = some x := by
    intro x
    rw [mem_scanned, Table.mem_select, Table.find_eq_some_iff, decide_eq_true_eq]
    simp [Share.key]
  refine works_of_read _ hl rfl (.shares L _ _ ?_ ?_ fun u guest => ?_)
  · have hnodup : (scanned order Share.user_id
        (w.db.shares.select fun s => decide (s.list_id = L))).Nodup :=
      scanned_nodup (Table.select_nodup ..)
    rw [List.map_map]
    refine List.Nodup.map_on (fun a ha b hb hab => ?_) hnodup
    have hab' : a.user_id = b.user_id := hab
    have hfind := (hmem a).mp ha
    rw [hab', (hmem b).mp hb] at hfind
    exact (Option.some.inj hfind).symm
  · intro out hout
    obtain ⟨x, hx, rfl⟩ := List.mem_map.mp hout
    have hkey := Table.key_of_find ((hmem x).mp hx)
    simp only [Share.key, Prod.mk.injEq] at hkey
    exact hkey.1
  · constructor
    · intro hguest
      rcases guests_cases hw hl u with ⟨hnone, -⟩ | ⟨x, guest', hsome, hfind, hrole⟩
      · cases hnone.symm.trans hguest
      · cases hsome.symm.trans hguest
        have hkey := Table.key_of_find hfind
        simp only [Share.key, Prod.mk.injEq] at hkey
        have hx : w.db.shares.find (L, x.user_id) = some x := by rw [hkey.2, hfind]
        exact ⟨.of x, List.mem_map_of_mem ((hmem x).mpr hx), hkey.2, hrole⟩
    · rintro ⟨out, hout, rfl, hrole⟩
      obtain ⟨x, hx, rfl⟩ := List.mem_map.mp hout
      have hfind : w.db.shares.find (L, (ShareOut.of x).user_id) = some x := (hmem x).mp hx
      rw [guests_of_roles hw hl, share_role_of, hfind]
      exact hrole

/-- Nobody is taken for a guest who has no share. -/
theorem works_without_share (hw : Roles w.db) (hl : w.db.lists.find L = some l)
    {k : Work UUID UUID} {u : UUID} (hshare : w.db.shares.find (L, u) = none)
    (hk : k = .revoke_share u ∨ ∃ guest, k = .change_role u guest) :
    Works w L (sheet_of w.db l) k (not_found_error.response, w) := by
  rcases guests_cases hw hl u with ⟨hguest, -⟩ | ⟨x, guest, -, hfind, -⟩
  · refine .refused .not_found ?_
    rcases hk with rfl | ⟨guest, rfl⟩ <;> simp [Work.done, hguest]
  · rw [hshare] at hfind
    cases hfind

theorem works_change_role (hw : Roles w.db) (hl : w.db.lists.find L = some l) {share : Share}
    (hshare : w.db.shares.find (L, share.user_id) = some share) (body : ShareUpdate) :
    Works w L (sheet_of w.db l) (.change_role share.user_id (guest_named body.role))
      (attempt (role_statement share body.role) w fun w' =>
        proceed (read_back (w'.db.shares.find share.key)) w' fun share =>
          (json 200 (.share (.of share)), w')) := by
  have hkey : share.key = (L, share.user_id) := Table.key_of_find hshare
  have hlist : share.list_id = L := congrArg Prod.fst hkey
  have hguest := guest_of_pattern body.role_pattern
  rcases guests_cases hw hl share.user_id with ⟨-, hnone⟩ | ⟨x, guest, hsome, hfind, hrole⟩
  · cases hnone.symm.trans hshare
  cases hfind.symm.trans hshare
  have hdone : (Work.change_role share.user_id (guest_named body.role)).done limits
      (board_of w.db).known (board_of w.db).free L (sheet_of w.db l) =
      .ok (some ((sheet_of w.db l).set_guest share.user_id (some (guest_named body.role))),
        .share L share.user_id (guest_named body.role)) := by
    simp [Work.done, hsome]
  by_cases hsame : body.role = share.role
  · have hst : role_statement share body.role w.db = .ok [] := by simp [role_statement, hsame]
    rw [attempt_ok hst, hkey]
    change Works w L _ _ (proceed (read_back (w.db.shares.find (L, share.user_id))) w _)
    rw [hshare]
    refine .done _ _ _ _ hdone rfl ?_ (.refl ..) ?_
    · refine sheet_of_set_guest hl rfl rfl fun v => ?_
      by_cases hv : v = share.user_id
      · rw [if_pos hv, hv, share_role_of, hshare, ← hguest, hsame]
        rfl
      · rw [if_neg hv]
    · rw [← hlist]
      exact .share (.of share) _ (hsame ▸ hguest)
  · have hvalid : role_valid body.role := body.role_pattern
    have hst : role_statement share body.role w.db =
        .ok [.set_role L share.user_id body.role] := by
      simp [role_statement, update_role, hsame, hvalid, hlist, hshare]
    have hafter : (w.commit [.set_role L share.user_id body.role]).db.shares.find
        (L, share.user_id) = some (share.with_role body.role) :=
      Table.find_update_self _ (fun s => s.with_role_key body.role) hshare
    rw [attempt_ok hst, hkey, hafter]
    refine .done _ _ _ _ hdone rfl ?_ (only_list_set_role ..) ?_
    · refine sheet_of_set_guest hl ?_ ?_ fun v => ?_
      · rfl
      · rfl
      change Option.bind (Option.map _ ((Change.apply (.set_role L share.user_id body.role)
        w.db).shares.find (L, v))) _ = _
      rw [find_set_role]
      by_cases hv : v = share.user_id
      · simp [hv, hshare, Share.with_role, hguest]
      · rw [if_neg (by simp [hv]), if_neg hv]
        rfl
    · rw [← hlist]
      exact .share (.of (share.with_role body.role)) _ hguest

theorem works_revoke_share (hw : Roles w.db) (hl : w.db.lists.find L = some l) {share : Share}
    (hshare : w.db.shares.find (L, share.user_id) = some share) :
    Works w L (sheet_of w.db l) (.revoke_share share.user_id)
      (json 204 .empty, w.commit [.delete_share share.list_id share.user_id]) := by
  have hkey : share.key = (L, share.user_id) := Table.key_of_find hshare
  have hlist : share.list_id = L := congrArg Prod.fst hkey
  rcases guests_cases hw hl share.user_id with ⟨-, hnone⟩ | ⟨x, guest, hsome, -, -⟩
  · cases hnone.symm.trans hshare
  rw [hlist]
  refine .done (some ((sheet_of w.db l).set_guest share.user_id none)) .done _ _
    (by simp [Work.done, hsome]) rfl ?_ (only_list_delete_share ..) .done
  refine sheet_of_set_guest hl ?_ ?_ fun v => ?_
  · rfl
  · rfl
  change Option.bind (Option.map _ ((Change.apply (.delete_share L share.user_id)
    w.db).shares.find (L, v))) _ = _
  rw [find_delete_share]
  by_cases hv : v = share.user_id
  · simp [hv]
  · rw [if_neg (by simp [hv]), if_neg hv]
    rfl

/-! ### The board as a whole -/

/-- A new list has no item and no share, as every item and share stands on a list. -/
theorem sheet_of_insert_list {db : DB} (h : Sound db) {x : ListRow}
    (hfree : db.lists.find x.id = none) :
    sheet_at (Change.apply (.insert_list x) db) x.id = some (.empty x.owner_id x.name) := by
  have hfind : (Change.apply (.insert_list x) db).lists.find x.id = some x :=
    Table.find_insert_self hfree
  have hshare : ∀ u, db.shares.find (x.id, u) = none := by
    intro u
    rw [Option.eq_none_iff_forall_not_mem]
    intro y hy
    obtain ⟨hmem, hkey⟩ := (Table.find_eq_some_iff _ _ _).mp hy
    simp only [Share.key, Prod.mk.injEq] at hkey
    exact h.valid.share_list y hmem (hkey.1 ▸ hfree)
  have hitem : ∀ i, item_of db x.id i = none := by
    intro i
    rw [Option.eq_none_iff_forall_not_mem]
    intro y hy
    obtain ⟨hy, hlist⟩ := item_of_eq_some.mp hy
    exact h.valid.item_list y (Table.mem_of_find hy) (hlist ▸ hfree)
  rw [sheet_at_of_find hfind]
  congr 1
  ext v
  · rfl
  · rfl
  · simp only [sheet_of, Sheet.empty, share_role_of]
    rw [show (Change.apply (.insert_list x) db).shares = db.shares from rfl, hshare]
    simp
  · simp only [sheet_of, Sheet.empty]
    rw [show item_of (Change.apply (.insert_list x) db) = item_of db from rfl, hitem]
    rfl

theorem user_of_session {session : Option String} {now : Time} {db : DB}
    (h : session_user env session now db = .ok user) : db.users.find user.id = some user := by
  unfold session_user at h
  cases session with
  | none => cases h
  | some token =>
    dsimp only at h
    rcases hrows : session_users env token now db with _ | ⟨a, _ | ⟨b, rest⟩⟩ <;> rw [hrows] at h <;>
      cases h
    have hmem : user ∈ session_users env token now db := by simp [hrows]
    exact Table.find_of_mem ((mem_session_users env).mp hmem).1

theorem create_list_plays (hw : Sound w.db)
    (huser : session_user env s.request.session (s.draws.now 0) w.db = .ok user)
    (body : ListCreate) :
    Plays w user.id (.on s.draws.row_id (.create_list body.name))
      (perform (create_list env body s.request s.draws) s.draws.now w) := by
  rw [create_list_effect, huser, proceed_ok]
  have hknown := user_of_session huser
  cases hfind : w.db.lists.find s.draws.row_id with
  | some l =>
    have hplace : (board_of w.db).sheets s.draws.row_id = some (sheet_of w.db l) :=
      sheet_at_of_find hfind
    have hst : ∃ e, insert_list (new_list user.id body s.draws) w.db = .error e ∧
        (Exn.db e).response = response_of .not_stored := by
      unfold insert_list
      split
      · exact ⟨_, rfl, rfl⟩
      · rw [if_pos (by simp [new_list, hfind])]
        exact ⟨_, rfl, rfl⟩
    obtain ⟨e, he, hresponse⟩ := hst
    rw [attempt_error he, hresponse]
    exact plays_refused (by simp [Board.play, hplace, Task.act, Except.map])
  | none =>
    have hplace : (board_of w.db).sheets s.draws.row_id = none := sheet_at_eq_none hfind
    by_cases hfits : text_fits 256 body.name
    · have hst : insert_list (new_list user.id body s.draws) w.db =
          .ok [.insert_list (new_list user.id body s.draws)] := by
        simp [insert_list, new_list, hfits, hfind, hknown]
      rw [attempt_ok hst]
      refine plays_done (.list s.draws.row_id user.id body.name) ?_
        (board_of_change w.db ?_ (sheet_of_insert_list hw hfind) ?_)
        (.list (.of (new_list user.id body s.draws)))
      · simp only [Board.play, hplace, Task.act, limits, hfits, decide_true, if_true, Except.map]
        rfl
      · rfl
      · exact only_list_insert_list (l := new_list user.id body s.draws) hfind
    · have hst : insert_list (new_list user.id body s.draws) w.db = .error .data_error := by
        unfold insert_list
        exact if_pos hfits
      rw [attempt_error hst]
      exact plays_refused (e := .not_stored)
        (by simp [Board.play, hplace, Task.act, limits, hfits, Except.map])

theorem reads_iff {db : DB} (h : Roles db) (hl : db.lists.find L = some l) (u : UUID) :
    (sheet_of db l).allows u .reader = true ↔ MaySee db L u := by
  have howner : owner_of db L = some u ↔ u = l.owner_id := by simp [owner_of, hl, eq_comm]
  have hsheet : (sheet_of db l).owner = l.owner_id := rfl
  simp only [Sheet.allows, decide_eq_true_eq, hsheet]
  rw [may_see_iff, howner]
  rcases guests_cases h hl u with ⟨hguest, hfind⟩ | ⟨x, guest, hguest, hfind, -⟩ <;>
    simp [hguest, hfind]

theorem list_lists_plays (hw : Roles w.db)
    (huser : session_user env s.request.session (s.draws.now 0) w.db = .ok user) :
    Plays w user.id .list_lists (perform (list_lists env s.request s.draws) s.draws.now w) := by
  rw [list_lists_effect, huser, proceed_ok]
  refine plays_done (.lists ((board_of w.db).seen_by user.id)) rfl rfl
    (.lists _ _ ?_ fun L owner name => ?_)
  · rw [List.map_map]
    exact ids_without_repeats_nodup [] _
  · simp only [Board.seen_by, board_of, Option.bind_eq_some_iff]
    constructor
    · rintro ⟨sheet, hsheet, hseen⟩
      obtain ⟨l, hl, rfl⟩ := Option.map_eq_some_iff.mp hsheet
      obtain rfl : l.id = L := Table.key_of_find hl
      split at hseen
      · rename_i hallows
        cases hseen
        exact ⟨.of l, List.mem_map_of_mem
          ((mem_visible_lists l).mpr ⟨hl, (reads_iff hw hl _).mp hallows⟩), rfl, rfl, rfl⟩
      · cases hseen
    · rintro ⟨out, hout, rfl, rfl, rfl⟩
      obtain ⟨l, hl, rfl⟩ := List.mem_map.mp hout
      obtain ⟨hfind, hsee⟩ := (mem_visible_lists l).mp hl
      refine ⟨sheet_of w.db l, sheet_at_of_find hfind, ?_⟩
      rw [if_pos ((reads_iff hw hfind _).mpr hsee)]
      rfl

theorem get_list_plays (hw : Roles w.db)
    (huser : session_user env s.request.session (s.draws.now 0) w.db = .ok user) :
    Plays w user.id (.on L (.work .get_list))
      (perform (get_list env L s.request) s.draws.now w) := by
  rw [get_list_effect]
  refine plays_of_gate hw huser rfl fun l role hl _ => ?_
  dsimp only
  rw [hl]
  exact works_get_list hl

theorem rename_list_plays (hw : Roles w.db)
    (huser : session_user env s.request.session (s.draws.now 0) w.db = .ok user)
    (body : ListUpdate) :
    Plays w user.id (.on L (.work (.rename_list body.name)))
      (perform (rename_list env L body s.request s.draws) s.draws.now w) := by
  rw [rename_list_effect]
  refine plays_of_gate hw huser rfl fun l role hl _ => ?_
  dsimp only
  rw [hl]
  exact works_rename_list hl body.name s.draws.db_now

theorem delete_list_plays (hw : Roles w.db)
    (huser : session_user env s.request.session (s.draws.now 0) w.db = .ok user) :
    Plays w user.id (.on L (.work .delete_list))
      (perform (delete_list env L s.request) s.draws.now w) := by
  rw [delete_list_effect]
  refine plays_of_gate hw huser rfl fun l role hl _ => ?_
  dsimp only
  rw [hl]
  exact works_delete_list hl

theorem create_item_plays (hw : Sound w.db)
    (huser : session_user env s.request.session (s.draws.now 0) w.db = .ok user)
    (body : ItemCreate) :
    Plays w user.id (.on L (.work (.create_item s.draws.row_id body.content body.order)))
      (perform (create_item env L body s.request s.draws) s.draws.now w) := by
  rw [create_item_effect]
  exact plays_of_gate hw.roles huser rfl fun l role hl _ =>
    works_create_item hw.valid hl body s.draws

theorem list_items_plays (hw : Roles w.db)
    (huser : session_user env s.request.session (s.draws.now 0) w.db = .ok user) :
    Plays w user.id (.on L (.work .list_items))
      (perform (list_items env L s.request s.draws) s.draws.now w) := by
  rw [list_items_effect]
  exact plays_of_gate hw huser rfl fun l role hl _ => works_list_items hl (s.draws.order 0)

/-- The lookup of an item on a list. -/
theorem works_of_item {k : Work UUID UUID} {i : UUID} {rest : Item → Response × World}
    (hl : w.db.lists.find L = some l) (hk : k = .delete_item i ∨ ∃ edit, k = .update_item i edit)
    (h : ∀ item, item.id = i → item_of w.db L item.id = some item →
      Works w L (sheet_of w.db l) k (rest item)) :
    Works w L (sheet_of w.db l) k
      (match w.db.items.find i with
      | none => (not_found_error.response, w)
      | some item => if item.list_id ≠ L then (not_found_error.response, w) else rest item) := by
  cases hfind : w.db.items.find i with
  | none => exact works_without_item hl (by simp [item_of, hfind]) hk
  | some item =>
    dsimp only
    split
    · rename_i hlist
      exact works_without_item hl (by simp [item_of, hfind, Option.filter, hlist]) hk
    · rename_i hlist
      obtain rfl : item.id = i := Table.key_of_find hfind
      exact h item rfl (item_of_eq_some.mpr ⟨hfind, not_not.mp hlist⟩)

theorem update_item_plays (hw : Roles w.db)
    (huser : session_user env s.request.session (s.draws.now 0) w.db = .ok user) (i : UUID)
    (body : ItemUpdate) :
    Plays w user.id (.on L (.work (.update_item i (edit_of body))))
      (perform (update_item env L i body s.request s.draws) s.draws.now w) := by
  rw [update_item_effect]
  refine plays_of_gate hw huser rfl fun l role hl _ => ?_
  refine works_of_item hl (Or.inr ⟨_, rfl⟩) fun item hid hitem => ?_
  subst hid
  exact works_update_item hl hitem body s.draws.db_now

theorem delete_item_plays (hw : Roles w.db)
    (huser : session_user env s.request.session (s.draws.now 0) w.db = .ok user) (i : UUID) :
    Plays w user.id (.on L (.work (.delete_item i)))
      (perform (delete_item env L i s.request) s.draws.now w) := by
  rw [delete_item_effect]
  refine plays_of_gate hw huser rfl fun l role hl _ => ?_
  refine works_of_item hl (Or.inl rfl) fun item hid hitem => ?_
  subst hid
  exact works_delete_item hl hitem

theorem create_share_plays (hw : Roles w.db)
    (huser : session_user env s.request.session (s.draws.now 0) w.db = .ok user)
    (body : ShareCreate) :
    Plays w user.id (.on L (.work (.create_share body.user_id (guest_named body.role))))
      (perform (create_share env L body s.request s.draws) s.draws.now w) := by
  rw [create_share_effect]
  refine plays_of_gate hw huser rfl fun l role hl hallows => ?_
  have howner : user.id = (sheet_of w.db l).owner := by
    simpa [Work.need, Sheet.allows] using hallows
  exact works_create_share hw hl howner body s.draws rfl

theorem list_shares_plays (hw : Roles w.db)
    (huser : session_user env s.request.session (s.draws.now 0) w.db = .ok user) :
    Plays w user.id (.on L (.work .list_shares))
      (perform (list_shares env L s.request s.draws) s.draws.now w) := by
  rw [list_shares_effect]
  exact plays_of_gate hw huser rfl fun l role hl _ => works_list_shares hw hl (s.draws.order 0)

theorem change_role_plays (hw : Roles w.db)
    (huser : session_user env s.request.session (s.draws.now 0) w.db = .ok user) (u : UUID)
    (body : ShareUpdate) :
    Plays w user.id (.on L (.work (.change_role u (guest_named body.role))))
      (perform (change_role env L u body s.request) s.draws.now w) := by
  rw [change_role_effect]
  refine plays_of_gate hw huser rfl fun l role hl _ => ?_
  dsimp only
  cases hfind : w.db.shares.find (L, u) with
  | none => exact works_without_share hw hl hfind (Or.inr ⟨_, rfl⟩)
  | some share =>
    obtain rfl : share.user_id = u := congrArg Prod.snd (Table.key_of_find hfind)
    exact works_change_role hw hl hfind body

theorem revoke_share_plays (hw : Roles w.db)
    (huser : session_user env s.request.session (s.draws.now 0) w.db = .ok user) (u : UUID) :
    Plays w user.id (.on L (.work (.revoke_share u)))
      (perform (revoke_share env L u s.request) s.draws.now w) := by
  rw [revoke_share_effect]
  refine plays_of_gate hw huser rfl fun l role hl _ => ?_
  dsimp only
  cases hfind : w.db.shares.find (L, u) with
  | none => exact works_without_share hw hl hfind (Or.inl rfl)
  | some share =>
    obtain rfl : share.user_id = u := congrArg Prod.snd (Table.key_of_find hfind)
    exact works_revoke_share hw hl hfind

/-- Each handler of the lists, the items and the shares plays the move of its request. -/
theorem handler_plays (hw : Sound w.db)
    (huser : session_user env s.request.session (s.draws.now 0) w.db = .ok user) {m : BoardMove}
    (hm : move_of s.draws s.call = some m) :
    Plays w user.id m (perform (handler_of env s.call s.request s.draws) s.draws.now w) := by
  cases hcall : s.call <;> rw [hcall] at hm <;> cases hm
  case create_list body => exact create_list_plays hw huser body
  case list_lists => exact list_lists_plays hw.roles huser
  case get_list L => exact get_list_plays hw.roles huser
  case rename_list L body => exact rename_list_plays hw.roles huser body
  case delete_list L => exact delete_list_plays hw.roles huser
  case create_item L body => exact create_item_plays hw huser body
  case list_items L => exact list_items_plays hw.roles huser
  case update_item L i body => exact update_item_plays hw.roles huser i body
  case delete_item L i => exact delete_item_plays hw.roles huser i
  case create_share L body => exact create_share_plays hw.roles huser body
  case list_shares L => exact list_shares_plays hw.roles huser
  case change_role L u body => exact change_role_plays hw.roles huser u body
  case revoke_share L u => exact revoke_share_plays hw.roles huser u

theorem gate_without_session {action : Action} {session : Option String} {now : Time} {db : DB}
    {e : Exn} (h : session_user env session now db = .error e) :
    gate env action L session now db = .error e := by
  unfold gate
  rw [h]

/-- Without a session, no handler of them does anything. -/
theorem handler_refuses {e : Exn}
    (huser : session_user env s.request.session (s.draws.now 0) w.db = .error e)
    (hm : move_of s.draws s.call ≠ none) :
    perform (handler_of env s.call s.request s.draws) s.draws.now w = (e.response, w) := by
  have hgate : ∀ {action : Action} {L : UUID} {x : Response × World}
      {k : ListPermission → Response × World},
      x = proceed (gate env action L s.request.session (s.draws.now 0) w.db) w k →
      x = (e.response, w) := by
    intro action L x k hx
    rw [hx, gate_without_session huser, proceed_error]
  cases hcall : s.call <;> rw [hcall] at hm <;> try exact absurd rfl hm
  case create_list body =>
    refine (create_list_effect env s.request s.draws s.draws.now w body).trans ?_
    rw [huser, proceed_error]
  case list_lists =>
    refine (list_lists_effect env s.request s.draws s.draws.now w).trans ?_
    rw [huser, proceed_error]
  case get_list L => exact hgate (get_list_effect ..)
  case rename_list L body => exact hgate (rename_list_effect ..)
  case delete_list L => exact hgate (delete_list_effect ..)
  case create_item L body => exact hgate (create_item_effect ..)
  case list_items L => exact hgate (list_items_effect ..)
  case update_item L i body => exact hgate (update_item_effect ..)
  case delete_item L i => exact hgate (delete_item_effect ..)
  case create_share L body => exact hgate (create_share_effect ..)
  case list_shares L => exact hgate (list_shares_effect ..)
  case change_role L u body => exact hgate (change_role_effect ..)
  case revoke_share L u => exact hgate (revoke_share_effect ..)

end

end shared_todos.board_refinement
