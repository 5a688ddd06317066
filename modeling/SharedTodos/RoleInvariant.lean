-- Who has a role on a list, in whatever order the steps of the requests come. No
-- constraint of the schema keeps the owner of a list from a share of it: `create_share`
-- compares two ids, and writes some steps later. That is enough, as only the owner may
-- share, a list keeps its owner, and two lists never get one id.
import SharedTodos.WriteRequests
import SharedTodos.Authorization
import SharedTodos.Accounts

open keyed_table transactions
open shared_todos.models shared_todos.http shared_todos.http.handler
open shared_todos.sessions shared_todos.authz
open shared_todos.lists shared_todos.items shared_todos.shares
open shared_todos.app shared_todos.accounts shared_todos.authorization
open shared_todos.server shared_todos.write_requests

namespace shared_todos.role_invariant

variable (env : Env)

/-! ## What a list of changes may do -/

/-- The change leaves the shares and the owners of the lists as they are. -/
def aside : Change → Bool
  | .insert_list _ | .delete_list _ | .insert_share _ | .set_role _ _ _ | .delete_share _ _ => false
  | _ => true

section
variable {db : DB} {cs : List Change} {L o u : UUID}

theorem owner_of_insert_list (db : DB) (l : ListRow) (L : UUID) :
    owner_of (Change.apply (.insert_list l) db) L = owner_of db L ∨
      owner_of db L = none ∧ l.id = L := by
  unfold owner_of
  simp only [Change.apply, Table.find_insert]
  cases db.lists.find L with
  | some x => exact Or.inl rfl
  | none =>
    by_cases h : l.id = L
    · exact Or.inr ⟨rfl, h⟩
    · exact Or.inl (by simp [h])

theorem owner_of_delete_list (db : DB) (K L : UUID) :
    owner_of (Change.apply (.delete_list K) db) L = if K = L then none else owner_of db L := by
  unfold owner_of
  simp only [Change.apply, Table.find_deleteWhere]
  cases hfind : db.lists.find L with
  | none => simp
  | some l =>
    have hid := Table.key_of_find hfind
    by_cases h : K = L
    · simp [h, hid, Option.filter]
    · simp [h, hid, Option.filter, Ne.symm h]

/-- A list has the owner it had, or it is new, or it is gone. -/
theorem owner_of_apply (a : Change) (db : DB) (L : UUID) :
    owner_of (a.apply db) L = owner_of db L ∨
      (owner_of db L = none ∧ ∃ l, a = .insert_list l ∧ l.id = L) ∨
      (a = .delete_list L ∧ owner_of (a.apply db) L = none) := by
  cases a with
  | insert_list l =>
    exact (owner_of_insert_list db l L).imp_right fun h => Or.inl ⟨h.1, l, rfl, h.2⟩
  | set_list_name K name now => exact Or.inl (owner_of_set_list_name db K L name now)
  | delete_list K =>
    rw [owner_of_delete_list]
    by_cases h : K = L
    · exact Or.inr (Or.inr ⟨by rw [h], if_pos h⟩)
    · exact Or.inl (if_neg h)
  | _ => exact Or.inl rfl

theorem owner_gained (h : IsOwner (Prog.applyAll cs db) L o) :
    IsOwner db L o ∨ ∃ l, Change.insert_list l ∈ cs ∧ l.id = L := by
  induction cs generalizing db with
  | nil => exact Or.inl h
  | cons a cs ih =>
    rcases ih h with h | ⟨l, hl, hid⟩
    · rcases owner_of_apply a db L with hsame | ⟨-, l, rfl, hid⟩ | ⟨-, hnone⟩
      · exact Or.inl (hsame.symm.trans h)
      · exact Or.inr ⟨l, List.mem_cons_self, hid⟩
      · cases hnone.symm.trans h
    · exact Or.inr ⟨l, List.mem_cons_of_mem _ hl, hid⟩

theorem owner_kept (h : IsOwner db L o) :
    IsOwner (Prog.applyAll cs db) L o ∨ Change.delete_list L ∈ cs := by
  induction cs generalizing db with
  | nil => exact Or.inl h
  | cons a cs ih =>
    rcases owner_of_apply a db L with hsame | ⟨hnone, -⟩ | ⟨rfl, -⟩
    · exact (ih (hsame.trans h)).imp_right (List.mem_cons_of_mem _)
    · cases hnone.symm.trans h
    · exact Or.inr List.mem_cons_self

theorem users_kept (h : db.users.find u ≠ none) : (Prog.applyAll cs db).users.find u ≠ none := by
  induction cs generalizing db with
  | nil => exact h
  | cons a cs ih =>
    apply ih
    cases a with
    | insert_user v => exact Table.find_insert_ne_none h
    | set_password_hash id hash => simpa [apply_eq, Change.apply] using h
    | set_google_sub id sub => simpa [apply_eq, Change.apply] using h
    | _ => exact h

/-- A share after a change was there with its role, or the change gave it. -/
theorem share_of_apply {a : Change} {s : Share} (hs : s ∈ (a.apply db).shares.rows) :
    (s ∈ db.shares.rows ∧ a ≠ .delete_share s.list_id s.user_id) ∨ a = .insert_share s ∨
      (∃ x ∈ db.shares.rows, x.key = s.key) ∧ a = .set_role s.list_id s.user_id s.role := by
  cases a with
  | insert_share x =>
    rcases Table.mem_of_mem_insert hs with h | rfl
    · exact Or.inl ⟨h, by simp⟩
    · exact Or.inr (Or.inl rfl)
  | set_role K v role =>
    have hrows : ∀ r : Share, (r.with_role role).key = r.key := fun r => r.with_role_key role
    obtain ⟨x, hx, rfl⟩ := (Table.mem_update s).mp (show s ∈ (db.shares.update _ _ hrows).rows from hs)
    by_cases hkey : x.key = (K, v)
    · refine Or.inr (Or.inr ⟨⟨x, hx, ?_⟩, ?_⟩)
      · rw [if_pos hkey]
        rfl
      · simp only [Share.key, Prod.mk.injEq] at hkey
        simp [Share.key, hkey, Share.with_role]
    · exact Or.inl ⟨by rw [if_neg hkey]; exact hx, by simp⟩
  | delete_share K v =>
    obtain ⟨h, hkey⟩ := Table.mem_deleteWhere.mp hs
    refine Or.inl ⟨h, ?_⟩
    rintro heq
    cases heq
    simp [Share.key] at hkey
  | _ => exact Or.inl ⟨hs, by simp⟩

theorem share_gained {s : Share} (hs : s ∈ (Prog.applyAll cs db).shares.rows) :
    (∃ x ∈ db.shares.rows, x.key = s.key ∧ Change.delete_share s.list_id s.user_id ∉ cs) ∨
      ∃ x, Change.insert_share x ∈ cs ∧ x.key = s.key := by
  induction cs generalizing db with
  | nil => exact Or.inl ⟨s, hs, rfl, List.not_mem_nil⟩
  | cons a cs ih =>
    rcases ih hs with ⟨x, hx, hkey, hdel⟩ | ⟨x, hx, hkey⟩
    · have hpair : x.list_id = s.list_id ∧ x.user_id = s.user_id := by
        simpa [Share.key] using hkey
      rcases share_of_apply hx with ⟨hmem, ha⟩ | rfl | ⟨⟨y, hy, hyx⟩, rfl⟩
      · rw [hpair.1, hpair.2] at ha
        exact Or.inl ⟨x, hmem, hkey, by simp [hdel, ha.symm]⟩
      · exact Or.inr ⟨x, List.mem_cons_self, hkey⟩
      · exact Or.inl ⟨y, hy, hyx.trans hkey, by simp [hdel]⟩
    · exact Or.inr ⟨x, List.mem_cons_of_mem _ hx, hkey⟩

theorem role_gained {s : Share} (hs : s ∈ (Prog.applyAll cs db).shares.rows) :
    (∃ x ∈ db.shares.rows, x.role = s.role) ∨ (∃ x, Change.insert_share x ∈ cs ∧ x.role = s.role) ∨
      ∃ K v, Change.set_role K v s.role ∈ cs := by
  induction cs generalizing db with
  | nil => exact Or.inl ⟨s, hs, rfl⟩
  | cons a cs ih =>
    rcases ih hs with ⟨x, hx, hrole⟩ | ⟨x, hx, hrole⟩ | ⟨K, v, h⟩
    · rcases share_of_apply hx with ⟨hmem, -⟩ | rfl | ⟨-, rfl⟩
      · exact Or.inl ⟨x, hmem, hrole⟩
      · exact Or.inr (Or.inl ⟨x, List.mem_cons_self, hrole⟩)
      · exact Or.inr (Or.inr ⟨_, _, by rw [hrole]; exact List.mem_cons_self⟩)
    · exact Or.inr (Or.inl ⟨x, List.mem_cons_of_mem _ hx, hrole⟩)
    · exact Or.inr (Or.inr ⟨K, v, List.mem_cons_of_mem _ h⟩)

end

/-! ## The roles of a state -/

structure Roles (db : DB) : Prop where
  list : ∀ s ∈ db.shares.rows, ∃ o, IsOwner db s.list_id o ∧ o ≠ s.user_id
  user : ∀ s ∈ db.shares.rows, db.users.find s.user_id ≠ none
  role : ∀ s ∈ db.shares.rows, role_valid s.role

theorem roles_empty : Roles .empty := by
  constructor <;> intro x hx <;> cases hx

/-- The states agree on the owner of a list that is in both. -/
def SameOwners (a b : DB) : Prop := ∀ L o o', IsOwner a L o → IsOwner b L o' → o = o'

theorem same_owners_refl (db : DB) : SameOwners db db :=
  fun _ _ _ h h' => Option.some.inj (h.symm.trans h')

theorem SameOwners.symm {a b : DB} (h : SameOwners a b) : SameOwners b a :=
  fun L o o' hb ha => (h L o' o ha hb).symm

/-- The changes of a request, before they are committed to the state. -/
structure Sound (s : Step) (db : DB) (cs : List Change) : Prop where
  inserts : ∀ x, Change.insert_share x ∈ cs → role_valid x.role ∧ db.users.find x.user_id ≠ none ∧
    ∃ o, IsOwner db x.list_id o ∧ o ≠ x.user_id
  roles : ∀ K v role, Change.set_role K v role ∈ cs → role_valid role
  deletes : ∀ L, Change.delete_list L ∈ cs →
    (∀ x ∈ db.shares.rows, x.list_id = L → Change.delete_share L x.user_id ∈ cs) ∧
      ∀ x, Change.insert_share x ∉ cs
  creates : ∀ l, Change.insert_list l ∈ cs →
    owner_of db l.id = none ∧ l.id = s.draws.row_id ∧ ∃ body, s.call = .create_list body

section
variable {s : Step} {db : DB} {cs ds : List Change}

theorem sound_of_aside (h : ∀ a ∈ cs, aside a = true) : Sound s db cs where
  inserts x hx := by cases h _ hx
  roles K v role hx := by cases h _ hx
  deletes L hL := by cases h _ hL
  creates l hl := by cases h _ hl

/-- A commit keeps the roles. -/
theorem roles_of_sound (hdb : Roles db) (h : Sound s db cs) : Roles (Prog.applyAll cs db) := by
  constructor
  · intro x hx
    rcases share_gained hx with ⟨y, hy, hkey, hdel⟩ | ⟨y, hy, hkey⟩
    · obtain ⟨o, ho, hne⟩ := hdb.list y hy
      simp only [Share.key, Prod.mk.injEq] at hkey
      rw [hkey.1] at ho
      rw [hkey.2] at hne
      refine ⟨o, (owner_kept ho).resolve_right fun hL => hdel ?_, hne⟩
      rw [← hkey.2]
      exact (h.deletes x.list_id hL).1 y hy hkey.1
    · obtain ⟨-, -, o, ho, hne⟩ := h.inserts y hy
      simp only [Share.key, Prod.mk.injEq] at hkey
      rw [hkey.1] at ho
      rw [hkey.2] at hne
      exact ⟨o, (owner_kept ho).resolve_right fun hL => (h.deletes x.list_id hL).2 y hy, hne⟩
  · intro x hx
    apply users_kept
    rcases share_gained hx with ⟨y, hy, hkey, -⟩ | ⟨y, hy, hkey⟩
    · simp only [Share.key, Prod.mk.injEq] at hkey
      rw [← hkey.2]
      exact hdb.user y hy
    · simp only [Share.key, Prod.mk.injEq] at hkey
      rw [← hkey.2]
      exact (h.inserts y hy).2.1
  · intro x hx
    rcases role_gained hx with ⟨y, hy, hrole⟩ | ⟨y, hy, hrole⟩ | ⟨K, v, hrole⟩
    · rw [← hrole]
      exact hdb.role y hy
    · rw [← hrole]
      exact (h.inserts y hy).1
    · exact h.roles K v _ hrole

/-- A commit leaves the owners that another state knows, where that state has none of the
new lists. -/
theorem same_owners_of_new {a : DB} (hsame : SameOwners a db)
    (hnew : ∀ l, Change.insert_list l ∈ cs → owner_of a l.id = none) :
    SameOwners a (Prog.applyAll cs db) := by
  intro L o o' ha ho'
  rcases owner_gained ho' with h' | ⟨l, hl, rfl⟩
  · exact hsame L o o' ha h'
  · cases (hnew l hl).symm.trans ha

/-- Locks that collide. -/
theorem blocks_of_locks {a b : Change} {x y : LockKey × LockMode} (hx : x ∈ a.locks)
    (hy : y ∈ b.locks) (hkey : x.1 = y.1) (hmode : x.2.compatible y.2 = false) :
    Database.blocks a b = true := by
  simp only [Database.blocks, List.any_eq_true, Bool.and_eq_true, decide_eq_true_eq]
  exact ⟨x, hx, y, hy, hkey, by simp [hmode]⟩

theorem compatible_comm (m n : LockMode) : m.compatible n = n.compatible m := by
  cases m <;> cases n <;> rfl

theorem blocks_comm (a b : Change) : Database.blocks a b = Database.blocks b a := by
  rw [Bool.eq_iff_iff]
  simp only [Database.blocks, List.any_eq_true, Bool.and_eq_true, decide_eq_true_eq]
  constructor <;> rintro ⟨x, hx, y, hy, hkey, hmode⟩ <;>
    exact ⟨y, hy, x, hx, hkey.symm, by rw [compatible_comm]; exact hmode⟩

/-- What one request is about to commit stays sound when another one commits, as the locks
keep the two apart. -/
theorem sound_of_commit (h : Sound s db cs)
    (hlocks : ∀ a ∈ ds, ∀ b ∈ cs, Database.blocks a b = false) :
    Sound s (Prog.applyAll ds db) cs where
  inserts x hx := by
    obtain ⟨hrole, huser, o, ho, hne⟩ := h.inserts x hx
    refine ⟨hrole, users_kept huser, o, (owner_kept ho).resolve_right fun hL => ?_, hne⟩
    have hfree := hlocks _ hL _ hx
    rw [blocks_of_locks (x := (.list x.list_id, .exclusive)) (y := (.list x.list_id, .key_share))
      (by simp [Change.locks]) (by simp [Change.locks]) rfl rfl] at hfree
    cases hfree
  roles := h.roles
  deletes L hL := by
    refine ⟨fun x hx hlist => ?_, (h.deletes L hL).2⟩
    rcases share_gained hx with ⟨y, hy, hkey, -⟩ | ⟨y, hy, hkey⟩
    · simp only [Share.key, Prod.mk.injEq] at hkey
      rw [← hkey.2]
      exact (h.deletes L hL).1 y hy (hkey.1.trans hlist)
    · simp only [Share.key, Prod.mk.injEq] at hkey
      have hfree := hlocks _ hy _ hL
      rw [blocks_of_locks (x := (.list L, .key_share)) (y := (.list L, .exclusive))
        (by simp [Change.locks, hkey.1, hlist]) (by simp [Change.locks]) rfl rfl] at hfree
      cases hfree
  creates l hl := by
    obtain ⟨hnone, hrow, hcall⟩ := h.creates l hl
    refine ⟨?_, hrow, hcall⟩
    rw [Option.eq_none_iff_forall_not_mem]
    intro o ho
    rcases owner_gained ho with h' | ⟨m, hm, hid⟩
    · cases hnone.symm.trans h'
    · have hfree := hlocks _ hm _ hl
      rw [blocks_of_locks (x := (.list l.id, .exclusive)) (y := (.list l.id, .exclusive))
        (by simp [Change.locks, hid]) (by simp [Change.locks]) rfl rfl] at hfree
      cases hfree

end

/-! ## What the statements change -/

/-- Every change of the statement is aside. -/
def Aside (st : Statement) : Prop := ∀ db cs, st db = .ok cs → ∀ a ∈ cs, aside a = true

theorem account_statement_aside {st : Statement} (h : AccountStatement st) : Aside st := by
  induction h with
  | insert_user u => intro db cs h; obtain ⟨rfl, -⟩ := insert_user_ok h; simp [aside]
  | update_password_hash id hash =>
    intro db cs h
    obtain ⟨rfl, -⟩ := update_password_hash_ok h
    simp [aside]
  | update_google_sub id sub =>
    intro db cs h
    obtain ⟨rfl, -⟩ := update_google_sub_ok h
    simp [aside]
  | insert_session x => intro db cs h; obtain ⟨rfl, -⟩ := insert_session_ok h; simp [aside]
  | delete_sessions p =>
    intro db cs h
    cases h
    intro a ha
    obtain ⟨x, -, rfl⟩ := List.mem_map.mp ha
    rfl
  | insert_reset_token x => intro db cs h; obtain ⟨rfl, -⟩ := insert_reset_token_ok h; simp [aside]
  | update_used_at id now => intro db cs h; obtain ⟨rfl, -⟩ := update_used_at_ok h; simp [aside]
  | also a b _ _ ha hb =>
    intro db cs h
    unfold Statement.also at h
    cases h1 : a db with
    | error e => rw [h1] at h; cases h
    | ok as =>
      rw [h1] at h
      simp only [Bind.bind, Except.bind, Pure.pure, Except.pure] at h
      split at h
      · cases h
      · rename_i bs h2
        cases h
        intro x hx
        exact (List.mem_append.mp hx).elim (ha db as h1 x) (hb _ bs h2 x)

theorem rename_statement_aside (lst : ListRow) (name : String) (now : Time) :
    Aside (rename_statement lst name now) := by
  intro db cs h
  rcases rename_statement_ok h with rfl | rfl <;> simp [aside]

theorem insert_item_aside (x : Item) : Aside (insert_item x) := by
  intro db cs h
  obtain ⟨rfl, -⟩ := insert_item_ok h
  simp [aside]

theorem update_item_row_aside (id : UUID) (p : ItemPatch) (now : Time) :
    Aside (update_item_row id p now) := by
  intro db cs h
  rcases update_item_row_ok h with ⟨rfl, -⟩ | ⟨rfl, -⟩
  · simp
  · simp [aside]

theorem delete_item_row_aside (id : UUID) : Aside (delete_item_row id) := by
  intro db cs h
  cases h
  simp [aside]

/-- What the statement changes is sound, in every state that agrees with what was seen. -/
def Meant (s : Step) (seen : List DB) (st : Statement) : Prop :=
  ∀ db cs, (∀ x ∈ seen, SameOwners x db) → st db = .ok cs → Sound s db cs

section
variable {s : Step} {seen : List DB}

theorem insert_list_meant {l : ListRow} (hrow : l.id = s.draws.row_id)
    (hcall : ∃ body, s.call = .create_list body) : Meant s seen (insert_list l) := by
  intro db cs _ h
  obtain ⟨rfl, hfree, -⟩ := insert_list_ok h
  constructor
  · simp
  · simp
  · simp
  · intro m hm
    cases List.mem_singleton.mp hm
    exact ⟨by simp [owner_of, hfree], hrow, hcall⟩

/-- The cascade takes all shares of the list along. -/
theorem delete_list_row_meant (L : UUID) : Meant s seen (delete_list_row L) := by
  intro db cs _ h
  cases h
  constructor
  · simp
  · simp
  · intro K hK
    obtain rfl : K = L := by simpa using hK
    refine ⟨fun x hx hlist => ?_, by simp⟩
    simp only [List.mem_append, List.mem_map, Table.mem_select, decide_eq_true_eq]
    exact Or.inl (Or.inr ⟨x, ⟨hx, hlist⟩, by rw [hlist]⟩)
  · simp

/-- The share is not the owner's, where its list had another owner in a state seen before. -/
theorem insert_share_meant {x : Share} {a : DB} {v : UUID} (ha : a ∈ seen)
    (hv : IsOwner a x.list_id v) (hne : x.user_id ≠ v) : Meant s seen (insert_share x) := by
  intro db cs hsame h
  obtain ⟨rfl, hrole, -, hlist, huser⟩ := insert_share_ok h
  constructor
  · intro y hy
    cases List.mem_singleton.mp hy
    refine ⟨hrole, huser, ?_⟩
    obtain ⟨l, hl⟩ := Option.ne_none_iff_exists'.mp hlist
    have howner : IsOwner db x.list_id l.owner_id := by simp [IsOwner, owner_of, hl]
    refine ⟨l.owner_id, howner, ?_⟩
    rw [← hsame a ha x.list_id v l.owner_id hv howner]
    exact hne.symm
  · simp
  · simp
  · simp

theorem role_statement_meant (x : Share) (role : String) : Meant s seen (role_statement x role) := by
  intro db cs _ h
  rcases role_statement_ok h with rfl | ⟨rfl, hrole⟩
  · exact sound_of_aside (by simp)
  · constructor
    · simp
    · intro K v r hr
      cases List.mem_singleton.mp hr
      exact hrole
    · simp
    · simp

theorem delete_share_row_meant (L u : UUID) : Meant s seen (delete_share_row L u) := by
  intro db cs _ h
  cases h
  constructor <;> simp

end

/-! ## The parts of the requests -/

/-- A statement with its commit, and what comes after them. -/
structure Transaction where
  statement : Statement
  reply : Handler Response
  failure : DbError → Handler Response

def Transaction.prog (t : Transaction) : Handler Response :=
  .write t.statement fun
    | .ok () => .commit t.reply
    | .error e => t.failure e

/-- The transaction does what the states seen before allow, and nothing after it. -/
structure Prepared (s : Step) (seen : List DB) (t : Transaction) : Prop where
  meant : Meant s seen t.statement
  reply : t.reply.Writes Aside
  failure : ∀ e, (t.failure e).Writes Aside

/-- The request looks, and then does one transaction. -/
structure Planning (s : Step) {β : Type} (g : Handler β) (k : β → Transaction) (t : Running) :
    Prop where
  prog : t.prog = (g >>= fun b => (k b).prog)
  pending : t.pending = []
  looks : g.Looks (fun seen b => Prepared s seen (k b)) (fun _ _ => True) t.reads

def plan_transaction (p : Plan) : Transaction := ⟨p.statement, p.reply.prog, p.fail⟩

theorem reply_writes {W : Statement → Prop} (r : Reply) : r.prog.Writes W := by
  cases r with
  | answer r => trivial
  | list id => exact Prog.writes_bind (writes_refresh _) fun _ => trivial
  | item status_code id => exact Prog.writes_bind (writes_refresh _) fun _ => trivial
  | share status_code key => exact Prog.writes_bind (writes_refresh _) fun _ => trivial

/-- A request that writes a list is planning when it arrives. -/
theorem planning_write {s : Step} {q : WriteRequest} {A : List DB → Plan → Prop}
    {X : List DB → Exn → Prop} (hlooks : (q.prepare env).Looks A X [])
    (hA : ∀ seen plan, A seen plan → Meant s seen plan.statement) :
    Planning s (q.prepare env) plan_transaction ⟨q.handler env, [], []⟩ := by
  refine ⟨handler_eq env q.write q.list_id q.request q.draws, rfl, ?_⟩
  refine Prog.looks_mono hlooks (fun seen plan _ hplan => ?_) fun _ _ _ _ => trivial
  refine ⟨hA seen plan hplan, reply_writes plan.reply, fun e => ?_⟩
  dsimp only [plan_transaction, Plan.fail]
  split <;> trivial

section
variable (request : Request) (d : Draws) (L : UUID)

/-- A share is planned only by the owner, for somebody else. -/
theorem create_share_looks (body : ShareCreate) :
    ((Write.create_share body).prepare env L request d).Looks
      (fun seen plan => plan = create_share_plan L body d ∧
        ∃ a ∈ seen, ∃ v, IsOwner a L v ∧ body.user_id ≠ v) (fun _ _ => True) [] := by
  have hgate := @gate_looks env .share_list L request.session
  apply Prog.looks_bind (Prog.looks_mono hgate (fun _ _ _ h => h) fun _ _ _ _ => trivial)
  intro gate perm hperm
  obtain ⟨token, now, user, role, a, o, s, hcookie, huser, hseen, hallowed⟩ := hperm
  obtain rfl := role_of_owner_only rfl hallowed
  unfold Write.lookup
  dsimp only
  split
  · trivial
  rename_i hne
  intro db
  beta_reduce
  cases db.users.find body.user_id with
  | none => trivial
  | some target =>
    intro db'
    apply Prog.looks_bind (one_row_looks (shares_of_pair_eq L body.user_id db') _)
    rintro _ existing ⟨rfl, -⟩
    cases existing with
    | some x => trivial
    | none => exact ⟨rfl, o, by simp, user.id, hseen, hne⟩

/-- The transaction of `create_list`. -/
def create_list_transaction (body : ListCreate) (user : User) : Transaction where
  statement := insert_list (new_list user.id body d)
  reply := do
    let lst ← refresh fun db => db.lists.find d.row_id
    return json 201 (.list (.of lst))
  failure e := .raise (.db e)

theorem planning_create_list {s : Step} {body : ListCreate} (hcall : s.call = .create_list body) :
    Planning s (require_auth env s.request.session) (create_list_transaction s.draws body)
      ⟨create_list env body s.request s.draws, [], []⟩ := by
  refine ⟨?_, rfl, ?_⟩
  · unfold create_list
    dsimp only
    congr 1
    funext user
    change Prog.write _ _ = Prog.write _ _
    congr 1
    funext r
    cases r <;> rfl
  · refine Prog.looks_mono (require_auth_looks s.request.session) (fun seen user _ _ => ?_)
      fun _ _ _ _ => trivial
    exact ⟨insert_list_meant rfl ⟨body, hcall⟩,
      Prog.writes_bind (writes_refresh _) fun _ => trivial, fun _ => trivial⟩

end

/-- It does nothing any more that concerns the roles. -/
structure Settled (t : Running) : Prop where
  writes : t.prog.Writes Aside
  pending : ∀ a ∈ t.pending, aside a = true

/-- Where a request can be. -/
inductive Phase (s : Step) (t : Running) : Prop where
  | planning {β : Type} (g : Handler β) (k : β → Transaction) (plans : Planning s g k t)
  | committing (reply : Handler Response) (prog : t.prog = .commit reply)
      (after : reply.Writes Aside)
  | settled (settled : Settled t)

/-- The requests that change the owners of lists or the shares. -/
def concerns_roles : Call → Bool
  | .create_list _ | .delete_list _ | .create_share _ _ | .change_role _ _ _ | .revoke_share _ _ =>
    true
  | _ => false

theorem other_handlers_aside {call : Call} (h : concerns_roles call = false) (request : Request)
    (d : Draws) : (handler_of env call request d).Writes Aside := by
  have haccount : call.on_lists = false → (handler_of env call request d).Writes Aside :=
    fun h => Prog.writes_mono (fun _ => account_statement_aside)
      (account_handler_writes env request d h)
  cases call with
  | list_lists => exact writes_list_lists env request d
  | get_list L => exact writes_get_list env request L
  | rename_list L body =>
    exact writes_rename_list env request d L body fun _ => rename_statement_aside _ _ _
  | create_item L body => exact writes_create_item env request d L body insert_item_aside
  | list_items L => exact writes_list_items env request d L
  | update_item L i body => exact writes_update_item env request d L i body update_item_row_aside
  | delete_item L i => exact writes_delete_item env request L i delete_item_row_aside
  | list_shares L => exact writes_list_shares env request d L
  | create_list body => cases h
  | delete_list L => cases h
  | create_share L body => cases h
  | change_role L u body => cases h
  | revoke_share L u => cases h
  | _ => exact haccount rfl

theorem phase_at_arrival (s : Step) :
    Phase s ⟨handler_of env s.call s.request s.draws, [], []⟩ := by
  obtain ⟨call, request, d⟩ := s
  cases hcall : concerns_roles call with
  | false => exact .settled ⟨other_handlers_aside env hcall request d, by simp⟩
  | true =>
    cases call with
    | create_list body => exact .planning _ _ (planning_create_list env rfl)
    | delete_list L =>
      refine .planning _ _ (planning_write env (q := ⟨L, .delete_list, request, d⟩)
        (prepare_looks _) ?_)
      rintro seen plan ⟨gate, perm, -, hplan⟩
      cases hplan
      exact delete_list_row_meant _
    | create_share L body =>
      refine .planning _ _ (planning_write env (q := ⟨L, .create_share body, request, d⟩)
        (create_share_looks env request d L body) ?_)
      rintro seen plan ⟨rfl, a, ha, v, hv, hne⟩
      exact insert_share_meant ha hv hne
    | change_role L u body =>
      refine .planning _ _ (planning_write env (q := ⟨L, .change_role u body, request, d⟩)
        (prepare_looks _) ?_)
      rintro seen plan ⟨gate, perm, -, hplan⟩
      cases hplan
      exact role_statement_meant _ _
    | revoke_share L u =>
      refine .planning _ _ (planning_write env (q := ⟨L, .revoke_share u, request, d⟩)
        (prepare_looks _) ?_)
      rintro seen plan ⟨gate, perm, -, hplan⟩
      cases hplan
      exact delete_share_row_meant _ _
    | _ => cases hcall

/-! ## The requests side by side -/

variable {ι : Type}

/-- No state that is stored or was read has the list. -/
def Unborn (c : Server ι) (L : UUID) : Prop :=
  owner_of c.db L = none ∧ ∀ k, ∀ x ∈ (c.threads k).reads, owner_of x L = none

structure Orderly (steps : ι → Step) (c : Server ι) : Prop where
  roles : Roles c.db
  phase : ∀ i, Phase (steps i) (c.threads i)
  sound : ∀ i, (c.threads i).prog.done = false → Sound (steps i) c.db (c.threads i).pending
  locks : c.LocksHeld
  saw : ∀ i, ∀ x ∈ (c.threads i).reads, Roles x
  agree : ∀ i, ∀ x ∈ c.db :: (c.threads i).reads, ∀ y ∈ c.db :: (c.threads i).reads, SameOwners x y
  unborn : ∀ i, (∃ body, (steps i).call = .create_list body) →
    Settled (c.threads i) ∨ Unborn c (steps i).draws.row_id

/-- The state has the roles of another one. -/
def Glimpse (x db : DB) : Prop := Roles x ∧ ∀ L, owner_of x L = owner_of db L

theorem glimpse_of_aside {db : DB} {cs : List Change} (h : ∀ a ∈ cs, aside a = true)
    (hdb : Roles db) : Glimpse (Prog.applyAll cs db) db := by
  refine ⟨roles_of_sound hdb (s := ⟨.logout, .sample, .sample "" 0⟩) (sound_of_aside h), fun L => ?_⟩
  ext o
  constructor
  · intro ho
    exact (owner_gained ho).resolve_right fun ⟨l, hl, _⟩ => by cases h _ hl
  · intro ho
    exact (owner_kept ho).resolve_right fun hL => by cases h _ hL

/-- What a request does with a step. -/
inductive Turn (s : Step) (c c' : Server ι) (i : ι) : Prop where
  | stays (db : c'.db = c.db) (phase : Phase s (c'.threads i))
      (sound : Sound s c.db (c'.threads i).pending)
      (reads : ∀ x ∈ (c'.threads i).reads, x ∈ (c.threads i).reads ∨ Glimpse x c.db)
  | commits (db : c'.db = c.view i) (settled : Settled (c'.threads i))
      (pending : (c'.threads i).pending = []) (reads : (c'.threads i).reads = (c.threads i).reads)

section
variable [DecidableEq ι] [Fintype ι] {steps : ι → Step} {c c' : Server ι} {i : ι} {now : Time}

theorem settled_of_step (h : Settled (c.threads i)) (hs : c.step i now = some c') :
    Settled (c'.threads i) := by
  obtain ⟨hwrites, hpending⟩ := System.writes_of_step h.writes hs
  refine ⟨hwrites, fun a ha => ?_⟩
  rcases hpending a ha with ha | ⟨st, db, cs, hst, hcs, ha⟩
  · exact h.pending a ha
  · exact hst db cs hcs a ha

theorem turn_of_commit {s : Step} {reply : Handler Response}
    (hprog : (c.threads i).prog = .commit reply) (hreply : reply.Writes Aside)
    (hs : c.step i now = some c') : Turn s c c' i := by
  rw [System.step_commit hprog hs]
  exact .commits rfl ⟨by simpa using hreply, by simp⟩ (by simp) (by simp)

theorem turn_of_step (h : Orderly steps c) (hs : c.step i now = some c') :
    Turn (steps i) c c' i := by
  have hroles := h.roles
  have hsame : ∀ x ∈ (c.threads i).reads, SameOwners x c.db :=
    fun x hx => h.agree i x (List.mem_cons_of_mem _ hx) c.db List.mem_cons_self
  cases h.phase i with
  | planning g k plans =>
    rcases System.looks_of_step plans.prog plans.pending plans.looks hs with
      ⟨b, rfl⟩ | ⟨hdb, -, hpending, hreads, g', hprog, hlooks⟩
    · have hprepared := plans.looks
      have hview := System.view_of_nothing_pending plans.pending
      rcases System.step_write plans.prog hs with ⟨e, -, rfl⟩ | ⟨cs, hcs, -, rfl⟩
      · refine .stays rfl (.settled ⟨?_, by simp⟩) (sound_of_aside (by simp))
          fun x hx => Or.inl (by simpa using hx)
        simpa using hprepared.failure e
      · rw [hview] at hcs
        refine .stays rfl (.committing (k b).reply (by simp) hprepared.reply) ?_
          fun x hx => Or.inl (by simpa using hx)
        simpa [plans.pending] using hprepared.meant c.db cs hsame hcs
    · refine .stays hdb (.planning g' k ⟨hprog, hpending, hlooks⟩) ?_ fun x hx => ?_
      · rw [hpending]
        exact sound_of_aside (by simp)
      · rcases hreads with ⟨-, hreads⟩ | hreads
        · rw [hreads] at hx
          exact Or.inl hx
        · rw [hreads] at hx
          rcases List.mem_cons.mp hx with rfl | hx
          · exact Or.inr ⟨hroles, fun _ => rfl⟩
          · exact Or.inl hx
  | committing reply prog after => exact turn_of_commit prog after hs
  | settled settled =>
    have hafter := settled_of_step settled hs
    rcases System.db_of_step hs with ⟨-, hdb⟩ | ⟨hcommitting, -⟩
    · refine .stays hdb (.settled hafter) (sound_of_aside hafter.pending) fun x hx => ?_
      refine (System.reads_of_step hs x hx).imp_right fun hview => ?_
      rw [hview]
      exact glimpse_of_aside settled.pending hroles
    · cases hprog : (c.threads i).prog with
      | commit reply =>
        have hwrites := settled.writes
        rw [hprog] at hwrites
        exact turn_of_commit hprog hwrites hs
      | _ => rw [hprog] at hcommitting; cases hcommitting

/-- No two requests that create a list draw one id. -/
def DrawsApart (steps : ι → Step) : Prop :=
  ∀ i j, (∃ body, (steps i).call = .create_list body) →
    (∃ body, (steps j).call = .create_list body) →
    (steps i).draws.row_id = (steps j).draws.row_id → i = j

/-- The step of a request that commits nothing. -/
theorem orderly_of_stays (h : Orderly steps c) (hs : c.step i now = some c') (hdb : c'.db = c.db)
    (hphase : Phase (steps i) (c'.threads i)) (hsound : Sound (steps i) c.db (c'.threads i).pending)
    (hreads : ∀ x ∈ (c'.threads i).reads, x ∈ (c.threads i).reads ∨ Glimpse x c.db) :
    Orderly steps c' := by
  have hothers : ∀ {j}, j ≠ i → c'.threads j = c.threads j := fun hj => System.step_others hs hj
  constructor
  · rw [hdb]
    exact h.roles
  · intro j
    by_cases hj : j = i
    · rw [hj]
      exact hphase
    · rw [hothers hj]
      exact h.phase j
  · intro j hdone
    rw [hdb]
    by_cases hj : j = i
    · rw [hj]
      exact hsound
    · rw [hothers hj] at hdone ⊢
      exact h.sound j hdone
  · exact System.locks_held_of_step blocks_comm h.locks hs
  · intro j x hx
    by_cases hj : j = i
    · subst hj
      exact (hreads x hx).elim (h.saw j x) fun hglimpse => hglimpse.1
    · rw [hothers hj] at hx
      exact h.saw j x hx
  · intro j
    rw [hdb]
    by_cases hj : j = i
    · subst hj
      -- A state that was read has the owners of one that is known to agree.
      have hknown : ∀ x ∈ c.db :: (c'.threads j).reads, ∃ y ∈ c.db :: (c.threads j).reads,
          ∀ L, owner_of x L = owner_of y L := by
        intro x hx
        rcases List.mem_cons.mp hx with rfl | hx
        · exact ⟨c.db, List.mem_cons_self, fun _ => rfl⟩
        · rcases hreads x hx with hx | hglimpse
          · exact ⟨x, List.mem_cons_of_mem _ hx, fun _ => rfl⟩
          · exact ⟨c.db, List.mem_cons_self, hglimpse.2⟩
      intro x hx y hy L o o' ho ho'
      obtain ⟨x', hx', hxowner⟩ := hknown x hx
      obtain ⟨y', hy', hyowner⟩ := hknown y hy
      exact h.agree j x' hx' y' hy' L o o' ((hxowner L).symm.trans ho) ((hyowner L).symm.trans ho')
    · rw [hothers hj]
      exact h.agree j
  · intro j hcall
    rcases h.unborn j hcall with hsettled | ⟨hnone, hunread⟩
    · refine Or.inl ?_
      by_cases hj : j = i
      · subst hj
        exact settled_of_step hsettled hs
      · rw [hothers hj]
        exact hsettled
    · refine Or.inr ⟨by rw [hdb]; exact hnone, fun k x hx => ?_⟩
      by_cases hk : k = i
      · subst hk
        rcases hreads x hx with hx | hglimpse
        · exact hunread k x hx
        · rw [hglimpse.2]
          exact hnone
      · rw [hothers hk] at hx
        exact hunread k x hx

/-- The commit of a request. -/
theorem orderly_of_commits (hdraws : DrawsApart steps) (h : Orderly steps c)
    (hs : c.step i now = some c') (hdb : c'.db = c.view i) (hsettled : Settled (c'.threads i))
    (hpending : (c'.threads i).pending = [])
    (hreads : (c'.threads i).reads = (c.threads i).reads) : Orderly steps c' := by
  have hothers : ∀ {j}, j ≠ i → c'.threads j = c.threads j := fun hj => System.step_others hs hj
  have hdone := System.not_done_of_step hs
  have hsound := h.sound i hdone
  have hallreads : ∀ j, (c'.threads j).reads = (c.threads j).reads := by
    intro j
    by_cases hj : j = i
    · rw [hj, hreads]
    · rw [hothers hj]
  -- A list that a request creates was in no state before.
  have hnew : ∀ l, Change.insert_list l ∈ (c.threads i).pending → Unborn c l.id := by
    intro l hl
    obtain ⟨-, hrow, hcall⟩ := hsound.creates l hl
    rw [hrow]
    exact (h.unborn i hcall).resolve_left fun hsettled => by cases hsettled.pending _ hl
  have hsame : ∀ j, ∀ x ∈ c.db :: (c.threads j).reads, SameOwners x c'.db := by
    intro j x hx
    rw [hdb]
    refine same_owners_of_new (h.agree j x hx c.db List.mem_cons_self) fun l hl => ?_
    rcases List.mem_cons.mp hx with rfl | hx
    · exact (hnew l hl).1
    · exact (hnew l hl).2 j x hx
  constructor
  · rw [hdb]
    exact roles_of_sound h.roles hsound
  · intro j
    by_cases hj : j = i
    · rw [hj]
      exact .settled hsettled
    · rw [hothers hj]
      exact h.phase j
  · intro j hj
    by_cases hij : j = i
    · rw [hij, hpending]
      exact sound_of_aside (by simp)
    · rw [hothers hij] at hj ⊢
      rw [hdb]
      exact sound_of_commit (h.sound j hj) (h.locks i j (Ne.symm hij) hdone hj)
  · exact System.locks_held_of_step blocks_comm h.locks hs
  · intro j x hx
    rw [hallreads] at hx
    exact h.saw j x hx
  · intro j x hx y hy
    rw [hallreads] at hx hy
    rcases List.mem_cons.mp hx with rfl | hx
    · rcases List.mem_cons.mp hy with rfl | hy
      · exact same_owners_refl _
      · exact (hsame j y (List.mem_cons_of_mem _ hy)).symm
    · rcases List.mem_cons.mp hy with rfl | hy
      · exact hsame j x (List.mem_cons_of_mem _ hx)
      · exact h.agree j x (List.mem_cons_of_mem _ hx) y (List.mem_cons_of_mem _ hy)
  · intro j hcall
    by_cases hj : j = i
    · rw [hj]
      exact Or.inl hsettled
    rw [hothers hj]
    refine (h.unborn j hcall).imp_right fun ⟨hnone, hunread⟩ => ⟨?_, fun k x hx => ?_⟩
    · rw [hdb, Option.eq_none_iff_forall_not_mem]
      intro o ho
      rcases owner_gained ho with ho | ⟨l, hl, hid⟩
      · cases hnone.symm.trans ho
      · obtain ⟨-, hrow, hcall'⟩ := hsound.creates l hl
        exact hj (hdraws j i hcall hcall' (hid.symm.trans hrow))
    · rw [hallreads] at hx
      exact hunread k x hx

theorem orderly_step (hdraws : DrawsApart steps) (h : Orderly steps c)
    (hs : c.step i now = some c') : Orderly steps c' := by
  cases turn_of_step h hs with
  | stays db phase sound reads => exact orderly_of_stays h hs db phase sound reads
  | commits db settled pending reads => exact orderly_of_commits hdraws h hs db settled pending reads

end

/-- The ids that the requests draw for new lists are no ids of other lists. -/
structure Fresh (w : World) (steps : ι → Step) : Prop where
  apart : DrawsApart steps
  new : ∀ i, (∃ body, (steps i).call = .create_list body) →
    w.db.lists.find (steps i).draws.row_id = none

/-- The requests at their arrival. -/
def requests (w : World) (steps : ι → Step) : Server ι :=
  serve w fun i => handler_of env (steps i).call (steps i).request (steps i).draws

theorem orderly_at_arrival {w : World} {steps : ι → Step} (hw : Roles w.db) (hfresh : Fresh w steps) :
    Orderly steps (requests env w steps) where
  roles := hw
  phase i := phase_at_arrival env (steps i)
  sound _ _ := sound_of_aside (by simp [requests, serve])
  locks _ _ _ _ _ _ ha := by cases ha
  saw _ _ hx := by cases hx
  agree i x hx y hy := by
    obtain rfl := List.mem_singleton.mp hx
    obtain rfl := List.mem_singleton.mp hy
    exact same_owners_refl _
  unborn i hcall := by
    refine Or.inr ⟨?_, fun _ _ hx => by cases hx⟩
    simp [requests, serve, owner_of, hfresh.new i hcall]

/-! ## The requests one after the other -/

/-- Alone, a request does what it planned in the state that it sees. -/
theorem roles_of_phase {s : Step} {h : Handler Response} (hphase : Phase s ⟨h, [], []⟩)
    (clock : Nat → Time) {w : World} (hw : Roles w.db) : Roles (perform h clock w).2.db := by
  have haside : ∀ {h : Handler Response}, h.Writes Aside → ∀ s : Prog.Solo DB Change RateStore,
      Roles s.db → Roles s.view → Roles (h.run s).2.db := by
    intro h hh s hdb hview
    refine (Prog.run_keeps (P := Roles) (fun st hst db cs hdb hcs => ?_) hh hdb hview).1
    exact (glimpse_of_aside (hst db cs hcs) hdb).1
  cases hphase with
  | settled settled => exact haside settled.writes _ hw hw
  | committing reply prog after =>
    have hprog : h = .commit reply := prog
    have hwrites : h.Writes Aside := by
      rw [hprog]
      exact after
    exact haside hwrites _ hw hw
  | planning g k plans =>
    have hprog : h = (g >>= fun b => (k b).prog) := plans.prog
    unfold perform
    rw [hprog, Prog.run_then]
    obtain ⟨hdb, hpending, hend⟩ :=
      Prog.run_looks plans.looks (s := ⟨clock, w.db, [], w.store⟩) rfl
    rcases hrun : g.run ⟨clock, w.db, [], w.store⟩ with ⟨r, s'⟩
    rw [hrun] at hdb hpending hend
    dsimp only at hdb hpending hend
    rw [← hdb] at hw
    have hview : s'.view = s'.db := by
      unfold Prog.Solo.view
      rw [hpending]
      rfl
    cases r with
    | error e => exact hw
    | ok b =>
      obtain ⟨later, hprepared, hlater⟩ := hend b rfl
      have hsame : ∀ x ∈ later, SameOwners x s'.db := by
        intro x hx
        rw [(hlater x hx).resolve_left List.not_mem_nil, hdb]
        exact same_owners_refl _
      simp only [Transaction.prog, Prog.run, hview]
      cases hst : (k b).statement s'.db with
      | error e => exact haside (hprepared.failure e) _ hw hw
      | ok cs =>
        have hafter := roles_of_sound hw (hprepared.meant s'.db cs hsame hst)
        simp only [hpending, Prog.Solo.view, List.nil_append]
        exact haside hprepared.reply _ hafter hafter

theorem roles_after {w : World} (hw : Roles w.db) (s : Step) : Roles (s.after env w).db := by
  unfold Step.after
  rcases handle_cases env s w with ⟨r, hr, -⟩ | hr
  · rw [hr]
    exact hw
  · rw [hr]
    exact roles_of_phase (phase_at_arrival env s) s.draws.now hw

theorem roles_of_reachable {w : World} (h : Reachable env w) : Roles w.db :=
  reachable_induction env (P := fun w => Roles w.db) roles_empty
    (fun _ s hw => roles_after env hw s) h

/-- A state that requests side by side leave behind, after others one by one. -/
inductive Arises (w' : World) : Prop where
  | arises {ι : Type} (eq : DecidableEq ι) (all : Fintype ι) (w : World) (steps : ι → Step)
      (c : Server ι) (past : Reachable env w) (fresh : Fresh w steps)
      (reached : System.Reached (fun _ _ => True) (requests env w steps) c)
      (left : w' = ⟨c.db, c.memory⟩)

section
variable [DecidableEq ι] [Fintype ι] {w : World} {steps : ι → Step} {c : Server ι}

theorem orderly_of_reached (hw : Reachable env w) (hfresh : Fresh w steps)
    (hc : System.Reached (fun _ _ => True) (requests env w steps) c) : Orderly steps c :=
  System.reached_induction (orderly_at_arrival env (roles_of_reachable env hw) hfresh)
    (fun _ _ _ _ h _ hs => orderly_step hfresh.apart h hs) hc

theorem arises_of_reachable (hw : Reachable env w) : Arises env w :=
  .arises inferInstance inferInstance w (fun e : Empty => e.elim) (requests env w fun e => e.elim)
    hw ⟨fun e => e.elim, fun e => e.elim⟩ .start rfl

theorem roles_of_arises {w' : World} (h : Arises env w') : Roles w'.db := by
  obtain ⟨eq, all, w, steps, c, past, fresh, reached, rfl⟩ := h
  exact (orderly_of_reached env past fresh reached).roles

end

/-! ## The one role of a user -/

/-- What a user is to a list: the holder of a role, or a stranger. -/
def Stands (db : DB) (L u : UUID) : Option Role → Prop
  | some role => RoleHeld db L u role
  | none => ¬ IsOwner db L u ∧ db.shares.find (L, u) = none

structure UniqueRoles (db : DB) : Prop where
  one_share : ∀ a ∈ db.shares.rows, ∀ b ∈ db.shares.rows,
    a.list_id = b.list_id → a.user_id = b.user_id → a = b
  share_role : ∀ s ∈ db.shares.rows, s.role = "editor" ∨ s.role = "viewer"
  list_exists : ∀ s ∈ db.shares.rows, db.lists.find s.list_id ≠ none
  user_exists : ∀ s ∈ db.shares.rows, db.users.find s.user_id ≠ none
  not_owner : ∀ s ∈ db.shares.rows, ¬ IsOwner db s.list_id s.user_id
  /-- The role that the gate finds is what the user is to the list, and nothing else is. -/
  one_role : ∀ L u, ∃ standing,
    effective_role (decide (owner_of db L = some u)) (share_role_of db L u) = .ok standing ∧
      ∀ other, Stands db L u other ↔ other = standing

section
variable {db : DB} {L u : UUID}

theorem owner_has_no_share (h : Roles db) (ho : IsOwner db L u) : db.shares.find (L, u) = none := by
  rw [Option.eq_none_iff_forall_not_mem]
  intro x hx
  obtain ⟨hmem, hkey⟩ := (Table.find_eq_some_iff _ _ _).mp hx
  simp only [Share.key, Prod.mk.injEq] at hkey
  obtain ⟨o, howner, hne⟩ := h.list x hmem
  rw [hkey.1] at howner
  rw [hkey.2] at hne
  exact hne (Option.some.inj (howner.symm.trans ho))

/-- The role of a share, where the user has one. -/
theorem share_role_cases (h : Roles db) (L u : UUID) :
    db.shares.find (L, u) = none ∧ share_role_of db L u = none ∨
      db.shares.find (L, u) ≠ none ∧
        (share_role_of db L u = some "editor" ∨ share_role_of db L u = some "viewer") := by
  unfold share_role_of
  cases hfind : db.shares.find (L, u) with
  | none => exact Or.inl ⟨rfl, rfl⟩
  | some x =>
    refine Or.inr ⟨by simp, ?_⟩
    rcases h.role x (Table.mem_of_find hfind) with hrole | hrole <;> simp [hrole]

theorem one_role_of_roles (h : Roles db) (L u : UUID) : ∃ standing,
    effective_role (decide (owner_of db L = some u)) (share_role_of db L u) = .ok standing ∧
      ∀ other, Stands db L u other ↔ other = standing := by
  by_cases ho : IsOwner db L u
  · have hnone := owner_has_no_share h ho
    have hrole : share_role_of db L u = none := by simp [share_role_of, hnone]
    refine ⟨some .owner, by simp [effective_role, show owner_of db L = some u from ho], fun other => ?_⟩
    rcases other with _ | _ | _ | _ <;> simp [Stands, RoleHeld, HasShare, ho, hrole]
  · have howner : ¬ owner_of db L = some u := ho
    rcases share_role_cases h L u with ⟨hnone, hrole⟩ | ⟨hsome, hrole | hrole⟩
    · refine ⟨none, by simp [effective_role, howner, hrole], fun other => ?_⟩
      rcases other with _ | _ | _ | _ <;> simp [Stands, RoleHeld, HasShare, ho, hrole, hnone]
    · refine ⟨some .editor, by simp [effective_role, howner, hrole], fun other => ?_⟩
      rcases other with _ | _ | _ | _ <;> simp [Stands, RoleHeld, HasShare, ho, hrole, hsome]
    · refine ⟨some .viewer, by simp [effective_role, howner, hrole], fun other => ?_⟩
      rcases other with _ | _ | _ | _ <;> simp [Stands, RoleHeld, HasShare, ho, hrole, hsome]

theorem unique_roles (h : Roles db) : UniqueRoles db where
  one_share a ha b hb hlist huser :=
    Table.eq_of_key_eq _ ha hb (by simp [Share.key, hlist, huser])
  share_role := h.role
  list_exists s hs := by
    obtain ⟨o, ho, -⟩ := h.list s hs
    intro hnone
    simp [IsOwner, owner_of, hnone] at ho
  user_exists := h.user
  not_owner s hs ho := by
    have hfind := Table.find_of_mem hs
    rw [Share.key, owner_has_no_share h ho] at hfind
    cases hfind
  one_role := one_role_of_roles h

/-- A signed-in user is turned away by the gate with a 404 only. -/
theorem gate_error_of_roles (h : Roles db) {action : Action} {session : Option String} {now : Time}
    {user : User} (hu : session_user env session now db = .ok user) {e : Exn}
    (hgate : gate env action L session now db = .error e) : e = not_found_error := by
  unfold gate at hgate
  rw [hu] at hgate
  obtain ⟨standing, hrole, -⟩ := one_role_of_roles h L user.id
  dsimp only at hgate
  rw [hrole] at hgate
  cases standing with
  | none => cases hgate; rfl
  | some role =>
    dsimp only at hgate
    split at hgate
    · cases hgate
    · cases hgate; rfl

end

/-! ## Requests aimed at the owner -/

/-- The request takes or changes the share of a user on a list. -/
def Aimed (s : Step) (L o : UUID) : Prop :=
  s.call = .revoke_share L o ∨ ∃ body, s.call = .change_role L o body

theorem session_user_of_signed_in {s : Step} {w : World} {u : User} (h : SignedIn env s w u) :
    session_user env s.request.session (s.draws.now 0) w.db = .ok u := by
  obtain ⟨t, ht, hrun⟩ := h
  unfold get_session_user at hrun
  simp only [Prog.run_then, run_utc_now, run_execute, run_scalar_one_or_none, Prog.Solo.view,
    Prog.applyAll_nil] at hrun
  rw [ht]
  unfold session_user
  dsimp only
  rcases hs : session_users env t (s.draws.now 0) w.db with _ | ⟨a, _ | ⟨b, rest⟩⟩ <;>
    rw [hs] at hrun <;> cases hrun
  rfl

/-- Alone, such a request changes nothing, and the user gets a 404. -/
theorem aimed_alone {s : Step} {w : World} {L o : UUID} (hs : Aimed s L o) (h : Roles w.db)
    (ho : IsOwner w.db L o) :
    ∃ r, perform (handler_of env s.call s.request s.draws) s.draws.now w = (r, w) ∧
      ∀ u, SignedIn env s w u → r.status_code = 404 := by
  have hnone := owner_has_no_share h ho
  have hgate : ∀ {action : Action} {k : ListPermission → Response × World},
      (∀ perm, perm.list_id = L → k perm = (not_found_error.response, w)) →
      ∃ r, proceed (gate env action L s.request.session (s.draws.now 0) w.db) w k = (r, w) ∧
        ∀ u, SignedIn env s w u → r.status_code = 404 := by
    intro action k hk
    cases hg : gate env action L s.request.session (s.draws.now 0) w.db with
    | error e =>
      refine ⟨e.response, rfl, fun u hu => ?_⟩
      rw [gate_error_of_roles env h (session_user_of_signed_in env hu) hg]
      rfl
    | ok perm =>
      obtain ⟨u, role, -, rfl, -⟩ := gate_ok env hg
      exact ⟨_, hk _ rfl, fun _ _ => rfl⟩
  obtain ⟨call, request, d⟩ := s
  rcases hs with rfl | ⟨body, rfl⟩
  · have heffect := revoke_share_effect env request d.now w L o
    refine (hgate fun perm hperm => ?_).imp fun r hr => ⟨heffect.trans hr.1, hr.2⟩
    rw [hperm, hnone]
  · have heffect := change_role_effect env request d.now w L o body
    refine (hgate fun perm hperm => ?_).imp fun r hr => ⟨heffect.trans hr.1, hr.2⟩
    rw [hperm, hnone]

/-- What such a request saw when it comes to its statement. -/
def SawShare (L o : UUID) (seen : List DB) : Prop := ∃ x ∈ seen, x.shares.find (L, o) ≠ none

/-- What it raises before: a 404, once its session is read and the roles are as they should. -/
def TurnedAway (seen : List DB) (e : Exn) : Prop :=
  e = not_found_error ∨ seen.length ≤ 1 ∨ ∃ x ∈ seen, ¬ Roles x

/-- Where such a request can be. -/
def Aiming (L o : UUID) (t : Running) : Prop :=
  (∃ g : Handler Plan, t.prog = (g >>= Plan.prog) ∧ t.pending = [] ∧
    g.Looks (fun seen _ => SawShare L o seen) TurnedAway t.reads) ∨ SawShare L o t.reads

theorem turned_away_of_gate {seen : List DB} {e : Exn} (h : GateRaised seen e) :
    TurnedAway seen e := by
  cases h with
  | session length_le status => exact Or.inr (Or.inl length_le)
  | not_found length_le => exact Or.inl rfl
  | role length_le saw stored invalid =>
    exact Or.inr (Or.inr ⟨_, saw, fun hroles => invalid (hroles.role _ stored)⟩)

/-- A lookup of the share after the gate. -/
theorem share_lookup_looks (action : Action) (L o : UUID) (session : Option String)
    {k : Option Share → Handler Plan} (hnone : k none = not_found)
    (hsome : ∀ x, ∃ plan, k (some x) = .ret plan) :
    (do
      let perm ← require_list_permission env action L session
      let share ← scalar_one_or_none (← execute (shares_of_pair perm.list_id o))
      k share : Handler Plan).Looks (fun seen _ => SawShare L o seen) TurnedAway [] := by
  have hgate := @gate_looks env action L session
  apply Prog.looks_bind (Prog.looks_mono hgate (fun _ _ _ h => h) fun _ _ _ => turned_away_of_gate)
  intro gate perm hperm
  have hlist : perm.list_id = L := by cases hperm; rfl
  rw [hlist]
  intro db
  apply Prog.looks_bind (one_row_looks (shares_of_pair_eq L o db) _)
  rintro _ share ⟨rfl, hshare⟩
  cases share with
  | none =>
    rw [hnone]
    exact Or.inl rfl
  | some x =>
    obtain ⟨plan, hplan⟩ := hsome x
    rw [hplan]
    exact ⟨db, List.mem_cons_self, by rw [← hshare]; simp⟩

theorem aiming_at_arrival {s : Step} {L o : UUID} (hs : Aimed s L o) :
    Aiming L o ⟨handler_of env s.call s.request s.draws, [], []⟩ := by
  obtain ⟨call, request, d⟩ := s
  rcases hs with rfl | ⟨body, rfl⟩
  · exact Or.inl ⟨_, handler_eq env (.revoke_share o) L request d, rfl,
      share_lookup_looks env _ L o _ rfl fun x => ⟨_, rfl⟩⟩
  · exact Or.inl ⟨_, handler_eq env (.change_role o body) L request d, rfl,
      share_lookup_looks env _ L o _ rfl fun x => ⟨_, rfl⟩⟩

section
variable [DecidableEq ι] [Fintype ι] {w : World} {steps : ι → Step} {c c' : Server ι} {i : ι}
  {now : Time} {L o : UUID}

theorem aiming_step (h : Aiming L o (c.threads i)) (hs : c.step i now = some c') :
    Aiming L o (c'.threads i) := by
  have hkept : SawShare L o (c.threads i).reads → SawShare L o (c'.threads i).reads :=
    fun ⟨x, hx, hshare⟩ => ⟨x, System.reads_kept_of_step hs x hx, hshare⟩
  rcases h with ⟨g, hprog, hpending, hlooks⟩ | hsaw
  · rcases System.looks_of_step hprog hpending hlooks hs with
      ⟨plan, rfl⟩ | ⟨-, -, hpending', -, g', hprog', hlooks'⟩
    · exact Or.inr (hkept hlooks)
    · exact Or.inl ⟨g', hprog', hpending', hlooks'⟩
  · exact Or.inr (hkept hsaw)

theorem aiming_of_reached (hs : Aimed (steps i) L o)
    (hc : System.Reached (fun _ _ => True) (requests env w steps) c) : Aiming L o (c.threads i) := by
  refine System.reached_induction (P := fun c => Aiming L o (c.threads i)) (aiming_at_arrival env hs)
    (fun c c' j now h _ hstep => ?_) hc
  by_cases hj : i = j
  · subst hj
    exact aiming_step h hstep
  · rw [System.step_others hstep hj]
    exact h

omit [DecidableEq ι] [Fintype ι] in
/-- Among others, such a request has nothing to commit, and what it answers after it has
read its session is a 404. -/
theorem aimed_among_others (h : Orderly steps c) (haiming : Aiming L o (c.threads i))
    (ho : ∃ x ∈ c.db :: (c.threads i).reads, IsOwner x L o) :
    (c.threads i).pending = [] ∧ ∀ r, answer c i = some r →
      r.status_code = 404 ∨ (c.threads i).reads.length ≤ 1 := by
  have hunseen : ¬ SawShare L o (c.threads i).reads := by
    rintro ⟨x, hx, hshare⟩
    obtain ⟨y, hy, howner⟩ := ho
    obtain ⟨s, hfind⟩ := Option.ne_none_iff_exists'.mp hshare
    obtain ⟨hmem, hkey⟩ := (Table.find_eq_some_iff _ _ _).mp hfind
    simp only [Share.key, Prod.mk.injEq] at hkey
    obtain ⟨o', ho', hne⟩ := (h.saw i x hx).list s hmem
    rw [hkey.1] at ho'
    rw [hkey.2] at hne
    exact hne (h.agree i x (List.mem_cons_of_mem _ hx) y hy L o' o ho' howner)
  obtain ⟨g, hprog, hpending, hlooks⟩ := haiming.resolve_right hunseen
  refine ⟨hpending, fun r hr => ?_⟩
  cases g with
  | ret plan => exact absurd hlooks hunseen
  | raise e =>
    rw [answer_raise hprog] at hr
    cases hr
    rcases hlooks with rfl | hlength | ⟨x, hx, hroles⟩
    · exact Or.inl rfl
    · exact Or.inr hlength
    · exact absurd (h.saw i x hx) hroles
  | _ =>
    rw [answer_of_not_done (by rw [hprog]; rfl)] at hr
    cases hr

end

/-! ## The law -/

/-- In every state that requests leave behind, one by one and side by side, a user has one
role on a list or none, and the role of the owner is out of reach. -/
theorem every_user_has_one_role {w : World} (past : Reachable env w) {ι : Type} [DecidableEq ι]
    [Fintype ι] (steps : ι → Step) (fresh : Fresh w steps) (c : Server ι)
    (reached : System.Reached (fun _ _ => True) (requests env w steps) c) :
    UniqueRoles c.db ∧
      (∀ (s : Step) (m : RateStore) (L o : UUID), Aimed s L o → IsOwner c.db L o →
        ∃ r, perform (handler_of env s.call s.request s.draws) s.draws.now ⟨c.db, m⟩ =
            (r, ⟨c.db, m⟩) ∧
          ∀ u, SignedIn env s ⟨c.db, m⟩ u → r.status_code = 404) ∧
      ∀ (i : ι) (L o : UUID), Aimed (steps i) L o →
        (∃ x ∈ c.db :: (c.threads i).reads, IsOwner x L o) →
        (c.threads i).pending = [] ∧ ∀ r, answer c i = some r →
          r.status_code = 404 ∨ (c.threads i).reads.length ≤ 1 := by
  have h := orderly_of_reached env past fresh reached
  refine ⟨unique_roles h.roles, fun s m L o hs ho => ?_, fun i L o hs ho => ?_⟩
  · exact aimed_alone env hs h.roles ho
  · exact aimed_among_others h (aiming_of_reached env hs reached) ho

/-- Ann makes another list, and takes from the owner of her list a share that there is not. -/
def ann_at_work : Bool → Step
  | true => ann_does (.create_list ⟨"stamps", by decide⟩) 8
  | false => ann_does (.revoke_share 7 1) 0

theorem ann_draws_afresh : Fresh shared_list ann_at_work := by
  constructor
  · rintro (_ | _) (_ | _) ⟨body, hcall⟩ ⟨body', hcall'⟩ -
    · cases hcall
    · cases hcall
    · cases hcall'
    · rfl
  · rintro (_ | _) ⟨body, hcall⟩
    · cases hcall
    · decide

/-- The two run in turns. -/
theorem ann_keeps_her_role :
    ∃ c, System.exec (fun _ _ => true) (requests .sample shared_list ann_at_work)
        ((List.replicate 5 [(true, 0), (false, 0)]).flatten) = some c ∧
      status c true = some 201 ∧ status c false = some 404 ∧ UniqueRoles c.db ∧
      (c.threads false).pending = [] := by
  have hrun : (System.exec (fun _ _ => true) (requests .sample shared_list ann_at_work)
      ((List.replicate 5 [(true, 0), (false, 0)]).flatten)).map (fun c =>
        (status c true, status c false, decide (owner_of c.db 7 = some 1))) =
      some (some 201, some 404, true) := by decide
  obtain ⟨c, hc, hstatus⟩ := Option.map_eq_some_iff.mp hrun
  obtain ⟨hlist, hstatus⟩ := Prod.mk.inj hstatus
  obtain ⟨hshare, howner⟩ := Prod.mk.inj hstatus
  have hreached := System.reached_mono (fun _ _ _ => trivial) (System.reached_of_exec .start hc)
  obtain ⟨hroles, -, haimed⟩ :=
    every_user_has_one_role .sample ⟨_, rfl⟩ ann_at_work ann_draws_afresh c hreached
  have hann : owner_of c.db 7 = some 1 := of_decide_eq_true howner
  exact ⟨c, hc, hlist, hshare, hroles,
    (haimed false 7 1 (Or.inl rfl) ⟨c.db, List.mem_cons_self, hann⟩).1⟩

end shared_todos.role_invariant
