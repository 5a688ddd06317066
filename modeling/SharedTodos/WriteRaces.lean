-- Requests that write one list side by side, and what they answer. Up to its statement a
-- request answers with a 404 or a 409 where it finds a row gone or a pair taken, and
-- `create_share` does so at its statement too. The others make a 500 or a 204 of it, and
-- a row that is gone when it is read back makes a 500 of a change that is committed.
import SharedTodos.WriteRequests
import Mathlib.Data.Fintype.Sum

open keyed_table transactions
open shared_todos.models shared_todos.http shared_todos.http.handler
open shared_todos.sessions shared_todos.authz
open shared_todos.lists shared_todos.items shared_todos.shares
open shared_todos.server shared_todos.app shared_todos.write_requests

namespace shared_todos.write_races

variable (env : Env)

/-! ## What a request needs of the database -/

/-- It adds a row of its own. -/
def inserts : Write → Bool
  | .create_item _ | .create_share _ => true
  | _ => false

/-- It makes a 404 or a 409 of an error of its statement. -/
def catches : Write → Bool
  | .create_share _ => true
  | _ => false

section
variable (q : WriteRequest)

/-- The rows that its statement needs are there, and the pair of a new share is free. -/
def target (db : DB) : Bool :=
  match q.write with
  | .rename_list _ | .delete_list | .create_item _ => (db.lists.find q.list_id).isSome
  | .update_item item_id _ | .delete_item item_id => (db.items.find item_id).isSome
  | .create_share body =>
    (db.lists.find q.list_id).isSome && (db.users.find body.user_id).isSome &&
      (db.shares.find (q.list_id, body.user_id)).isNone
  | .change_role user_id _ | .revoke_share user_id =>
    (db.shares.find (q.list_id, user_id)).isSome

/-- What its lookup after `n` reads needs. -/
def looked_up (n : Nat) (db : DB) : Bool :=
  match q.write with
  | .create_share body =>
    if n = 3 then (db.users.find body.user_id).isSome
    else (db.shares.find (q.list_id, body.user_id)).isNone
  | _ => target q db

/-- The row that it reads back is there. -/
def row (db : DB) : Bool :=
  match q.write with
  | .rename_list _ => (db.lists.find q.list_id).isSome
  | .create_item _ => (db.items.find q.draws.row_id).isSome
  | .update_item item_id _ => (db.items.find item_id).isSome
  | .create_share body => (db.shares.find (q.list_id, body.user_id)).isSome
  | .change_role user_id _ => (db.shares.find (q.list_id, user_id)).isSome
  | .delete_list | .delete_item _ | .revoke_share _ => true

/-- What its next step needs. -/
def finds (t : Running) (db : DB) : Bool :=
  if q.reading_back t then row q db
  else if t.prog.writing then target q db
  else if t.prog.reading then looked_up q t.reads.length db
  else true

/-- It has passed its gate, and its next step finds a row gone or a pair taken. -/
def misses_now (t : Running) (db : DB) : Bool :=
  decide (3 ≤ t.reads.length) && !finds q t db

/-- The change that it commits is the one of its statement, for the rows that it saw. -/
def Made (cs : List Change) : Prop :=
  ∃ seen plan s, q.Ready env seen plan ∧ plan.statement s = .ok cs

/-- The answer says what has happened: of a success the change is committed, of an error
nothing is, and a request that has lost a race answers with a 404 or a 409. -/
structure Matches (r : Response) (lost : Prop) (committed : List Change → Prop) : Prop where
  success : r.status_code < 400 → ∃ cs, committed cs ∧ Made env q cs
  error : 400 ≤ r.status_code → ∀ cs, ¬ committed cs
  lost : lost → r.status_code = 404 ∨ r.status_code = 409

end

/-- The changes of a step that commits. -/
def commits_now (t : Running) : Option (List Change) :=
  if t.prog.committing then some t.pending else none

/-! ## What a request relies on -/

section
variable (q : WriteRequest)

/-- It has done its lookups, and does not read its row back yet. -/
def past_lookups (t : Running) : Bool :=
  !t.prog.done && !t.prog.reading && decide (3 + q.write.lookups ≤ t.reads.length)

/-- A new item whose gate has seen that the user owns the list, and asks for his share
next. It has no lookup that sees the list again. -/
def owner_seen (t : Running) : Bool :=
  match q.write, t.reads with
  | .create_item _, [o, a] =>
    q.request.session.any fun token => a.sessions.rows.any fun s =>
      decide (s.token_hash = hash_token env token ∧ owner_of o q.list_id = some s.user_id)
  | _, _ => false

/-- What it has seen, and does not check again. -/
def relies (t : Running) (db : DB) : Bool :=
  if q.reading_back t then row q db
  else if t.prog.committing then inserts q.write || row q db
  else if past_lookups q t || owner_seen env q t then catches q.write || target q db
  else true

end

/-- The foreign key from a share to its list. -/
def Referenced (list_id : UUID) (db : DB) : Prop :=
  ∀ s ∈ db.shares.rows, s.list_id = list_id → (db.lists.find list_id).isSome = true

instance (list_id : UUID) (db : DB) : Decidable (Referenced list_id db) :=
  inferInstanceAs (Decidable (∀ s ∈ db.shares.rows, _))

variable {κ ι : Type}

/-- A commit leaves the other requests on the list what they rely on. -/
def Unraced (w : Writers κ ι) (c : Server (κ ⊕ ι)) (i : κ ⊕ ι) : Prop :=
  (c.threads i).prog.committing = true → ∀ k, .inl k ≠ i →
    relies env (w.one k) (c.threads (.inl k)) c.db = true →
      relies env (w.one k) (c.threads (.inl k)) (c.view i) = true

instance [Fintype κ] [DecidableEq κ] [DecidableEq ι] (w : Writers κ ι) (c : Server (κ ⊕ ι))
    (i : κ ⊕ ι) : Decidable (Unraced env w c i) := inferInstanceAs (Decidable (_ → _))

/-- What a step of a request commits, and whether it finds a row gone or a pair taken. -/
structure Note (κ : Type) where
  who : κ
  commits : Option (List Change)
  misses : Bool
deriving DecidableEq

def note (w : Writers κ ι) (c : Server (κ ⊕ ι)) : κ ⊕ ι → Time → Option (Note κ)
  | .inl k, _ =>
    some ⟨k, commits_now (c.threads (.inl k)), misses_now (w.one k) (c.threads (.inl k)) c.db⟩
  | .inr _, _ => none

def Lost (log : List (Option (Note κ))) (k : κ) : Prop :=
  ∃ m : Note κ, some m ∈ log ∧ m.who = k ∧ m.misses = true

def Committed (log : List (Option (Note κ))) (k : κ) (cs : List Change) : Prop :=
  ∃ m : Note κ, some m ∈ log ∧ m.who = k ∧ m.commits = some cs

/-! ## The plans -/

section
variable {env} {q : WriteRequest} {plan : Plan} {seen : List DB} {db : DB} {cs : List Change}

theorem target_of_ready {s : DB} {rest : List DB} (h : q.Ready env (s :: rest) plan)
    (hitem : ∀ body, q.write ≠ .create_item body) (hcatches : catches q.write = false) :
    target q s = true := by
  obtain ⟨gate, perm, -, hplanned⟩ := h
  obtain ⟨L, write, request, d⟩ := q
  dsimp only at hplanned hitem hcatches
  cases hplanned with
  | create_item body => exact absurd rfl (hitem body)
  | create_share body a s target found free => cases hcatches
  | rename_list body s lst found => simp [target, found]
  | delete_list s lst found => simp [target, found]
  | update_item item_id body s item found on_list => simp [target, found]
  | delete_item item_id s item found on_list => simp [target, found]
  | change_role user_id body s share found => simp [target, found]
  | revoke_share user_id s share found => simp [target, found]

/-- What the last reads of the gate of a new item show. -/
theorem target_of_gate {s o a : DB} {body : ItemCreate} {t : Running}
    (h : q.Ready env [s, o, a] plan) (hitem : q.write = .create_item body)
    (hkeys : Referenced q.list_id s) (hreads : t.reads = [o, a])
    (howner : owner_seen env q t = true → target q s = true) : target q s = true := by
  obtain ⟨perm, hperm⟩ := h.admitted List.suffix_rfl rfl
  cases hperm with
  | admitted token now user role a o s cookie signed_in role_seen allowed =>
    cases role with
    | owner =>
      apply howner
      have hmem : user ∈ session_users env token now a := by rw [signed_in]; simp
      obtain ⟨-, x, hx, hid, hhash, -⟩ := (mem_session_users env).mp hmem
      unfold owner_seen
      rw [hitem, hreads, cookie]
      simp only [Option.any_some, List.any_eq_true, decide_eq_true_eq]
      exact ⟨x, hx, hhash, by rw [hid]; exact role_seen⟩
    | editor =>
      obtain ⟨share, hfind, -⟩ := Option.map_eq_some_iff.mp role_seen
      have hkey := Table.key_of_find hfind
      have hlist := hkeys share (Table.mem_of_find hfind) (congrArg Prod.fst hkey)
      simpa [target, hitem] using hlist
    | viewer => exact absurd allowed q.write.not_allowed_viewer

theorem looked_up_of_ready {later reads : List DB} (h : q.Ready env later plan)
    (hlater : db :: reads <:+ later) (hgate : 3 ≤ reads.length) :
    looked_up q reads.length db = true := by
  have hlength := h.length
  have hle := hlater.length_le
  rw [List.length_cons] at hle
  by_cases hshare : catches q.write = true
  · obtain ⟨gate, perm, hperm, hplanned⟩ := h
    have hthree : gate.length = 3 := by cases hperm; rfl
    obtain ⟨L, write, request, d⟩ := q
    dsimp only at hplanned hshare hlength
    cases hplanned with
    | create_share body a s target found free =>
      rcases List.suffix_cons_iff.mp hlater with heq | hlater
      · obtain ⟨rfl, rfl⟩ := List.cons.inj heq
        simp [looked_up, free, hthree]
      · have heq := hlater.eq_of_length_le (by simp only [List.length_cons]; omega)
        obtain ⟨rfl, rfl⟩ := List.cons.inj heq
        simp [looked_up, found, hthree]
    | _ => cases hshare
  · have hlookup : looked_up q reads.length db = target q db := by
      unfold looked_up
      cases hw : q.write with
      | create_share body =>
        rw [hw] at hshare
        exact absurd rfl hshare
      | _ => rfl
    rw [hlookup]
    have hone : q.write.lookups ≤ 1 := by
      cases hw : q.write with
      | create_share body =>
        rw [hw] at hshare
        exact absurd rfl hshare
      | _ => simp [Write.lookups]
    have heq := hlater.eq_of_length_le (by rw [List.length_cons]; omega)
    rw [← heq] at h hlength
    refine target_of_ready h ?_ (by simpa using hshare)
    intro body hitem
    rw [hitem, List.length_cons] at hlength
    simp only [Write.lookups] at hlength
    omega

/-- A change of a row reads back the row that it needs. -/
theorem row_of_target (hinserts : inserts q.write = false) (h : target q db = true) :
    row q db = true := by
  unfold target at h
  unfold row
  cases hw : q.write with
  | create_item body => rw [hw] at hinserts; cases hinserts
  | create_share body => rw [hw] at hinserts; cases hinserts
  | delete_list => rfl
  | delete_item item_id => rfl
  | revoke_share user_id => rfl
  | _ => rw [hw] at h; exact h

theorem target_of_accepted (h : q.Ready env seen plan) (hcatches : catches q.write = true)
    (hst : plan.statement db = .ok cs) : target q db = true := by
  obtain ⟨gate, perm, -, hplanned⟩ := h
  obtain ⟨L, write, request, d⟩ := q
  dsimp only at hplanned hcatches
  cases hplanned with
  | create_share body a s user found free =>
    obtain ⟨-, -, hfree, hlist, huser⟩ := insert_share_ok hst
    simp only [target, Bool.and_eq_true, Option.isSome_iff_ne_none, Option.isNone_iff_eq_none]
    exact ⟨⟨hlist, huser⟩, hfree⟩
  | _ => cases hcatches

/-- The errors that `create_share` catches. -/
theorem conflict_of_rejected {e : DbError} (h : q.Ready env seen plan)
    (hcatches : catches q.write = true) (hst : plan.statement db = .error e) :
    (plan.failure e).response.status_code = 404 ∨ (plan.failure e).response.status_code = 409 := by
  obtain ⟨gate, perm, -, hplanned⟩ := h
  obtain ⟨L, write, request, d⟩ := q
  dsimp only at hplanned hcatches
  cases hplanned with
  | create_share body a s user found free =>
    have hrole : role_valid (new_share L body d).role := body.role_pattern
    change insert_share (new_share L body d) db = .error e at hst
    change (share_error e).response.status_code = 404 ∨ (share_error e).response.status_code = 409
    unfold insert_share at hst
    rw [if_neg (not_not.mpr hrole)] at hst
    split at hst
    · cases hst
      exact Or.inr rfl
    split at hst
    · cases hst
      exact Or.inl rfl
    · cases hst
  | _ => cases hcatches

/-- After its commit a request has its row to read back. -/
theorem row_after_commit {s : DB} (h : q.Ready env seen plan) (hst : plan.statement s = .ok cs)
    (hrow : (inserts q.write || row q db) = true) : row q (Prog.applyAll cs db) = true := by
  obtain ⟨gate, perm, -, hplanned⟩ := h
  obtain ⟨L, write, request, d⟩ := q
  dsimp only at hplanned hrow
  cases hplanned with
  | delete_list s lst found => rfl
  | delete_item item_id s item found on_list => rfl
  | revoke_share user_id s share found => rfl
  | create_item body =>
    obtain ⟨rfl, -, -⟩ := insert_item_ok hst
    simp [row, Change.apply, Table.find_insert, new_item]
  | create_share body a s target found free =>
    obtain ⟨rfl, -⟩ := insert_share_ok hst
    simp [row, Change.apply, Table.find_insert, new_share, Share.key]
  | rename_list body s lst found =>
    change rename_statement lst body.name d.db_now _ = _ at hst
    rcases rename_statement_ok hst with rfl | rfl
    · exact hrow
    · simpa [inserts, row, Change.apply] using hrow
  | update_item item_id body s item found on_list =>
    rcases update_item_row_ok hst with ⟨rfl, -⟩ | ⟨rfl, -⟩
    · exact hrow
    · simpa [inserts, row, Change.apply] using hrow
  | change_role user_id body s share found =>
    change role_statement share body.role _ = _ at hst
    rcases role_statement_ok hst with rfl | ⟨rfl, -⟩
    · exact hrow
    · simpa [inserts, row, Change.apply] using hrow

/-- A request that reads no row back answers with a success. -/
theorem answer_status {r : Response} (h : q.Ready env seen plan) (hreply : plan.reply = .answer r) :
    r.status_code < 400 := by
  obtain ⟨gate, perm, -, hplanned⟩ := h
  generalize q.write = write at hplanned
  cases hplanned with
  | delete_list s lst found => cases hreply; decide
  | delete_item item_id s item found on_list => cases hreply; decide
  | revoke_share user_id s share found => cases hreply; decide
  | _ => cases hreply

/-- A row that is there is read back into a success. -/
theorem found_of_row (h : q.Ready env seen plan) (hrow : row q db = true) :
    ∃ r, plan.reply.found db = some r ∧ r.status_code < 400 := by
  obtain ⟨gate, perm, -, hplanned⟩ := h
  obtain ⟨L, write, request, d⟩ := q
  dsimp only at hplanned hrow
  cases hplanned with
  | delete_list s lst found => exact ⟨_, rfl, by decide⟩
  | delete_item item_id s item found on_list => exact ⟨_, rfl, by decide⟩
  | revoke_share user_id s share found => exact ⟨_, rfl, by decide⟩
  | create_item body =>
    obtain ⟨item, hitem⟩ := Option.isSome_iff_exists.mp hrow
    exact ⟨_, Option.map_eq_some_iff.mpr ⟨item, hitem, rfl⟩, (by decide : 201 < 400)⟩
  | create_share body a s target found free =>
    obtain ⟨share, hshare⟩ := Option.isSome_iff_exists.mp hrow
    exact ⟨_, Option.map_eq_some_iff.mpr ⟨share, hshare, rfl⟩, (by decide : 201 < 400)⟩
  | rename_list body s lst found =>
    obtain ⟨later, hlater⟩ := Option.isSome_iff_exists.mp hrow
    rw [← Table.key_of_find found] at hlater
    exact ⟨_, Option.map_eq_some_iff.mpr ⟨later, hlater, rfl⟩, (by decide : 200 < 400)⟩
  | update_item item_id body s item found on_list =>
    obtain ⟨later, hlater⟩ := Option.isSome_iff_exists.mp hrow
    rw [← Table.key_of_find found] at hlater
    exact ⟨_, Option.map_eq_some_iff.mpr ⟨later, hlater, rfl⟩, (by decide : 200 < 400)⟩
  | change_role user_id body s share found =>
    obtain ⟨later, hlater⟩ := Option.isSome_iff_exists.mp hrow
    rw [← Table.key_of_find found] at hlater
    exact ⟨_, Option.map_eq_some_iff.mpr ⟨later, hlater, rfl⟩, (by decide : 200 < 400)⟩

end

/-! ## The course of a request -/

/-- Where a request is, what it relies on, and what the log says of it: whether it has
lost a race, and what it has committed. -/
inductive Course (q : WriteRequest) (db : DB) (t : Running) (lost : Prop)
    (committed : List Change → Prop) : Prop where
  | looking (g : Handler Plan) (at_gate : q.Looking env g t) (holds : relies env q t db = true)
      (unbeaten : ¬ lost) (nothing : ∀ cs, ¬ committed cs)
  | doomed (g : Handler Plan) (failed : q.Doomed g t) (late : lost → 3 < t.reads.length)
      (nothing : ∀ cs, ¬ committed cs)
  | flushed (plan : Plan) (open_transaction : q.Flushed env plan t)
      (holds : relies env q t db = true) (unbeaten : ¬ lost) (nothing : ∀ cs, ¬ committed cs)
  | replying (plan : Plan) (done : q.Replying env plan t) (holds : relies env q t db = true)
      (unbeaten : ¬ lost) (made : ∃ cs, committed cs ∧ Made env q cs)
  | failing (plan : Plan) (e : DbError) (rejected : q.Failing env plan e t)
      (conflict : lost → (plan.failure e).response.status_code = 404 ∨
        (plan.failure e).response.status_code = 409) (nothing : ∀ cs, ¬ committed cs)
  | failed (x : Exn) (prog : t.prog = .raise x) (status : 400 ≤ x.response.status_code)
      (conflict : lost → x.response.status_code = 404 ∨ x.response.status_code = 409)
      (nothing : ∀ cs, ¬ committed cs)
  | answered (r : Response) (prog : t.prog = .ret r) (status : r.status_code < 400)
      (unbeaten : ¬ lost) (made : ∃ cs, committed cs ∧ Made env q cs)

section
variable {env} {q : WriteRequest} {plan : Plan} {t : Running} {db db' : DB} {lost : Prop}
  {committed : List Change → Prop}

/-- A step of another request. -/
theorem course_of_other (h : Course env q db t lost committed)
    (hrace : relies env q t db = true → relies env q t db' = true) :
    Course env q db' t lost committed := by
  cases h with
  | looking g at_gate holds unbeaten nothing =>
    exact .looking g at_gate (hrace holds) unbeaten nothing
  | doomed g failed late nothing => exact .doomed g failed late nothing
  | flushed plan open_transaction holds unbeaten nothing =>
    exact .flushed plan open_transaction (hrace holds) unbeaten nothing
  | replying plan done holds unbeaten made =>
    exact .replying plan done (hrace holds) unbeaten made
  | failing plan e rejected conflict nothing => exact .failing plan e rejected conflict nothing
  | failed x prog status conflict nothing => exact .failed x prog status conflict nothing
  | answered r prog status unbeaten made => exact .answered r prog status unbeaten made

/-! ### What a request relies on, from phase to phase -/

/-- Before its statement a request relies on what its next statement needs. -/
theorem relies_of_looking {g : Handler Plan} (h : q.Looking env g t) :
    relies env q t db =
      if past_lookups q t || owner_seen env q t then catches q.write || target q db else true := by
  unfold relies
  rw [h.not_reading_back, h.not_committing]
  rfl

/-- At its arrival it relies on nothing. -/
theorem relies_at_arrival {g : Handler Plan} (h : q.Looking env g t) (hreads : t.reads = []) :
    relies env q t db = true := by
  have hpast : past_lookups q t = false := by simp [past_lookups, hreads]
  have howner : owner_seen env q t = false := by
    unfold owner_seen
    rw [hreads]
    split
    · rename_i h
      cases h
    · rfl
  rw [relies_of_looking h, hpast, howner]
  rfl

theorem relies_of_flushed (h : q.Flushed env plan t) :
    relies env q t db = (inserts q.write || row q db) := by
  have hreading : t.prog.reading = false := by rw [h.prog]; rfl
  have hcommitting : t.prog.committing = true := by rw [h.prog]; rfl
  simp [relies, WriteRequest.reading_back, hreading, hcommitting]

theorem relies_of_replying (h : q.Replying env plan t) :
    relies env q t db = if q.reading_back t then row q db else true := by
  have hlength := h.ready.length
  have hpast : past_lookups q t = false := by
    unfold past_lookups
    rw [h.prog]
    cases plan.reply <;> rfl
  have howner : owner_seen env q t = false := by
    unfold owner_seen
    split
    · rename_i hreads
      rw [hreads, List.length_cons, List.length_cons, List.length_nil] at hlength
      omega
    · rfl
  simp [relies, h.not_committing, hpast, howner]

/-- The owner query has seen the list. -/
theorem target_of_owner_seen (h : owner_seen env q t = true) :
    ∃ o a, t.reads = [o, a] ∧ target q o = true := by
  unfold owner_seen at h
  split at h
  · rename_i body o a hw hreads
    obtain ⟨token, -, h⟩ := (Option.any_eq_true ..).mp h
    obtain ⟨s, -, h⟩ := List.any_eq_true.mp h
    obtain ⟨-, howner⟩ := of_decide_eq_true h
    obtain ⟨lst, hlst, -⟩ := Option.map_eq_some_iff.mp howner
    exact ⟨o, a, hreads, by simp [target, hw, hlst]⟩
  · cases h

/-- What the last read of the gate and of the lookups shows. -/
theorem target_of_last_read {reads later : List DB} (h : q.Ready env later plan)
    (hcatches : catches q.write = false) (hlater : db :: reads <:+ later)
    (hlength : 3 + q.write.lookups ≤ reads.length + 1) (hkeys : Referenced q.list_id db)
    (hreads : t.reads = reads) (howner : owner_seen env q t = true → target q db = true) :
    target q db = true := by
  have heq := hlater.eq_of_length_le (by rw [h.length, List.length_cons]; omega)
  subst heq
  by_cases hitem : ∃ body, q.write = .create_item body
  · obtain ⟨body, hitem⟩ := hitem
    have hthree := h.length
    rw [hitem] at hthree
    obtain ⟨o, a, rfl⟩ := List.length_eq_two.mp (Nat.succ.inj hthree : reads.length = 2)
    exact target_of_gate h hitem hkeys hreads howner
  · exact target_of_ready h (fun body hw => hitem ⟨body, hw⟩) hcatches

end

/-! ### The steps of a request -/

section
variable {env} {q : WriteRequest} {plan : Plan} {lost : Prop} {committed : List Change → Prop}
  {c c' : Server ι} {i : ι} {now : Time}

theorem nothing_committed (hnot : (c.threads i).prog.committing = false)
    (h : ∀ cs, ¬ committed cs) (cs : List Change) :
    ¬ (committed cs ∨ commits_now (c.threads i) = some cs) := by
  unfold commits_now
  rw [hnot]
  simpa using h cs

/-- A request that looks misses something only by a lookup. -/
theorem miss_of_read (hback : q.reading_back (c.threads i) = false) (hread : Read c c' i)
    (hmiss : misses_now q (c.threads i) c.db = true) :
    (c'.threads i).reads = c.db :: (c.threads i).reads ∧ 3 ≤ (c.threads i).reads.length ∧
      looked_up q (c.threads i).reads.length c.db = false := by
  unfold misses_now finds at hmiss
  rw [hback, hread.not_writing] at hmiss
  rcases hread.reads with ⟨hreading, -⟩ | hreads
  · rw [hreading] at hmiss
    simp at hmiss
  · refine ⟨hreads, ?_⟩
    cases hreading : (c.threads i).prog.reading with
    | false => rw [hreading] at hmiss; simp at hmiss
    | true =>
      rw [hreading] at hmiss
      simpa using hmiss

/-- A step that looks leaves what the request relies on, or finds it. -/
theorem relies_of_read {g g' : Handler Plan} {later : List DB} (h : q.Looking env g (c.threads i))
    (hafter : q.Looking env g' (c'.threads i)) (hread : Read c c' i)
    (hdone : (c.threads i).prog.done = false) (hkeys : Referenced q.list_id c.db)
    (hready : q.Ready env later plan) (hlater : (c'.threads i).reads <:+ later)
    (hholds : relies env q (c.threads i) c.db = true) :
    relies env q (c'.threads i) c.db = true := by
  rw [relies_of_looking h] at hholds
  rw [relies_of_looking hafter]
  split
  swap
  · rfl
  rename_i hcase
  cases hcatches : catches q.write with
  | true => rfl
  | false =>
    rw [hcatches] at hholds
    change target q c.db = true
    rw [Bool.or_eq_true] at hcase
    rcases hread.reads with ⟨hreading, hreads⟩ | hreads
    · have hbefore : (past_lookups q (c.threads i) || owner_seen env q (c.threads i)) = true := by
        rw [Bool.or_eq_true]
        apply hcase.imp
        · intro hpast
          simp only [past_lookups, Bool.and_eq_true, decide_eq_true_eq, hreads] at hpast ⊢
          exact ⟨⟨by rw [hdone]; rfl, by rw [hreading]; rfl⟩, hpast.2⟩
        · intro howner
          unfold owner_seen at howner ⊢
          rw [hreads] at howner
          exact howner
      rw [if_pos hbefore] at hholds
      exact hholds
    · rcases hcase with hpast | howner
      · simp only [past_lookups, Bool.and_eq_true, decide_eq_true_eq, hreads,
          List.length_cons] at hpast
        rw [hreads] at hlater
        apply target_of_last_read hready hcatches hlater hpast.2 hkeys rfl
        intro howner
        rw [howner, Bool.or_true, if_pos rfl] at hholds
        exact hholds
      · obtain ⟨o, a, ho, htarget⟩ := target_of_owner_seen howner
        rw [hreads] at ho
        rw [(List.cons.inj ho).1]
        exact htarget

/-- The statement of a request finds its target. -/
theorem not_missing_of_target (h : q.Looking env (.ret plan) (c.threads i))
    (htarget : target q c.db = true) : ¬ misses_now q (c.threads i) c.db = true := by
  have hwriting : (c.threads i).prog.writing = true := by rw [h.prog]; rfl
  simp [misses_now, finds, h.not_reading_back, hwriting, htarget]

/-- What a request that is ready for its statement relies on. -/
theorem target_of_relies (h : q.Looking env (.ret plan) (c.threads i))
    (holds : relies env q (c.threads i) c.db = true) :
    (catches q.write || target q c.db) = true := by
  have hlength := h.ready.length
  have hpast : past_lookups q (c.threads i) = true := by
    unfold past_lookups
    rw [h.prog, hlength]
    simp [Plan.prog, Prog.done, Prog.reading, Prog.bind_eq, Prog.bind]
  rw [relies_of_looking h, hpast, Bool.true_or, if_pos rfl] at holds
  exact holds

variable [DecidableEq ι] [Fintype ι]

/-- What the log says after a step of the request. -/
abbrev After (env : Env) (q : WriteRequest) (c c' : Server ι) (i : ι) (lost : Prop)
    (committed : List Change → Prop) : Prop :=
  Course env q c'.db (c'.threads i) (lost ∨ misses_now q (c.threads i) c.db = true)
    fun cs => committed cs ∨ commits_now (c.threads i) = some cs

theorem after_doomed {g : Handler Plan} (h : q.Doomed g (c.threads i))
    (late : lost → 3 < (c.threads i).reads.length) (nothing : ∀ cs, ¬ committed cs)
    (hs : c.step i now = some c') : After env q c c' i lost committed := by
  obtain ⟨-, hread, g', hdoomed⟩ := doomed_step h hs
  have hlooking : q.Looking env g (c.threads i) := h.looking
  refine .doomed g' hdoomed ?_ (nothing_committed hlooking.not_committing nothing)
  rintro (hlost | hmiss)
  · have hlength := late hlost
    rcases hread.reads with ⟨-, hreads⟩ | hreads
    · rw [hreads]
      exact hlength
    · rw [hreads, List.length_cons]
      omega
  · obtain ⟨hreads, hgate, -⟩ := miss_of_read hlooking.not_reading_back hread hmiss
    rw [hreads, List.length_cons]
    omega

theorem after_looking {g : Handler Plan} (h : q.Looking env g (c.threads i))
    (holds : relies env q (c.threads i) c.db = true) (unbeaten : ¬ lost)
    (nothing : ∀ cs, ¬ committed cs) (hkeys : Referenced q.list_id c.db)
    (hs : c.step i now = some c') : After env q c c' i lost committed := by
  have hnothing := nothing_committed h.not_committing nothing
  obtain ⟨hdb, hlook⟩ := looking_step h hs
  cases hlook with
  | looked g' after read =>
    rcases after.ready_or_doomed with ⟨later, plan, hlater, hready⟩ | hdoomed
    · have hfinds : ¬ misses_now q (c.threads i) c.db = true := by
        intro hmiss
        obtain ⟨hreads, hgate, hmissed⟩ := miss_of_read h.not_reading_back read hmiss
        rw [hreads] at hlater
        rw [looked_up_of_ready hready hlater hgate] at hmissed
        cases hmissed
      refine .looking g' after ?_ (not_or.mpr ⟨unbeaten, hfinds⟩) hnothing
      rw [hdb]
      exact relies_of_read h after read (System.not_done_of_step hs) hkeys hready hlater holds
    · refine .doomed g' hdoomed ?_ hnothing
      rintro (hlost | hmiss)
      · exact absurd hlost unbeaten
      · obtain ⟨hreads, hgate, -⟩ := miss_of_read h.not_reading_back read hmiss
        rw [hreads, List.length_cons]
        omega
  | flushed plan planned accepted after reads =>
    subst planned
    have htarget : target q c.db = true := by
      cases hcatches : catches q.write with
      | true => exact target_of_accepted h.ready hcatches accepted
      | false =>
        have hor := target_of_relies h holds
        rw [hcatches] at hor
        exact hor
    refine .flushed plan after ?_ (not_or.mpr ⟨unbeaten, not_missing_of_target h htarget⟩) hnothing
    rw [hdb, relies_of_flushed after]
    cases hinserts : inserts q.write with
    | true => rfl
    | false => exact row_of_target hinserts htarget
  | rejected plan e planned refused after reads =>
    subst planned
    refine .failing plan e after ?_ hnothing
    rintro (hlost | hmiss)
    · exact absurd hlost unbeaten
    · cases hcatches : catches q.write with
      | true => exact conflict_of_rejected h.ready hcatches refused
      | false =>
        have hor := target_of_relies h holds
        rw [hcatches] at hor
        exact absurd hmiss (not_missing_of_target h hor)

theorem after_flushed (h : q.Flushed env plan (c.threads i))
    (holds : relies env q (c.threads i) c.db = true) (unbeaten : ¬ lost)
    (hs : c.step i now = some c') : After env q c c' i lost committed := by
  obtain ⟨hdb, hreplying, -⟩ := flushed_step h hs
  obtain ⟨s, hst⟩ := h.pending
  have hfinds : ¬ misses_now q (c.threads i) c.db = true := by
    simp [misses_now, finds, WriteRequest.reading_back, h.prog, Prog.reading, Prog.writing]
  refine .replying plan hreplying ?_ (not_or.mpr ⟨unbeaten, hfinds⟩) ?_
  · rw [relies_of_replying hreplying, hdb]
    split
    · rw [relies_of_flushed h] at holds
      exact row_after_commit h.ready hst holds
    · rfl
  · refine ⟨(c.threads i).pending, Or.inr ?_, _, plan, s, h.ready, hst⟩
    simp [commits_now, h.prog, Prog.committing]

theorem after_replying (h : q.Replying env plan (c.threads i))
    (holds : relies env q (c.threads i) c.db = true) (unbeaten : ¬ lost)
    (made : ∃ cs, committed cs ∧ Made env q cs) (hs : c.step i now = some c') :
    After env q c c' i lost committed := by
  have hreading : (c.threads i).prog.reading = true := by
    have hdone := System.not_done_of_step hs
    rw [h.prog] at hdone ⊢
    cases hreply : plan.reply with
    | answer r => rw [hreply] at hdone; cases hdone
    | _ => rfl
  have hback : q.reading_back (c.threads i) = true := by
    simp [WriteRequest.reading_back, hreading, h.ready.length]
  rw [relies_of_replying h, if_pos hback] at holds
  have hfinds : ¬ misses_now q (c.threads i) c.db = true := by
    simp [misses_now, finds, hback, holds]
  obtain ⟨r, hfound, hstatus⟩ := found_of_row h.ready holds
  obtain ⟨cs, hcs, hmade⟩ := made
  rcases replying_step h hs with ⟨-, ⟨r', hr', hprog⟩ | ⟨hnone, -⟩⟩
  · rw [hfound] at hr'
    cases hr'
    exact .answered r hprog hstatus (not_or.mpr ⟨unbeaten, hfinds⟩) ⟨cs, Or.inl hcs, hmade⟩
  · rw [hfound] at hnone
    cases hnone

theorem after_failing {e : DbError} (h : q.Failing env plan e (c.threads i))
    (conflict : lost → (plan.failure e).response.status_code = 404 ∨
      (plan.failure e).response.status_code = 409) (nothing : ∀ cs, ¬ committed cs)
    (hs : c.step i now = some c') : After env q c c' i lost committed := by
  obtain ⟨gate, perm, -, hplanned⟩ := h.ready
  have hfinds : ¬ misses_now q (c.threads i) c.db = true := by
    have hprog := h.prog
    unfold Plan.fail at hprog
    split at hprog
    · simp [misses_now, finds, WriteRequest.reading_back, hprog, Prog.reading, Prog.writing]
    · simp [misses_now, finds, WriteRequest.reading_back, hprog, Prog.reading, Prog.writing]
  refine .failed (plan.failure e) (failing_step h hs).2 (failure_status hplanned e) ?_
    (nothing_committed h.not_committing nothing)
  intro hlost
  exact conflict (hlost.resolve_right hfinds)

theorem after_step (h : Course env q c.db (c.threads i) lost committed)
    (hkeys : Referenced q.list_id c.db) (hs : c.step i now = some c') :
    After env q c c' i lost committed := by
  have hdone := System.not_done_of_step hs
  cases h with
  | looking g at_gate holds unbeaten nothing =>
    exact after_looking at_gate holds unbeaten nothing hkeys hs
  | doomed g failed late nothing => exact after_doomed failed late nothing hs
  | flushed plan open_transaction holds unbeaten nothing =>
    exact after_flushed open_transaction holds unbeaten hs
  | replying plan done holds unbeaten made => exact after_replying done holds unbeaten made hs
  | failing plan e rejected conflict nothing => exact after_failing rejected conflict nothing hs
  | failed x prog status conflict nothing => rw [prog] at hdone; cases hdone
  | answered r prog status unbeaten made => rw [prog] at hdone; cases hdone

end

/-! ## The course of a run -/

section
variable {κ : Type} {env} {w : Writers κ ι} {log : List (Option (Note κ))} {c c' : Server (κ ⊕ ι)}
  {k : κ} {i : κ ⊕ ι} {now : Time}

theorem lost_snoc {n : Option (Note κ)} :
    Lost (log ++ [n]) k ↔ Lost log k ∨ ∃ m : Note κ, n = some m ∧ m.who = k ∧ m.misses = true := by
  unfold Lost
  simp only [List.mem_append, List.mem_singleton, or_and_right, exists_or, eq_comm]

theorem committed_snoc {n : Option (Note κ)} {cs : List Change} :
    Committed (log ++ [n]) k cs ↔
      Committed log k cs ∨ ∃ m : Note κ, n = some m ∧ m.who = k ∧ m.commits = some cs := by
  unfold Committed
  simp only [List.mem_append, List.mem_singleton, or_and_right, exists_or, eq_comm]

/-- The note of a step is about its own request. -/
theorem who_of_note {m : Note κ} (h : note w c i now = some m) : i = .inl m.who := by
  cases i with
  | inl k => cases h; rfl
  | inr j => cases h

variable [DecidableEq κ] [Fintype κ] [DecidableEq ι] [Fintype ι]

theorem course_of_step
    (h : ∀ k, Course env (w.one k) c.db (c.threads (.inl k)) (Lost log k) (Committed log k))
    (hkeys : Referenced w.list_id c.db) (hrace : Unraced env w c i) (hs : c.step i now = some c')
    (k : κ) :
    Course env (w.one k) c'.db (c'.threads (.inl k)) (Lost (log ++ [note w c i now]) k)
      (Committed (log ++ [note w c i now]) k) := by
  by_cases hk : i = .inl k
  · subst hk
    have hlost : Lost (log ++ [note w c (.inl k) now]) k =
        (Lost log k ∨ misses_now (w.one k) (c.threads (.inl k)) c.db = true) := by
      rw [lost_snoc]
      simp [note]
    have hcommitted : Committed (log ++ [note w c (.inl k) now]) k =
        fun cs => Committed log k cs ∨ commits_now (c.threads (.inl k)) = some cs := by
      funext cs
      rw [committed_snoc]
      simp [note]
    rw [hlost, hcommitted]
    exact after_step (h k) hkeys hs
  · have hother : ∀ m, note w c i now = some m → m.who ≠ k := by
      rintro m hm rfl
      exact hk (who_of_note hm)
    have hlost : Lost (log ++ [note w c i now]) k = Lost log k := by
      rw [lost_snoc, eq_iff_iff, or_iff_left]
      rintro ⟨m, hm, hwho, -⟩
      exact hother m hm hwho
    have hcommitted : Committed (log ++ [note w c i now]) k = Committed log k := by
      funext cs
      rw [committed_snoc, eq_iff_iff, or_iff_left]
      rintro ⟨m, hm, hwho, -⟩
      exact hother m hm hwho
    rw [hlost, hcommitted, System.step_others hs (Ne.symm hk)]
    refine course_of_other (h k) fun hholds => ?_
    rcases System.db_of_step hs with ⟨-, hdb⟩ | ⟨hcommitting, hdb⟩
    · rw [hdb]
      exact hholds
    · rw [hdb]
      exact hrace hcommitting k (Ne.symm hk) hholds

omit [DecidableEq κ] [Fintype κ] [DecidableEq ι] [Fintype ι] in
/-- The answer of a request, wherever it is. -/
theorem matches_of_course {q : WriteRequest} {lost : Prop} {committed : List Change → Prop}
    (h : Course env q c.db (c.threads i) lost committed) {r : Response} (hr : answer c i = some r) :
    Matches env q r lost committed := by
  have herror : ∀ {r : Response}, 400 ≤ r.status_code →
      (lost → r.status_code = 404 ∨ r.status_code = 409) → (∀ cs, ¬ committed cs) →
      Matches env q r lost committed :=
    fun hstatus hlost nothing => ⟨fun h => by omega, fun _ => nothing, hlost⟩
  have hsuccess : ∀ {r : Response}, r.status_code < 400 → ¬ lost →
      (∃ cs, committed cs ∧ Made env q cs) → Matches env q r lost committed :=
    fun hstatus unbeaten made =>
      ⟨fun _ => made, fun h => by omega, fun hlost => absurd hlost unbeaten⟩
  cases h with
  | looking g at_gate holds unbeaten nothing =>
    obtain ⟨e, he, rfl⟩ := answer_of_looking at_gate hr
    exact herror he.status (fun hlost => absurd hlost unbeaten) nothing
  | doomed g failed late nothing =>
    have hlooking : q.Looking env g (c.threads i) := failed.looking
    obtain ⟨e, he, rfl⟩ := answer_of_looking hlooking hr
    exact herror he.status (fun hlost => he.after_gate (late hlost)) nothing
  | flushed plan open_transaction holds unbeaten nothing =>
    rw [answer_of_not_done (by rw [open_transaction.prog]; rfl)] at hr
    cases hr
  | replying plan done holds unbeaten made =>
    have hprog := done.prog
    cases hreply : plan.reply with
    | answer r' =>
      rw [hreply] at hprog
      rw [answer_ret hprog] at hr
      cases hr
      exact hsuccess (answer_status done.ready hreply) unbeaten made
    | _ =>
      rw [hreply] at hprog
      rw [answer_of_not_done (by rw [hprog]; rfl)] at hr
      cases hr
  | failing plan e rejected conflict nothing =>
    obtain ⟨gate, perm, -, hplanned⟩ := rejected.ready
    rw [answer_of_failing rejected hr]
    exact herror (failure_status hplanned e) conflict nothing
  | failed x prog status conflict nothing =>
    rw [answer_raise prog] at hr
    cases hr
    exact herror status conflict nothing
  | answered r prog status unbeaten made =>
    rw [answer_ret prog] at hr
    cases hr
    exact hsuccess status unbeaten made

end

/-! ## The law -/

/-- Ann has a list, and Bob has no share of it. -/
def unshared_list : World :=
  run .sample [ann_registers "a" 1, bob_registers,
    ann_does (.create_list shopping) 7] .empty

/-- Ann shares the list with Bob, twice. -/
def two_shares : Writers Bool Empty where
  world := unshared_list
  list_id := 7
  write _ := .create_share bob_as_editor
  request _ := signed_in_as "a"
  draws _ := .sample "x" 0
  others := Empty.elim

/-- Both requests find Bob without a share. The first one commits, and then the second
one comes to its statement. -/
def both_look_first : List ((Bool ⊕ Empty) × Time) :=
  List.replicate 6 (.inl false, 0) ++ List.replicate 6 (.inl true, 0) ++
    List.replicate 3 (.inl false, 0) ++ List.replicate 2 (.inl true, 0)

/-- Bob writes the list while Ann deletes it. -/
def beside_a_deletion (bob_writes : Write) : Writers Bool Empty where
  world := shared_list
  list_id := 7
  write
    | false => bob_writes
    | true => .delete_list
  request
    | false => signed_in_as "b"
    | true => signed_in_as "a"
  draws _ := .sample "x" 10
  others := Empty.elim

/-- Bob adds an item. -/
def item_and_deletion : Writers Bool Empty :=
  beside_a_deletion (.create_item bread)

/-- The list goes when the item has passed its gate. -/
def deleted_in_between : List ((Bool ⊕ Empty) × Time) :=
  List.replicate 4 (.inl false, 0) ++ List.replicate 7 (.inl true, 0) ++ [(.inl false, 0)]

/-- An edit is committed, and answered with a 500 when its item is gone before it is read back. -/
example : (System.record (fun c _ _ => decide (Referenced 7 c.db))
    (note (beside_a_deletion (.update_item 9 ⟨some "oats", by decide, none, none⟩))) []
    (writers .sample (beside_a_deletion (.update_item 9 ⟨some "oats", by decide, none, none⟩)))
    (List.replicate 7 (.inl false, 0) ++ List.replicate 7 (.inl true, 0) ++ [(.inl false, 0)])).map
      (fun p => (status p.2 (.inl false),
        decide (some ⟨false, some [.patch_item 9 ⟨some "oats", none, none⟩ 0], false⟩ ∈ p.1))) =
    some (some 500, true) := by decide

end shared_todos.write_races
