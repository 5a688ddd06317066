-- A collaborator writes items of a list while his access is taken away. The gate of a
-- request reads the access, and its change is committed some steps later: where the
-- revocation commits in between, the change comes after it.
import SharedTodos.WriteRequests
import SharedTodos.Library.EventLog
import Mathlib.Data.Fintype.Sum

open keyed_table transactions event_log
open shared_todos.models shared_todos.http shared_todos.http.handler
open shared_todos.sessions shared_todos.authz
open shared_todos.lists shared_todos.items shared_todos.shares
open shared_todos.server shared_todos.write_requests

namespace shared_todos.revocation_races

variable (env : Env)

/-! ## The access of a collaborator -/

variable {κ ι : Type}

/-- The writes of one user on a list, beside other requests. -/
structure Collaboration (κ ι : Type) extends Writers κ ι where
  user_id : UUID

namespace Collaboration

variable (r : Collaboration κ ι)

/-- The user has a share of the list that lets him write its items. -/
def Editor (db : DB) : Prop := HasShare db r.list_id r.user_id "editor"

instance (db : DB) : Decidable (r.Editor db) :=
  inferInstanceAs (Decidable (share_role_of db r.list_id r.user_id = some "editor"))

/-- The user does not own the list, and the sessions of his requests are his. -/
def Collaborator (db : DB) : Prop :=
  owner_of db r.list_id ≠ some r.user_id ∧
    ∀ k, ∀ token ∈ (r.request k).session, ∀ s ∈ db.sessions.rows,
      s.token_hash = hash_token env token → s.user_id = r.user_id

instance [Fintype κ] (db : DB) : Decidable (r.Collaborator env db) :=
  inferInstanceAs (Decidable (_ ∧ _))

/-- The next step is a commit that takes the access away. -/
def takes_away (c : Server (κ ⊕ ι)) (i : κ ⊕ ι) : Bool :=
  (c.threads i).prog.committing && decide (r.Editor c.db) && !decide (r.Editor (c.view i))

/-- The access is taken away while no request of the user is between its gate and its
commit. -/
def Unraced (c : Server (κ ⊕ ι)) (i : κ ⊕ ι) : Prop :=
  r.takes_away c i = true → ∀ k, (r.one k).on_its_way (c.threads (.inl k)) = false

instance [Fintype κ] (c : Server (κ ⊕ ι)) (i : κ ⊕ ι) : Decidable (r.Unraced c i) :=
  inferInstanceAs (Decidable (_ → _))

end Collaboration

/-- A change of an item. -/
def of_item : Change → Bool
  | .insert_item _ | .patch_item _ _ _ | .delete_item _ => true
  | _ => false

/-- What a commit does to the access, and whether it writes an item for the user. -/
structure Note where
  /-- The user has no access afterwards. -/
  revokes : Bool
  /-- The user has access afterwards, and had none before. -/
  grants : Bool
  writes : Bool
deriving DecidableEq

def note (r : Collaboration κ ι) (c : Server (κ ⊕ ι)) (i : κ ⊕ ι) (_ : Time) : Note where
  revokes := (c.threads i).prog.committing && !decide (r.Editor (c.view i))
  grants :=
    (c.threads i).prog.committing && !decide (r.Editor c.db) && decide (r.Editor (c.view i))
  writes := i.isLeft && (c.threads i).prog.committing && (c.threads i).pending.any of_item

/-- A revocation of the log stands: the access was not granted again. -/
def Revoked (log : List Note) : Prop :=
  ∃ a : Note, a.revokes = true ∧ Stands a (fun e => e.grants = true) log

/-- No item is written for the user while a revocation stands. -/
def NoGrace (log : List Note) : Prop :=
  ∀ before w after, log = before ++ w :: after → w.writes = true → ¬ Revoked before

/-! ### The commits of a revocation and of a demotion -/

theorem not_editor_of_delete (L u : UUID) (db : DB) :
    ¬ HasShare (Prog.applyAll [Change.delete_share L u] db) L u "editor" := by
  unfold HasShare share_role_of
  simp only [applyAll_one, Change.apply, Table.find_deleteWhere]
  cases hfind : db.shares.find (L, u) with
  | none => simp
  | some s =>
    have hkey := Table.key_of_find hfind
    simp [hkey]

theorem not_editor_of_demotion (L u : UUID) (db : DB) :
    ¬ HasShare (Prog.applyAll [Change.set_role L u "viewer"] db) L u "editor" := by
  unfold HasShare share_role_of
  simp only [applyAll_one, Change.apply, Table.find_update, if_true, Option.map_map]
  cases db.shares.find (L, u) with
  | none => simp
  | some s => simp [Share.with_role]

/-- The commit of a deleted or demoted share of the user is noted as a revocation. -/
theorem revokes_of_commit {r : Collaboration κ ι} {c : Server (κ ⊕ ι)} {i : κ ⊕ ι} (now : Time)
    (hcommitting : (c.threads i).prog.committing = true)
    (hpending : (c.threads i).pending = [.delete_share r.list_id r.user_id] ∨
      (c.threads i).pending = [.set_role r.list_id r.user_id "viewer"]) :
    (note r c i now).revokes = true := by
  have hview : ¬ r.Editor (c.view i) := by
    unfold System.view
    rcases hpending with h | h
    · rw [h]
      exact not_editor_of_delete _ _ _
    · rw [h]
      exact not_editor_of_demotion _ _ _
  simp [note, hcommitting, hview]

/-! ## The course of a run -/

/-- Where a request of the user is, and what it needs of the database. -/
inductive Course (r : Collaboration κ ι) (db : DB) (q : WriteRequest) (t : Running) : Prop where
  | looking (g : Handler Plan) (at_gate : q.Looking env g t)
      (saw : ∀ s ∈ t.reads, r.Collaborator env s)
      (holds : q.on_its_way t = true → r.Editor db)
  | doomed (g : Handler Plan) (lost : q.Doomed g t)
  | flushed (plan : Plan) (open_transaction : q.Flushed env plan t) (holds : r.Editor db)
  | replying (plan : Plan) (committed : q.Replying env plan t)
  | failing (plan : Plan) (e : DbError) (rejected : q.Failing env plan e t)
  | ended (done : t.prog.done = true)

/-- A standing revocation is one in the database, and no request has come after it. -/
structure Story (r : Collaboration κ ι) (log : List Note) (c : Server (κ ⊕ ι)) : Prop where
  no_grace : NoGrace log
  revoked : Revoked log → ¬ r.Editor c.db
  course : ∀ k, Course env r c.db (r.one k) (c.threads (.inl k))

section
variable {env} {r : Collaboration κ ι} {log : List Note} {c c' : Server (κ ⊕ ι)} {k : κ}
  {i : κ ⊕ ι} {now : Time}

theorem no_grace_snoc {n : Note} (h : NoGrace log) (hn : n.writes = true → ¬ Revoked log) :
    NoGrace (log ++ [n]) := by
  intro before w after hlog
  rcases List.eq_nil_or_concat after with rfl | ⟨rest, e, rfl⟩
  · obtain ⟨rfl, hw⟩ := List.append_inj' hlog rfl
    cases hw
    exact hn
  · rw [List.concat_eq_append, ← List.cons_append, ← List.append_assoc] at hlog
    obtain ⟨hlog, -⟩ := List.append_inj' hlog rfl
    exact h before w rest hlog

/-- The owner and the editors may write items. A collaborator who does so is an editor. -/
theorem editor_of_admitted {a o s : DB} {perm : ListPermission}
    (h : Admitted env (r.one k).write.action r.list_id (r.request k).session [s, o, a] perm)
    (hsaw : ∀ db ∈ [s, o, a], r.Collaborator env db) : r.Editor s := by
  cases h with
  | admitted token now user role a o s cookie signed_in role_seen allowed =>
    have huser : user.id = r.user_id := by
      have hmem : user ∈ session_users env token now a := by rw [signed_in]; simp
      obtain ⟨-, x, hx, hid, hhash, -⟩ := (mem_session_users env).mp hmem
      rw [← hid]
      exact (hsaw a (by simp)).2 k token cookie x hx hhash
    rw [huser] at role_seen
    cases role with
    | owner => exact absurd role_seen (hsaw o (by simp)).1
    | editor => exact role_seen
    | viewer => exact absurd allowed (r.one k).write.not_allowed_viewer

theorem course_not_committing (h : Course env r c.db (r.one k) (c.threads (.inl k)))
    (hnot : ¬ r.Editor c.db) : (c.threads (.inl k)).prog.committing = false := by
  cases h with
  | looking g at_gate saw holds => exact at_gate.not_committing
  | doomed g lost =>
    have hlooking : (r.one k).Looking env g (c.threads (.inl k)) := lost.looking
    exact hlooking.not_committing
  | flushed plan open_transaction holds => exact absurd holds hnot
  | replying plan committed => exact committed.not_committing
  | failing plan e rejected => exact rejected.not_committing
  | ended done =>
    cases hp : (c.threads (.inl k)).prog with
    | commit k => rw [hp] at done; cases done
    | _ => rfl

/-- A step of another request. -/
theorem course_of_other {t : Running} {q : WriteRequest} {db db' : DB} (h : Course env r db q t)
    (hrace : r.Editor db → ¬ r.Editor db' → q.on_its_way t = false) : Course env r db' q t := by
  have hkeeps : r.Editor db → q.on_its_way t = true → r.Editor db' := by
    intro hdb hway
    by_contra hnot
    rw [hrace hdb hnot] at hway
    cases hway
  cases h with
  | looking g at_gate saw holds =>
    exact .looking g at_gate saw fun hway => hkeeps (holds hway) hway
  | doomed g lost => exact .doomed g lost
  | flushed plan open_transaction holds =>
    exact .flushed plan open_transaction (hkeeps holds open_transaction.on_its_way)
  | replying plan committed => exact .replying plan committed
  | failing plan e rejected => exact .failing plan e rejected
  | ended done => exact .ended done

variable [DecidableEq κ] [Fintype κ] [DecidableEq ι] [Fintype ι]

/-- A step of a request at its gate or its lookups. -/
theorem course_of_looking {g : Handler Plan} (h : (r.one k).Looking env g (c.threads (.inl k)))
    (hsaw : ∀ s ∈ (c.threads (.inl k)).reads, r.Collaborator env s)
    (hholds : (r.one k).on_its_way (c.threads (.inl k)) = true → r.Editor c.db)
    (hnow : r.Collaborator env c.db) (hs : c.step (.inl k) now = some c') :
    Course env r c.db (r.one k) (c'.threads (.inl k)) := by
  have hdone := System.not_done_of_step hs
  cases (looking_step h hs).2 with
  | rejected plan e planned refused after reads => exact .failing plan e after
  | flushed plan planned accepted after reads =>
    subst planned
    have hlength := h.ready.length
    exact .flushed plan after (hholds (h.on_its_way hdone (by omega)))
  | looked g' after read =>
    rcases after.ready_or_doomed with ⟨later, plan, hlater, hready⟩ | hdoomed
    · have hsaw' : ∀ s ∈ (c'.threads (.inl k)).reads, r.Collaborator env s := by
        intro s hmem
        rcases read.reads with ⟨-, hreads⟩ | hreads
        · exact hsaw s (hreads ▸ hmem)
        · rw [hreads, List.mem_cons] at hmem
          rcases hmem with rfl | hmem
          · exact hnow
          · exact hsaw s hmem
      refine .looking g' after hsaw' fun hway => ?_
      by_cases hgate : 3 ≤ (c.threads (.inl k)).reads.length
      · exact hholds (h.on_its_way hdone hgate)
      -- The step is the share query of the gate: it sees the share now.
      have hlength : 3 ≤ (c'.threads (.inl k)).reads.length := by
        simp only [WriteRequest.on_its_way, Bool.and_eq_true, decide_eq_true_eq] at hway
        exact hway.1.2
      rcases read.reads with ⟨-, hreads⟩ | hreads
      · rw [hreads] at hlength
        exact absurd hlength hgate
      · rw [hreads] at hsaw' hlater hlength
        rw [List.length_cons] at hlength
        have htwo : (c.threads (.inl k)).reads.length = 2 := by omega
        obtain ⟨o, a, hgate⟩ := List.length_eq_two.mp htwo
        rw [hgate] at hsaw' hlater
        obtain ⟨perm, hperm⟩ := hready.admitted hlater rfl
        exact editor_of_admitted hperm hsaw'
    · exact .doomed g' hdoomed

theorem course_of_own_step (h : Course env r c.db (r.one k) (c.threads (.inl k)))
    (hnow : r.Collaborator env c.db) (hs : c.step (.inl k) now = some c') :
    Course env r c'.db (r.one k) (c'.threads (.inl k)) := by
  cases h with
  | looking g at_gate saw holds =>
    rw [(looking_step at_gate hs).1]
    exact course_of_looking at_gate saw holds hnow hs
  | doomed g lost =>
    obtain ⟨-, -, g', lost'⟩ := doomed_step lost hs
    exact .doomed g' lost'
  | flushed plan open_transaction holds =>
    exact .replying plan (flushed_step open_transaction hs).2.1
  | replying plan committed =>
    rcases replying_step committed hs with ⟨-, ⟨answer, -, hprog⟩ | ⟨-, hprog⟩⟩
    · exact .ended (by rw [hprog]; rfl)
    · exact .ended (by rw [hprog]; rfl)
  | failing plan e rejected => exact .ended (by rw [(failing_step rejected hs).2]; rfl)
  | ended done =>
    exact absurd hs (System.not_step_of_done done)

theorem story_of_step (h : Story env r log c) (hnow : r.Collaborator env c.db)
    (hrace : r.Unraced c i) (hs : c.step i now = some c') :
    Story env r (log ++ [note r c i now]) c' where
  no_grace := by
    apply no_grace_snoc h.no_grace
    intro hwrites hrevoked
    rcases i with k | j
    · have hcommitting : (c.threads (.inl k)).prog.committing = true := by
        simp only [note, Bool.and_eq_true] at hwrites
        exact hwrites.1.2
      rw [course_not_committing (h.course k) (h.revoked hrevoked)] at hcommitting
      cases hcommitting
    · cases hwrites
  revoked := by
    rintro ⟨a, ha, hstands⟩
    rcases stands_snoc.mp hstands with rfl | ⟨hstands, hgrants⟩
    · simp only [note, Bool.and_eq_true, Bool.not_eq_true', decide_eq_false_iff_not] at ha
      rcases System.db_of_step hs with ⟨hcommitting, -⟩ | ⟨-, hdb⟩
      · rw [hcommitting] at ha
        cases ha.1
      · rw [hdb]
        exact ha.2
    · have hnot := h.revoked ⟨a, ha, hstands⟩
      rcases System.db_of_step hs with ⟨-, hdb⟩ | ⟨hcommitting, hdb⟩
      · rw [hdb]
        exact hnot
      · rw [hdb]
        intro heditor
        exact hgrants (by simp [note, hcommitting, hnot, heditor])
  course := by
    intro k
    by_cases hk : i = .inl k
    · subst hk
      exact course_of_own_step (h.course k) hnow hs
    · rw [System.step_others hs (Ne.symm hk)]
      refine course_of_other (h.course k) fun heditor hnot => hrace ?_ k
      rcases System.db_of_step hs with ⟨-, hdb⟩ | ⟨hcommitting, hdb⟩
      · rw [hdb] at hnot
        exact absurd heditor hnot
      · rw [hdb] at hnot
        simp [Collaboration.takes_away, hcommitting, heditor, hnot]

end

/-! ## The law -/

/-- Where the access is taken away only while no request of the user is between its gate
and its commit, no item is written for him afterwards, as long as it is not granted
again. The other requests, of the owner or of anyone, are arbitrary. -/
theorem no_grace_when_unraced [DecidableEq κ] [Fintype κ] [DecidableEq ι] [Fintype ι] (env : Env)
    (r : Collaboration κ ι) (log : List Note) (c : Server (κ ⊕ ι))
    (h : System.Logged (fun c i _ => r.Collaborator env c.db ∧ r.Unraced c i) (note r)
      (writers env r.toWriters) log c) : NoGrace log := by
  have hstory : Story env r log c := by
    induction h with
    | start =>
      refine ⟨?_, ?_, ?_⟩
      · intro before w after hlog
        simp at hlog
      · rintro ⟨a, -, hstands⟩
        exact absurd hstands not_stands_nil
      · intro k
        refine .looking _ (looking_at_arrival (r.one k)) (fun s hs => ?_) fun hway => ?_
        · cases hs
        · simp [WriteRequest.on_its_way, writers, serve] at hway
    | step i now before meets takes ih => exact story_of_step ih meets.1 meets.2 takes
  exact hstory.no_grace

/-! ## Two items of a collaborator, and the revocation of his share -/

/-- Bob adds bread and butter, and Ann takes his share away. -/
def bob_and_ann : Collaboration Bool Unit where
  world := shared_list
  list_id := 7
  write
    | false => .create_item bread
    | true => .create_item ⟨"butter", by decide, 2⟩
  request _ := signed_in_as "b"
  draws
    | false => .sample "x" 10
    | true => .sample "x" 11
  others _ := revoke_share .sample 7 2 (signed_in_as "a")
  user_id := 2

/-- The bread is added, then the share goes, and then Bob asks for the butter. -/
def one_after_the_other : List ((Bool ⊕ Unit) × Time) :=
  List.replicate 7 (.inl false, 0) ++ List.replicate 7 (.inr (), 0) ++
    List.replicate 4 (.inl true, 0)

/-- The share goes when the bread has passed its gate. -/
def in_between : List ((Bool ⊕ Unit) × Time) :=
  List.replicate 4 (.inl false, 0) ++ List.replicate 7 (.inr (), 0) ++
    List.replicate 3 (.inl false, 0)

theorem no_butter_after_the_revocation :
    ∃ log c, System.record
        (fun c i _ => decide (bob_and_ann.Collaborator .sample c.db ∧ bob_and_ann.Unraced c i))
        (note bob_and_ann) [] (writers .sample bob_and_ann.toWriters) one_after_the_other =
        some (log, c) ∧
      status c (.inl false) = some 201 ∧ status c (.inr ()) = some 204 ∧
      status c (.inl true) = some 404 ∧ NoGrace log := by
  have hrun : (System.record
      (fun c i _ => decide (bob_and_ann.Collaborator .sample c.db ∧ bob_and_ann.Unraced c i))
      (note bob_and_ann) [] (writers .sample bob_and_ann.toWriters) one_after_the_other).map (fun r =>
        (status r.2 (.inl false), status r.2 (.inr ()), status r.2 (.inl true))) =
      some (some 201, some 204, some 404) := by decide
  obtain ⟨⟨log, c⟩, hc, hstatus⟩ := Option.map_eq_some_iff.mp hrun
  obtain ⟨hbread, hstatus⟩ := Prod.mk.inj hstatus
  obtain ⟨hshare, hbutter⟩ := Prod.mk.inj hstatus
  refine ⟨log, c, hc, hbread, hshare, hbutter, ?_⟩
  apply no_grace_when_unraced .sample bob_and_ann log c
  exact System.logged_of_decided .start hc

/-- A commit that leaves Bob without access. -/
def gone : Note := ⟨true, false, false⟩

def idle : Note := ⟨false, false, false⟩

/-- The bread is added after Bob's share has gone. -/
theorem bread_after_the_revocation :
    ¬ ∀ log c, System.Logged (fun c _ _ => bob_and_ann.Collaborator .sample c.db) (note bob_and_ann)
        (writers .sample bob_and_ann.toWriters) log c → NoGrace log := by
  have hrun : (System.record (fun c _ _ => decide (bob_and_ann.Collaborator .sample c.db))
      (note bob_and_ann) [] (writers .sample bob_and_ann.toWriters) in_between).map (fun r =>
        (status r.2 (.inr ()), status r.2 (.inl false), r.1)) =
      some (some 204, some 201,
        (List.replicate 10 idle ++ [gone, idle]) ++ ⟨true, false, true⟩ :: [idle]) := by decide
  obtain ⟨⟨log, c⟩, hc, hlog⟩ := Option.map_eq_some_iff.mp hrun
  obtain ⟨-, hlog⟩ := Prod.mk.inj hlog
  obtain ⟨-, hlog⟩ := Prod.mk.inj hlog
  have hrevoked : Revoked (List.replicate 10 idle ++ [gone, idle]) :=
    ⟨gone, rfl, List.replicate 10 idle, [idle], by simp, by decide⟩
  intro h
  exact h log c (System.logged_of_decided .start hc) _ _ _ hlog rfl hrevoked

end shared_todos.revocation_races
