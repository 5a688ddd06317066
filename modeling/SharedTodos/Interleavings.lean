-- All requests of the application side by side, in any order of their steps: what they
-- leave is what their transactions leave one after another, the constraints of the
-- schema hold, and every request is answered, as each statement takes its locks at once.
import SharedTodos.Warrants

open keyed_table transactions transactions.Prog
open shared_todos.models shared_todos.http shared_todos.sessions shared_todos.authz
open shared_todos.auth shared_todos.oauth shared_todos.lists shared_todos.items shared_todos.shares
open shared_todos.app shared_todos.accounts shared_todos.server shared_todos.write_requests
open shared_todos.role_invariant shared_todos.steadiness shared_todos.warrants

namespace shared_todos.interleavings

variable (env : Env) {ι : Type}

/-- The requests at the middleware. -/
def arrivals (w : World) (steps : ι → Step) : Server ι := serve w fun i => served env (steps i)

abbrev Log (ι : Type) := List (Event ι DB Change DbError)

variable [DecidableEq ι] [Fintype ι]

/-- A run of the requests, their steps in any order, with its log. -/
def Ran (w : World) (steps : ι → Step) (log : Log ι) (c : Server ι) : Prop :=
  System.Logged (fun _ _ _ => True) System.event (arrivals env w steps) log c

section
variable {env} {w : World} {steps : ι → Step} {log : Log ι} {c : Server ι}

omit [DecidableEq ι] [Fintype ι] in
theorem transacts_at_arrival (i : ι) :
    ((arrivals env w steps).threads i).prog.Transacts Shape (Warranted env (steps i))
      (Answered env (steps i)) [] .none := served_careful (steps i)

theorem serial_of_ran (h : Ran env w steps log c) :
    Serial Shape (fun i => Warranted env (steps i)) (fun i => Answered env (steps i)) May w.db
      (journal log) c :=
  (serial_of_logged shapes_are_steady blocks_comm (fun _ => rfl) transacts_at_arrival h).1

end

/-! ## A run to try the laws with -/

theorem content_left_alone : ∀ c ∈ (none : Option String), content_length c := by simp

/-- Ann renames her list, and Bob buys the milk. -/
def at_home : Bool → Step
  | true => ann_does (.rename_list 7 ⟨"weekend", by decide⟩) 0
  | false =>
    ⟨.update_item 7 9 ⟨none, content_left_alone, some true, none⟩, signed_in_as "b",
      .sample "x" 0⟩

/-- They take turns. -/
def turn_by_turn : List (Bool × Time) := (List.replicate 8 [(true, 0), (false, 0)]).flatten

/-- Their run, with who commits what. -/
theorem home_run :
    ∃ log c, Ran .sample shared_list at_home log c ∧
      ((journal log).committed.map fun t => (t.by_whom, changes t.statements)) =
        [(true, [.set_list_name 7 "weekend" 0]), (false, [.patch_item 9 ⟨none, some true, none⟩ 0])] ∧
      status c true = some 200 ∧ status c false = some 200 := by
  have hrun : (System.record (fun _ _ _ => true) System.event []
      (arrivals .sample shared_list at_home) turn_by_turn).map (fun p =>
        ((journal p.1).committed.map fun t => (t.by_whom, changes t.statements),
          status p.2 true, status p.2 false)) =
      some ([(true, [.set_list_name 7 "weekend" 0]),
        (false, [.patch_item 9 ⟨none, some true, none⟩ 0])], some 200, some 200) := by decide
  obtain ⟨⟨log, c⟩, hc, hall⟩ := Option.map_eq_some_iff.mp hrun
  obtain ⟨hcommitted, hstatus⟩ := Prod.mk.inj hall
  obtain ⟨hann, hbob⟩ := Prod.mk.inj hstatus
  have hlogged := System.logged_of_record .start hc
  exact ⟨log, c, System.logged_mono (fun _ _ _ _ => trivial) hlogged, hcommitted, hann, hbob⟩

/-! ## One transaction after another -/

/-- The committed transactions lead from the first database to the second one, one after
another in the order of their commits, and every read saw what was committed before it. -/
structure SerialInCommitOrder (db₀ : DB) (log : Log ι) (db : DB) : Prop where
  executes : Executes May db₀ (journal log).committed db
  shapes : ∀ t ∈ (journal log).committed, Shape (t.statements.map Prod.fst)
  reads : ∀ before i x after, log = before ++ .read i x :: after →
    Executes May db₀ (journal before).committed x

theorem shape_of_warranted {s : Step} {g : Learned} {ws : List Statement}
    (h : Warranted env s g ws) : Shape ws := by
  cases h with
  | register | google_account => exact .one _ (Or.inl (.insert_user _))
  | first_session | login | google_first_session | google_session =>
    exact .one _ (Or.inl (.insert_session _))
  | logout => exact .one _ (Or.inl (.delete_sessions _))
  | reset_request => exact .one _ (Or.inl (.insert_reset_token _))
  | reset => exact .reset ..
  | google_link => exact .one _ (Or.inl (.update_google_sub ..))
  | create_list => exact .one _ (Or.inr (.insert_list _))
  | write L w user gate plan call permitted planned =>
    exact .one _ (Or.inr (planned_list_statement planned))

theorem serial_in_commit_order {w : World} {steps : ι → Step} {log : Log ι} {c : Server ι}
    (ran : Ran env w steps log c) : SerialInCommitOrder w.db log c.db := by
  have hserial := serial_of_ran ran
  refine ⟨hserial.executes, fun t ht => ?_, fun before i x after hsplit => ?_⟩
  · obtain ⟨earlier, later, hcommitted⟩ := List.append_of_mem ht
    exact shape_of_warranted env (hserial.vouched earlier t later hcommitted).transacts
  · exact reads_of_logged shapes_are_steady blocks_comm (fun _ => rfl) transacts_at_arrival ran
      hsplit

/-- In every run, the committed transactions might as well have run one after another. -/
theorem every_run_is_serial (w : World) (steps : ι → Step) (log : Log ι) (c : Server ι)
    (ran : Ran env w steps log c) : SerialInCommitOrder w.db log c.db :=
  serial_in_commit_order env ran

theorem ann_and_bob_are_serial :
    ∃ log c, Ran .sample shared_list at_home log c ∧ status c true = some 200 ∧
      status c false = some 200 ∧ SerialInCommitOrder shared_list.db log c.db := by
  obtain ⟨log, c, hran, -, hann, hbob⟩ := home_run
  exact ⟨log, c, hran, hann, hbob, every_run_is_serial .sample shared_list at_home log c hran⟩

/-! ## The constraints -/

theorem shape_keeps {ws : List Statement} (h : Shape ws) {st : Statement} (hst : st ∈ ws) :
    Keeps Valid st := by
  cases h with
  | one st' hst' =>
    obtain rfl := List.mem_singleton.mp hst
    rcases hst' with haccount | hlist
    · cases haccount with
      | insert_user u => exact insert_user_keeps u
      | update_google_sub id sub => exact update_google_sub_keeps id sub
      | insert_session s => exact insert_session_keeps s
      | delete_sessions p => exact delete_sessions_keeps p
      | insert_reset_token t => exact insert_reset_token_keeps t
      | reset_statement prt user now hash =>
        exact also_keeps (update_password_hash_keeps _ _) (update_used_at_keeps _ _)
    · exact list_statement_keeps hlist
  | reset prt user now hash p =>
    rcases List.mem_cons.mp hst with rfl | hst
    · exact also_keeps (update_password_hash_keeps _ _) (update_used_at_keeps _ _)
    · obtain rfl := List.mem_singleton.mp hst
      exact delete_sessions_keeps p

/-- No account is lost, and it keeps its address and its name. -/
def SameIdentities (a b : DB) : Prop :=
  ∀ u ∈ a.users.rows, ∃ v ∈ b.users.rows, v.id = u.id ∧ v.email = u.email ∧
    v.display_name = u.display_name ∧ (u.password_hash ≠ none → v.password_hash ≠ none) ∧
    (u.google_sub ≠ none → v.google_sub ≠ none)

theorem same_identities_refl (db : DB) : SameIdentities db db :=
  fun u hu => ⟨u, hu, rfl, rfl, rfl, fun h => h, fun h => h⟩

theorem same_identities_of_apply (a : Change) {db db' : DB} (h : SameIdentities db db') :
    SameIdentities db (a.apply db') := by
  intro u hu
  obtain ⟨v, hv, hid, hemail, hname, hpassword, hsub⟩ := h u hu
  cases a with
  | insert_user x => exact ⟨v, Table.mem_insert_of_mem hv, hid, hemail, hname, hpassword, hsub⟩
  | set_password_hash id hash =>
    simp only [Change.apply, Table.mem_update]
    refine ⟨_, ⟨v, hv, rfl⟩, ?_⟩
    split
    · exact ⟨hid, hemail, hname, fun _ => by simp, hsub⟩
    · exact ⟨hid, hemail, hname, hpassword, hsub⟩
  | set_google_sub id sub =>
    simp only [Change.apply, Table.mem_update]
    refine ⟨_, ⟨v, hv, rfl⟩, ?_⟩
    split
    · exact ⟨hid, hemail, hname, hpassword, fun _ => by simp⟩
    · exact ⟨hid, hemail, hname, hpassword, hsub⟩
  | _ => exact ⟨v, hv, hid, hemail, hname, hpassword, hsub⟩

theorem same_identities_of_all {cs : List Change} {db db' : DB} (h : SameIdentities db db') :
    SameIdentities db (applyAll cs db') := by
  induction cs generalizing db' with
  | nil => exact h
  | cons a rest ih => exact ih (same_identities_of_apply a h)

omit [DecidableEq ι] [Fintype ι] in
/-- What transactions of the handlers leave of a database in which the constraints hold. -/
theorem sound_of_executes {ts : List (Transaction ι DB Change DbError)} {db₀ db : DB}
    (hshapes : ∀ t ∈ ts, Shape (t.statements.map Prod.fst)) (h : Executes May db₀ ts db)
    (valid : Valid db₀) : Valid db ∧ SameIdentities db₀ db := by
  refine executes_keeps (P := fun db => Valid db ∧ SameIdentities db₀ db)
    (fun t ht p hp x hx hmay => ?_) h ⟨valid, same_identities_refl db₀⟩
  have hkeeps := shape_keeps (hshapes t ht) (List.mem_map_of_mem hp)
  exact ⟨kept_by_may delete_sessions_keeps hkeeps hx.1 hmay, same_identities_of_all hx.2⟩

/-- The unique indexes, the foreign keys and the checks hold after every run and in every
state that a request reads, and no account is lost. -/
theorem the_constraints_hold (w : World) (valid : Valid w.db) (steps : ι → Step) (log : Log ι)
    (c : Server ι) (ran : Ran env w steps log c) :
    (Valid c.db ∧ SameIdentities w.db c.db) ∧
      ∀ before i x after, log = before ++ .read i x :: after →
        Valid x ∧ SameIdentities w.db x := by
  have hserial := serial_in_commit_order env ran
  refine ⟨sound_of_executes hserial.shapes hserial.executes valid, fun before i x after hsplit => ?_⟩
  obtain ⟨c', hbefore⟩ := System.logged_prefix ran hsplit
  have hshapes := (serial_in_commit_order env hbefore).shapes
  exact sound_of_executes hshapes (hserial.reads before i x after hsplit) valid

theorem ann_and_bob_keep_the_constraints :
    ∃ log c, Ran .sample shared_list at_home log c ∧ status c true = some 200 ∧ Valid c.db ∧
      SameIdentities shared_list.db c.db := by
  obtain ⟨log, c, hran, -, hann, -⟩ := home_run
  have hvalid : Valid shared_list.db := valid_of_reachable .sample ⟨_, rfl⟩
  exact ⟨log, c, hran, hann,
    (the_constraints_hold .sample shared_list hvalid at_home log c hran).1⟩

/-! ## The end of the runs -/

/-- A statement takes all its row and index locks in one step here, or waits for all of
them. So whatever the requests are and in whatever order they take their steps, none of them
waits for ever: every run comes to an end, with every request answered. Nothing is said of
two statements that each have a part of their locks: the database may have to cancel one. -/
theorem every_request_is_answered (w : World) (steps : ι → Step) :
    System.Ends (fun _ _ => True) (arrivals env w steps) :=
  ends_of_transacts shapes_are_steady blocks_comm shapes_are_ordered (fun _ => rfl)
    transacts_at_arrival

end shared_todos.interleavings
