-- The application on the database that its migrations made: whatever the requests do and in
-- whatever order they take their steps, the schema accepts it, and no migration is refused.
import SharedTodos.StoredRows
import SharedTodos.Interleavings
import SharedTodos.ColumnFits

open keyed_table transactions transactions.Prog
open relational_schema (Conforms Contents)
open shared_todos.models shared_todos.http shared_todos.sessions shared_todos.auth
open shared_todos.oauth shared_todos.lists shared_todos.app shared_todos.accounts
open shared_todos.server shared_todos.steadiness shared_todos.warrants
open shared_todos.interleavings shared_todos.write_requests
open shared_todos.column_fits
open shared_todos.migrations shared_todos.metadata shared_todos.stored_rows

namespace shared_todos.migrated_runs

/-! ## What the statements write fits -/

theorem keeps_insert_user {u : User} (hpassword : ∀ h ∈ u.password_hash, text_storable h) :
    Keeps RowsFit (insert_user u) := by
  intro db cs h hcs
  have hfits : u.fits := by
    by_contra hne
    rw [insert_user_data_error.mpr hne] at hcs
    cases hcs
  obtain ⟨rfl, -⟩ := insert_user_ok hcs
  exact { h with
    users := Table.forall_insert h.users hfits
    password_hash := Table.forall_insert h.password_hash hpassword }

theorem keeps_update_password_hash (id : UUID) {hash : String} (hpassword : text_storable hash) :
    Keeps RowsFit (update_password_hash id hash) := by
  intro db cs h hcs
  obtain ⟨rfl, -⟩ := update_password_hash_ok hcs
  exact { h with
    users := Table.forall_update rfl h.users fun _ hu => hu
    password_hash := Table.forall_update rfl h.password_hash fun _ _ => by simpa using hpassword }

theorem keeps_update_google_sub (id : UUID) (sub : String) :
    Keeps RowsFit (update_google_sub id sub) := by
  intro db cs h hcs
  have hfits : text_fits 256 sub := by
    by_contra hne
    rw [update_google_sub_data_error.mpr hne] at hcs
    cases hcs
  obtain ⟨rfl, -, -⟩ := update_google_sub_ok hcs
  exact { h with
    users := Table.forall_update rfl h.users fun _ hu => ⟨hu.1, hu.2.1, by simpa using hfits⟩
    password_hash := Table.forall_update rfl h.password_hash fun _ hu => hu }

theorem keeps_insert_session {s : Session} (hhash : text_fits 64 s.token_hash) :
    Keeps RowsFit (insert_session s) := by
  intro db cs h hcs
  obtain ⟨rfl, -⟩ := insert_session_ok hcs
  exact { h with sessions := Table.forall_insert h.sessions hhash }

theorem keeps_delete_sessions (p : Session → Bool) : Keeps RowsFit (delete_sessions p) := by
  intro db cs h hcs
  rw [delete_sessions_ok hcs]
  exact { h with sessions := Table.forall_deleteWhere h.sessions }

theorem keeps_insert_reset_token {t : PasswordResetToken} (hhash : text_fits 64 t.token_hash) :
    Keeps RowsFit (insert_reset_token t) := by
  intro db cs h hcs
  obtain ⟨rfl, -⟩ := insert_reset_token_ok hcs
  exact { h with reset_tokens := Table.forall_insert h.reset_tokens hhash }

theorem keeps_update_used_at (id : UUID) (now : Time) : Keeps RowsFit (update_used_at id now) := by
  intro db cs h hcs
  obtain ⟨rfl, -⟩ := update_used_at_ok hcs
  exact { h with reset_tokens := Table.forall_update rfl h.reset_tokens fun _ ht => ht }

/-- The statements on the lists check every value that they write. -/
theorem keeps_list_statement {st : Statement} (hst : ListStatement st) : Keeps RowsFit st := by
  intro db cs h hcs
  cases hst with
  | unchanged =>
    cases hcs
    exact h
  | insert_list l =>
    have hfits : text_fits 256 l.name := by
      by_contra hne
      rw [insert_list_data_error.mpr hne] at hcs
      cases hcs
    obtain ⟨rfl, -⟩ := insert_list_ok hcs
    exact { h with lists := Table.forall_insert h.lists hfits }
  | update_list_name id name now =>
    have hfits : text_fits 256 name := by
      by_contra hne
      unfold update_list_name at hcs
      rw [if_pos hne] at hcs
      cases hcs
    obtain ⟨rfl, -⟩ := update_list_name_ok hcs
    exact { h with lists := Table.forall_update rfl h.lists fun _ _ => hfits }
  | delete_list_row id =>
    rw [delete_list_row_ok hcs]
    exact { h with
      lists := Table.forall_deleteWhere h.lists
      items := Table.forall_deleteWhere h.items }
  | insert_item i =>
    have hfits : text_storable i.content ∧ integer_fits i.order := by
      by_contra hne
      rw [insert_item_data_error.mpr hne] at hcs
      cases hcs
    obtain ⟨rfl, -⟩ := insert_item_ok hcs
    exact { h with items := Table.forall_insert h.items hfits }
  | update_item_row id p now =>
    have hfits : (∀ c ∈ p.content, text_storable c) ∧ ∀ o ∈ p.order, integer_fits o := by
      by_contra hne
      rw [update_item_data_error.mpr hne] at hcs
      cases hcs
    rcases update_item_row_ok hcs with ⟨rfl, -⟩ | ⟨rfl, -⟩
    · exact h
    · refine { h with items := Table.forall_update rfl h.items fun i hi => ⟨?_, ?_⟩ }
      · cases hp : p.content with
        | none => simpa [Item.patch, hp] using hi.1
        | some c => simpa [Item.patch, hp] using hfits.1 c hp
      · cases hp : p.order with
        | none => simpa [Item.patch, hp] using hi.2
        | some o => simpa [Item.patch, hp] using hfits.2 o hp
  | delete_item_row id =>
    cases hcs
    exact { h with items := Table.forall_deleteWhere h.items }
  | insert_share s =>
    obtain ⟨rfl, -⟩ := insert_share_ok hcs
    exact { h with }
  | update_role l u role =>
    obtain ⟨rfl, -⟩ := update_role_ok hcs
    exact { h with }
  | delete_share_row l u =>
    cases hcs
    exact { h with }

/-- The hashes fit the columns that they are written to: the digest of SHA-256 has 64
hexadecimal digits, and argon2 encodes its hash in printable characters. -/
structure HashesFit (env : Env) : Prop where
  sha256 : ∀ token, text_fits 64 (env.sha256_hexdigest token)
  argon2 : ∀ plaintext salt, text_storable (env.ph_hash plaintext salt)

/-! ## The runs -/

section
variable {env : Env} (hashes : HashesFit env)
include hashes

theorem warranted_keeps {s : Step} {g : Learned} {ws : List Statement} (h : Warranted env s g ws) :
    ∀ st ∈ ws, Keeps RowsFit st := by
  intro st hst
  cases h with
  | register body =>
    obtain rfl := List.mem_singleton.mp hst
    refine keeps_insert_user fun x hx => ?_
    cases hx
    exact hashes.argon2 _ _
  | google_account who =>
    obtain rfl := List.mem_singleton.mp hst
    exact keeps_insert_user fun x hx => by cases hx
  | first_session | login | google_first_session | google_session =>
    obtain rfl := List.mem_singleton.mp hst
    exact keeps_insert_session (hashes.sha256 _)
  | logout =>
    obtain rfl := List.mem_singleton.mp hst
    exact keeps_delete_sessions _
  | reset_request =>
    obtain rfl := List.mem_singleton.mp hst
    exact keeps_insert_reset_token (hashes.sha256 _)
  | reset body prt user now =>
    rcases List.mem_cons.mp hst with rfl | hst
    · exact also_keeps (keeps_update_password_hash _ (hashes.argon2 _ _)) (keeps_update_used_at _ _)
    · obtain rfl := List.mem_singleton.mp hst
      exact keeps_delete_sessions _
  | google_link =>
    obtain rfl := List.mem_singleton.mp hst
    exact keeps_update_google_sub _ _
  | create_list =>
    obtain rfl := List.mem_singleton.mp hst
    exact keeps_list_statement (.insert_list _)
  | write L w user gate plan call permitted planned =>
    obtain rfl := List.mem_singleton.mp hst
    exact keeps_list_statement (planned_list_statement planned)

variable {ι : Type} [DecidableEq ι] [Fintype ι] {w : World} {steps : ι → Step} {log : Log ι}
  {c : Server ι}

theorem committed_keep (ran : Ran env w steps log c) :
    ∀ t ∈ (journal log).committed, ∀ p ∈ t.statements, Keeps RowsFit p.1 := by
  intro t ht p hp
  obtain ⟨earlier, later, hcommitted⟩ := List.append_of_mem ht
  have hwarranted := ((serial_of_ran ran).vouched earlier t later hcommitted).transacts
  exact warranted_keeps hashes hwarranted p.1 (List.mem_map_of_mem hp)

/-- The database at the end of a run, and every database that a request reads on the way. -/
theorem fits_of_ran (ran : Ran env w steps log c) (hw : RowsFit w.db) :
    RowsFit c.db ∧ ∀ before i x after, log = before ++ .read i x :: after → RowsFit x := by
  have hserial := serial_in_commit_order env ran
  have hkeep {log' : Log ι} {c' : Server ι} (ran' : Ran env w steps log' c') {x : DB}
      (h : Executes May w.db (journal log').committed x) : RowsFit x :=
    executes_keeps
      (fun t ht p hp s hs hmay =>
        kept_by_may keeps_delete_sessions (committed_keep hashes ran' t ht p hp) hs hmay)
      h hw
  refine ⟨hkeep ran hserial.executes, fun before i x after hsplit => ?_⟩
  obtain ⟨c', hbefore⟩ := System.logged_prefix ran hsplit
  exact hkeep hbefore (hserial.reads before i x after hsplit)

/-- The constraints and the column types, together. -/
theorem conforms_of_ran (ran : Ran env w steps log c) (hv : Valid w.db) (hw : RowsFit w.db) :
    (Valid c.db ∧ RowsFit c.db) ∧
      ∀ before i x after, log = before ++ .read i x :: after → Valid x ∧ RowsFit x := by
  have hserial := serial_in_commit_order env ran
  obtain ⟨hend, hreads⟩ := fits_of_ran hashes ran hw
  refine ⟨⟨(sound_of_executes hserial.shapes hserial.executes hv).1, hend⟩,
    fun before i x after hsplit => ⟨?_, hreads before i x after hsplit⟩⟩
  obtain ⟨c', hbefore⟩ := System.logged_prefix ran hsplit
  have hshapes := (serial_in_commit_order env hbefore).shapes
  exact (sound_of_executes hshapes (hserial.reads before i x after hsplit) hv).1

end

/-! ## The application on the database of its migrations -/

/-- The application runs on this database: it is at the head, and its rows are those of the
application. -/
structure OnHead (s : Store) (st : Stamps) (db : DB) : Prop where
  life : Life s
  version : s.version = head
  rows : s.db.rows = stored st db

theorem on_head_iff {s : Store} {st : Stamps} {db : DB} (on : OnHead s st db) (st' : Stamps)
    (db' : DB) : Conforms fits ⟨s.db.schema, stored st' db'⟩ ↔ Valid db' ∧ RowsFit db' := by
  rw [schema_of_head (sound_of_life on.life) on.version]
  exact conforms_iff st' db'

theorem valid_of_on_head {s : Store} {st : Stamps} {db : DB} (on : OnHead s st db) :
    Valid db ∧ RowsFit db := by
  refine (on_head_iff on st db).mp ?_
  rw [← on.rows]
  exact (sound_of_life on.life).conforms

theorem on_head_with {s : Store} {st : Stamps} {db : DB} (on : OnHead s st db) {db' : DB}
    (h : Valid db' ∧ RowsFit db') (st' : Stamps) :
    OnHead (s.with_rows (stored st' db')) st' db' where
  life := .tail on.life (.write _ ((on_head_iff on st' db').mpr h))
  version := on.version
  rows := rfl

/-- Whatever requests run at a time on a database of the migrations, and in whatever order
they take their steps: what each of them reads, and what they leave behind, keeps to the
schema. So the application stays on the database, whatever the stamps of the new rows. -/
theorem the_requests_keep_to_the_schema {env : Env} (hashes : HashesFit env) {ι : Type}
    [DecidableEq ι] [Fintype ι] {s : Store} {st : Stamps} {w : World} (on : OnHead s st w.db)
    {steps : ι → Step} {log : Log ι} {c : Server ι} (ran : Ran env w steps log c) (st' : Stamps) :
    OnHead (s.with_rows (stored st' c.db)) st' c.db ∧
      ∀ before i x after, log = before ++ .read i x :: after →
        Conforms fits ⟨s.db.schema, stored st' x⟩ := by
  obtain ⟨hvalid, hfits⟩ := valid_of_on_head on
  obtain ⟨hend, hreads⟩ := conforms_of_ran hashes ran hvalid hfits
  refine ⟨on_head_with on hend st', fun before i x after hsplit => ?_⟩
  exact (on_head_iff on st' x).mpr (hreads before i x after hsplit)

/-- The libraries of the samples, with hashes that fit. -/
def fitting : Env :=
  { Env.sample with
    sha256_hexdigest := fun token => if text_fits 64 token then token else ""
    ph_hash := fun plaintext _ => if text_storable plaintext then "$" ++ plaintext else "" }

theorem fitting_hashes : HashesFit fitting where
  sha256 token := by
    by_cases h : text_fits 64 token
    · simp [fitting, h]
    · simp only [fitting, h, if_false]
      decide
  argon2 plaintext salt := by
    by_cases h : text_storable plaintext
    · simp only [fitting, h, if_true]
      simpa [text_storable] using h
    · simp only [fitting, h, if_false]
      decide

/-- Any rows of the application that keep to the schema, on some database. -/
theorem on_some_database {db : DB} (hvalid : Valid db) (hfits : RowsFit db) (st : Stamps) :
    ∃ s, OnHead s st db := by
  obtain ⟨s, life, version, -⟩ := set_up
  have hconforms : Conforms fits ⟨s.db.schema, stored st db⟩ := by
    rw [schema_of_head (sound_of_life life) version]
    exact (conforms_iff st db).mpr ⟨hvalid, hfits⟩
  exact ⟨s.with_rows (stored st db), .tail life (.write _ hconforms), version, rfl⟩

theorem shared_list_fits : RowsFit shared_list.db := by
  constructor <;> decide

theorem a_new_name_keeps_to_the_schema :
    ∃ s db, OnHead s at_midnight db ∧ db.lists.rows.map ListRow.name = ["weekend"] := by
  have hvalid : Valid shared_list.db := valid_of_reachable .sample ⟨_, rfl⟩
  obtain ⟨s, on⟩ := on_some_database hvalid shared_list_fits at_midnight
  have hrun : (System.record (fun _ _ _ => true) System.event []
      (arrivals fitting shared_list at_home) turn_by_turn).map (fun p =>
        p.2.db.lists.rows.map ListRow.name) = some ["weekend"] := by decide
  obtain ⟨⟨log, c⟩, hc, hname⟩ := Option.map_eq_some_iff.mp hrun
  have hlogged := System.logged_of_record .start hc
  have ran : Ran fitting shared_list at_home log c :=
    System.logged_mono (fun _ _ _ _ => trivial) hlogged
  exact ⟨_, c.db, (the_requests_keep_to_the_schema fitting_hashes on ran at_midnight).1, hname⟩

/-- The tables of the application without the rows of some. -/
def emptied (names : List String) (db : DB) : DB where
  users := if "users" ∈ names then .empty else db.users
  sessions := if "sessions" ∈ names then .empty else db.sessions
  password_reset_tokens :=
    if "password_reset_tokens" ∈ names then .empty else db.password_reset_tokens
  lists := if "lists" ∈ names then .empty else db.lists
  items := if "items" ∈ names then .empty else db.items
  shares := if "shares" ∈ names then .empty else db.shares

theorem stored_emptied (st : Stamps) (names : List String) (db : DB) :
    stored st (emptied names db) = clear names (stored st db) := by
  funext n
  by_cases hn : n ∈ names <;> unfold stored clear emptied <;> split <;> simp [hn, Table.empty]

/-- On the rows of the application no migration is refused that Alembic finds the way for,
whatever commands came before it, up and down. The accounts and their reset tokens stay, as
long as the database is never down at `base`. Once it is at the head again, the application
goes on with what is left, and all its constraints hold. -/
theorem no_migration_is_refused {s : Store} {st : Stamps} {db : DB} (on : OnHead s st db)
    {cs : List (Time × Command)} (valid : ValidTargets head cs) :
    ∃ s', commands cs s = .ok s' ∧ UpToDate s' ∧ s'.version = goals head cs ∧
      s'.db.rows = stored st (emptied (empties head cs) db) ∧
      ((∀ before, before <+: cs → goals head before ≠ none) →
        (emptied (empties head cs) db).users = db.users ∧
          (emptied (empties head cs) db).password_reset_tokens = db.password_reset_tokens) ∧
      (goals head cs = head →
        OnHead s' st (emptied (empties head cs) db) ∧ Valid (emptied (empties head cs) db)) := by
  have hlack : ¬ Lacking s.db.rows := by
    refine not_lacking (sound_of_life on.life) ?_
    rw [on.version]
    decide
  obtain ⟨s', hok, life', hversion, hrows⟩ := commands_ok on.life hlack (on.version.symm ▸ valid)
  rw [on.version] at hversion hrows
  have hstored : s'.db.rows = stored st (emptied (empties head cs) db) := by
    rw [hrows, on.rows, stored_emptied]
  refine ⟨s', hok, up_to_date_of_sound (sound_of_life life'), hversion, hstored, fun h => ?_,
    fun h => ?_⟩
  · obtain ⟨husers, htokens⟩ := accounts_stay_on h
    exact ⟨if_neg husers, if_neg htokens⟩
  · have on' : OnHead s' st (emptied (empties head cs) db) := ⟨life', hversion.trans h, hstored⟩
    exact ⟨on', (valid_of_on_head on').1⟩

/-- Down below the lists, and up again. -/
def below_the_lists : List (Time × Command) :=
  [(1, .downgrade (some .add_user_check_constraint)), (2, .upgrade .add_lists_items_shares)]

theorem below_the_lists_valid : ValidTargets head below_the_lists := by decide

theorem the_lists_are_lost :
    ∃ s s' db, commands below_the_lists s = .ok s' ∧ OnHead s' at_midnight db ∧
      db.users.rows.map User.display_name = ["Ann"] ∧ db.lists.rows = [] := by
  have hvalid : Valid (shared_with_ann 1) := by constructor <;> decide
  have hfits : RowsFit (shared_with_ann 1) := by constructor <;> decide
  obtain ⟨s, on⟩ := on_some_database hvalid hfits at_midnight
  obtain ⟨s', hok, -, -, -, -, hhead⟩ := no_migration_is_refused on below_the_lists_valid
  have hnames : empties head below_the_lists = ["lists", "items", "shares"] := by decide
  refine ⟨s, s', _, hok, (hhead (by decide)).1, ?_, ?_⟩
  · rw [hnames]
    decide
  · rw [hnames]
    decide

end shared_todos.migrated_runs
