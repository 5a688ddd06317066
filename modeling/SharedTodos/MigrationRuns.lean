-- What the commands of the migrations do to a database with rows in it. Whatever was
-- migrated and written before, the database has the schema of its revision; a command goes
-- through, or a user without any way to sign in is in the way and nothing changes.
import SharedTodos.Migrations
import Mathlib.Logic.Relation

open relational_schema
open transactions (Time)
open shared_todos.models

namespace shared_todos.migrations

/-! ## The schema of a revision -/

/-- What changes make of an empty schema. -/
def schema_of (ops : List Op) : Schema := (alter_all ops .empty).toOption.getD .empty

/-- The schema that the upgrades build. -/
def schema_at (v : Option Revision) : Schema :=
  schema_of ((ancestry v).flatMap fun r => (versions r).upgrade)

/-- The schema of the first revision after a way back: there `token` is the last column. -/
def schema_back : Schema :=
  let renamed := schema_at (some .rename_sessions_token)
  (alter_all rename_sessions_token.downgrade renamed).toOption.getD .empty

/-- The schemas that a database may have at a revision. -/
def schemas_at : Option Revision → List Schema
  | some .initial_auth_schema => [schema_at (some .initial_auth_schema), schema_back]
  | v => [schema_at v]

theorem upgrade_alters {r : Revision} {s : Schema} (h : s ∈ schemas_at (versions r).down_revision) :
    alter_all (versions r).upgrade s = .ok (schema_at (some r)) := by
  cases r with
  | initial_auth_schema =>
    obtain rfl := List.mem_singleton.mp h
    rfl
  | rename_sessions_token =>
    rcases List.mem_pair.mp h with rfl | rfl
    · rfl
    · rfl
  | add_user_check_constraint =>
    obtain rfl := List.mem_singleton.mp h
    rfl
  | add_lists_items_shares =>
    obtain rfl := List.mem_singleton.mp h
    rfl

theorem downgrade_alters {r : Revision} {s : Schema} (h : s ∈ schemas_at (some r)) :
    ∃ s' ∈ schemas_at (versions r).down_revision, alter_all (versions r).downgrade s = .ok s' := by
  cases r with
  | initial_auth_schema =>
    refine ⟨schema_at none, List.mem_singleton_self _, ?_⟩
    rcases List.mem_pair.mp h with rfl | rfl
    · rfl
    · rfl
  | rename_sessions_token =>
    obtain rfl := List.mem_singleton.mp h
    exact ⟨schema_back, List.mem_pair.mpr (Or.inr rfl), rfl⟩
  | add_user_check_constraint =>
    obtain rfl := List.mem_singleton.mp h
    exact ⟨schema_at (some .rename_sessions_token), List.mem_singleton_self _, rfl⟩
  | add_lists_items_shares =>
    obtain rfl := List.mem_singleton.mp h
    exact ⟨schema_at (some .add_user_check_constraint), List.mem_singleton_self _, rfl⟩

/-! ## The rows -/

/-- The tables that a revision adds. -/
def creates : Revision → List String
  | .initial_auth_schema => ["users", "password_reset_tokens", "sessions"]
  | .add_lists_items_shares => ["lists", "items", "shares"]
  | _ => []

/-- The tables whose rows the upgrade of a revision deletes. -/
def emptied_up : Revision → List String
  | .rename_sessions_token => ["sessions"]
  | _ => []

/-- The tables whose rows its downgrade deletes. -/
def emptied_down (r : Revision) : List String := creates r ++ emptied_up r

/-- The rows without those of some tables. -/
def clear (names : List String) (rows : Contents Value) : Contents Value :=
  fun n => if n ∈ names then [] else rows n

/-- A user has neither a password nor a Google account. -/
def Lacking (rows : Contents Value) : Prop :=
  ∃ u ∈ rows "users", u "password_hash" = none ∧ u "google_sub" = none

theorem passes_iff (u : Row Value) :
    has_auth_method.Passes u ↔ ¬ (u "password_hash" = none ∧ u "google_sub" = none) := by
  cases hp : u "password_hash" <;> cases hg : u "google_sub" <;>
    simp [Condition.Passes, has_auth_method, Condition.eval, hp, hg]

theorem clear_nil (rows : Contents Value) : clear [] rows = rows := by
  funext n
  simp [clear]

theorem clear_clear (a b : List String) (rows : Contents Value) :
    clear a (clear b rows) = clear (b ++ a) rows := by
  funext n
  by_cases ha : n ∈ a <;> by_cases hb : n ∈ b <;> simp [clear, ha, hb]

theorem clear_cons (n : String) (names : List String) (rows : Contents Value) :
    clear (n :: names) rows = Function.update (clear names rows) n [] := by
  funext m
  by_cases hm : m = n
  · subst hm
    simp [clear]
  · simp [clear, hm]

/-- Tables that are emptied twice. -/
theorem clear_again {a b : List String} {rows : Contents Value} (h : ∀ n ∈ a, n ∈ b) :
    clear a (clear b rows) = clear b rows := by
  rw [clear_clear]
  funext n
  by_cases ha : n ∈ a
  · simp [clear, ha, h n ha]
  · simp [clear, ha]

/-- Tables without rows are as if they were emptied. -/
theorem clear_of_empty {names : List String} {rows : Contents Value}
    (h : ∀ n ∈ names, rows n = []) : clear names rows = rows := by
  funext n
  by_cases hn : n ∈ names <;> simp [clear, hn]
  exact h n hn

section
variable (now : Time) {rows : Contents Value}

theorem initial_rewrites (h : ∀ n ∈ creates .initial_auth_schema, rows n = []) :
    rewrite_all fits (evaluate now) initial_auth_schema.upgrade rows = .ok rows := by
  have hclear : clear ["sessions", "password_reset_tokens", "users"] rows = rows := by
    refine clear_of_empty fun n hn => h n ?_
    simp only [creates, List.mem_cons, List.not_mem_nil, or_false] at hn ⊢
    tauto
  simp only [clear_cons, clear_nil] at hclear
  unfold initial_auth_schema.upgrade
  rw [rewrite_all_of_ok _ _ rfl, rewrite_all_of_ok _ _ (rewrite_create_index _ _ (by simp) ..),
    rewrite_all_of_ok _ _ rfl, rewrite_all_of_ok _ _ (rewrite_create_index _ _ (by simp) ..),
    rewrite_all_of_ok _ _ rfl, rewrite_all_of_ok _ _ (rewrite_create_index _ _ (by simp) ..),
    hclear]
  rfl

/-- A column that takes the place of another, in a table that is emptied first. -/
theorem swap_rewrites (table : String) (new : Column) (old_index new_index : String)
    (columns : List String) (old : String) :
    rewrite_all fits (evaluate now)
      [.delete_from table, .add_column table new, .drop_index old_index table,
        .create_index new_index table columns true, .drop_column table old] rows =
      .ok (clear [table] rows) := by
  have hempty : clear [table] rows table = [] := by simp [clear]
  have hdelete : rewrite fits (evaluate now) rows (.delete_from table : Op) =
      .ok (clear [table] rows) := by
    rw [clear_cons, clear_nil]
    rfl
  rw [rewrite_all_of_ok _ _ hdelete, rewrite_all_of_ok _ _ (rewrite_add_column _ _ hempty _),
    rewrite_all_of_ok _ _ rfl, rewrite_all_of_ok _ _ (rewrite_create_index _ _ hempty ..),
    rewrite_all_of_ok _ _ (rewrite_drop_column _ _ hempty _)]
  rfl

theorem check_accepts (h : ¬ Lacking rows) :
    rewrite_all fits (evaluate now) add_user_check_constraint.upgrade rows = .ok rows := by
  have hpasses : ∀ u ∈ rows "users", has_auth_method.Passes u :=
    fun u hu => (passes_iff u).mpr fun hnone => h ⟨u, hu, hnone⟩
  have hrewrite : rewrite fits (evaluate now) rows (.create_check_constraint
      (ck "users" "ck_users_has_auth_method") "users" has_auth_method : Op) = .ok rows := by
    simp only [rewrite]
    rw [if_pos hpasses]
  unfold add_user_check_constraint.upgrade
  rw [rewrite_all_of_ok _ _ hrewrite]
  rfl

theorem check_refuses (h : Lacking rows) :
    rewrite_all fits (evaluate now) add_user_check_constraint.upgrade rows =
      .error .check_violation := by
  have hfails : ¬ ∀ u ∈ rows "users", has_auth_method.Passes u := by
    obtain ⟨u, hu, hnone⟩ := h
    exact fun hall => (passes_iff u).mp (hall u hu) hnone
  unfold add_user_check_constraint.upgrade
  simp only [rewrite_all, rewrite]
  rw [if_neg hfails]
  rfl

theorem lists_rewrite (h : ∀ n ∈ creates .add_lists_items_shares, rows n = []) :
    rewrite_all fits (evaluate now) add_lists_items_shares.upgrade rows = .ok rows := by
  have hclear : clear ["shares", "items", "lists"] rows = rows := by
    refine clear_of_empty fun n hn => h n ?_
    simp only [creates, List.mem_cons, List.not_mem_nil, or_false] at hn ⊢
    tauto
  simp only [clear_cons, clear_nil] at hclear
  unfold add_lists_items_shares.upgrade
  rw [rewrite_all_of_ok _ _ rfl, rewrite_all_of_ok _ _ rfl, rewrite_all_of_ok _ _ rfl, hclear]
  rfl

/-- The rows are in the way of one upgrade only. -/
theorem upgrade_rewrites {r : Revision} (hnew : ∀ n ∈ creates r, rows n = [])
    (hcheck : ¬ (r = .add_user_check_constraint ∧ Lacking rows)) :
    rewrite_all fits (evaluate now) (versions r).upgrade rows =
      .ok (clear (emptied_up r) rows) := by
  cases r with
  | initial_auth_schema =>
    rw [show emptied_up .initial_auth_schema = [] from rfl, clear_nil]
    exact initial_rewrites now hnew
  | rename_sessions_token => exact swap_rewrites now ..
  | add_user_check_constraint =>
    rw [show emptied_up .add_user_check_constraint = [] from rfl, clear_nil]
    exact check_accepts now fun h => hcheck ⟨rfl, h⟩
  | add_lists_items_shares =>
    rw [show emptied_up .add_lists_items_shares = [] from rfl, clear_nil]
    exact lists_rewrite now hnew

theorem downgrade_rewrites (r : Revision) :
    rewrite_all fits (evaluate now) (versions r).downgrade rows =
      .ok (clear (emptied_down r) rows) := by
  cases r with
  | initial_auth_schema =>
    rw [show emptied_down .initial_auth_schema = ["users", "password_reset_tokens", "sessions"] from
      rfl]
    simp only [clear_cons, clear_nil]
    rfl
  | rename_sessions_token => exact swap_rewrites now ..
  | add_user_check_constraint =>
    rw [show emptied_down .add_user_check_constraint = [] from rfl, clear_nil]
    rfl
  | add_lists_items_shares =>
    rw [show emptied_down .add_lists_items_shares = ["lists", "items", "shares"] from rfl]
    simp only [clear_cons, clear_nil]
    rfl

end

/-! ## One revision up or down -/

/-- The database has a schema of its revision, and its rows keep to it. -/
structure Sound (s : Store) : Prop where
  schema : s.db.schema ∈ schemas_at s.version
  conforms : Conforms fits s.db

theorem sound_fresh : Sound .fresh where
  schema := List.mem_singleton_self _
  conforms := ⟨fun _ ht => (List.not_mem_nil ht).elim, fun _ _ => rfl⟩

/-- The tables of a revision are not there below it. -/
theorem absent_below {r : Revision} {s : Schema} (h : s ∈ schemas_at (versions r).down_revision) :
    ∀ n ∈ creates r, s.tables.find n = none := by
  cases r with
  | initial_auth_schema =>
    obtain rfl := List.mem_singleton.mp h
    exact fun n _ => rfl
  | add_lists_items_shares =>
    obtain rfl := List.mem_singleton.mp h
    decide
  | _ =>
    intro n hn
    cases hn

section
variable (now : Time) {s : Store} {r : Revision}

theorem upgrade_one_ok (h : Sound s) (hr : s.version = (versions r).down_revision)
    (hcheck : ¬ (r = .add_user_check_constraint ∧ Lacking s.db.rows)) :
    upgrade_one now s r = .ok ⟨some r, schema_at (some r), clear (emptied_up r) s.db.rows⟩ ∧
      Sound ⟨some r, schema_at (some r), clear (emptied_up r) s.db.rows⟩ := by
  have hschema : s.db.schema ∈ schemas_at (versions r).down_revision := hr ▸ h.schema
  have hnew : ∀ n ∈ creates r, s.db.rows n = [] :=
    fun n hn => h.conforms.nothing_else n (absent_below hschema n hn)
  have hrun : run_all fits (evaluate now) (versions r).upgrade s.db =
      .ok ⟨schema_at (some r), clear (emptied_up r) s.db.rows⟩ := by
    rw [run_all_of_alter_all _ _ (upgrade_alters hschema), upgrade_rewrites now hnew hcheck]
    rfl
  refine ⟨?_, ?_, run_all_keeps h.conforms hrun⟩
  · unfold upgrade_one
    rw [hrun]
    rfl
  · cases r <;> exact List.mem_cons_self ..

theorem upgrade_one_refused (h : Sound s) (hr : s.version = some .rename_sessions_token)
    (hlack : Lacking s.db.rows) :
    upgrade_one now s .add_user_check_constraint = .error .check_violation := by
  have hschema : s.db.schema ∈ schemas_at (some .rename_sessions_token) := hr ▸ h.schema
  unfold upgrade_one
  rw [run_all_of_alter_all _ _ (upgrade_alters (r := .add_user_check_constraint) hschema)]
  have hrefused : rewrite_all fits (evaluate now) (versions .add_user_check_constraint).upgrade
      s.db.rows = .error .check_violation := check_refuses now hlack
  rw [hrefused]
  rfl

theorem downgrade_one_ok (h : Sound s) (hr : s.version = some r) :
    ∃ schema, downgrade_one now s r =
        .ok ⟨(versions r).down_revision, schema, clear (emptied_down r) s.db.rows⟩ ∧
      Sound ⟨(versions r).down_revision, schema, clear (emptied_down r) s.db.rows⟩ := by
  obtain ⟨schema, hschema, halter⟩ := downgrade_alters (hr ▸ h.schema)
  have hrun : run_all fits (evaluate now) (versions r).downgrade s.db =
      .ok ⟨schema, clear (emptied_down r) s.db.rows⟩ := by
    rw [run_all_of_alter_all _ _ halter, downgrade_rewrites]
    rfl
  refine ⟨schema, ?_, hschema, run_all_keeps h.conforms hrun⟩
  unfold downgrade_one
  rw [hrun]
  rfl

end

/-! ## The walk of a command -/

/-- Each revision of the path stands on the one before it. -/
def Climbs : Option Revision → List Revision → Prop
  | _, [] => True
  | v, r :: rs => v = (versions r).down_revision ∧ Climbs (some r) rs

/-- The path begins with the revision of the database, and each one that follows is the
next below. -/
def Descends : Option Revision → List Revision → Prop
  | _, [] => True
  | v, r :: rs => v = some r ∧ Descends (versions r).down_revision rs

instance : ∀ v p, Decidable (Climbs v p)
  | _, [] => isTrue trivial
  | _, r :: rs =>
    have : Decidable (Climbs (some r) rs) := instDecidableClimbs (some r) rs
    inferInstanceAs (Decidable (_ ∧ _))

instance : ∀ v p, Decidable (Descends v p)
  | _, [] => isTrue trivial
  | _, r :: rs =>
    have : Decidable (Descends (versions r).down_revision rs) := instDecidableDescends _ rs
    inferInstanceAs (Decidable (_ ∧ _))

/-- The revision after a command that nothing refuses. -/
def Command.goal (version : Option Revision) : Command → Option Revision
  | .upgrade target => if target ∈ ancestry version then version else some target
  | .downgrade target => target

theorem climbs_path (v : Option Revision) (target : Revision) :
    Climbs v ((Command.upgrade target).path v) ∧
      ((Command.upgrade target).path v).foldl (fun _ r => some r) v =
        (Command.upgrade target).goal v := by
  rcases v with _ | v
  · cases target <;> decide
  · cases v <;> cases target <;> decide

theorem descends_path (v target : Option Revision)
    (valid : (Command.downgrade target).ValidTarget v) :
    Descends v ((Command.downgrade target).path v) ∧
      ((Command.downgrade target).path v).foldl (fun _ r => (versions r).down_revision) v =
        target := by
  rcases v with _ | v <;> rcases target with _ | target
  · decide
  · exact absurd (valid target rfl) List.not_mem_nil
  · cases v <;> decide
  · have hvalid : target ∈ ancestry (some v) := valid target rfl
    cases v <;> cases target <;> first | decide | exact absurd hvalid (by decide)

theorem lacking_clear {names : List String} (h : "users" ∉ names) (rows : Contents Value) :
    Lacking (clear names rows) ↔ Lacking rows := by
  simp only [Lacking, clear, h, if_false]

theorem lacking_of_clear {names : List String} {rows : Contents Value}
    (h : Lacking (clear names rows)) : Lacking rows := by
  obtain ⟨u, hu, hnone⟩ := h
  refine ⟨u, ?_, hnone⟩
  unfold clear at hu
  split at hu
  · cases hu
  · exact hu

theorem users_stay_up (r : Revision) : "users" ∉ emptied_up r := by
  cases r <;> decide

section
variable (now : Time) {s : Store} {p : List Revision}

theorem climb_ok (h : Sound s) (hp : Climbs s.version p)
    (hcheck : ¬ (.add_user_check_constraint ∈ p ∧ Lacking s.db.rows)) :
    ∃ s', p.foldlM (upgrade_one now) s = .ok s' ∧ Sound s' ∧
      s'.version = p.foldl (fun _ r => some r) s.version ∧
      s'.db.rows = clear (p.flatMap emptied_up) s.db.rows := by
  induction p generalizing s with
  | nil => exact ⟨s, rfl, h, rfl, (clear_nil _).symm⟩
  | cons r rs ih =>
    have hfirst : ¬ (r = .add_user_check_constraint ∧ Lacking s.db.rows) :=
      fun hr => hcheck ⟨hr.1 ▸ List.mem_cons_self .., hr.2⟩
    obtain ⟨hone, hsound⟩ := upgrade_one_ok now h hp.1 hfirst
    obtain ⟨s', hrest, hsound', hversion, hrows⟩ := ih hsound hp.2 fun hr =>
      hcheck ⟨List.mem_cons_of_mem _ hr.1, (lacking_clear (users_stay_up r) _).mp hr.2⟩
    refine ⟨s', ?_, hsound', hversion, ?_⟩
    · rw [List.foldlM_cons, hone]
      exact hrest
    · rw [hrows, clear_clear, List.flatMap_cons]

theorem climb_refused (h : Sound s) (hp : Climbs s.version p)
    (hcheck : .add_user_check_constraint ∈ p) (hlack : Lacking s.db.rows) :
    p.foldlM (upgrade_one now) s = .error .check_violation := by
  induction p generalizing s with
  | nil => cases hcheck
  | cons r rs ih =>
    rw [List.foldlM_cons]
    by_cases hr : r = .add_user_check_constraint
    · subst hr
      rw [upgrade_one_refused now h hp.1 hlack]
      rfl
    · obtain ⟨hone, hsound⟩ := upgrade_one_ok now h hp.1 fun h => hr h.1
      rw [hone]
      exact ih hsound hp.2 ((List.mem_cons.mp hcheck).resolve_left (Ne.symm hr))
        ((lacking_clear (users_stay_up r) _).mpr hlack)

theorem descent_ok (h : Sound s) (hp : Descends s.version p) :
    ∃ s', p.foldlM (downgrade_one now) s = .ok s' ∧ Sound s' ∧
      s'.version = p.foldl (fun _ r => (versions r).down_revision) s.version ∧
      s'.db.rows = clear (p.flatMap emptied_down) s.db.rows := by
  induction p generalizing s with
  | nil => exact ⟨s, rfl, h, rfl, (clear_nil _).symm⟩
  | cons r rs ih =>
    obtain ⟨schema, hone, hsound⟩ := downgrade_one_ok now h hp.1
    obtain ⟨s', hrest, hsound', hversion, hrows⟩ := ih hsound hp.2
    refine ⟨s', ?_, hsound', hversion, ?_⟩
    · rw [List.foldlM_cons, hone]
      exact hrest
    · rw [hrows, clear_clear, List.flatMap_cons]

end

/-! ## What a command does -/

/-- The tables whose rows a command deletes. -/
def Command.empties (version : Option Revision) : Command → List String
  | .upgrade target => ((Command.upgrade target).path version).flatMap emptied_up
  | .downgrade target => ((Command.downgrade target).path version).flatMap emptied_down

/-- The command adds the check of `add_user_check_constraint`. -/
def Command.AddsCheck (version : Option Revision) : Command → Prop
  | .upgrade target => .add_user_check_constraint ∈ (Command.upgrade target).path version
  | .downgrade _ => False

/-- What a command does to a sound database that it accepts. -/
structure Done (c : Command) (s s' : Store) : Prop where
  sound : Sound s'
  goal : s'.version = c.goal s.version
  rows : s'.db.rows = clear (c.empties s.version) s.db.rows

section
variable (now : Time) {s : Store} (h : Sound s) (c : Command)
include h

theorem command_ok (valid : c.ValidTarget s.version)
    (hcheck : ¬ (c.AddsCheck s.version ∧ Lacking s.db.rows)) :
    ∃ s', command now c s = .ok s' ∧ Done c s s' := by
  unfold command transaction
  rw [if_pos valid]
  cases c with
  | upgrade target =>
    obtain ⟨hclimbs, hgoal⟩ := climbs_path s.version target
    obtain ⟨s', hrun, hsound, hversion, hrows⟩ := climb_ok now h hclimbs hcheck
    exact ⟨s', congrArg (Except.mapError _) hrun, hsound, hversion.trans hgoal, hrows⟩
  | downgrade target =>
    obtain ⟨hdescends, hgoal⟩ := descends_path s.version target valid
    obtain ⟨s', hrun, hsound, hversion, hrows⟩ := descent_ok now h hdescends
    exact ⟨s', congrArg (Except.mapError _) hrun, hsound, hversion.trans hgoal, hrows⟩

theorem command_refused (hcheck : c.AddsCheck s.version) (hlack : Lacking s.db.rows) :
    command now c s = .error (.refused .check_violation) := by
  cases c with
  | upgrade target =>
    have hrun := climb_refused now h (climbs_path s.version target).1 hcheck hlack
    have valid : (Command.upgrade target).ValidTarget s.version := trivial
    unfold command transaction
    rw [if_pos valid]
    exact congrArg (Except.mapError CommandError.refused) hrun
  | downgrade target => exact hcheck.elim

end

/-- Alembic finds the way, and no user stands in it. -/
def Command.Accepted (c : Command) (s : Store) : Prop :=
  c.ValidTarget s.version ∧ ¬ (c.AddsCheck s.version ∧ Lacking s.db.rows)

/-- When a command fails, and how. -/
theorem command_error_iff (now : Time) {s : Store} (h : Sound s) (c : Command) (e : CommandError) :
    command now c s = .error e ↔
      (e = .not_a_downgrade_target ∧ ¬ c.ValidTarget s.version) ∨
        (e = .refused .check_violation ∧ c.AddsCheck s.version ∧ Lacking s.db.rows) := by
  constructor
  · intro he
    by_cases valid : c.ValidTarget s.version
    · by_cases hcheck : c.AddsCheck s.version ∧ Lacking s.db.rows
      · rw [command_refused now h c hcheck.1 hcheck.2] at he
        cases he
        exact Or.inr ⟨rfl, hcheck⟩
      · obtain ⟨s', hok, -⟩ := command_ok now h c valid hcheck
        rw [hok] at he
        cases he
    · unfold command at he
      rw [if_neg valid] at he
      cases he
      exact Or.inl ⟨rfl, valid⟩
  · rintro (⟨rfl, hinvalid⟩ | ⟨rfl, hadds, hlack⟩)
    · unfold command
      rw [if_neg hinvalid]
    · exact command_refused now h c hadds hlack

/-! ## Any life of the database -/

/-- The database with other rows. -/
def Store.with_rows (s : Store) (rows : Contents Value) : Store := ⟨s.version, s.db.schema, rows⟩

/-- What may happen to a database: a command that goes through, or writes of any kind, which
the schema accepts. -/
inductive Moves : Store → Store → Prop where
  | command (now : Time) (c : Command) {s s' : Store} (h : command now c s = .ok s') : Moves s s'
  | write (rows : Contents Value) {s : Store} (h : Conforms fits ⟨s.db.schema, rows⟩) :
    Moves s (s.with_rows rows)

/-- The databases that began empty. -/
def Life (s : Store) : Prop := Relation.ReflTransGen Moves .fresh s

theorem sound_of_life {s : Store} (h : Life s) : Sound s := by
  induction h with
  | refl => exact sound_fresh
  | @tail before after _ hmove ih =>
    cases hmove with
    | command now c hc =>
      have haccepted : c.Accepted before := by
        refine ⟨?_, ?_⟩ <;> by_contra hno
        · rw [(command_error_iff now ih c _).mpr (Or.inl ⟨rfl, hno⟩)] at hc
          cases hc
        · rw [(command_error_iff now ih c _).mpr (Or.inr ⟨rfl, hno⟩)] at hc
          cases hc
      obtain ⟨s', hok, hdone⟩ := command_ok now ih c haccepted.1 haccepted.2
      rw [hok] at hc
      cases hc
      exact hdone.sound
    | write rows hrows => exact ⟨ih.schema, hrows⟩

/-- The schemas of a revision differ in the order of columns only. -/
theorem alike_at {v : Option Revision} {s : Schema} (h : s ∈ schemas_at v) :
    s.Alike (schema_at v) := by
  have hback : schema_back.Alike (schema_at (some .initial_auth_schema)) := by decide +kernel
  rcases v with _ | _ | _ | _ | _
  case some.initial_auth_schema =>
    rcases List.mem_pair.mp h with rfl | rfl
    · exact .refl _
    · exact hback
  all_goals
    obtain rfl := List.mem_singleton.mp h
    exact .refl _

/-- From `add_user_check_constraint` on, every user has a password or a Google account. -/
theorem not_lacking {s : Store} (h : Sound s)
    (hcheck : .add_user_check_constraint ∈ ancestry s.version) : ¬ Lacking s.db.rows := by
  have hrule : ∃ t ∈ s.db.schema.tables.rows, t.name = "users" ∧
      check_constraint (ck "users" "ck_users_has_auth_method") has_auth_method ∈ t.rules := by
    have hschema := h.schema
    rcases hv : s.version with _ | _ | _ | _ | _ <;> rw [hv] at hschema hcheck
    case some.add_user_check_constraint =>
      obtain hs := List.mem_singleton.mp hschema
      rw [hs]
      decide +kernel
    case some.add_lists_items_shares =>
      obtain hs := List.mem_singleton.mp hschema
      rw [hs]
      decide +kernel
    all_goals exact absurd hcheck (by decide)
  obtain ⟨t, ht, hname, hrule⟩ := hrule
  have hholds := (h.conforms.held t ht).ruled _ hrule
  rintro ⟨u, hu, hnone⟩
  exact (passes_iff u).mp (hholds u (hname ▸ hu)) hnone

/-- The accounts and their reset tokens go with the way down to `base` only. -/
theorem accounts_stay {c : Command} {v : Option Revision} (h : c.goal v ≠ none) :
    "users" ∉ c.empties v ∧ "password_reset_tokens" ∉ c.empties v := by
  cases c with
  | upgrade target =>
    rcases v with _ | v
    · cases target <;> decide
    · cases v <;> cases target <;> decide
  | downgrade target =>
    rcases v with _ | v <;> rcases target with _ | target
    · decide
    · cases target <;> decide
    · exact absurd rfl h
    · cases v <;> cases target <;> decide

/-! ## One command after another -/

def commands (cs : List (Time × Command)) (s : Store) : Except CommandError Store :=
  cs.foldlM (fun s c => command c.1 c.2 s) s

/-- The revision after them. -/
def goals (version : Option Revision) (cs : List (Time × Command)) : Option Revision :=
  cs.foldl (fun v c => c.2.goal v) version

/-- Alembic finds the way for each of them. -/
def ValidTargets (version : Option Revision) : List (Time × Command) → Prop
  | [] => True
  | c :: cs => c.2.ValidTarget version ∧ ValidTargets (c.2.goal version) cs

instance : ∀ version cs, Decidable (ValidTargets version cs)
  | _, [] => isTrue trivial
  | version, c :: cs =>
    have : Decidable (ValidTargets (c.2.goal version) cs) := instDecidableValidTargets _ cs
    inferInstanceAs (Decidable (_ ∧ _))

/-- The tables whose rows they delete. -/
def empties (version : Option Revision) : List (Time × Command) → List String
  | [] => []
  | c :: cs => c.2.empties version ++ empties (c.2.goal version) cs

/-- Where every user can sign in, no command is refused, and so it stays. -/
theorem commands_ok {s : Store} (life : Life s) (hlack : ¬ Lacking s.db.rows)
    {cs : List (Time × Command)} (valid : ValidTargets s.version cs) :
    ∃ s', commands cs s = .ok s' ∧ Life s' ∧ s'.version = goals s.version cs ∧
      s'.db.rows = clear (empties s.version cs) s.db.rows := by
  induction cs generalizing s with
  | nil => exact ⟨s, rfl, life, rfl, (clear_nil _).symm⟩
  | cons c cs ih =>
    obtain ⟨now, c⟩ := c
    obtain ⟨s₁, hok, hdone⟩ := command_ok now (sound_of_life life) c valid.1 fun h => hlack h.2
    have hvalid₁ : ValidTargets s₁.version cs := by
      rw [hdone.goal]
      exact valid.2
    have hlack₁ : ¬ Lacking s₁.db.rows := by
      rw [hdone.rows]
      exact fun h => hlack (lacking_of_clear h)
    have life₁ : Life s₁ := .tail life (.command now c hok)
    obtain ⟨s', hrest, life', hversion, hrows⟩ := ih life₁ hlack₁ hvalid₁
    refine ⟨s', ?_, life', ?_, ?_⟩
    · rw [commands, List.foldlM_cons, hok]
      exact hrest
    · rw [hversion, hdone.goal]
      rfl
    · rw [hrows, hdone.rows, hdone.goal, clear_clear]
      rfl

/-- The accounts stay as long as the database is never down at `base`. -/
theorem accounts_stay_on {v : Option Revision} {cs : List (Time × Command)}
    (h : ∀ before, before <+: cs → goals v before ≠ none) :
    "users" ∉ empties v cs ∧ "password_reset_tokens" ∉ empties v cs := by
  induction cs generalizing v with
  | nil => exact ⟨List.not_mem_nil, List.not_mem_nil⟩
  | cons c cs ih =>
    obtain ⟨husers, htokens⟩ := accounts_stay (h [c] (by simp))
    obtain ⟨husers', htokens'⟩ :=
      ih fun before hbefore => h (c :: before) (List.cons_prefix_cons.mpr ⟨rfl, hbefore⟩)
    simp only [empties, List.mem_append, not_or]
    exact ⟨⟨husers, husers'⟩, htokens, htokens'⟩

/-! ## Up to date at every revision -/

/-- The database has what its revision says, in whatever order of columns. -/
def UpToDate (s : Store) : Prop := s.db.schema.Alike (schema_at s.version) ∧ Conforms fits s.db

theorem up_to_date_of_sound {s : Store} (h : Sound s) : UpToDate s :=
  ⟨alike_at h.schema, h.conforms⟩

/-- Whatever was migrated and written before, a database is up to date with its revision. A
command fails in two cases only: it goes down to a revision that the database does not have,
or it adds the check on the users, and a user has neither a password nor a Google account.
Then nothing changes. Otherwise the database arrives at the revision of the command, up to
date, with every row of every table that the command does not empty; the accounts and their
reset tokens go at `base` only. -/
theorem a_command_goes_through_or_changes_nothing (s : Store) (life : Life s) (now : Time)
    (c : Command) :
    UpToDate s ∧
      (∀ e, command now c s = .error e ↔
        (e = .not_a_downgrade_target ∧ ¬ c.ValidTarget s.version) ∨
          (e = .refused .check_violation ∧ c.AddsCheck s.version ∧ Lacking s.db.rows)) ∧
      (¬ c.Accepted s → s.after now c = s) ∧
      (c.Accepted s →
        (s.after now c).version = c.goal s.version ∧ UpToDate (s.after now c) ∧
          (∀ n, (s.after now c).db.rows n =
            if n ∈ c.empties s.version then [] else s.db.rows n) ∧
          (c.goal s.version ≠ none →
            (s.after now c).db.rows "users" = s.db.rows "users" ∧
              (s.after now c).db.rows "password_reset_tokens" =
                s.db.rows "password_reset_tokens")) := by
  have hsound := sound_of_life life
  refine ⟨up_to_date_of_sound hsound, command_error_iff now hsound c, fun hno => ?_,
    fun haccepted => ?_⟩
  · obtain ⟨e, he⟩ : ∃ e, command now c s = .error e := by
      by_cases valid : c.ValidTarget s.version
      · have hcheck : c.AddsCheck s.version ∧ Lacking s.db.rows := by
          by_contra hcheck
          exact hno ⟨valid, hcheck⟩
        exact ⟨_, (command_error_iff now hsound c _).mpr (Or.inr ⟨rfl, hcheck⟩)⟩
      · exact ⟨_, (command_error_iff now hsound c _).mpr (Or.inl ⟨rfl, valid⟩)⟩
    unfold Store.after
    rw [he]
    rfl
  · obtain ⟨s', hok, hdone⟩ := command_ok now hsound c haccepted.1 haccepted.2
    have hafter : s.after now c = s' := by
      unfold Store.after
      rw [hok]
      rfl
    have hrows : ∀ n, s'.db.rows n = if n ∈ c.empties s.version then [] else s.db.rows n :=
      fun n => congrFun hdone.rows n
    rw [hafter]
    refine ⟨hdone.goal, up_to_date_of_sound hdone.sound, hrows, fun hgoal => ?_⟩
    obtain ⟨husers, htokens⟩ := accounts_stay hgoal
    exact ⟨(hrows _).trans (if_neg husers), (hrows _).trans (if_neg htokens)⟩

/-- A user that nobody can sign in as. -/
def ghost : Row Value
  | "id" => some (.uuid 1)
  | "email" => some (.text "ghost@example.com")
  | "display_name" => some (.text "ghost")
  | "created_at" | "updated_at" => some (.time 0)
  | _ => none

def haunted : Store :=
  ⟨some .rename_sessions_token, schema_at (some .rename_sessions_token),
    Function.update (fun _ => []) "users" [ghost]⟩

theorem haunted_users : haunted.db.rows "users" = [ghost] := by simp [haunted]

theorem haunted_rest {n : String} (h : n ≠ "users") : haunted.db.rows n = [] := by
  simp [haunted, h]

theorem haunted_conforms : Conforms fits haunted.db where
  held := by
    intro t ht
    by_cases hname : t.name = "users"
    · have hrows : haunted.db.rows t.name = [ghost] := by
        rw [hname, haunted_users]
      have husers : ∀ u : Relation, u ∈ haunted.db.schema.tables.rows → u.name = "users" →
          (∀ c ∈ u.columns, c.Admits fits (ghost c.name)) ∧
            (∀ c ∈ ["id", "email", "display_name", "created_at", "updated_at"],
              c ∈ u.column_names) ∧
            (∀ k ∈ u.rules, k.body.Holds haunted.db.rows "users") ∧
            ∀ i ∈ u.indexes, i.unique = true → Apart i.columns [ghost] := by decide +kernel
      obtain ⟨htyped, hcolumns, hruled, hindexed⟩ := husers t ht hname
      refine ⟨?_, ?_, fun k hk => hname ▸ hruled k hk, ?_⟩ <;> rw [hrows]
      · simpa using htyped
      · intro r hr c hc
        obtain rfl := List.mem_singleton.mp hr
        unfold ghost
        split
        case h_6 => rfl
        all_goals exact absurd (hcolumns _ (by simp)) hc
      · exact hindexed
    · exact held_of_no_rows (haunted_rest hname)
  nothing_else := by
    intro n hn
    refine haunted_rest ?_
    rintro rfl
    exact absurd hn (by decide +kernel)

theorem haunted_life : Life haunted := by
  obtain ⟨s', hok, hdone⟩ := command_ok 0 sound_fresh (.upgrade .rename_sessions_token) trivial
    fun h => (List.not_mem_nil h.2.choose_spec.1).elim
  have hschema : s'.db.schema = haunted.db.schema := by
    have hin := hdone.sound.schema
    rw [hdone.goal] at hin
    exact List.mem_singleton.mp hin
  have hwrite : Moves s' haunted := by
    have hmove : Moves s' (s'.with_rows haunted.db.rows) := .write _ (hschema ▸ haunted_conforms)
    rw [Store.with_rows, hschema, hdone.goal] at hmove
    exact hmove
  exact .tail (.tail .refl (.command 0 _ hok)) hwrite

theorem a_ghost_is_in_the_way :
    UpToDate haunted ∧
      command 1 (.upgrade .add_lists_items_shares) haunted =
        .error (.refused .check_violation) ∧
      haunted.after 1 (.upgrade .add_lists_items_shares) = haunted ∧
      command 1 (.downgrade (some .add_lists_items_shares)) haunted =
        .error .not_a_downgrade_target ∧
      (haunted.after 1 (.downgrade none)).version = none := by
  have hcheck : (Command.upgrade .add_lists_items_shares).AddsCheck haunted.version ∧
      Lacking haunted.db.rows := by
    refine ⟨?_, ghost, ?_, rfl, rfl⟩
    · exact List.mem_filter.mpr ⟨by decide, by decide⟩
    · rw [haunted_users]
      exact List.mem_singleton_self ghost
  have hup := a_command_goes_through_or_changes_nothing haunted haunted_life 1
    (.upgrade .add_lists_items_shares)
  have hlost := a_command_goes_through_or_changes_nothing haunted haunted_life 1
    (.downgrade (some .add_lists_items_shares))
  have hdown := a_command_goes_through_or_changes_nothing haunted haunted_life 1 (.downgrade none)
  have hunknown :
      ¬ (Command.downgrade (some .add_lists_items_shares)).ValidTarget haunted.version := by decide
  have hbase : (Command.downgrade none).ValidTarget haunted.version := by decide
  exact ⟨hup.1, (hup.2.1 _).mpr (Or.inr ⟨rfl, hcheck⟩), hup.2.2.1 fun h => h.2 hcheck,
    (hlost.2.1 _).mpr (Or.inl ⟨rfl, hunknown⟩), (hdown.2.2.2 ⟨hbase, fun h => h.1⟩).1⟩

/-- The way down to a revision and up again. -/
def there_and_back (s : Store) (target : Option Revision) (top : Revision) (now now' : Time) :
    Store :=
  (s.after now (.downgrade target)).after now' (.upgrade top)

/-- What the way up empties, the way down has emptied. -/
theorem emptied_on_the_way_up (target : Option Revision) (v : Revision) :
    ∀ n ∈ (Command.upgrade v).empties target, n ∈ (Command.downgrade target).empties (some v) := by
  intro n hn
  obtain ⟨r, hr, hn⟩ := List.mem_flatMap.mp hn
  exact List.mem_flatMap.mpr ⟨r, List.mem_reverse.mpr hr, List.mem_append_right _ hn⟩

theorem back_again {v : Revision} {t : Option Revision}
    (below : ∀ r ∈ ancestry t, r ∈ ancestry (some v)) :
    (Command.downgrade t).ValidTarget (some v) ∧ (Command.upgrade v).goal t = some v := by
  rcases t with _ | t
  · cases v <;> decide
  · cases v <;> cases t <;> first | decide | exact absurd below (by decide)

/-- From any revision a database can go down to any lower one and up again, whatever is in
it. It has its schema and its accounts again, unless it was down at `base`. -/
theorem there_is_always_a_way_back (s : Store) (life : Life s) (v : Revision)
    (version : s.version = some v) (target : Option Revision)
    (below : ∀ r ∈ ancestry target, r ∈ ancestry (some v)) (now now' : Time) :
    (s.after now (.downgrade target)).version = target ∧
      (there_and_back s target v now now').version = some v ∧
      (there_and_back s target v now now').db.schema.Alike s.db.schema ∧
      Conforms fits (there_and_back s target v now now').db ∧
      (∀ n, (there_and_back s target v now now').db.rows n =
        if n ∈ (Command.downgrade target).empties (some v) then [] else s.db.rows n) ∧
      (target ≠ none →
        (there_and_back s target v now now').db.rows "users" = s.db.rows "users" ∧
          (there_and_back s target v now now').db.rows "password_reset_tokens" =
            s.db.rows "password_reset_tokens") := by
  have hsound := sound_of_life life
  obtain ⟨hdown, hup⟩ := back_again below
  rw [← version] at hdown
  obtain ⟨s₁, hok₁, hdone₁⟩ := command_ok now hsound (.downgrade target) hdown fun h => h.1
  have hversion₁ : s₁.version = target := hdone₁.goal
  -- The users are those of before, or none; and before, each of them passed the check.
  have hcheck : ¬ ((Command.upgrade v).AddsCheck s₁.version ∧ Lacking s₁.db.rows) := by
    rintro ⟨hadds, hlack⟩
    have hhead : .add_user_check_constraint ∈ ancestry s.version := by
      rw [version]
      exact (List.mem_filter.mp hadds).1
    rw [hdone₁.rows] at hlack
    exact not_lacking hsound hhead (lacking_of_clear hlack)
  obtain ⟨s₂, hok₂, hdone₂⟩ := command_ok now' hdone₁.sound (.upgrade v) trivial hcheck
  have hafter₁ : s.after now (.downgrade target) = s₁ := by
    unfold Store.after
    rw [hok₁]
    rfl
  have hafter₂ : there_and_back s target v now now' = s₂ := by
    unfold there_and_back
    rw [hafter₁]
    unfold Store.after
    rw [hok₂]
    rfl
  have hversion₂ : s₂.version = some v := by rw [hdone₂.goal, hversion₁, hup]
  rw [hafter₁, hafter₂]
  have hrows : s₂.db.rows = clear ((Command.downgrade target).empties (some v)) s.db.rows := by
    rw [hdone₂.rows, hdone₁.rows, hversion₁, version]
    exact clear_again (emptied_on_the_way_up target v)
  refine ⟨hversion₁, hversion₂, ?_, hdone₂.sound.conforms, fun n => congrFun hrows n,
    fun hbase => ?_⟩
  · have hthere := alike_at hdone₂.sound.schema
    have hhere := alike_at hsound.schema
    rw [hversion₂] at hthere
    rw [version] at hhere
    exact hthere.trans hhere.symm
  · obtain ⟨husers, htokens⟩ := accounts_stay (c := .downgrade target) (v := some v) hbase
    rw [hrows]
    exact ⟨if_neg husers, if_neg htokens⟩

theorem the_ghost_stays :
    (there_and_back haunted (some .initial_auth_schema) .rename_sessions_token 1 2).version =
        some .rename_sessions_token ∧
      (there_and_back haunted (some .initial_auth_schema) .rename_sessions_token 1 2).db.rows
        "users" = [ghost] := by
  have hback := there_is_always_a_way_back haunted haunted_life .rename_sessions_token rfl
    (some .initial_auth_schema) (by decide) 1 2
  exact ⟨hback.2.1, (hback.2.2.2.2.2 (by decide)).1.trans haunted_users⟩

end shared_todos.migrations
