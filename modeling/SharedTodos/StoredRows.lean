-- The rows of the application in the tables of its models. They keep to the schema exactly
-- when the constraints hold, as the statements check them, and every value fits its column.
import SharedTodos.Metadata

open relational_schema keyed_table
open transactions (Time)
open transactions.Prog (applyAll)
open shared_todos.models shared_todos.migrations shared_todos.metadata

namespace shared_todos.stored_rows

/-! ## The rows -/

/-- The columns that the server fills and that no handler reads. -/
structure Stamps where
  user_created_at : UUID → Time
  user_updated_at : UUID → Time
  session_created_at : UUID → Time
  reset_token_created_at : UUID → Time

section
variable (st : Stamps)

def user_row (u : User) : Row Value
  | "id" => some (.uuid u.id)
  | "email" => some (.text u.email)
  | "display_name" => some (.text u.display_name)
  | "password_hash" => u.password_hash.map .text
  | "google_sub" => u.google_sub.map .text
  | "created_at" => some (.time (st.user_created_at u.id))
  | "updated_at" => some (.time (st.user_updated_at u.id))
  | _ => none

def session_row (s : Session) : Row Value
  | "id" => some (.uuid s.id)
  | "user_id" => some (.uuid s.user_id)
  | "token_hash" => some (.text s.token_hash)
  | "expires_at" => some (.time s.expires_at)
  | "created_at" => some (.time (st.session_created_at s.id))
  | _ => none

def reset_token_row (t : PasswordResetToken) : Row Value
  | "id" => some (.uuid t.id)
  | "user_id" => some (.uuid t.user_id)
  | "token_hash" => some (.text t.token_hash)
  | "expires_at" => some (.time t.expires_at)
  | "used_at" => t.used_at.map .time
  | "created_at" => some (.time (st.reset_token_created_at t.id))
  | _ => none

def list_row (l : ListRow) : Row Value
  | "id" => some (.uuid l.id)
  | "owner_id" => some (.uuid l.owner_id)
  | "name" => some (.text l.name)
  | "created_at" => some (.time l.created_at)
  | "updated_at" => some (.time l.updated_at)
  | _ => none

def item_row (i : Item) : Row Value
  | "id" => some (.uuid i.id)
  | "list_id" => some (.uuid i.list_id)
  | "content" => some (.text i.content)
  | "completed" => some (.boolean i.completed)
  | "order" => some (.integer i.order)
  | "created_at" => some (.time i.created_at)
  | "updated_at" => some (.time i.updated_at)
  | _ => none

def share_row (s : Share) : Row Value
  | "list_id" => some (.uuid s.list_id)
  | "user_id" => some (.uuid s.user_id)
  | "role" => some (.text s.role)
  | "granted_at" => some (.time s.granted_at)
  | _ => none

/-- The rows of the application, table by table. -/
def stored (db : DB) : Contents Value
  | "users" => db.users.rows.map (user_row st)
  | "password_reset_tokens" => db.password_reset_tokens.rows.map (reset_token_row st)
  | "sessions" => db.sessions.rows.map (session_row st)
  | "lists" => db.lists.rows.map list_row
  | "items" => db.items.rows.map item_row
  | "shares" => db.shares.rows.map share_row
  | _ => []

end

/-- Every value fits its column. A role that passes its check fits anyway. -/
structure RowsFit (db : DB) : Prop where
  users : ∀ u ∈ db.users.rows, u.fits
  password_hash : ∀ u ∈ db.users.rows, ∀ h ∈ u.password_hash, text_storable h
  sessions : ∀ s ∈ db.sessions.rows, text_fits 64 s.token_hash
  reset_tokens : ∀ t ∈ db.password_reset_tokens.rows, text_fits 64 t.token_hash
  lists : ∀ l ∈ db.lists.rows, text_fits 256 l.name
  items : ∀ i ∈ db.items.rows, text_storable i.content ∧ integer_fits i.order

/-! ## A table and its constraints -/

section
variable {ρ : Type} {contents : Contents Value} {t : Relation} {l : List ρ} {row : ρ → Row Value}

theorem held_iff (hrows : contents t.name = l.map row)
    (hbare : ∀ x c, c ∉ t.column_names → row x c = none) :
    Held fits contents t ↔
      (∀ x ∈ l, ∀ c ∈ t.columns, c.Admits fits (row x c.name)) ∧
        (∀ k ∈ t.rules, k.body.Holds contents t.name) ∧
        ∀ i ∈ t.indexes, i.unique = true → Apart i.columns (l.map row) := by
  constructor
  · intro h
    refine ⟨fun x hx => h.typed (row x) ?_, h.ruled, ?_⟩
    · rw [hrows]
      exact List.mem_map_of_mem hx
    · rw [← hrows]
      exact h.indexed
  · rintro ⟨htyped, hruled, hindexed⟩
    refine ⟨fun r hr => ?_, fun r hr => ?_, hruled, ?_⟩
    · rw [hrows] at hr
      obtain ⟨x, hx, rfl⟩ := List.mem_map.mp hr
      exact htyped x hx
    · rw [hrows] at hr
      obtain ⟨x, hx, rfl⟩ := List.mem_map.mp hr
      exact hbare x
    · rw [hrows]
      exact hindexed

/-- A column without `NULL` holds different values. -/
theorem apart_column {γ : Type} (value : γ → Value) (f : ρ → γ) (hl : l.Nodup) {c : String}
    (hinj : ∀ a b, value a = value b → a = b) (hc : ∀ x, row x c = some (value (f x))) :
    Apart [c] (l.map row) ↔ ∀ a ∈ l, ∀ b ∈ l, f a = f b → a = b := by
  rw [apart_map_iff hl]
  have hcells (x : ρ) : cells [c] (row x) = [some (value (f x))] := by simp [cells, hc]
  simp only [hcells, List.mem_singleton, reduceCtorEq, false_or, List.cons.injEq, and_true,
    Option.some.injEq]
  exact ⟨fun h a ha b hb hab => h a ha b hb (congrArg value hab),
    fun h a ha b hb hab => h a ha b hb (hinj _ _ hab)⟩

/-- A column in which `NULL` may stand, any number of times. -/
theorem apart_nullable (f : ρ → Option String) (hl : l.Nodup) {c : String}
    (hc : ∀ x, row x c = (f x).map .text) :
    Apart [c] (l.map row) ↔ ∀ a ∈ l, ∀ b ∈ l, f a ≠ none → f a = f b → a = b := by
  rw [apart_map_iff hl]
  have hcells (x : ρ) : cells [c] (row x) = [(f x).map Value.text] := by simp [cells, hc]
  have hinj : ∀ a b : Option String, a.map Value.text = b.map Value.text → a = b := by
    intro a b hab
    cases a <;> cases b <;> simp_all
  have hnone (x : ρ) : none ∈ [(f x).map Value.text] ↔ f x = none := by
    cases f x <;> simp
  simp only [hcells, hnone, List.cons.injEq, and_true]
  constructor
  · intro h a ha b hb hne hab
    exact (h a ha b hb (by rw [hab])).resolve_left hne
  · intro h a ha b hb hab
    exact or_iff_not_imp_left.mpr fun hne => h a ha b hb hne (hinj _ _ hab)

/-- A key of the model is a primary key of its table. -/
theorem primary_key_holds {cs : List String} (hrows : contents t.name = l.map row) (hl : l.Nodup)
    (hnone : ∀ x, none ∉ cells cs (row x))
    (hkey : ∀ a ∈ l, ∀ b ∈ l, cells cs (row a) = cells cs (row b) → a = b) :
    (Constraint.primary_key cs).Holds contents t.name := by
  refine ⟨fun r hr => ?_, ?_⟩
  · rw [hrows] at hr
    obtain ⟨x, -, rfl⟩ := List.mem_map.mp hr
    exact hnone x
  · rw [hrows, apart_map_iff hl]
    exact fun a ha b hb hab => Or.inr (hkey a ha b hb hab)

/-- A foreign key holds where a lookup of the model finds every row that it refers to. -/
theorem reference_holds {σ : Type} {key : σ → UUID} (referred : Table key) (ref : ρ → UUID)
    {row' : σ → Row Value} {c table : String} {d : OnDelete}
    (hrows : contents t.name = l.map row) (hreferred : contents table = referred.rows.map row')
    (hc : ∀ x, row x c = some (.uuid (ref x))) (hid : ∀ y, row' y "id" = some (.uuid (key y))) :
    (Constraint.foreign_key [c] table ["id"] d).Holds contents t.name ↔
      ∀ x ∈ l, referred.find (ref x) ≠ none := by
  have hcells (x : ρ) : cells [c] (row x) = [some (.uuid (ref x))] := by simp [cells, hc]
  have hkeys (y : σ) : cells ["id"] (row' y) = [some (.uuid (key y))] := by simp [cells, hid]
  have hfind (u : UUID) : referred.find u ≠ none ↔ ∃ y ∈ referred.rows, key y = u := by
    rw [ne_eq, Table.find_eq_none_iff, not_not, List.mem_map]
  simp only [Constraint.Holds, hrows, hreferred, List.mem_map, forall_exists_index, and_imp,
    forall_apply_eq_imp_iff₂, exists_exists_and_eq_and, hcells, hkeys, hfind, List.mem_singleton,
    reduceCtorEq, false_or, List.cons.injEq, and_true, Option.some.injEq, Value.uuid.injEq]

end

/-! ## The six tables -/

section
variable (st : Stamps) (db : DB)

theorem users_typed (u : User) :
    (∀ c ∈ users_table.columns, c.Admits fits (user_row st u c.name)) ↔
      u.fits ∧ ∀ h ∈ u.password_hash, text_storable h := by
  have hcolumns : users_table.columns =
      [column "id" .uuid, column "email" (.string 254), column "display_name" (.string 128),
        nullable "password_hash" .text, nullable "google_sub" (.string 256), stamp "created_at",
        stamp "updated_at"] := rfl
  have hpassword : (nullable "password_hash" .text).Admits fits (u.password_hash.map .text) ↔
      ∀ h ∈ u.password_hash, text_storable h := by
    cases u.password_hash <;> simp [Column.Admits, nullable, fits]
  have hsub : (nullable "google_sub" (.string 256)).Admits fits (u.google_sub.map .text) ↔
      ∀ g ∈ u.google_sub, text_fits 256 g := by
    cases u.google_sub <;> simp [Column.Admits, nullable, fits]
  have hcells : (∀ c ∈ users_table.columns, c.Admits fits (user_row st u c.name)) ↔
      text_fits 254 u.email ∧ text_fits 128 u.display_name ∧
        (∀ h ∈ u.password_hash, text_storable h) ∧ ∀ g ∈ u.google_sub, text_fits 256 g := by
    rw [hcolumns, ← hpassword, ← hsub]
    simp [Column.Admits, column, nullable, stamp, user_row, fits]
  rw [hcells]
  constructor
  · rintro ⟨hemail, hname, hhash, hgoogle⟩
    exact ⟨⟨hemail, hname, hgoogle⟩, hhash⟩
  · rintro ⟨⟨hemail, hname, hgoogle⟩, hhash⟩
    exact ⟨hemail, hname, hhash, hgoogle⟩

theorem users_bare (u : User) (c : String) (hc : c ∉ users_table.column_names) :
    user_row st u c = none := by
  unfold user_row
  split
  case h_8 => rfl
  all_goals exact absurd hc (by decide)

theorem passes_of_user (u : User) : has_auth_method.Passes (user_row st u) ↔ u.has_auth_method := by
  rw [passes_iff]
  simp only [user_row, Option.map_eq_none_iff, User.has_auth_method]
  tauto

theorem users_hold : Held fits (stored st db) users_table ↔
    (∀ u ∈ db.users.rows, u.fits ∧ ∀ h ∈ u.password_hash, text_storable h) ∧
      (∀ a ∈ db.users.rows, ∀ b ∈ db.users.rows, a.google_sub ≠ none →
        a.google_sub = b.google_sub → a = b) ∧
      (∀ u ∈ db.users.rows, u.has_auth_method) ∧
      ∀ a ∈ db.users.rows, ∀ b ∈ db.users.rows, a.email = b.email → a = b := by
  have hnodup := db.users.rows_nodup
  have hrows : stored st db users_table.name = db.users.rows.map (user_row st) := rfl
  have hrules : users_table.rules =
      [unique_constraint "uq_users_google_sub" "google_sub",
        check_constraint "ck_users_ck_users_has_auth_method" has_auth_method,
        primary_key "pk_users" ["id"]] := rfl
  have hindexes : users_table.indexes = [⟨"ix_users_email", ["email"], true⟩] := rfl
  have hkey : (Constraint.primary_key ["id"]).Holds (stored st db) users_table.name := by
    refine primary_key_holds hrows hnodup (by simp [cells, user_row]) fun a ha b hb hab => ?_
    exact db.users.eq_of_key_eq ha hb (by simpa [cells, user_row] using hab)
  have hunique : (Constraint.unique ["google_sub"]).Holds (stored st db) users_table.name ↔ _ :=
    apart_nullable User.google_sub hnodup fun _ => rfl
  have hcheck : (Constraint.check has_auth_method).Holds (stored st db) users_table.name ↔
      ∀ u ∈ db.users.rows, u.has_auth_method := by
    simp only [Constraint.Holds, hrows, List.forall_mem_map, passes_of_user]
  have hindex : Apart ["email"] (db.users.rows.map (user_row st)) ↔ _ :=
    apart_column Value.text User.email hnodup (by simp) fun _ => rfl
  rw [held_iff hrows (users_bare st), hrules, hindexes]
  simp only [users_typed, List.forall_mem_cons, List.not_mem_nil, false_implies, implies_true,
    and_true, unique_constraint, check_constraint, primary_key, hkey, hunique, hcheck, hindex,
    forall_true_left, and_assoc]

theorem reset_tokens_hold : Held fits (stored st db) password_reset_tokens_table ↔
    (∀ t ∈ db.password_reset_tokens.rows, text_fits 64 t.token_hash) ∧
      (∀ t ∈ db.password_reset_tokens.rows, db.users.find t.user_id ≠ none) ∧
      ∀ a ∈ db.password_reset_tokens.rows, ∀ b ∈ db.password_reset_tokens.rows,
        a.token_hash = b.token_hash → a = b := by
  have hnodup := db.password_reset_tokens.rows_nodup
  have hrows : stored st db password_reset_tokens_table.name =
      db.password_reset_tokens.rows.map (reset_token_row st) := rfl
  have hcolumns : password_reset_tokens_table.columns =
      [column "id" .uuid, column "user_id" .uuid, column "token_hash" (.string 64),
        column "expires_at" .datetime, nullable "used_at" .datetime, stamp "created_at"] := rfl
  have hrules : password_reset_tokens_table.rules =
      [foreign_key "fk_password_reset_tokens_user_id_users" "user_id" "users",
        primary_key "pk_password_reset_tokens" ["id"]] := rfl
  have hindexes : password_reset_tokens_table.indexes =
      [⟨"ix_password_reset_tokens_token_hash", ["token_hash"], true⟩] := rfl
  have hbare (t : PasswordResetToken) (c : String)
      (hc : c ∉ password_reset_tokens_table.column_names) : reset_token_row st t c = none := by
    unfold reset_token_row
    split
    case h_7 => rfl
    all_goals exact absurd hc (by decide)
  have htyped (t : PasswordResetToken) :
      (∀ c ∈ password_reset_tokens_table.columns, c.Admits fits (reset_token_row st t c.name)) ↔
        text_fits 64 t.token_hash := by
    rw [hcolumns]
    cases hu : t.used_at <;>
      simp [Column.Admits, column, nullable, stamp, reset_token_row, fits, hu]
  have hkey : (Constraint.primary_key ["id"]).Holds (stored st db)
      password_reset_tokens_table.name := by
    refine primary_key_holds hrows hnodup (by simp [cells, reset_token_row]) fun a ha b hb hab => ?_
    exact db.password_reset_tokens.eq_of_key_eq ha hb (by simpa [cells, reset_token_row] using hab)
  have huser : (Constraint.foreign_key ["user_id"] "users" ["id"] .cascade).Holds (stored st db)
      password_reset_tokens_table.name ↔ _ :=
    reference_holds db.users PasswordResetToken.user_id hrows rfl (fun _ => rfl) fun _ => rfl
  have hindex : Apart ["token_hash"] (db.password_reset_tokens.rows.map (reset_token_row st)) ↔ _ :=
    apart_column Value.text PasswordResetToken.token_hash hnodup (by simp) fun _ => rfl
  rw [held_iff hrows hbare, hrules, hindexes]
  simp only [htyped, List.forall_mem_cons, List.not_mem_nil, false_implies, implies_true, and_true,
    foreign_key, primary_key, hkey, huser, hindex, forall_true_left]

theorem sessions_hold : Held fits (stored st db) sessions_table ↔
    (∀ s ∈ db.sessions.rows, text_fits 64 s.token_hash) ∧
      (∀ s ∈ db.sessions.rows, db.users.find s.user_id ≠ none) ∧
      ∀ a ∈ db.sessions.rows, ∀ b ∈ db.sessions.rows, a.token_hash = b.token_hash → a = b := by
  have hnodup := db.sessions.rows_nodup
  have hrows : stored st db sessions_table.name = db.sessions.rows.map (session_row st) := rfl
  have hcolumns : sessions_table.columns =
      [column "id" .uuid, column "user_id" .uuid, column "token_hash" (.string 64),
        column "expires_at" .datetime, stamp "created_at"] := rfl
  have hrules : sessions_table.rules =
      [foreign_key "fk_sessions_user_id_users" "user_id" "users",
        primary_key "pk_sessions" ["id"]] := rfl
  have hindexes : sessions_table.indexes = [⟨"ix_sessions_token_hash", ["token_hash"], true⟩] := rfl
  have hbare (s : models.Session) (c : String) (hc : c ∉ sessions_table.column_names) :
      session_row st s c = none := by
    unfold session_row
    split
    case h_6 => rfl
    all_goals exact absurd hc (by decide)
  have htyped (s : models.Session) :
      (∀ c ∈ sessions_table.columns, c.Admits fits (session_row st s c.name)) ↔
        text_fits 64 s.token_hash := by
    rw [hcolumns]
    simp [Column.Admits, column, stamp, session_row, fits]
  have hkey : (Constraint.primary_key ["id"]).Holds (stored st db) sessions_table.name := by
    refine primary_key_holds hrows hnodup (by simp [cells, session_row]) fun a ha b hb hab => ?_
    exact db.sessions.eq_of_key_eq ha hb (by simpa [cells, session_row] using hab)
  have huser : (Constraint.foreign_key ["user_id"] "users" ["id"] .cascade).Holds (stored st db)
      sessions_table.name ↔ _ :=
    reference_holds db.users models.Session.user_id hrows rfl (fun _ => rfl) fun _ => rfl
  have hindex : Apart ["token_hash"] (db.sessions.rows.map (session_row st)) ↔ _ :=
    apart_column Value.text models.Session.token_hash hnodup (by simp) fun _ => rfl
  rw [held_iff hrows hbare, hrules, hindexes]
  simp only [htyped, List.forall_mem_cons, List.not_mem_nil, false_implies, implies_true, and_true,
    foreign_key, primary_key, hkey, huser, hindex, forall_true_left]

theorem lists_hold : Held fits (stored st db) lists_table ↔
    (∀ l ∈ db.lists.rows, text_fits 256 l.name) ∧
      ∀ l ∈ db.lists.rows, db.users.find l.owner_id ≠ none := by
  have hnodup := db.lists.rows_nodup
  have hrows : stored st db lists_table.name = db.lists.rows.map list_row := rfl
  have hcolumns : lists_table.columns =
      [column "id" .uuid, column "owner_id" .uuid, column "name" (.string 256), stamp "created_at",
        stamp "updated_at"] := rfl
  have hrules : lists_table.rules =
      [foreign_key "fk_lists_owner_id_users" "owner_id" "users",
        primary_key "pk_lists" ["id"]] := rfl
  have hbare (l : ListRow) (c : String) (hc : c ∉ lists_table.column_names) :
      list_row l c = none := by
    unfold list_row
    split
    case h_6 => rfl
    all_goals exact absurd hc (by decide)
  have htyped (l : ListRow) : (∀ c ∈ lists_table.columns, c.Admits fits (list_row l c.name)) ↔
      text_fits 256 l.name := by
    rw [hcolumns]
    simp [Column.Admits, column, stamp, list_row, fits]
  have hkey : (Constraint.primary_key ["id"]).Holds (stored st db) lists_table.name := by
    refine primary_key_holds hrows hnodup (by simp [cells, list_row]) fun a ha b hb hab => ?_
    exact db.lists.eq_of_key_eq ha hb (by simpa [cells, list_row] using hab)
  have howner : (Constraint.foreign_key ["owner_id"] "users" ["id"] .cascade).Holds (stored st db)
      lists_table.name ↔ _ :=
    reference_holds db.users ListRow.owner_id hrows rfl (fun _ => rfl) fun _ => rfl
  rw [held_iff hrows hbare, hrules, show lists_table.indexes = [] from rfl]
  simp only [htyped, List.forall_mem_cons, List.not_mem_nil, false_implies, implies_true, and_true,
    foreign_key, primary_key, hkey, howner]

theorem items_hold : Held fits (stored st db) items_table ↔
    (∀ i ∈ db.items.rows, text_storable i.content ∧ integer_fits i.order) ∧
      ∀ i ∈ db.items.rows, db.lists.find i.list_id ≠ none := by
  have hnodup := db.items.rows_nodup
  have hrows : stored st db items_table.name = db.items.rows.map item_row := rfl
  have hcolumns : items_table.columns =
      [column "id" .uuid, column "list_id" .uuid, column "content" .text,
        ⟨"completed", .boolean, false, some .no⟩, column "order" .integer, stamp "created_at",
        stamp "updated_at"] := rfl
  have hrules : items_table.rules =
      [foreign_key "fk_items_list_id_lists" "list_id" "lists", primary_key "pk_items" ["id"]] := rfl
  have hbare (i : Item) (c : String) (hc : c ∉ items_table.column_names) : item_row i c = none := by
    unfold item_row
    split
    case h_8 => rfl
    all_goals exact absurd hc (by decide)
  have htyped (i : Item) : (∀ c ∈ items_table.columns, c.Admits fits (item_row i c.name)) ↔
      text_storable i.content ∧ integer_fits i.order := by
    rw [hcolumns]
    simp [Column.Admits, column, stamp, item_row, fits]
  have hkey : (Constraint.primary_key ["id"]).Holds (stored st db) items_table.name := by
    refine primary_key_holds hrows hnodup (by simp [cells, item_row]) fun a ha b hb hab => ?_
    exact db.items.eq_of_key_eq ha hb (by simpa [cells, item_row] using hab)
  have hlist : (Constraint.foreign_key ["list_id"] "lists" ["id"] .cascade).Holds (stored st db)
      items_table.name ↔ _ :=
    reference_holds db.lists Item.list_id hrows rfl (fun _ => rfl) fun _ => rfl
  rw [held_iff hrows hbare, hrules, show items_table.indexes = [] from rfl]
  simp only [htyped, List.forall_mem_cons, List.not_mem_nil, false_implies, implies_true, and_true,
    foreign_key, primary_key, hkey, hlist]

theorem passes_of_share (s : Share) : role_in.Passes (share_row s) ↔ role_valid s.role := by
  have heval : role_in.eval (share_row s) =
      some (decide (Value.text s.role ∈ [Value.text "editor", Value.text "viewer"])) := rfl
  simp only [Condition.Passes, heval, role_valid, List.mem_cons, List.not_mem_nil, or_false,
    Value.text.injEq, ne_eq, Option.some.injEq, decide_eq_false_iff_not, not_not]

theorem shares_hold : Held fits (stored st db) shares_table ↔
    (∀ s ∈ db.shares.rows, db.lists.find s.list_id ≠ none) ∧
      (∀ s ∈ db.shares.rows, db.users.find s.user_id ≠ none) ∧
      ∀ s ∈ db.shares.rows, role_valid s.role := by
  have hnodup := db.shares.rows_nodup
  have hrows : stored st db shares_table.name = db.shares.rows.map share_row := rfl
  have hcolumns : shares_table.columns =
      [column "list_id" .uuid, column "user_id" .uuid, column "role" (.string 16),
        stamp "granted_at"] := rfl
  have hrules : shares_table.rules =
      [foreign_key "fk_shares_list_id_lists" "list_id" "lists",
        foreign_key "fk_shares_user_id_users" "user_id" "users",
        check_constraint "ck_shares_role_valid" role_in,
        primary_key "pk_shares" ["list_id", "user_id"]] := rfl
  have hbare (s : Share) (c : String) (hc : c ∉ shares_table.column_names) :
      share_row s c = none := by
    unfold share_row
    split
    case h_5 => rfl
    all_goals exact absurd hc (by decide)
  have htyped (s : Share) : (∀ c ∈ shares_table.columns, c.Admits fits (share_row s c.name)) ↔
      text_fits 16 s.role := by
    rw [hcolumns]
    simp [Column.Admits, column, stamp, share_row, fits]
  have hkey : (Constraint.primary_key ["list_id", "user_id"]).Holds (stored st db)
      shares_table.name := by
    refine primary_key_holds hrows hnodup (by simp [cells, share_row]) fun a ha b hb hab => ?_
    exact db.shares.eq_of_key_eq ha hb (by simpa [cells, share_row, Share.key] using hab)
  have hlist : (Constraint.foreign_key ["list_id"] "lists" ["id"] .cascade).Holds (stored st db)
      shares_table.name ↔ _ :=
    reference_holds db.lists Share.list_id hrows rfl (fun _ => rfl) fun _ => rfl
  have huser : (Constraint.foreign_key ["user_id"] "users" ["id"] .cascade).Holds (stored st db)
      shares_table.name ↔ _ :=
    reference_holds db.users Share.user_id hrows rfl (fun _ => rfl) fun _ => rfl
  have hcheck : (Constraint.check role_in).Holds (stored st db) shares_table.name ↔
      ∀ s ∈ db.shares.rows, role_valid s.role := by
    simp only [Constraint.Holds, hrows, List.forall_mem_map, passes_of_share]
  -- The two roles are short enough for the column.
  have hfits : (∀ s ∈ db.shares.rows, role_valid s.role) →
      ∀ s ∈ db.shares.rows, text_fits 16 s.role := by
    intro h s hs
    rcases h s hs with hr | hr <;> rw [hr] <;> decide
  rw [held_iff hrows hbare, hrules, show shares_table.indexes = [] from rfl]
  simp only [htyped, List.forall_mem_cons, List.not_mem_nil, false_implies, implies_true, and_true,
    foreign_key, check_constraint, primary_key, hkey, hlist, huser, hcheck]
  exact ⟨fun h => h.2, fun h => ⟨hfits h.2.2, h⟩⟩

/-! ## All constraints -/

theorem conforms_iff :
    Conforms fits ⟨schema_at head, stored st db⟩ ↔ Valid db ∧ RowsFit db := by
  have hmetadata : Conforms fits ⟨schema_at head, stored st db⟩ ↔
      Conforms fits ⟨base_metadata, stored st db⟩ :=
    ⟨conforms_of_alike the_migrations_build_the_metadata,
      conforms_of_alike the_migrations_build_the_metadata.symm⟩
  have htables : Conforms fits ⟨base_metadata, stored st db⟩ ↔
      ∀ t ∈ all_tables, Held fits (stored st db) t := by
    refine ⟨fun h => h.held, fun h => ⟨h, fun n hn => ?_⟩⟩
    have hnames : n ∉ all_tables.map Relation.name := (Table.find_eq_none_iff _ _).mp hn
    change stored st db n = []
    unfold stored
    split
    case h_7 => rfl
    all_goals exact absurd hnames (by decide)
  rw [hmetadata, htables]
  simp only [all_tables, List.forall_mem_cons, List.not_mem_nil, false_implies, implies_true,
    and_true, users_hold, reset_tokens_hold, sessions_hold, lists_hold, items_hold, shares_hold]
  constructor
  · rintro ⟨⟨husers, hsub, hauth, hemail⟩, ⟨hthash, htuser, htunique⟩, ⟨hshash, hsuser, hsunique⟩,
      ⟨hlname, howner⟩, ⟨hifits, hilist⟩, hslist, hshuser, hrole⟩
    exact ⟨⟨hemail, hsub, hauth, hsunique, hsuser, htunique, htuser, howner, hilist, hslist,
      hshuser, hrole⟩, ⟨fun u hu => (husers u hu).1, fun u hu => (husers u hu).2, hshash, hthash,
      hlname, hifits⟩⟩
  · rintro ⟨hv, hf⟩
    exact ⟨⟨fun u hu => ⟨hf.users u hu, hf.password_hash u hu⟩, hv.unique_google_sub,
      hv.auth_method, hv.unique_email⟩, ⟨hf.reset_tokens, hv.reset_user, hv.unique_reset_hash⟩,
      ⟨hf.sessions, hv.session_user, hv.unique_session_hash⟩, ⟨hf.lists, hv.list_owner⟩,
      ⟨hf.items, hv.item_list⟩, hv.share_list, hv.share_user, hv.share_role⟩

/-- There is one schema at the head. -/
theorem schema_of_head {s : Store} (h : Sound s) (version : s.version = head) :
    s.db.schema = schema_at head := by
  have hschema := h.schema
  rw [version] at hschema
  exact List.mem_singleton.mp hschema

/-- However a database came to the head, its schema accepts the rows of the application exactly
when the constraints hold, as the statements check them, and the values fit. -/
theorem the_schema_is_what_the_statements_check (s : Store) (life : Life s)
    (version : s.version = head) (st : Stamps) (db : DB) :
    Conforms fits ⟨s.db.schema, stored st db⟩ ↔ Valid db ∧ RowsFit db := by
  rw [schema_of_head (sound_of_life life) version]
  exact conforms_iff st db

end

/-- A database that is set up and has no rows yet. -/
theorem set_up : ∃ s : Store, Life s ∧ s.version = head ∧ s.db.rows = fun _ => [] := by
  obtain ⟨s, hok, hdone⟩ := command_ok 0 sound_fresh (.upgrade .add_lists_items_shares) trivial
    fun h => (List.not_mem_nil h.2.choose_spec.1).elim
  refine ⟨s, .tail .refl (.command 0 _ hok), hdone.goal, ?_⟩
  rw [hdone.rows]
  exact clear_of_empty fun _ _ => rfl

/-- Ann, and a list that somebody shares with her. -/
def shared_with_ann (owner_id : UUID) : DB :=
  let changes : List Change :=
    [.insert_user ⟨1, "ann@example.com", "Ann", some "$secret", none⟩,
      .insert_list ⟨7, owner_id, "shopping", 0, 0⟩, .insert_share ⟨7, 1, "viewer", 0⟩]
  applyAll changes .empty

def at_midnight : Stamps := ⟨fun _ => 0, fun _ => 0, fun _ => 0, fun _ => 0⟩

theorem the_owner_has_an_account :
    ∃ s : Store, s.version = head ∧
      Conforms fits ⟨s.db.schema, stored at_midnight (shared_with_ann 1)⟩ ∧
      ¬ Conforms fits ⟨s.db.schema, stored at_midnight (shared_with_ann 2)⟩ := by
  obtain ⟨s, life, version, -⟩ := set_up
  have hiff := the_schema_is_what_the_statements_check s life version at_midnight
  refine ⟨s, version, (hiff _).mpr ⟨?_, ?_⟩, fun h => ?_⟩
  · constructor <;> decide
  · constructor <;> decide
  · exact absurd ((hiff _).mp h).1.list_owner (by decide)

end shared_todos.stored_rows
