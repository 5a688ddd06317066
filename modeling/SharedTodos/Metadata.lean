-- The tables as the classes of `app/models` declare them, named by the convention of
-- `app/db/base.py`. They are the tables that the migrations build, and the rows of the
-- application keep to them exactly when its constraints hold and its values fit.
import SharedTodos.MigrationRuns
import SharedTodos.Constraints

open relational_schema keyed_table
open transactions (Time)
open shared_todos.models shared_todos.migrations

namespace shared_todos.metadata

/-! ## The classes -/

/-- What `mapped_column` says of a column. A column is nullable where its annotation says so. -/
structure MappedColumn where
  name : String
  type : ColumnType
  nullable : Bool := false
  primary_key : Bool := false
  unique : Bool := false
  index : Bool := false
  /-- The table of `sa.ForeignKey("table.id", ondelete="CASCADE")`. -/
  foreign_key : Option String := none
  server_default : Option ServerDefault := none

/-! The naming convention. A check constraint is named by `ck`. -/

def ix (table column : String) : String := "ix_" ++ table ++ "_" ++ column

def uq (table column : String) : String := "uq_" ++ table ++ "_" ++ column

def fk (table column referred : String) : String :=
  "fk_" ++ table ++ "_" ++ column ++ "_" ++ referred

def pk (table : String) : String := "pk_" ++ table

/-- A check constraint of `__table_args__`: its name and its condition. -/
abbrev CheckConstraint := String × Condition Value

/-- The table of a class: a unique column has an index of its own if it asks for one, and a
constraint if it does not. -/
def declared (table : String) (columns : List MappedColumn) (args : List CheckConstraint) :
    Relation where
  name := table
  columns := columns.map fun c => ⟨c.name, c.type, c.nullable, c.server_default⟩
  rules :=
    (columns.filterMap fun c => c.foreign_key.map fun t =>
        foreign_key (fk table c.name t) c.name t) ++
      (columns.filter fun c => c.unique && !c.index).map
        (fun c => unique_constraint (uq table c.name) c.name) ++
      args.map (fun a => check_constraint (ck table a.1) a.2) ++
      [migrations.primary_key (pk table)
        ((columns.filter MappedColumn.primary_key).map MappedColumn.name)]
  indexes := (columns.filter MappedColumn.index).map fun c => ⟨ix table c.name, [c.name], c.unique⟩

/-- `id: Mapped[UUID] = mapped_column(primary_key=True, default=uuid4)` -/
def id_column : MappedColumn := { name := "id", type := .uuid, primary_key := true }

/-- `Mapped[UUID] = mapped_column(sa.ForeignKey("table.id", ondelete="CASCADE"))` -/
def reference (name table : String) : MappedColumn :=
  { name, type := .uuid, foreign_key := some table }

/-- `Mapped[datetime] = mapped_column(server_default=sa.func.now())` -/
def now_column (name : String) : MappedColumn :=
  { name, type := .datetime, server_default := some .now }

/-- `token_hash: Mapped[str] = mapped_column(sa.String(64), unique=True, index=True)` -/
def token_hash_column : MappedColumn :=
  { name := "token_hash", type := .string 64, unique := true, index := true }

def users_table : Relation :=
  declared "users"
    [id_column, { name := "email", type := .string 254, unique := true, index := true },
      { name := "display_name", type := .string 128 },
      { name := "password_hash", type := .text, nullable := true },
      { name := "google_sub", type := .string 256, unique := true, nullable := true },
      now_column "created_at", now_column "updated_at"]
    [("ck_users_has_auth_method", has_auth_method)]

def password_reset_tokens_table : Relation :=
  declared "password_reset_tokens"
    [id_column, reference "user_id" "users", token_hash_column,
      { name := "expires_at", type := .datetime },
      { name := "used_at", type := .datetime, nullable := true }, now_column "created_at"]
    []

def sessions_table : Relation :=
  declared "sessions"
    [id_column, reference "user_id" "users", token_hash_column,
      { name := "expires_at", type := .datetime }, now_column "created_at"]
    []

def lists_table : Relation :=
  declared "lists"
    [id_column, reference "owner_id" "users", { name := "name", type := .string 256 },
      now_column "created_at", now_column "updated_at"]
    []

def items_table : Relation :=
  declared "items"
    [id_column, reference "list_id" "lists", { name := "content", type := .text },
      { name := "completed", type := .boolean, server_default := some .no },
      { name := "order", type := .integer }, now_column "created_at", now_column "updated_at"]
    []

def shares_table : Relation :=
  declared "shares"
    [{ name := "list_id", type := .uuid, foreign_key := some "lists", primary_key := true },
      { name := "user_id", type := .uuid, foreign_key := some "users", primary_key := true },
      { name := "role", type := .string 16 }, now_column "granted_at"]
    [("role_valid", role_in)]

def all_tables : List Relation :=
  [users_table, password_reset_tokens_table, sessions_table, lists_table, items_table, shares_table]

theorem all_tables_nodup : (all_tables.map Relation.name).Nodup := by decide

theorem all_tables_closed : Closed all_tables := by decide +kernel

/-- `Base.metadata` -/
def base_metadata : Schema := ⟨⟨all_tables, all_tables_nodup⟩, all_tables_closed⟩

/-- The revision that `head` stands for. -/
def head : Option Revision := some .add_lists_items_shares

/-- The migrations build the tables of the classes, with the names of the convention. -/
theorem the_migrations_build_the_metadata : (schema_at head).Alike base_metadata := by
  decide +kernel

end shared_todos.metadata
