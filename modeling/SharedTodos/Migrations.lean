-- The migrations of the backend (`alembic/versions`) and the commands that run them: a
-- command is one transaction that walks along the revisions, up or down.
import SharedTodos.Library.SchemaChanges
import SharedTodos.Models

open relational_schema
open transactions (Time)
open shared_todos.models

namespace shared_todos.migrations

/-! ## Types and values -/

inductive ColumnType where
  | uuid
  | string (length : Nat)
  | text
  /-- `sa.DateTime(timezone=True)` -/
  | datetime
  | boolean
  | integer
deriving DecidableEq

inductive Value where
  | uuid (u : UUID)
  | text (s : String)
  | time (t : Time)
  | boolean (b : Bool)
  | integer (n : Int)
deriving DecidableEq

inductive ServerDefault where
  /-- `sa.text("now()")` -/
  | now
  /-- `"false"` -/
  | no
deriving DecidableEq

def fits : ColumnType → Value → Bool
  | .uuid, .uuid _ => true
  | .string n, .text s => decide (text_fits n s)
  | .text, .text s => decide (text_storable s)
  | .datetime, .time _ => true
  | .boolean, .boolean _ => true
  | .integer, .integer n => decide (integer_fits n)
  | _, _ => false

/-- A server default, in a transaction that began at `now`. -/
def evaluate (now : Time) : ServerDefault → Value
  | .now => .time now
  | .no => .boolean false

abbrev Column := relational_schema.Column ColumnType ServerDefault

abbrev Rule := relational_schema.Rule Value

abbrev Relation := relational_schema.Relation ColumnType Value ServerDefault

abbrev Op := relational_schema.Op ColumnType Value ServerDefault

abbrev Schema := relational_schema.Schema ColumnType Value ServerDefault

abbrev Database := relational_schema.Database ColumnType Value ServerDefault

/-- `sa.Column(name, type, nullable=False)` -/
def column (name : String) (type : ColumnType) : Column := ⟨name, type, false, none⟩

/-- `sa.Column(name, type, nullable=True)` -/
def nullable (name : String) (type : ColumnType) : Column := ⟨name, type, true, none⟩

/-- A column `sa.DateTime(timezone=True)` with the server default `now()`. -/
def stamp (name : String) : Column := ⟨name, .datetime, false, some .now⟩

def primary_key (name : String) (columns : List String) : Rule := ⟨name, .primary_key columns⟩

def unique_constraint (name column : String) : Rule := ⟨name, .unique [column]⟩

/-- `sa.ForeignKeyConstraint([column], [table.id], name=name, ondelete="CASCADE")` -/
def foreign_key (name column table : String) : Rule :=
  ⟨name, .foreign_key [column] table ["id"] .cascade⟩

def check_constraint (name : String) (condition : Condition Value) : Rule :=
  ⟨name, .check condition⟩

/-- The name of a check constraint by the naming convention of `app/db/base.py`. It is put
before every name that does not come from `op.f`. -/
def ck (table constraint_name : String) : String := "ck_" ++ table ++ "_" ++ constraint_name

/-! ## The revisions -/

/-- `password_hash IS NOT NULL OR google_sub IS NOT NULL` -/
def has_auth_method : Condition Value :=
  .either (.is_not_null "password_hash") (.is_not_null "google_sub")

/-- `role IN ('editor', 'viewer')` -/
def role_in : Condition Value := .is_in "role" [.text "editor", .text "viewer"]

inductive Revision where
  /-- `e741951e9b5f` -/
  | initial_auth_schema
  /-- `aaad963c469e` -/
  | rename_sessions_token
  /-- `380d8a29fa13` -/
  | add_user_check_constraint
  /-- `4df1779548df` -/
  | add_lists_items_shares
deriving DecidableEq

structure Migration where
  revision : Revision
  /-- There is none below the first revision. -/
  down_revision : Option Revision
  upgrade : List Op
  downgrade : List Op

namespace initial_auth_schema

def upgrade : List Op :=
  [.create_table "users"
      [column "id" .uuid, column "email" (.string 254), column "display_name" (.string 128),
        nullable "password_hash" .text, nullable "google_sub" (.string 256), stamp "created_at",
        stamp "updated_at"]
      [primary_key "pk_users" ["id"], unique_constraint "uq_users_google_sub" "google_sub"],
    .create_index "ix_users_email" "users" ["email"] true,
    .create_table "password_reset_tokens"
      [column "id" .uuid, column "user_id" .uuid, column "token_hash" (.string 64),
        column "expires_at" .datetime, nullable "used_at" .datetime, stamp "created_at"]
      [foreign_key "fk_password_reset_tokens_user_id_users" "user_id" "users",
        primary_key "pk_password_reset_tokens" ["id"]],
    .create_index "ix_password_reset_tokens_token_hash" "password_reset_tokens" ["token_hash"] true,
    .create_table "sessions"
      [column "id" .uuid, column "user_id" .uuid, column "token" (.string 128),
        column "expires_at" .datetime, stamp "created_at"]
      [foreign_key "fk_sessions_user_id_users" "user_id" "users", primary_key "pk_sessions" ["id"]],
    .create_index "ix_sessions_token" "sessions" ["token"] true]

def downgrade : List Op :=
  [.drop_index "ix_sessions_token" "sessions",
    .drop_table "sessions",
    .drop_index "ix_password_reset_tokens_token_hash" "password_reset_tokens",
    .drop_table "password_reset_tokens",
    .drop_index "ix_users_email" "users",
    .drop_table "users"]

end initial_auth_schema

namespace rename_sessions_token

/-- The old tokens have no hash: all sessions end. -/
def upgrade : List Op :=
  [.delete_from "sessions",
    .add_column "sessions" (column "token_hash" (.string 64)),
    .drop_index "ix_sessions_token" "sessions",
    .create_index "ix_sessions_token_hash" "sessions" ["token_hash"] true,
    .drop_column "sessions" "token"]

def downgrade : List Op :=
  [.delete_from "sessions",
    .add_column "sessions" (column "token" (.string 128)),
    .drop_index "ix_sessions_token_hash" "sessions",
    .create_index "ix_sessions_token" "sessions" ["token"] true,
    .drop_column "sessions" "token_hash"]

end rename_sessions_token

namespace add_user_check_constraint

def upgrade : List Op :=
  [.create_check_constraint (ck "users" "ck_users_has_auth_method") "users" has_auth_method]

def downgrade : List Op := [.drop_constraint (ck "users" "ck_users_has_auth_method") "users"]

end add_user_check_constraint

namespace add_lists_items_shares

def upgrade : List Op :=
  [.create_table "lists"
      [column "id" .uuid, column "owner_id" .uuid, column "name" (.string 256), stamp "created_at",
        stamp "updated_at"]
      [foreign_key "fk_lists_owner_id_users" "owner_id" "users", primary_key "pk_lists" ["id"]],
    .create_table "items"
      [column "id" .uuid, column "list_id" .uuid, column "content" .text,
        ⟨"completed", .boolean, false, some .no⟩, column "order" .integer, stamp "created_at",
        stamp "updated_at"]
      [foreign_key "fk_items_list_id_lists" "list_id" "lists", primary_key "pk_items" ["id"]],
    .create_table "shares"
      [column "list_id" .uuid, column "user_id" .uuid, column "role" (.string 16),
        stamp "granted_at"]
      [check_constraint "ck_shares_role_valid" role_in,
        foreign_key "fk_shares_list_id_lists" "list_id" "lists",
        foreign_key "fk_shares_user_id_users" "user_id" "users",
        primary_key "pk_shares" ["list_id", "user_id"]]]

def downgrade : List Op := [.drop_table "shares", .drop_table "items", .drop_table "lists"]

end add_lists_items_shares

def versions : Revision → Migration
  | .initial_auth_schema =>
    ⟨.initial_auth_schema, none, initial_auth_schema.upgrade, initial_auth_schema.downgrade⟩
  | .rename_sessions_token =>
    ⟨.rename_sessions_token, some .initial_auth_schema, rename_sessions_token.upgrade,
      rename_sessions_token.downgrade⟩
  | .add_user_check_constraint =>
    ⟨.add_user_check_constraint, some .rename_sessions_token, add_user_check_constraint.upgrade,
      add_user_check_constraint.downgrade⟩
  | .add_lists_items_shares =>
    ⟨.add_lists_items_shares, some .add_user_check_constraint, add_lists_items_shares.upgrade,
      add_lists_items_shares.downgrade⟩

/-- A revision and those below it, the lowest first. There are four at most. -/
def lineage : Nat → Option Revision → List Revision
  | _, none => []
  | 0, some _ => []
  | n + 1, some r => lineage n (versions r).down_revision ++ [r]

def ancestry (v : Option Revision) : List Revision := lineage 4 v

/-! ## The commands -/

/-- A database with the revision that its table `alembic_version` tells. -/
structure Store where
  version : Option Revision
  db : Database

/-- An empty database. -/
def Store.fresh : Store := ⟨none, .empty, fun _ => []⟩

section
variable (now : Time)

def upgrade_one (s : Store) (r : Revision) : Except Error Store := do
  let db ← run_all fits (evaluate now) (versions r).upgrade s.db
  return ⟨some r, db⟩

def downgrade_one (s : Store) (r : Revision) : Except Error Store := do
  let db ← run_all fits (evaluate now) (versions r).downgrade s.db
  return ⟨(versions r).down_revision, db⟩

/-- `alembic upgrade` and `alembic downgrade`. The lowest target is `base`. -/
inductive Command where
  | upgrade (target : Revision)
  | downgrade (target : Option Revision)

/-- Alembic goes down to a revision that the database has, and up to any. -/
def Command.ValidTarget (version : Option Revision) : Command → Prop
  | .upgrade _ => True
  | .downgrade target => ∀ r ∈ target, r ∈ ancestry version

instance (version : Option Revision) : ∀ c : Command, Decidable (c.ValidTarget version)
  | .upgrade _ => isTrue trivial
  | .downgrade target => inferInstanceAs (Decidable (∀ r ∈ target, r ∈ ancestry version))

/-- The revisions that a command applies, or takes back, in its order. -/
def Command.path (version : Option Revision) : Command → List Revision
  | .upgrade target => (ancestry (some target)).filter fun r => decide (r ∉ ancestry version)
  | .downgrade target => ((ancestry version).filter fun r => decide (r ∉ ancestry target)).reverse

/-- What fails: the command, before its transaction begins, or a statement of it. -/
inductive CommandError where
  | not_a_downgrade_target
  | refused (e : Error)
deriving DecidableEq

/-- The transaction of a command (`context.begin_transaction` in `env.py`): what it makes
of the database if nothing in it is refused. -/
def transaction (c : Command) (s : Store) : Except Error Store :=
  match c with
  | .upgrade _ => (c.path s.version).foldlM (upgrade_one now) s
  | .downgrade _ => (c.path s.version).foldlM (downgrade_one now) s

def command (c : Command) (s : Store) : Except CommandError Store :=
  if c.ValidTarget s.version then (transaction now c s).mapError .refused
  else .error .not_a_downgrade_target

end

/-- The command with its commit or its rollback. -/
def Store.after (now : Time) (c : Command) (s : Store) : Store := (command now c s).toOption.getD s

end shared_todos.migrations
