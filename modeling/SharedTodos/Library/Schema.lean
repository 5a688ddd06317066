-- Relational schemas and the rows under them. A schema has tables with typed columns,
-- constraints and indexes, in which nothing refers to what is not there; rows conform to it
-- when every column, constraint and index holds for them.
import SharedTodos.Library.Table
import Mathlib.Data.List.Pairwise
import Mathlib.Logic.Function.Basic

open keyed_table

namespace relational_schema

/-! ## Tables -/

structure Column (τ δ : Type) where
  name : String
  type : τ
  nullable : Bool
  server_default : Option δ
deriving DecidableEq

/-- The condition of a check constraint. -/
inductive Condition (ν : Type) where
  | is_not_null (column : String)
  | is_in (column : String) (values : List ν)
  | either (a b : Condition ν)
deriving DecidableEq

inductive OnDelete where
  | no_action
  | cascade
deriving DecidableEq

inductive Constraint (ν : Type) where
  | primary_key (columns : List String)
  | unique (columns : List String)
  | foreign_key (columns : List String) (table : String) (keys : List String) (ondelete : OnDelete)
  | check (condition : Condition ν)
deriving DecidableEq

/-- A constraint with its name. -/
structure Rule (ν : Type) where
  name : String
  body : Constraint ν
deriving DecidableEq

structure Index where
  name : String
  columns : List String
  unique : Bool
deriving DecidableEq

structure Relation (τ ν δ : Type) where
  name : String
  columns : List (Column τ δ)
  rules : List (Rule ν)
  indexes : List Index
deriving DecidableEq

variable {τ ν δ : Type} [DecidableEq ν]

def Condition.columns : Condition ν → List String
  | .is_not_null c => [c]
  | .is_in c _ => [c]
  | .either a b => a.columns ++ b.columns

def Constraint.columns : Constraint ν → List String
  | .primary_key cs => cs
  | .unique cs => cs
  | .foreign_key cs _ _ _ => cs
  | .check c => c.columns

namespace Relation

def column_names (t : Relation τ ν δ) : List String := t.columns.map Column.name

/-- What takes a name that no other table or index may have: the table, its indexes, and
the indexes that its keys come with. -/
def relation_names (t : Relation τ ν δ) : List String :=
  t.name :: t.indexes.map Index.name ++ t.rules.filterMap fun k =>
    match k.body with
    | .primary_key _ | .unique _ => some k.name
    | _ => none

/-- The columns of every constraint and index are columns of the table. -/
def Scoped (t : Relation τ ν δ) : Prop :=
  (∀ k ∈ t.rules, ∀ c ∈ k.body.columns, c ∈ t.column_names) ∧
    ∀ i ∈ t.indexes, ∀ c ∈ i.columns, c ∈ t.column_names

instance (t : Relation τ ν δ) : Decidable t.Scoped := inferInstanceAs (Decidable (_ ∧ _))

/-- A key of the table, which a foreign key may refer to. -/
def Determined (t : Relation τ ν δ) (keys : List String) : Prop :=
  (∃ k ∈ t.rules, k.body = .primary_key keys ∨ k.body = .unique keys) ∨
    ∃ i ∈ t.indexes, i.unique = true ∧ i.columns = keys

instance (t : Relation τ ν δ) (keys : List String) : Decidable (t.Determined keys) :=
  inferInstanceAs (Decidable (_ ∨ _))

end Relation

/-- The constraint refers to a key of a table of the list, if it refers to one. -/
def Constraint.Aims (tables : List (Relation τ ν δ)) : Constraint ν → Prop
  | .foreign_key cs table keys _ =>
    cs.length = keys.length ∧ ∃ u ∈ tables, u.name = table ∧ u.Determined keys
  | _ => True

instance (tables : List (Relation τ ν δ)) : ∀ k : Constraint ν, Decidable (k.Aims tables)
  | .foreign_key .. => inferInstanceAs (Decidable (_ ∧ _))
  | .primary_key _ | .unique _ | .check _ => isTrue trivial

/-- Nothing in the tables refers to what is not there. -/
def Closed (tables : List (Relation τ ν δ)) : Prop :=
  ∀ t ∈ tables, t.Scoped ∧ ∀ k ∈ t.rules, k.body.Aims tables

instance (tables : List (Relation τ ν δ)) : Decidable (Closed tables) :=
  inferInstanceAs (Decidable (∀ _ ∈ _, _ ∧ _))

/-- Tables of different names, with nothing that refers to what is not there. -/
structure Schema (τ ν δ : Type) where
  tables : Table (Relation.name : Relation τ ν δ → String)
  closed : Closed tables.rows

def Schema.empty : Schema τ ν δ := ⟨.empty, fun _ h => nomatch h⟩

/-! ## Rows -/

/-- The cells of a row. A cell with nothing in it is `NULL`. -/
abbrev Row (ν : Type) := String → Option ν

/-- The rows of each table. -/
abbrev Contents (ν : Type) := String → List (Row ν)

/-- A condition is true, false or, where it depends on a `NULL`, unknown. -/
def Condition.eval (r : Row ν) : Condition ν → Option Bool
  | .is_not_null c => some (r c).isSome
  | .is_in c vs => (r c).map fun v => decide (v ∈ vs)
  | .either a b =>
    match a.eval r, b.eval r with
    | some true, _ => some true
    | _, some true => some true
    | some false, some false => some false
    | _, _ => none

/-- A check refuses the rows for which its condition is false. -/
def Condition.Passes (r : Row ν) (c : Condition ν) : Prop := c.eval r ≠ some false

instance (r : Row ν) (c : Condition ν) : Decidable (c.Passes r) :=
  inferInstanceAs (Decidable (_ ≠ _))

/-- The cells of a row in some columns. -/
def cells (cs : List String) (r : Row ν) : List (Option ν) := cs.map r

/-- No two rows have the same cells, where none of these is `NULL`. -/
def Apart (cs : List String) (rows : List (Row ν)) : Prop :=
  rows.Pairwise fun a b => cells cs a = cells cs b → none ∈ cells cs a

instance (cs : List String) (rows : List (Row ν)) : Decidable (Apart cs rows) :=
  inferInstanceAs (Decidable (List.Pairwise _ _))

/-- The column may have this cell. -/
def Column.Admits (fits : τ → ν → Bool) (c : Column τ δ) : Option ν → Prop
  | none => c.nullable = true
  | some v => fits c.type v = true

instance (fits : τ → ν → Bool) (c : Column τ δ) : ∀ v : Option ν, Decidable (c.Admits fits v)
  | none => inferInstanceAs (Decidable (_ = true))
  | some _ => inferInstanceAs (Decidable (_ = true))

/-- The constraint holds for the rows of its table. -/
def Constraint.Holds (rows : Contents ν) (table : String) : Constraint ν → Prop
  | .primary_key cs => (∀ r ∈ rows table, none ∉ cells cs r) ∧ Apart cs (rows table)
  | .unique cs => Apart cs (rows table)
  | .foreign_key cs referred keys _ =>
    ∀ r ∈ rows table, none ∈ cells cs r ∨ ∃ s ∈ rows referred, cells keys s = cells cs r
  | .check c => ∀ r ∈ rows table, c.Passes r

instance (rows : Contents ν) (table : String) : ∀ k : Constraint ν, Decidable (k.Holds rows table)
  | .primary_key _ => inferInstanceAs (Decidable (_ ∧ _))
  | .unique _ => inferInstanceAs (Decidable (Apart _ _))
  | .foreign_key .. => inferInstanceAs (Decidable (∀ _ ∈ _, _))
  | .check _ => inferInstanceAs (Decidable (∀ _ ∈ _, _))

/-- The rows of a table keep to what the schema says of it. -/
structure Held (fits : τ → ν → Bool) (rows : Contents ν) (t : Relation τ ν δ) : Prop where
  typed : ∀ r ∈ rows t.name, ∀ c ∈ t.columns, c.Admits fits (r c.name)
  bare : ∀ r ∈ rows t.name, ∀ c, c ∉ t.column_names → r c = none
  ruled : ∀ k ∈ t.rules, k.body.Holds rows t.name
  indexed : ∀ i ∈ t.indexes, i.unique = true → Apart i.columns (rows t.name)

structure Database (τ ν δ : Type) where
  schema : Schema τ ν δ
  rows : Contents ν

/-- The rows keep to the schema, and there are rows of its tables only. -/
structure Conforms (fits : τ → ν → Bool) (db : Database τ ν δ) : Prop where
  held : ∀ t ∈ db.schema.tables.rows, Held fits db.rows t
  nothing_else : ∀ n, db.schema.tables.find n = none → db.rows n = []

section
omit [DecidableEq ν]

/-! ## Rows that keep their cells -/

/-- The rows `b` are the rows `a`, each with the same cells in the columns `cs`. -/
def SameCells (cs : List String) (a b : List (Row ν)) : Prop :=
  ∃ f : Row ν → Row ν, b = a.map f ∧ ∀ r, ∀ c ∈ cs, f r c = r c

theorem SameCells.refl (cs : List String) (a : List (Row ν)) : SameCells cs a a :=
  ⟨id, by simp, fun _ _ _ => rfl⟩

theorem SameCells.before {cs : List String} {a b : List (Row ν)} (h : SameCells cs a b) {r : Row ν}
    (hr : r ∈ b) : ∃ x ∈ a, ∀ c ∈ cs, r c = x c := by
  obtain ⟨f, rfl, hf⟩ := h
  obtain ⟨x, hx, rfl⟩ := List.mem_map.mp hr
  exact ⟨x, hx, hf x⟩

theorem SameCells.after {cs : List String} {a b : List (Row ν)} (h : SameCells cs a b) {x : Row ν}
    (hx : x ∈ a) : ∃ r ∈ b, ∀ c ∈ cs, r c = x c := by
  obtain ⟨f, rfl, hf⟩ := h
  exact ⟨f x, List.mem_map_of_mem hx, hf x⟩

theorem cells_congr {cs : List String} {a b : Row ν} (h : ∀ c ∈ cs, a c = b c) :
    cells cs a = cells cs b :=
  List.map_congr_left h

/-- A cell that is set outside of the columns. -/
theorem same_cells_of_set {cs : List String} {column : String} (h : column ∉ cs) (v : Option ν)
    (a : List (Row ν)) : SameCells cs a (a.map fun r => Function.update r column v) := by
  refine ⟨_, rfl, fun r c hc => Function.update_of_ne ?_ _ _⟩
  rintro rfl
  exact h hc

theorem apart_of_same_cells {cs : List String} {a b : List (Row ν)} (h : SameCells cs a b)
    (ha : Apart cs a) : Apart cs b := by
  obtain ⟨f, rfl, hf⟩ := h
  refine List.pairwise_map.mpr (ha.imp fun {x y} hxy heq => ?_)
  rw [cells_congr (hf x), cells_congr (hf y)] at heq
  rw [cells_congr (hf x)]
  exact hxy heq

end

theorem eval_congr {c : Condition ν} {a b : Row ν} (h : ∀ x ∈ c.columns, a x = b x) :
    c.eval a = c.eval b := by
  induction c with
  | is_not_null x => simp only [Condition.eval, h x (List.mem_singleton_self x)]
  | is_in x vs => simp only [Condition.eval, h x (List.mem_singleton_self x)]
  | either p q hp hq =>
    simp only [Condition.eval]
    rw [hp fun x hx => h x (List.mem_append_left _ hx),
      hq fun x hx => h x (List.mem_append_right _ hx)]

/-- A constraint holds as before where its columns, and the key it refers to, keep their
cells. -/
theorem holds_of_same_cells {rows rows' : Contents ν} {table : String} {k : Constraint ν}
    (own : SameCells k.columns (rows table) (rows' table))
    (referred : ∀ cs name keys d, k = .foreign_key cs name keys d →
      SameCells keys (rows name) (rows' name))
    (h : k.Holds rows table) : k.Holds rows' table := by
  cases k with
  | primary_key cs =>
    refine ⟨fun r hr => ?_, apart_of_same_cells own h.2⟩
    obtain ⟨x, hx, hsame⟩ := own.before hr
    have hcells : cells cs r = cells cs x := cells_congr hsame
    rw [hcells]
    exact h.1 x hx
  | unique cs => exact apart_of_same_cells own h
  | foreign_key cs name keys d =>
    intro r hr
    obtain ⟨x, hx, hsame⟩ := own.before hr
    have hcells : cells cs r = cells cs x := cells_congr hsame
    rw [hcells]
    refine (h x hx).imp_right ?_
    rintro ⟨y, hy, heq⟩
    obtain ⟨z, hz, hkeys⟩ := (referred cs name keys d rfl).after hy
    exact ⟨z, hz, (cells_congr hkeys).trans heq⟩
  | check c =>
    intro r hr
    obtain ⟨x, hx, hsame⟩ := own.before hr
    have heval : c.eval r = c.eval x := eval_congr hsame
    unfold Condition.Passes
    rw [heval]
    exact h x hx

omit [DecidableEq ν] in
/-- The rows of different values, no two of them with the same cells but for `NULL`. -/
theorem apart_map_iff {ρ : Type} {l : List ρ} (hl : l.Nodup) (row : ρ → Row ν) (cs : List String) :
    Apart cs (l.map row) ↔ ∀ a ∈ l, ∀ b ∈ l, cells cs (row a) = cells cs (row b) →
      none ∈ cells cs (row a) ∨ a = b := by
  unfold Apart
  rw [List.pairwise_map]
  constructor
  · intro h a ha b hb hcells
    by_contra hne
    rw [not_or] at hne
    have hsymm : Std.Symm fun a b => cells cs (row a) = cells cs (row b) →
        none ∈ cells cs (row a) := by
      refine ⟨fun x y hxy heq => ?_⟩
      rw [heq]
      exact hxy heq.symm
    exact hne.1 (h.forall ha hb hne.2 hcells)
  · intro h
    exact hl.pairwise_of_forall_ne fun a ha b hb hne hcells => (h a ha b hb hcells).resolve_right hne

/-! ## The order of columns -/

/-- The same columns, constraints and indexes, in any order. -/
structure Relation.Alike (t u : Relation τ ν δ) : Prop where
  name : t.name = u.name
  columns : ∀ c, c ∈ t.columns ↔ c ∈ u.columns
  rules : ∀ k, k ∈ t.rules ↔ k ∈ u.rules
  indexes : ∀ i, i ∈ t.indexes ↔ i ∈ u.indexes

/-- The same tables, in any order. -/
structure Schema.Alike (s r : Schema τ ν δ) : Prop where
  left : ∀ t ∈ s.tables.rows, ∃ u ∈ r.tables.rows, t.Alike u
  right : ∀ u ∈ r.tables.rows, ∃ t ∈ s.tables.rows, u.Alike t

section
omit [DecidableEq ν]

theorem Relation.Alike.symm {t u : Relation τ ν δ} (h : t.Alike u) : u.Alike t :=
  ⟨h.name.symm, fun c => (h.columns c).symm, fun k => (h.rules k).symm, fun i => (h.indexes i).symm⟩

theorem Relation.Alike.trans {t u v : Relation τ ν δ} (h : t.Alike u) (h' : u.Alike v) :
    t.Alike v :=
  ⟨h.name.trans h'.name, fun c => (h.columns c).trans (h'.columns c),
    fun k => (h.rules k).trans (h'.rules k), fun i => (h.indexes i).trans (h'.indexes i)⟩

theorem Schema.Alike.refl (s : Schema τ ν δ) : s.Alike s :=
  ⟨fun t ht => ⟨t, ht, rfl, fun _ => .rfl, fun _ => .rfl, fun _ => .rfl⟩,
    fun t ht => ⟨t, ht, rfl, fun _ => .rfl, fun _ => .rfl, fun _ => .rfl⟩⟩

theorem Schema.Alike.symm {s r : Schema τ ν δ} (h : s.Alike r) : r.Alike s := ⟨h.right, h.left⟩

theorem Schema.Alike.trans {s r q : Schema τ ν δ} (h : s.Alike r) (h' : r.Alike q) : s.Alike q where
  left := by
    intro t ht
    obtain ⟨u, hu, htu⟩ := h.left t ht
    obtain ⟨v, hv, huv⟩ := h'.left u hu
    exact ⟨v, hv, htu.trans huv⟩
  right := by
    intro v hv
    obtain ⟨u, hu, hvu⟩ := h'.right v hv
    obtain ⟨t, ht, hut⟩ := h.right u hu
    exact ⟨t, ht, hvu.trans hut⟩

end

/-- Two lists with the same members. -/
def SameMembers {α : Type} [DecidableEq α] (a b : List α) : Bool :=
  a.all (fun x => decide (x ∈ b)) && b.all fun x => decide (x ∈ a)

omit [DecidableEq ν] in
theorem same_members_iff {α : Type} [DecidableEq α] {a b : List α} :
    SameMembers a b = true ↔ ∀ x, x ∈ a ↔ x ∈ b := by
  simp only [SameMembers, Bool.and_eq_true, List.all_eq_true, decide_eq_true_eq]
  exact ⟨fun h x => ⟨h.1 x, h.2 x⟩, fun h => ⟨fun x => (h x).mp, fun x => (h x).mpr⟩⟩

instance [DecidableEq τ] [DecidableEq δ] (t u : Relation τ ν δ) : Decidable (t.Alike u) :=
  decidable_of_iff
    (t.name = u.name ∧ SameMembers t.columns u.columns = true ∧ SameMembers t.rules u.rules = true ∧
      SameMembers t.indexes u.indexes = true) (by
    simp only [same_members_iff]
    exact ⟨fun h => ⟨h.1, h.2.1, h.2.2.1, h.2.2.2⟩,
      fun h => ⟨h.name, h.columns, h.rules, h.indexes⟩⟩)

instance [DecidableEq τ] [DecidableEq δ] (s r : Schema τ ν δ) : Decidable (s.Alike r) :=
  decidable_of_iff
    ((∀ t ∈ s.tables.rows, ∃ u ∈ r.tables.rows, t.Alike u) ∧
      ∀ u ∈ r.tables.rows, ∃ t ∈ s.tables.rows, u.Alike t)
    ⟨fun h => ⟨h.1, h.2⟩, fun h => ⟨h.left, h.right⟩⟩

theorem held_of_alike {fits : τ → ν → Bool} {rows : Contents ν} {t u : Relation τ ν δ}
    (h : t.Alike u) (hheld : Held fits rows t) : Held fits rows u where
  typed := by
    rw [← h.name]
    exact fun r hr c hc => hheld.typed r hr c ((h.columns c).mpr hc)
  bare := by
    rw [← h.name]
    refine fun r hr c hc => hheld.bare r hr c fun hin => hc ?_
    obtain ⟨x, hx, rfl⟩ := List.mem_map.mp hin
    exact List.mem_map_of_mem ((h.columns x).mp hx)
  ruled := by
    rw [← h.name]
    exact fun k hk => hheld.ruled k ((h.rules k).mpr hk)
  indexed := by
    rw [← h.name]
    exact fun i hi => hheld.indexed i ((h.indexes i).mpr hi)

/-- Rows keep to a schema in whatever order it is written. -/
theorem conforms_of_alike {fits : τ → ν → Bool} {s r : Schema τ ν δ} {rows : Contents ν}
    (h : s.Alike r) (hs : Conforms fits ⟨s, rows⟩) : Conforms fits ⟨r, rows⟩ where
  held := by
    intro u hu
    obtain ⟨t, ht, hut⟩ := h.right u hu
    exact held_of_alike hut.symm (hs.held t ht)
  nothing_else := by
    intro n hn
    refine hs.nothing_else n ?_
    have hr : n ∉ r.tables.rows.map Relation.name := (Table.find_eq_none_iff _ _).mp hn
    rw [Table.find_eq_none_iff]
    intro hin
    obtain ⟨t, ht, rfl⟩ := List.mem_map.mp hin
    obtain ⟨u, hu, htu⟩ := h.left t ht
    exact hr (htu.name ▸ List.mem_map_of_mem hu)

end relational_schema
