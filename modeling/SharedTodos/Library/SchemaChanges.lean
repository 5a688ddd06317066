-- The changes of a schema: what each of them makes of the tables and of their rows, when it
-- is refused, and that what is accepted keeps every constraint.
import SharedTodos.Library.Schema

open keyed_table

namespace relational_schema

variable {τ ν δ : Type} [DecidableEq ν]

/-! ## Changes -/

inductive Error where
  | undefined_table
  | duplicate_table
  | undefined_column
  | duplicate_column
  | undefined_object
  | duplicate_object
  /-- A foreign key that refers to no key. -/
  | invalid_foreign_key
  /-- Something else refers to what is dropped or emptied. -/
  | dependent_objects_still_exist
  | not_null_violation
  | unique_violation
  | check_violation
  /-- A default that is no value of its column. -/
  | datatype_mismatch
deriving DecidableEq

inductive Op (τ ν δ : Type) where
  | create_table (name : String) (columns : List (Column τ δ)) (rules : List (Rule ν))
  | drop_table (name : String)
  | create_index (name table : String) (columns : List String) (unique : Bool)
  | drop_index (name table : String)
  | add_column (table : String) (column : Column τ δ)
  | drop_column (table column : String)
  | create_check_constraint (name table : String) (condition : Condition ν)
  | drop_constraint (name table : String)
  /-- `DELETE FROM table`, of a table that no foreign key refers to. -/
  | delete_from (table : String)

namespace Relation

/-- The table without the constraints and indexes that use a column, and without it. -/
def without_column (t : Relation τ ν δ) (column : String) : Relation τ ν δ :=
  { t with
    columns := t.columns.filter fun c => decide (c.name ≠ column)
    rules := t.rules.filter fun k => decide (column ∉ k.body.columns)
    indexes := t.indexes.filter fun i => decide (column ∉ i.columns) }

end Relation

/-- The constraint is a foreign key to the table of this name. -/
def Constraint.RefersTo (name : String) : Constraint ν → Prop
  | .foreign_key _ table _ _ => table = name
  | _ => False

instance (name : String) : ∀ k : Constraint ν, Decidable (k.RefersTo name)
  | .foreign_key .. => inferInstanceAs (Decidable (_ = _))
  | .primary_key _ | .unique _ | .check _ => isFalse not_false

namespace Schema

variable (s : Schema τ ν δ)

def find (n : String) : Option (Relation τ ν δ) := s.tables.find n

def relation_names : List String := s.tables.rows.flatMap Relation.relation_names

/-- No foreign key refers to the table. -/
def Unreferred (n : String) : Prop := ∀ t ∈ s.tables.rows, ∀ k ∈ t.rules, ¬ k.body.RefersTo n

instance (n : String) : Decidable (s.Unreferred n) := inferInstanceAs (Decidable (∀ _ ∈ _, _))

end Schema

abbrev Tables (τ ν δ : Type) := Table (Relation.name : Relation τ ν δ → String)

/-- The tables as a schema, where they are closed. -/
def close (e : Error) (tables : Tables τ ν δ) : Except Error (Schema τ ν δ) :=
  if h : Closed tables.rows then .ok ⟨tables, h⟩ else .error e

/-- The tables with another table under the name of `u`. -/
def replace (tables : Tables τ ν δ) (u : Relation τ ν δ) : Tables τ ν δ :=
  tables.update u.name (fun t => { u with name := t.name }) fun _ => rfl

/-- What a change makes of the schema. -/
def alter (s : Schema τ ν δ) : Op τ ν δ → Except Error (Schema τ ν δ)
  | .create_table n columns rules =>
    let t : Relation τ ν δ := ⟨n, columns, rules, []⟩
    if ¬ t.relation_names.Nodup ∨ ∃ x ∈ t.relation_names, x ∈ s.relation_names then
      .error .duplicate_table
    else if ¬ t.column_names.Nodup then .error .duplicate_column
    else if ¬ (rules.map Rule.name).Nodup then .error .duplicate_object
    else if ¬ t.Scoped then .error .undefined_column
    else close .invalid_foreign_key (s.tables.insert t)
  | .drop_table n =>
    match s.find n with
    | none => .error .undefined_table
    | some _ =>
      close .dependent_objects_still_exist (s.tables.deleteWhere fun t => decide (t.name = n))
  | .create_index n table columns unique =>
    match s.find table with
    | none => .error .undefined_table
    | some t =>
      if n ∈ s.relation_names then .error .duplicate_table
      else if ¬ ∀ c ∈ columns, c ∈ t.column_names then .error .undefined_column
      else close .undefined_column
        (replace s.tables { t with indexes := t.indexes ++ [⟨n, columns, unique⟩] })
  | .drop_index n table =>
    match s.find table with
    | none => .error .undefined_table
    | some t =>
      if n ∉ t.indexes.map Index.name then .error .undefined_object
      else close .dependent_objects_still_exist
        (replace s.tables { t with indexes := t.indexes.filter fun i => decide (i.name ≠ n) })
  | .add_column table column =>
    match s.find table with
    | none => .error .undefined_table
    | some t =>
      if column.name ∈ t.column_names then .error .duplicate_column
      else close .undefined_column (replace s.tables { t with columns := t.columns ++ [column] })
  | .drop_column table column =>
    match s.find table with
    | none => .error .undefined_table
    | some t =>
      if column ∉ t.column_names then .error .undefined_column
      else close .dependent_objects_still_exist (replace s.tables (t.without_column column))
  | .create_check_constraint n table condition =>
    match s.find table with
    | none => .error .undefined_table
    | some t =>
      if n ∈ t.rules.map Rule.name then .error .duplicate_object
      else if ¬ ∀ c ∈ condition.columns, c ∈ t.column_names then .error .undefined_column
      else close .undefined_column
        (replace s.tables { t with rules := t.rules ++ [⟨n, .check condition⟩] })
  | .drop_constraint n table =>
    match s.find table with
    | none => .error .undefined_table
    | some t =>
      if n ∉ t.rules.map Rule.name then .error .undefined_object
      else close .dependent_objects_still_exist
        (replace s.tables { t with rules := t.rules.filter fun k => decide (k.name ≠ n) })
  | .delete_from table =>
    match s.find table with
    | none => .error .undefined_table
    | some _ => if s.Unreferred table then .ok s else .error .dependent_objects_still_exist

section
variable (fits : τ → ν → Bool) (evaluate : δ → ν)

/-- What a change makes of the rows, where the schema has accepted it. -/
def rewrite (rows : Contents ν) : Op τ ν δ → Except Error (Contents ν)
  | .create_table n _ _ | .drop_table n | .delete_from n => .ok (Function.update rows n [])
  | .create_index _ table columns unique =>
    if unique = true ∧ ¬ Apart columns (rows table) then .error .unique_violation else .ok rows
  | .add_column table column =>
    let v := column.server_default.map evaluate
    if (rows table).isEmpty ∨ column.Admits fits v then
      .ok (Function.update rows table ((rows table).map fun r => Function.update r column.name v))
    else if v = none then .error .not_null_violation
    else .error .datatype_mismatch
  | .drop_column table column =>
    .ok (Function.update rows table ((rows table).map fun r => Function.update r column none))
  | .create_check_constraint _ table condition =>
    if ∀ r ∈ rows table, condition.Passes r then .ok rows else .error .check_violation
  | .drop_index _ _ | .drop_constraint _ _ => .ok rows

def run (op : Op τ ν δ) (db : Database τ ν δ) : Except Error (Database τ ν δ) := do
  let schema ← alter db.schema op
  let rows ← rewrite fits evaluate db.rows op
  return ⟨schema, rows⟩

/-- The changes one after another. The first that is refused ends them. -/
def run_all : List (Op τ ν δ) → Database τ ν δ → Except Error (Database τ ν δ)
  | [], db => .ok db
  | op :: ops, db => do run_all ops (← run fits evaluate op db)

/-- What the changes make of the schema. -/
def alter_all : List (Op τ ν δ) → Schema τ ν δ → Except Error (Schema τ ν δ)
  | [], s => .ok s
  | op :: ops, s => do alter_all ops (← alter s op)

/-- What they make of the rows. -/
def rewrite_all : List (Op τ ν δ) → Contents ν → Except Error (Contents ν)
  | [], rows => .ok rows
  | op :: ops, rows => do rewrite_all ops (← rewrite fits evaluate rows op)

/-- Where the schema accepts all changes, only the rows can refuse them. -/
theorem run_all_of_alter_all {ops : List (Op τ ν δ)} {db : Database τ ν δ} {s : Schema τ ν δ}
    (h : alter_all ops db.schema = .ok s) :
    run_all fits evaluate ops db =
      (rewrite_all fits evaluate ops db.rows).map fun rows => ⟨s, rows⟩ := by
  induction ops generalizing db with
  | nil =>
    cases h
    rfl
  | cons op ops ih =>
    simp only [alter_all] at h
    simp only [run_all, rewrite_all, run]
    cases hs : alter db.schema op with
    | error e =>
      rw [hs] at h
      cases h
    | ok mid =>
      rw [hs] at h
      cases rewrite fits evaluate db.rows op with
      | error e => rfl
      | ok rows =>
        change run_all fits evaluate ops ⟨mid, rows⟩ = _
        exact ih h

/-! ## Tables without rows -/

section
variable {rows : Contents ν} {table : String} (h : rows table = [])
include h

theorem rewrite_create_index (n : String) (columns : List String) (unique : Bool) :
    rewrite fits evaluate rows (.create_index n table columns unique : Op τ ν δ) = .ok rows := by
  have hapart : Apart columns (rows table) := by
    rw [h]
    exact List.Pairwise.nil
  simp only [rewrite, hapart, not_true_eq_false, and_false, if_false]

theorem rewrite_add_column (column : Column τ δ) :
    rewrite fits evaluate rows (.add_column table column : Op τ ν δ) = .ok rows := by
  simp only [rewrite, h, List.isEmpty_nil, true_or, if_true, List.map_nil]
  rw [← h, Function.update_eq_self]

theorem rewrite_drop_column (column : String) :
    rewrite fits evaluate rows (.drop_column table column : Op τ ν δ) = .ok rows := by
  simp only [rewrite, h, List.map_nil]
  rw [← h, Function.update_eq_self]

end

/-- One change more. -/
theorem rewrite_all_of_ok {op : Op τ ν δ} {rows rows' : Contents ν}
    (h : rewrite fits evaluate rows op = .ok rows') (ops : List (Op τ ν δ)) :
    rewrite_all fits evaluate (op :: ops) rows = rewrite_all fits evaluate ops rows' := by
  simp only [rewrite_all]
  rw [h]
  rfl

end

/-- A constraint holds as before where its table, or another one that it does not refer to,
is emptied. -/
theorem holds_of_emptied {rows : Contents ν} {table n : String} {k : Constraint ν}
    (hk : ¬ k.RefersTo n) (h : k.Holds rows table) :
    k.Holds (Function.update rows n []) table := by
  by_cases hn : table = n
  · subst hn
    cases k <;> simp [Constraint.Holds, Apart]
  · refine holds_of_same_cells ?_ ?_ h
    · rw [Function.update_of_ne hn]
      exact .refl _ _
    · rintro cs name keys d rfl
      rw [Function.update_of_ne hk]
      exact .refl _ _

/-! ## Tables that are replaced -/

omit [DecidableEq ν] in
theorem referred_of_aims {tables : List (Relation τ ν δ)} {k : Constraint ν} {n : String}
    (haims : k.Aims tables) (hrefers : k.RefersTo n) : ∃ u ∈ tables, u.name = n := by
  cases k with
  | foreign_key cs name keys d =>
    obtain ⟨-, u, hu, hname, -⟩ := haims
    exact ⟨u, hu, hname.trans hrefers⟩
  | _ => exact hrefers.elim

theorem close_ok {e : Error} {tables : Tables τ ν δ} {s : Schema τ ν δ}
    (h : close e tables = .ok s) : s.tables = tables := by
  unfold close at h
  split at h
  · cases h
    rfl
  · cases h

section
variable {tables : Tables τ ν δ} {t u x : Relation τ ν δ}

omit [DecidableEq ν] in
theorem mem_replace (ht : tables.find u.name = some t) :
    x ∈ (replace tables u).rows ↔ x = u ∨ x ∈ tables.rows ∧ x.name ≠ u.name := by
  unfold replace
  rw [Table.mem_update]
  constructor
  · rintro ⟨r, hr, rfl⟩
    split
    · rename_i hn
      left
      cases u
      cases hn
      rfl
    · rename_i hn
      exact Or.inr ⟨hr, hn⟩
  · rintro (rfl | ⟨hx, hn⟩)
    · refine ⟨t, Table.mem_of_find ht, ?_⟩
      rw [if_pos (Table.key_of_find ht)]
      cases x
      cases ht' : t.name
      have hname := Table.key_of_find ht
      dsimp only at hname ⊢
      rw [← ht', hname]
    · exact ⟨x, hx, by rw [if_neg hn]⟩

omit [DecidableEq ν] in
theorem find_replace_eq_none (n : String) :
    (replace tables u).find n = none ↔ tables.find n = none :=
  Table.find_update_eq_none ..

end

omit [DecidableEq ν] in
theorem keys_in_columns {t : Relation τ ν δ} (h : t.Scoped) {keys : List String}
    (hkeys : t.Determined keys) : ∀ c ∈ keys, c ∈ t.column_names := by
  rcases hkeys with ⟨k, hk, hbody⟩ | ⟨i, hi, -, rfl⟩
  · have hk := h.1 k hk
    rcases hbody with hbody | hbody <;> rw [hbody] at hk <;> exact hk
  · exact h.2 i hi

omit [DecidableEq ν] in
/-- The key of a foreign key is in the columns of the table that it refers to. -/
theorem Schema.key_in_table (s : Schema τ ν δ) {x w : Relation τ ν δ} (hx : x ∈ s.tables.rows)
    {k : Rule ν} (hk : k ∈ x.rules) {cs keys : List String} {name : String} {d : OnDelete}
    (hbody : k.body = .foreign_key cs name keys d) (hw : s.find name = some w) :
    ∀ c ∈ keys, c ∈ w.column_names := by
  have haims := (s.closed x hx).2 k hk
  rw [hbody] at haims
  obtain ⟨-, w', hw', rfl, hkeys⟩ := haims
  obtain rfl : w' = w := by
    have hfound := Table.find_of_mem hw'
    rw [show s.tables.find w'.name = some w from hw] at hfound
    exact (Option.some.inj hfound).symm
  exact keys_in_columns (s.closed w' hw').1 hkeys

section
variable {fits : τ → ν → Bool} {rows rows' : Contents ν} {t : Relation τ ν δ}

theorem held_of_rows (h : Held fits rows t) (hrows : rows' t.name = rows t.name)
    (hrules : ∀ k ∈ t.rules, k.body.Holds rows' t.name) : Held fits rows' t where
  typed := by
    rw [hrows]
    exact h.typed
  bare := by
    rw [hrows]
    exact h.bare
  ruled := hrules
  indexed := by
    rw [hrows]
    exact h.indexed

theorem held_of_no_rows (hrows : rows t.name = []) : Held fits rows t where
  typed := by
    rw [hrows]
    intro r hr
    cases hr
  bare := by
    rw [hrows]
    intro r hr
    cases hr
  ruled := by
    intro k _
    cases k.body <;> simp [Constraint.Holds, hrows, Apart]
  indexed := by
    rw [hrows]
    exact fun _ _ _ => List.Pairwise.nil

end

section
variable {fits : τ → ν → Bool} {evaluate : δ → ν} {db : Database τ ν δ} {s : Schema τ ν δ}
  {t u : Relation τ ν δ} {rows' : Contents ν}

/-- A table under the name of another, with rows that keep the cells in the columns which
both have, and what is new of it holds. -/
theorem conforms_of_replace (h : Conforms fits db) (ht : db.schema.find u.name = some t)
    (hs : s.tables = replace db.schema.tables u) (rest : ∀ n, n ≠ u.name → rows' n = db.rows n)
    (same : ∀ cs : List String, (∀ c ∈ cs, c ∈ t.column_names ∧ c ∈ u.column_names) →
      SameCells cs (db.rows u.name) (rows' u.name))
    (typed : ∀ r ∈ rows' u.name, ∀ c ∈ u.columns, c.Admits fits (r c.name))
    (bare : ∀ r ∈ rows' u.name, ∀ c, c ∉ u.column_names → r c = none)
    (rules : ∀ k ∈ u.rules, k ∈ t.rules ∨ k.body.Holds rows' u.name)
    (indexes : ∀ i ∈ u.indexes, i ∈ t.indexes ∨
      (i.unique = true → Apart i.columns (rows' u.name))) :
    Conforms fits ⟨s, rows'⟩ := by
  have hold : t ∈ db.schema.tables.rows := Table.mem_of_find ht
  have hname : t.name = u.name := Table.key_of_find ht
  have hmem : ∀ x, x ∈ s.tables.rows ↔ x = u ∨ x ∈ db.schema.tables.rows ∧ x.name ≠ u.name := by
    intro x
    rw [hs]
    exact mem_replace ht
  have hu : u ∈ s.tables.rows := (hmem u).mpr (Or.inl rfl)
  have hfind : s.find u.name = some u := Table.find_of_mem hu
  -- A foreign key that stands in both schemas sees the same keys in both.
  have referred : ∀ x ∈ db.schema.tables.rows, ∀ k ∈ x.rules, ∀ y ∈ s.tables.rows, k ∈ y.rules →
      ∀ cs name keys d, k.body = .foreign_key cs name keys d →
        SameCells keys (db.rows name) (rows' name) := by
    intro x hx k hk y hy hky cs name keys d hbody
    by_cases hn : name = u.name
    · subst hn
      exact same keys fun c hc =>
        ⟨db.schema.key_in_table hx hk hbody ht c hc, s.key_in_table hy hky hbody hfind c hc⟩
    · rw [rest name hn]
      exact .refl _ _
  refine ⟨fun x hx => ?_, fun n hn => ?_⟩
  · rcases (hmem x).mp hx with rfl | ⟨hx', hn⟩
    · refine ⟨typed, bare, fun k hk => ?_, fun i hi => ?_⟩
      · rcases rules k hk with hk' | hk'
        · have hcolumns : ∀ c ∈ k.body.columns, c ∈ t.column_names ∧ c ∈ x.column_names :=
            fun c hc => ⟨(db.schema.closed t hold).1.1 k hk' c hc, (s.closed x hx).1.1 k hk c hc⟩
          have hbefore := (h.held t hold).ruled k hk'
          rw [hname] at hbefore
          exact holds_of_same_cells (same _ hcolumns) (referred t hold k hk' x hx hk) hbefore
        · exact hk'
      · rcases indexes i hi with hi' | hi'
        · intro hunique
          have hcolumns : ∀ c ∈ i.columns, c ∈ t.column_names ∧ c ∈ x.column_names :=
            fun c hc => ⟨(db.schema.closed t hold).1.2 i hi' c hc, (s.closed x hx).1.2 i hi c hc⟩
          have hbefore := (h.held t hold).indexed i hi' hunique
          rw [hname] at hbefore
          exact apart_of_same_cells (same _ hcolumns) hbefore
        · exact hi'
    · have hrows : rows' x.name = db.rows x.name := rest x.name hn
      have hsame (cs : List String) : SameCells cs (db.rows x.name) (rows' x.name) := by
        rw [hrows]
        exact .refl ..
      exact held_of_rows (h.held x hx') hrows fun k hk =>
        holds_of_same_cells (hsame _) (referred x hx' k hk x hx hk) ((h.held x hx').ruled k hk)
  · have hn' : db.schema.tables.find n = none := by
      rw [hs, find_replace_eq_none] at hn
      exact hn
    have hne : n ≠ u.name := by
      rintro rfl
      rw [show db.schema.tables.find u.name = some t from ht] at hn'
      cases hn'
    exact (rest n hne).trans (h.nothing_else n hn')

/-- A table that is changed while its columns and its rows stay. -/
theorem conforms_of_rules (h : Conforms fits db) (ht : db.schema.find u.name = some t)
    (hs : s.tables = replace db.schema.tables u) (hcolumns : u.columns = t.columns)
    (rules : ∀ k ∈ u.rules, k ∈ t.rules ∨ k.body.Holds db.rows u.name)
    (indexes : ∀ i ∈ u.indexes, i ∈ t.indexes ∨
      (i.unique = true → Apart i.columns (db.rows u.name))) :
    Conforms fits ⟨s, db.rows⟩ := by
  have hheld := h.held t (Table.mem_of_find ht)
  have hname : t.name = u.name := Table.key_of_find ht
  refine conforms_of_replace h ht hs (fun _ _ => rfl) (fun _ _ => .refl _ _) ?_ ?_ rules indexes
  · rw [hcolumns, ← hname]
    exact hheld.typed
  · unfold Relation.column_names
    rw [hcolumns, ← hname]
    exact hheld.bare

/-- Tables that go, with their rows, or come without rows. -/
theorem conforms_of_emptied (h : Conforms fits db) {n : String}
    (stay : ∀ x ∈ s.tables.rows, x ∈ db.schema.tables.rows ∨ x.name = n)
    (unreferred : ∀ x ∈ db.schema.tables.rows, x ∈ s.tables.rows → ∀ k ∈ x.rules,
      ¬ k.body.RefersTo n)
    (gone : ∀ m, s.tables.find m = none → m = n ∨ db.schema.tables.find m = none) :
    Conforms fits ⟨s, Function.update db.rows n []⟩ := by
  refine ⟨fun x hx => ?_, fun m hm => ?_⟩
  · by_cases hn : x.name = n
    · subst hn
      exact held_of_no_rows (Function.update_self ..)
    · have hx' : x ∈ db.schema.tables.rows := (stay x hx).resolve_right hn
      refine held_of_rows (h.held x hx') (Function.update_of_ne hn _ _) fun k hk => ?_
      exact holds_of_emptied (unreferred x hx' hx k hk) ((h.held x hx').ruled k hk)
  · by_cases hn : m = n
    · subst hn
      exact Function.update_self ..
    · exact (Function.update_of_ne hn _ _).trans (h.nothing_else m ((gone m hm).resolve_left hn))

/-! ## The changes keep the constraints -/

theorem create_table_keeps (h : Conforms fits db) {n : String} {columns : List (Column τ δ)}
    {rules : List (Rule ν)} (hs : alter db.schema (.create_table n columns rules) = .ok s) :
    Conforms fits ⟨s, Function.update db.rows n []⟩ := by
  simp only [alter] at hs
  split at hs
  · cases hs
  rename_i hnew
  split at hs
  · cases hs
  split at hs
  · cases hs
  split at hs
  · cases hs
  have htables := close_ok hs
  have hfree : db.schema.tables.find n = none := by
    rw [Table.find_eq_none_iff]
    intro hn
    obtain ⟨x, hx, rfl⟩ := List.mem_map.mp hn
    simp only [not_or, not_exists, not_and] at hnew
    refine hnew.2 x.name (List.mem_cons_self ..) ?_
    exact List.mem_flatMap.mpr ⟨x, hx, List.mem_cons_self ..⟩
  have hmem := Table.mem_insert_of_free (t := db.schema.tables) (r := ⟨n, columns, rules, []⟩) hfree
  refine conforms_of_emptied h (fun x hx => ?_) (fun x hx _ k hk hrefers => ?_) fun m hm => ?_
  · rw [htables] at hx
    rcases (hmem x).mp hx with hx | rfl
    · exact Or.inl hx
    · exact Or.inr rfl
  · obtain ⟨u, hu, rfl⟩ := referred_of_aims ((db.schema.closed x hx).2 k hk) hrefers
    rw [show db.schema.tables.find u.name = some u from Table.find_of_mem hu] at hfree
    cases hfree
  · right
    by_contra hne
    rw [htables] at hm
    exact Table.find_insert_ne_none hne hm

theorem drop_table_keeps (h : Conforms fits db) {n : String}
    (hs : alter db.schema (.drop_table n) = .ok s) :
    Conforms fits ⟨s, Function.update db.rows n []⟩ := by
  simp only [alter] at hs
  split at hs
  · cases hs
  have htables := close_ok hs
  have hmem : ∀ x, x ∈ s.tables.rows ↔ x ∈ db.schema.tables.rows ∧ x.name ≠ n := by
    intro x
    rw [htables, Table.mem_deleteWhere, decide_eq_false_iff_not]
  refine conforms_of_emptied h (fun x hx => Or.inl ((hmem x).mp hx).1)
    (fun x _ hx k hk hrefers => ?_) fun m hm => ?_
  · obtain ⟨u, hu, hname⟩ := referred_of_aims ((s.closed x hx).2 k hk) hrefers
    exact ((hmem u).mp hu).2 hname
  · by_cases hn : m = n
    · exact Or.inl hn
    · right
      rw [htables, Table.find_deleteWhere] at hm
      cases hf : db.schema.tables.find m with
      | none => rfl
      | some x =>
        have hx : x.name = m := Table.key_of_find hf
        rw [hf, Option.filter_some_pos (by simp [hx, hn])] at hm
        cases hm

theorem delete_from_keeps (h : Conforms fits db) {n : String}
    (hs : alter db.schema (.delete_from n) = .ok s) :
    Conforms fits ⟨s, Function.update db.rows n []⟩ := by
  simp only [alter] at hs
  split at hs
  · cases hs
  split at hs
  · rename_i hun
    cases hs
    exact conforms_of_emptied h (fun x hx => Or.inl hx) (fun x hx _ k hk => hun x hx k hk)
      fun m hm => Or.inr hm
  · cases hs

theorem create_index_keeps (h : Conforms fits db) {n table : String} {columns : List String}
    {unique : Bool} (hs : alter db.schema (.create_index n table columns unique) = .ok s)
    (hrows : unique = true → Apart columns (db.rows table)) : Conforms fits ⟨s, db.rows⟩ := by
  simp only [alter] at hs
  split at hs
  · cases hs
  rename_i t ht
  obtain rfl : t.name = table := Table.key_of_find ht
  split at hs
  · cases hs
  split at hs
  · cases hs
  refine conforms_of_rules (u := { t with indexes := t.indexes ++ [⟨n, columns, unique⟩] }) h ht
    (close_ok hs) rfl (fun k hk => Or.inl hk) fun i hi => ?_
  rcases List.mem_append.mp hi with hi | hi
  · exact Or.inl hi
  · obtain rfl := List.mem_singleton.mp hi
    exact Or.inr hrows

theorem drop_index_keeps (h : Conforms fits db) {n table : String}
    (hs : alter db.schema (.drop_index n table) = .ok s) : Conforms fits ⟨s, db.rows⟩ := by
  simp only [alter] at hs
  split at hs
  · cases hs
  rename_i t ht
  obtain rfl : t.name = table := Table.key_of_find ht
  split at hs
  · cases hs
  exact conforms_of_rules
    (u := { t with indexes := t.indexes.filter fun i => decide (i.name ≠ n) }) h ht
    (close_ok hs) rfl (fun k hk => Or.inl hk)
    fun i hi => Or.inl (List.mem_of_mem_filter hi)

theorem create_check_constraint_keeps (h : Conforms fits db) {n table : String}
    {condition : Condition ν}
    (hs : alter db.schema (.create_check_constraint n table condition) = .ok s)
    (hrows : ∀ r ∈ db.rows table, condition.Passes r) : Conforms fits ⟨s, db.rows⟩ := by
  simp only [alter] at hs
  split at hs
  · cases hs
  rename_i t ht
  obtain rfl : t.name = table := Table.key_of_find ht
  split at hs
  · cases hs
  split at hs
  · cases hs
  refine conforms_of_rules (u := { t with rules := t.rules ++ [⟨n, .check condition⟩] }) h ht
    (close_ok hs) rfl (fun k hk => ?_) fun i hi => Or.inl hi
  rcases List.mem_append.mp hk with hk | hk
  · exact Or.inl hk
  · obtain rfl := List.mem_singleton.mp hk
    exact Or.inr hrows

theorem drop_constraint_keeps (h : Conforms fits db) {n table : String}
    (hs : alter db.schema (.drop_constraint n table) = .ok s) : Conforms fits ⟨s, db.rows⟩ := by
  simp only [alter] at hs
  split at hs
  · cases hs
  rename_i t ht
  obtain rfl : t.name = table := Table.key_of_find ht
  split at hs
  · cases hs
  exact conforms_of_rules
    (u := { t with rules := t.rules.filter fun k => decide (k.name ≠ n) }) h ht (close_ok hs) rfl
    (fun k hk => Or.inl (List.mem_of_mem_filter hk)) fun i hi => Or.inl hi

theorem add_column_keeps (h : Conforms fits db) {table : String} {column : Column τ δ}
    (hs : alter db.schema (.add_column table column) = .ok s) {v : Option ν}
    (hrows : db.rows table = [] ∨ column.Admits fits v) :
    Conforms fits ⟨s, Function.update db.rows table
      ((db.rows table).map fun r => Function.update r column.name v)⟩ := by
  simp only [alter] at hs
  split at hs
  · cases hs
  rename_i t ht
  obtain rfl : t.name = table := Table.key_of_find ht
  split at hs
  · cases hs
  rename_i hnew
  have hheld := h.held t (Table.mem_of_find ht)
  refine conforms_of_replace (u := { t with columns := t.columns ++ [column] }) h ht (close_ok hs)
    (fun m hm => Function.update_of_ne hm _ _) (fun cs hcs => ?_) (fun r hr c hc => ?_)
    (fun r hr c hc => ?_) (fun k hk => Or.inl hk) fun i hi => Or.inl hi
  · rw [Function.update_self]
    exact same_cells_of_set (fun hc => hnew (hcs _ hc).1) v _
  · rw [Function.update_self] at hr
    obtain ⟨x, hx, rfl⟩ := List.mem_map.mp hr
    rcases List.mem_append.mp hc with hc | hc
    · rw [Function.update_of_ne]
      · exact hheld.typed x hx c hc
      · intro hname
        exact hnew (hname ▸ List.mem_map_of_mem hc)
    · obtain rfl := List.mem_singleton.mp hc
      rw [Function.update_self]
      refine hrows.resolve_left ?_
      intro hnil
      rw [hnil] at hx
      cases hx
  · rw [Function.update_self] at hr
    obtain ⟨x, hx, rfl⟩ := List.mem_map.mp hr
    have hc' : c ∉ t.column_names ∧ c ≠ column.name := by
      simpa [Relation.column_names] using hc
    rw [Function.update_of_ne hc'.2]
    exact hheld.bare x hx c hc'.1

theorem drop_column_keeps (h : Conforms fits db) {table column : String}
    (hs : alter db.schema (.drop_column table column) = .ok s) :
    Conforms fits ⟨s, Function.update db.rows table
      ((db.rows table).map fun r => Function.update r column none)⟩ := by
  simp only [alter] at hs
  split at hs
  · cases hs
  rename_i t ht
  obtain rfl : t.name = table := Table.key_of_find ht
  split at hs
  · cases hs
  have hheld := h.held t (Table.mem_of_find ht)
  have hcolumns : ∀ c, c ∈ (t.without_column column).column_names ↔
      c ∈ t.column_names ∧ c ≠ column := by
    intro c
    simp only [Relation.column_names, Relation.without_column, List.mem_map, List.mem_filter,
      decide_eq_true_eq]
    constructor
    · rintro ⟨x, ⟨hx, hne⟩, rfl⟩
      exact ⟨⟨x, hx, rfl⟩, hne⟩
    · rintro ⟨⟨x, hx, rfl⟩, hne⟩
      exact ⟨x, ⟨hx, hne⟩, rfl⟩
  refine conforms_of_replace (u := t.without_column column) h ht (close_ok hs)
    (fun m hm => Function.update_of_ne hm _ _) (fun cs hcs => ?_) (fun r hr c hc => ?_)
    (fun r hr c hc => ?_) (fun k hk => Or.inl (List.mem_of_mem_filter hk))
    fun i hi => Or.inl (List.mem_of_mem_filter hi)
  · rw [show (t.without_column column).name = t.name from rfl, Function.update_self]
    exact same_cells_of_set (fun hc => ((hcolumns _).mp (hcs _ hc).2).2 rfl) none _
  · rw [show (t.without_column column).name = t.name from rfl, Function.update_self] at hr
    obtain ⟨x, hx, rfl⟩ := List.mem_map.mp hr
    obtain ⟨hc, hne⟩ := List.mem_filter.mp hc
    rw [Function.update_of_ne (of_decide_eq_true hne)]
    exact hheld.typed x hx c hc
  · rw [show (t.without_column column).name = t.name from rfl, Function.update_self] at hr
    obtain ⟨x, hx, rfl⟩ := List.mem_map.mp hr
    by_cases hne : c = column
    · subst hne
      exact Function.update_self ..
    · rw [Function.update_of_ne hne]
      exact hheld.bare x hx c fun hin => hc ((hcolumns c).mpr ⟨hin, hne⟩)

/-- A change that is accepted keeps every constraint. -/
theorem run_keeps {op : Op τ ν δ} {db' : Database τ ν δ} (h : Conforms fits db)
    (hrun : run fits evaluate op db = .ok db') : Conforms fits db' := by
  unfold run at hrun
  cases hs : alter db.schema op with
  | error e =>
    rw [hs] at hrun
    cases hrun
  | ok s =>
  cases hr : rewrite fits evaluate db.rows op with
  | error e =>
    rw [hs, hr] at hrun
    cases hrun
  | ok rows =>
  obtain rfl : db' = ⟨s, rows⟩ := by
    rw [hs, hr] at hrun
    exact (Except.ok.inj hrun).symm
  cases op with
  | create_table n columns rules =>
    cases hr
    exact create_table_keeps h hs
  | drop_table n =>
    cases hr
    exact drop_table_keeps h hs
  | create_index n table columns unique =>
    simp only [rewrite] at hr
    split at hr
    · cases hr
    · rename_i hapart
      cases hr
      exact create_index_keeps h hs fun hu => by_contra fun hne => hapart ⟨hu, hne⟩
  | drop_index n table =>
    cases hr
    exact drop_index_keeps h hs
  | add_column table column =>
    simp only [rewrite] at hr
    split at hr
    · rename_i hadmits
      cases hr
      exact add_column_keeps h hs (hadmits.imp_left List.isEmpty_iff.mp)
    · split at hr <;> cases hr
  | drop_column table column =>
    cases hr
    exact drop_column_keeps h hs
  | create_check_constraint n table condition =>
    simp only [rewrite] at hr
    split at hr
    · rename_i hpasses
      cases hr
      exact create_check_constraint_keeps h hs hpasses
    · cases hr
  | drop_constraint n table =>
    cases hr
    exact drop_constraint_keeps h hs
  | delete_from table =>
    cases hr
    exact delete_from_keeps h hs

theorem run_all_keeps {ops : List (Op τ ν δ)} {db' : Database τ ν δ} (h : Conforms fits db)
    (hrun : run_all fits evaluate ops db = .ok db') : Conforms fits db' := by
  induction ops generalizing db with
  | nil =>
    cases hrun
    exact h
  | cons op ops ih =>
    simp only [run_all] at hrun
    cases hop : run fits evaluate op db with
    | error e =>
      rw [hop] at hrun
      cases hrun
    | ok mid =>
      rw [hop] at hrun
      exact ih (run_keeps h hop) hrun

end

end relational_schema
