-- Tables with a primary key. A table is a list of rows in which no two rows
-- have the same key; the rows stand in the order of their insertion. Every
-- operation keeps the keys apart, so a lookup by key finds each row.
import Mathlib.Data.List.Nodup
import Mathlib.Data.List.Basic

namespace keyed_table

/-- The rows of a table, no two with the same key. -/
structure Table {ρ κ : Type} (key : ρ → κ) where
  rows : List ρ
  nodup : (rows.map key).Nodup

variable {ρ κ : Type} {key : ρ → κ} [DecidableEq κ]

namespace Table

def empty : Table key := ⟨[], List.nodup_nil⟩

/-- The row with key `k`. -/
def find (t : Table key) (k : κ) : Option ρ := t.rows.find? (fun r => decide (key r = k))

/-- The rows that satisfy `p`. -/
def select (t : Table key) (p : ρ → Bool) : List ρ := t.rows.filter p

theorem find_eq_none_iff (t : Table key) (k : κ) : t.find k = none ↔ k ∉ t.rows.map key := by
  simp [find]

/-- A new row at the end. A row whose key is taken is not inserted. -/
def insert (t : Table key) (r : ρ) : Table key :=
  if h : (t.find (key r)).isNone then
    ⟨t.rows ++ [r], by
      have hr := (find_eq_none_iff t _).mp (by simpa using h)
      rw [List.map_append, List.nodup_append]
      refine ⟨t.nodup, by simp, ?_⟩
      rintro a ha b hb rfl
      simp only [List.map_cons, List.map_nil, List.mem_singleton] at hb
      exact hr (hb ▸ ha)⟩
  else t

/-- The row with key `k`, changed by a function that keeps the key. -/
def update (t : Table key) (k : κ) (f : ρ → ρ) (hf : ∀ r, key (f r) = key r) : Table key :=
  ⟨t.rows.map (fun r => if key r = k then f r else r), by
    have h : t.rows.map (key ∘ fun r => if key r = k then f r else r) = t.rows.map key := by
      apply List.map_congr_left
      intro r _
      simp only [Function.comp_apply]
      split
      · exact hf r
      · rfl
    rw [List.map_map, h]
    exact t.nodup⟩

/-- The table without the rows that satisfy `p`. -/
def deleteWhere (t : Table key) (p : ρ → Bool) : Table key :=
  ⟨t.rows.filter (fun r => !p r), t.nodup.sublist (List.filter_sublist.map _)⟩

/-! ## Rows and lookups -/

theorem key_of_find {t : Table key} {k : κ} {r : ρ} (h : t.find k = some r) : key r = k := by
  simpa using List.find?_some h

theorem mem_of_find {t : Table key} {k : κ} {r : ρ} (h : t.find k = some r) : r ∈ t.rows :=
  List.mem_of_find?_eq_some h

omit [DecidableEq κ] in
/-- Two rows with the same key are the same row. -/
theorem eq_of_key_eq (t : Table key) {a b : ρ} (ha : a ∈ t.rows) (hb : b ∈ t.rows)
    (h : key a = key b) : a = b := by
  have hn := t.nodup
  generalize t.rows = l at ha hb hn
  induction l with
  | nil => cases ha
  | cons x xs ih =>
    simp only [List.map_cons, List.nodup_cons, List.mem_map, not_exists, not_and] at hn
    rcases List.mem_cons.mp ha with rfl | ha' <;> rcases List.mem_cons.mp hb with rfl | hb'
    · rfl
    · exact absurd h.symm (hn.1 b hb')
    · exact absurd h (hn.1 a ha')
    · exact ih ha' hb' hn.2

theorem find_of_mem {t : Table key} {r : ρ} (h : r ∈ t.rows) : t.find (key r) = some r := by
  cases hf : t.find (key r) with
  | none =>
    have hk := (find_eq_none_iff t _).mp hf
    exact absurd (List.mem_map_of_mem h) hk
  | some x => rw [t.eq_of_key_eq (mem_of_find hf) h (key_of_find hf)]

theorem mem_iff_find (t : Table key) (r : ρ) : r ∈ t.rows ↔ t.find (key r) = some r :=
  ⟨find_of_mem, mem_of_find⟩

theorem find_eq_some_iff (t : Table key) (k : κ) (r : ρ) :
    t.find k = some r ↔ r ∈ t.rows ∧ key r = k := by
  constructor
  · intro h
    exact ⟨mem_of_find h, key_of_find h⟩
  · rintro ⟨h, rfl⟩
    exact find_of_mem h

omit [DecidableEq κ] in
@[simp] theorem mem_select (t : Table key) (p : ρ → Bool) (r : ρ) :
    r ∈ t.select p ↔ r ∈ t.rows ∧ p r = true := by
  simp [select]

omit [DecidableEq κ] in
theorem rows_nodup (t : Table key) : t.rows.Nodup := t.nodup.of_map key

omit [DecidableEq κ] in
theorem select_nodup (t : Table key) (p : ρ → Bool) : (t.select p).Nodup :=
  t.rows_nodup.filter p

omit [DecidableEq κ] in
/-- A selection of at most one row: the row itself, or nothing. -/
theorem select_eq_singleton {t : Table key} {p : ρ → Bool} {r : ρ} (hr : r ∈ t.rows)
    (hp : p r = true) (hu : ∀ x ∈ t.rows, p x = true → x = r) : t.select p = [r] := by
  have hmem : ∀ x, x ∈ t.select p ↔ x = r := by
    intro x
    rw [mem_select]
    constructor
    · rintro ⟨h1, h2⟩
      exact hu x h1 h2
    · rintro rfl
      exact ⟨hr, hp⟩
  have hn := t.select_nodup p
  rcases hl : t.select p with _ | ⟨a, _ | ⟨b, rest⟩⟩
  · exact absurd ((hmem r).mpr rfl) (by simp [hl])
  · rw [(hmem a).mp (by simp [hl])]
  · have ha := (hmem a).mp (by simp [hl])
    have hb := (hmem b).mp (by simp [hl])
    rw [hl, ha, hb] at hn
    simp at hn

omit [DecidableEq κ] in
theorem select_eq_nil_iff (t : Table key) (p : ρ → Bool) :
    t.select p = [] ↔ ∀ r ∈ t.rows, p r = false := by
  simp [select, List.filter_eq_nil_iff]

/-- A selection, row by row. -/
theorem flatMap_select (l : List ρ) (p : ρ → Bool) :
    (l.flatMap fun r => if p r then [r] else []) = l.filter p := by
  induction l with
  | nil => rfl
  | cons r l ih =>
    rw [List.flatMap_cons, ih]
    cases h : p r <;> simp [h]

/-- A selection by primary key. -/
theorem select_key (t : Table key) (k : κ) :
    t.select (fun r => decide (key r = k)) = (t.find k).toList := by
  cases hf : t.find k with
  | none =>
    rw [Option.toList_none, select_eq_nil_iff]
    intro r hr
    have hk := (find_eq_none_iff t k).mp hf
    simp only [decide_eq_false_iff_not]
    rintro rfl
    exact hk (List.mem_map_of_mem hr)
  | some r =>
    obtain ⟨hr, hk⟩ := (find_eq_some_iff t k r).mp hf
    apply select_eq_singleton hr (by simpa using hk)
    intro x hx hxk
    exact t.eq_of_key_eq hx hr ((of_decide_eq_true hxk).trans hk.symm)

/-! ## Lookups after a change -/

theorem rows_insert {t : Table key} {r : ρ} (h : t.find (key r) = none) :
    (t.insert r).rows = t.rows ++ [r] := by
  simp [insert, h]

theorem insert_of_taken {t : Table key} {r x : ρ} (h : t.find (key r) = some x) :
    t.insert r = t := by
  simp [insert, h]

theorem find_insert (t : Table key) (r : ρ) (k : κ) :
    (t.insert r).find k = (t.find k).or (if key r = k then some r else none) := by
  cases h : t.find (key r) with
  | none =>
    unfold find
    rw [rows_insert h, List.find?_append]
    simp only [List.find?_cons, List.find?_nil]
    by_cases hk : key r = k <;> simp [hk]
  | some x =>
    rw [insert_of_taken h]
    by_cases hk : key r = k
    · subst hk; simp [h]
    · simp [hk]

/-- The lookup after an insert under a free key. -/
theorem find_insert_of_free {t : Table key} {r : ρ} (h : t.find (key r) = none) (k : κ) :
    (t.insert r).find k = if key r = k then some r else t.find k := by
  rw [find_insert]
  by_cases hk : key r = k
  · subst hk; simp [h]
  · simp [hk]

theorem find_insert_self {t : Table key} {r : ρ} (h : t.find (key r) = none) :
    (t.insert r).find (key r) = some r := by
  rw [find_insert_of_free h, if_pos rfl]

theorem mem_insert_of_free {t : Table key} {r : ρ} (h : t.find (key r) = none) (x : ρ) :
    x ∈ (t.insert r).rows ↔ x ∈ t.rows ∨ x = r := by
  simp [rows_insert h]

theorem mem_insert_of_mem {t : Table key} {r x : ρ} (h : x ∈ t.rows) : x ∈ (t.insert r).rows := by
  cases hf : t.find (key r) with
  | none => exact (mem_insert_of_free hf x).mpr (Or.inl h)
  | some y => rwa [insert_of_taken hf]

theorem mem_of_mem_insert {t : Table key} {r x : ρ} (h : x ∈ (t.insert r).rows) :
    x ∈ t.rows ∨ x = r := by
  cases hf : t.find (key r) with
  | none => exact (mem_insert_of_free hf x).mp h
  | some y =>
    rw [insert_of_taken hf] at h
    exact Or.inl h

omit [DecidableEq κ] in
theorem mem_deleteWhere {t : Table key} {p : ρ → Bool} {x : ρ} :
    x ∈ (t.deleteWhere p).rows ↔ x ∈ t.rows ∧ p x = false := by
  simp [deleteWhere]

theorem mem_update {t : Table key} {k : κ} {f : ρ → ρ} {hf : ∀ r, key (f r) = key r} (x : ρ) :
    x ∈ (t.update k f hf).rows ↔ ∃ r ∈ t.rows, x = if key r = k then f r else r := by
  simp only [update, List.mem_map]
  constructor
  · rintro ⟨r, hr, rfl⟩; exact ⟨r, hr, rfl⟩
  · rintro ⟨r, hr, rfl⟩; exact ⟨r, hr, rfl⟩

theorem find_update (t : Table key) (k : κ) (f : ρ → ρ) (hf : ∀ r, key (f r) = key r) (k' : κ) :
    (t.update k f hf).find k' = if k' = k then (t.find k).map f else t.find k' := by
  have h : ((t.update k f hf).find k') =
      (t.find k').map (fun r => if key r = k then f r else r) := by
    unfold find update
    rw [List.find?_map]
    congr 1
    apply congrArg (fun p => List.find? p t.rows)
    funext r
    simp only [Function.comp_apply]
    by_cases hk : key r = k <;> simp [hk, hf]
  rw [h]
  cases hf' : t.find k' with
  | none =>
    by_cases hk : k' = k
    · subst hk; simp [hf']
    · simp [hk]
  | some r =>
    have hr := key_of_find hf'
    by_cases hk : k' = k
    · subst hk; simp [hf', hr]
    · simp [hk, hr]

/-- The row that was there, changed. -/
theorem find_update_self {t : Table key} {k : κ} {r : ρ} (f : ρ → ρ) (hf : ∀ r, key (f r) = key r)
    (h : t.find k = some r) : (t.update k f hf).find k = some (f r) := by
  rw [find_update, if_pos rfl, h, Option.map_some]

/-- An update keeps every key. -/
@[simp] theorem find_update_eq_none (t : Table key) (k : κ) (f : ρ → ρ)
    (hf : ∀ r, key (f r) = key r) (k' : κ) :
    (t.update k f hf).find k' = none ↔ t.find k' = none := by
  rw [find_update]
  by_cases hk : k' = k
  · subst hk
    simp
  · rw [if_neg hk]

@[simp] theorem isSome_find_update (t : Table key) (k : κ) (f : ρ → ρ)
    (hf : ∀ r, key (f r) = key r) (k' : κ) :
    ((t.update k f hf).find k').isSome = (t.find k').isSome := by
  rw [Bool.eq_iff_iff, Option.isSome_iff_ne_none, Option.isSome_iff_ne_none, ne_eq, ne_eq,
    find_update_eq_none]

/-- An insert keeps the keys that are there. -/
theorem find_insert_ne_none {t : Table key} {r : ρ} {k : κ} (h : t.find k ≠ none) :
    (t.insert r).find k ≠ none := by
  rw [find_insert]
  cases hf : t.find k with
  | none => exact absurd hf h
  | some x => simp

theorem find_deleteWhere (t : Table key) (p : ρ → Bool) (k : κ) :
    (t.deleteWhere p).find k = (t.find k).filter (fun r => !p r) := by
  cases hf : t.find k with
  | none =>
    rw [Option.filter_none, find_eq_none_iff]
    have hk := (find_eq_none_iff t k).mp hf
    intro hmem
    simp only [deleteWhere, List.mem_map, List.mem_filter] at hmem
    obtain ⟨r, ⟨hr, _⟩, rfl⟩ := hmem
    exact hk (List.mem_map_of_mem hr)
  | some r =>
    obtain ⟨hr, hk⟩ := (find_eq_some_iff t k r).mp hf
    cases hp : p r with
    | false =>
      rw [Option.filter_some_pos (by simp [hp]), find_eq_some_iff]
      exact ⟨mem_deleteWhere.mpr ⟨hr, hp⟩, hk⟩
    | true =>
      rw [Option.filter_some_neg (by simp [hp]), find_eq_none_iff]
      intro hmem
      simp only [deleteWhere, List.mem_map, List.mem_filter] at hmem
      obtain ⟨x, ⟨hx, hxp⟩, hxk⟩ := hmem
      rw [t.eq_of_key_eq hx hr (hxk.trans hk.symm), hp] at hxp
      simp at hxp

omit [DecidableEq κ] in
theorem ext_rows {a b : Table key} (h : a.rows = b.rows) : a = b := by
  cases a; cases b; cases h; rfl

omit [DecidableEq κ] in
theorem deleteWhere_congr (t : Table key) {p q : ρ → Bool} (h : ∀ r ∈ t.rows, p r = q r) :
    t.deleteWhere p = t.deleteWhere q := by
  apply ext_rows
  apply List.filter_congr
  intro r hr
  rw [h r hr]

omit [DecidableEq κ] in
theorem deleteWhere_deleteWhere (t : Table key) (p q : ρ → Bool) :
    (t.deleteWhere p).deleteWhere q = t.deleteWhere fun r => p r || q r := by
  apply ext_rows
  simp only [deleteWhere, List.filter_filter]
  apply List.filter_congr
  intro r _
  cases p r <;> cases q r <;> rfl

omit [DecidableEq κ] in
theorem deleteWhere_false (t : Table key) : t.deleteWhere (fun _ => false) = t := by
  apply ext_rows
  simp [deleteWhere]

/-- The deletion of rows one by one, by their keys. -/
theorem foldl_delete (l : List ρ) (t : Table key) :
    l.foldl (fun t r => t.deleteWhere fun x => decide (key x = key r)) t =
      t.deleteWhere fun x => decide (key x ∈ l.map key) := by
  induction l generalizing t with
  | nil => simp [deleteWhere_false]
  | cons r l ih =>
    rw [List.foldl_cons, ih, deleteWhere_deleteWhere]
    apply deleteWhere_congr
    intro x _
    simp [eq_comm]

/-- The deletion of the selected rows one by one, by their keys, is the deletion
of the selection. -/
theorem foldl_delete_select (t : Table key) (p : ρ → Bool) :
    (t.select p).foldl (fun t r => t.deleteWhere fun x => decide (key x = key r)) t =
      t.deleteWhere p := by
  rw [foldl_delete]
  apply deleteWhere_congr
  intro r hr
  cases hp : p r with
  | true =>
    simp only [decide_eq_true_eq]
    exact List.mem_map_of_mem ((mem_select t p r).mpr ⟨hr, hp⟩)
  | false =>
    simp only [decide_eq_false_iff_not]
    intro hmem
    obtain ⟨x, hx, hk⟩ := List.mem_map.mp hmem
    obtain ⟨hx1, hx2⟩ := (mem_select t p x).mp hx
    rw [t.eq_of_key_eq hx1 hr hk, hp] at hx2
    cases hx2

/-! ## What holds of every row -/

section
variable {t : Table key} {P : ρ → Prop}

theorem forall_insert {r : ρ} (h : ∀ x ∈ t.rows, P x) (hr : P r) :
    ∀ x ∈ (t.insert r).rows, P x := by
  intro x hx
  rcases mem_of_mem_insert hx with hx | rfl
  · exact h x hx
  · exact hr

/-- The rows after an update. -/
theorem forall_update {u : Table key} {k : κ} {f : ρ → ρ}
    (hu : u.rows = t.rows.map fun r => if key r = k then f r else r) (h : ∀ x ∈ t.rows, P x)
    (hk : ∀ x, P x → P (f x)) : ∀ x ∈ u.rows, P x := by
  intro x hx
  rw [hu] at hx
  obtain ⟨r, hr, rfl⟩ := List.mem_map.mp hx
  split
  · exact hk r (h r hr)
  · exact h r hr

omit [DecidableEq κ] in
theorem forall_deleteWhere {p : ρ → Bool} (h : ∀ x ∈ t.rows, P x) :
    ∀ x ∈ (t.deleteWhere p).rows, P x :=
  fun x hx => h x (mem_deleteWhere.mp hx).1

end

end Table

end keyed_table
