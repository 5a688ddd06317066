-- What `ORDER BY` a key says of the rows of an answer: the keys do not fall, and rows
-- with one key stand in any order. They stand in the order of the table in every
-- answer exactly when no two rows have one key.
import Mathlib.Data.List.Sort
import Mathlib.Data.List.Count
import Mathlib.Data.Int.Order.Basic

namespace order_by

variable {ρ κ : Type} [LinearOrder κ] {key : ρ → κ} {rows out : List ρ}

/-- An answer that `ORDER BY key` allows. -/
structure Ordered (key : ρ → κ) (rows out : List ρ) : Prop where
  perm : out.Perm rows
  sorted : out.Pairwise fun a b => key a ≤ key b

/-- The rows with one key. -/
def ties (key : ρ → κ) (rows : List ρ) (k : κ) : List ρ := rows.filter fun r => decide (key r = k)

/-- Rows with one key stand as they stand in the table. -/
def Stable (key : ρ → κ) (rows out : List ρ) : Prop := ∀ k, ties key out k = ties key rows k

/-- The keys are distinct where no key has two rows. -/
theorem distinct_iff : (rows.map key).Nodup ↔ ∀ k, (ties key rows k).length ≤ 1 := by
  rw [List.nodup_iff_count_le_one]
  refine forall_congr' fun k => ?_
  have hcount : (rows.map key).count k = (ties key rows k).length := by
    unfold List.count ties
    rw [List.countP_map, List.countP_eq_length_filter]
    congr 1
  rw [hcount]

/-- With distinct keys there is nothing to choose. -/
theorem stable_of_distinct (h : (rows.map key).Nodup) (ho : Ordered key rows out) :
    Stable key rows out := by
  intro k
  have hperm : (ties key out k).Perm (ties key rows k) := ho.perm.filter _
  have hlength := distinct_iff.mp h k
  rcases hrows : ties key rows k with _ | ⟨a, _ | ⟨b, rest⟩⟩
  · rw [hrows] at hperm
    exact hperm.eq_nil
  · rw [hrows] at hperm
    exact hperm.eq_singleton
  · rw [hrows] at hlength
    simp at hlength

/-! ### The sort that keeps ties -/

/-- The row goes before the rows with its key. -/
theorem ties_orderedInsert (a : ρ) (l : List ρ) (k : κ) :
    ties key (l.orderedInsert (fun a b => key a ≤ key b) a) k = ties key (a :: l) k := by
  induction l with
  | nil => rfl
  | cons b l ih =>
    by_cases h : key a ≤ key b
    · rw [List.orderedInsert_cons_of_le (fun a b => key a ≤ key b) l h]
    · rw [List.orderedInsert_of_not_le (fun a b => key a ≤ key b) l h]
      have hne : key a ≠ key b := fun heq => h heq.le
      unfold ties at ih ⊢
      rw [List.filter_cons, ih, List.filter_cons, List.filter_cons, List.filter_cons]
      by_cases ha : key a = k <;> by_cases hb : key b = k <;> simp [ha, hb]
      exact absurd (ha.trans hb.symm) hne

theorem ties_insertionSort (l : List ρ) (k : κ) :
    ties key (l.insertionSort fun a b => key a ≤ key b) k = ties key l k := by
  induction l with
  | nil => rfl
  | cons a l ih =>
    rw [List.insertionSort_cons, ties_orderedInsert]
    unfold ties at ih ⊢
    rw [List.filter_cons, List.filter_cons, ih]

theorem ordered_insertionSort {l : List ρ} (h : l.Perm rows) :
    Ordered key rows (l.insertionSort fun a b => key a ≤ key b) := by
  refine ⟨(List.perm_insertionSort _ l).trans h, ?_⟩
  have : Std.Total fun a b : ρ => key a ≤ key b := ⟨fun a b => le_total _ _⟩
  have : IsTrans ρ fun a b => key a ≤ key b := ⟨fun a b c => le_trans⟩
  exact List.pairwise_insertionSort _ l

/-! ### The answers that keep ties -/

theorem length_le_one_of_reverse {l : List ρ} (hn : l.Nodup) (h : l.reverse = l) : l.length ≤ 1 := by
  rcases l with _ | ⟨a, l⟩
  · simp
  rcases hrev : l.reverse with _ | ⟨b, rest⟩
  · simpa using hrev
  · rw [List.reverse_cons, hrev, List.cons_append, List.cons.injEq] at h
    have hmem : b ∈ l := by
      rw [← List.mem_reverse, hrev]
      exact List.mem_cons_self
    rw [h.1] at hmem
    exact absurd hmem (List.nodup_cons.mp hn).1

/-- Every allowed answer keeps the ties exactly when the keys are distinct: where two rows
have one key, the sort of the reversed table is allowed too. -/
theorem always_stable_iff (hn : rows.Nodup) :
    (∀ out, Ordered key rows out → Stable key rows out) ↔ (rows.map key).Nodup := by
  constructor
  · intro h
    rw [distinct_iff]
    intro k
    have hstable := h _ (ordered_insertionSort (List.reverse_perm rows)) k
    rw [ties_insertionSort] at hstable
    apply length_le_one_of_reverse (hn.filter _)
    unfold ties at hstable
    rw [List.filter_reverse] at hstable
    exact hstable
  · intro h out ho
    exact stable_of_distinct h ho

theorem pairwise_idxOf {ι : Type} [DecidableEq ι] {id : ρ → ι} {l : List ρ} (h : (l.map id).Nodup) :
    l.Pairwise fun a b => (l.map id).idxOf (id a) ≤ (l.map id).idxOf (id b) := by
  rw [List.pairwise_iff_getElem]
  intro i j hi hj hij
  have hidx : ∀ k (hk : k < l.length), (l.map id).idxOf (id l[k]) = k := by
    intro k hk
    have hget := h.idxOf_getElem k (by simpa using hk)
    rwa [List.getElem_map] at hget
  rw [hidx i hi, hidx j hj]
  exact hij.le

/-- A sort by a second key in advance, under which no two rows tie, gives any allowed answer. -/
theorem sort_of_ordered {ι : Type} [DecidableEq ι] {id : ρ → ι} (hid : (rows.map id).Nodup)
    (ho : Ordered key rows out) :
    ((rows.insertionSort fun a b => (out.map id).idxOf (id a) ≤ (out.map id).idxOf (id b)).insertionSort
      fun a b => key a ≤ key b) = out := by
  have hout : (out.map id).Nodup := (ho.perm.map id).nodup_iff.mpr hid
  have hscan : rows.insertionSort
      (fun a b => (out.map id).idxOf (id a) ≤ (out.map id).idxOf (id b)) = out := by
    have : Std.Total fun a b : ρ => (out.map id).idxOf (id a) ≤ (out.map id).idxOf (id b) :=
      ⟨fun a b => le_total _ _⟩
    have : IsTrans ρ fun a b => (out.map id).idxOf (id a) ≤ (out.map id).idxOf (id b) :=
      ⟨fun a b c => le_trans⟩
    refine List.Perm.eq_of_pairwise ?_ (List.pairwise_insertionSort _ rows)
      (pairwise_idxOf hout) ((List.perm_insertionSort _ rows).trans ho.perm.symm)
    intro a b ha hb hab hba
    have ha' : a ∈ out := ho.perm.mem_iff.mpr ((List.mem_insertionSort _).mp ha)
    have hids : id a = id b :=
      (List.idxOf_inj (List.mem_map_of_mem ha')).mp (le_antisymm hab hba)
    exact List.inj_on_of_nodup_map hout ha' hb hids
  rw [hscan]
  exact ho.sorted.insertionSort_eq

end order_by
