-- Two answers of a database that have the same rows. A query that leaves the
-- order open may give them in any order, so the rows of one answer stand for
-- the rows of the other up to a permutation.
import Mathlib.Data.List.Forall2
import Mathlib.Data.List.Sort
import Mathlib.Data.List.Nodup
import Mathlib.Logic.Equiv.Basic

namespace same_rows

variable {α β : Type}

/-- The rows of `xs`, in some order, stand one by one for the rows of `ys`. -/
def SameRows (R : α → β → Prop) (xs : List α) (ys : List β) : Prop :=
  ∃ zs, xs.Perm zs ∧ List.Forall₂ R zs ys

variable {R : α → β → Prop} {xs : List α} {ys : List β}

theorem same_rows_nil : SameRows R [] [] := ⟨[], .refl _, .nil⟩

/-- The same rows, looked at through two functions. -/
theorem same_rows_map {γ δ : Type} {S : γ → δ → Prop} {f : α → γ} {g : β → δ}
    (h : SameRows R xs ys) (hfg : ∀ x y, R x y → S (f x) (g y)) :
    SameRows S (xs.map f) (ys.map g) := by
  obtain ⟨zs, hperm, hrows⟩ := h
  refine ⟨zs.map f, hperm.map f, ?_⟩
  rw [List.forall₂_map_left_iff, List.forall₂_map_right_iff]
  exact hrows.imp hfg

/-- Two answers without repeats whose rows stand for each other, one for one. -/
theorem same_rows_of_matching (hxs : xs.Nodup) (hys : ys.Nodup)
    (hright : ∀ x ∈ xs, ∃ y ∈ ys, R x y) (hleft : ∀ y ∈ ys, ∃ x ∈ xs, R x y)
    (hfun : ∀ x y y', y ∈ ys → y' ∈ ys → R x y → R x y' → y = y')
    (hinj : ∀ x x' y, x ∈ xs → x' ∈ xs → R x y → R x' y → x = x') : SameRows R xs ys := by
  classical
  induction ys generalizing xs with
  | nil =>
    cases xs with
    | nil => exact same_rows_nil
    | cons x xs =>
      obtain ⟨y, hy, -⟩ := hright x List.mem_cons_self
      cases hy
  | cons y ys ih =>
    obtain ⟨hy, hys⟩ := List.nodup_cons.mp hys
    obtain ⟨x, hx, hxy⟩ := hleft y List.mem_cons_self
    -- The row of `y` is taken out, and the rest match among themselves.
    have hrest : SameRows R (xs.erase x) ys := by
      apply ih (hxs.erase x) hys
      · intro x' hx'
        obtain ⟨hne, hmem⟩ := (hxs.mem_erase_iff).mp hx'
        obtain ⟨y', hy', hxy'⟩ := hright x' hmem
        rcases List.mem_cons.mp hy' with rfl | hy'
        · exact absurd (hinj x' x y' hmem hx hxy' hxy) hne
        · exact ⟨y', hy', hxy'⟩
      · intro y' hy'
        obtain ⟨x', hx', hxy'⟩ := hleft y' (List.mem_cons_of_mem _ hy')
        refine ⟨x', (hxs.mem_erase_iff).mpr ⟨?_, hx'⟩, hxy'⟩
        rintro rfl
        exact hy (hfun x' y y' List.mem_cons_self (List.mem_cons_of_mem _ hy') hxy hxy' ▸ hy')
      · intro a b c hb hc
        exact hfun a b c (List.mem_cons_of_mem _ hb) (List.mem_cons_of_mem _ hc)
      · intro a b c ha hb
        exact hinj a b c (List.mem_of_mem_erase ha) (List.mem_of_mem_erase hb)
    obtain ⟨zs, hperm, hrows⟩ := hrest
    exact ⟨x :: zs, (List.perm_cons_erase hx).trans (hperm.cons x), .cons hxy hrows⟩

/-- Two answers that hold what two lookups find, where the lookups agree up to a
renaming of the keys. -/
theorem same_rows_of_lookups {κ : Type} (σ : Equiv.Perm κ) (key : α → κ) (key' : β → κ)
    (look : κ → Option α) (look' : κ → Option β) (hxs : xs.Nodup) (hys : ys.Nodup)
    (hx : ∀ x, x ∈ xs ↔ look (key x) = some x) (hy : ∀ y, y ∈ ys ↔ look' (key' y) = some y)
    (hrel : ∀ k, Option.Rel R (look k) (look' (σ k)))
    (hkey : ∀ x y, R x y → key' y = σ (key x)) : SameRows R xs ys := by
  apply same_rows_of_matching hxs hys
  · intro x hmem
    have hfound := (hx x).mp hmem
    have hr := hrel (key x)
    rw [hfound] at hr
    cases hl : look' (σ (key x)) with
    | none =>
      rw [hl] at hr
      cases hr
    | some y =>
      rw [hl] at hr
      cases hr with
      | some hxy => exact ⟨y, (hy y).mpr (by rw [hkey x y hxy, hl]), hxy⟩
  · intro y hmem
    have hfound := (hy y).mp hmem
    have hr := hrel (σ.symm (key' y))
    rw [σ.apply_symm_apply, hfound] at hr
    cases hl : look (σ.symm (key' y)) with
    | none =>
      rw [hl] at hr
      cases hr
    | some x =>
      rw [hl] at hr
      cases hr with
      | some hxy =>
        refine ⟨x, (hx x).mpr ?_, hxy⟩
        rw [← hl, hkey x y hxy, σ.symm_apply_apply]
  · intro x y y' hmem hmem' hxy hxy'
    have h := (hy y).mp hmem
    have h' := (hy y').mp hmem'
    rw [hkey x y hxy] at h
    rw [hkey x y' hxy'] at h'
    exact Option.some.inj (h.symm.trans h')
  · intro x x' y hmem hmem' hxy hxy'
    have hk : key x = key x' := σ.injective ((hkey x y hxy).symm.trans (hkey x' y hxy'))
    have h := (hx x).mp hmem
    have h' := (hx x').mp hmem'
    rw [hk] at h
    exact Option.some.inj (h.symm.trans h')

/-- Two sorted answers with the same rows show the same sequence of values of
the column that sorts them. -/
theorem column_eq_of_sorted {γ : Type} [LinearOrder γ] {f : α → γ} {g : β → γ}
    (h : SameRows R xs ys) (hfg : ∀ x y, R x y → f x = g y)
    (hxs : xs.Pairwise fun a b => f a ≤ f b) (hys : ys.Pairwise fun a b => g a ≤ g b) :
    xs.map f = ys.map g := by
  obtain ⟨zs, hperm, hrows⟩ := h
  have heq : zs.map f = ys.map g := by
    rw [← List.forall₂_eq_eq_eq, List.forall₂_map_left_iff, List.forall₂_map_right_iff]
    exact hrows.imp hfg
  have hcolumn : (xs.map f).Perm (ys.map g) := heq ▸ hperm.map f
  apply hcolumn.eq_of_pairwise' (r := (· ≤ ·))
  · exact List.pairwise_map.mpr hxs
  · exact List.pairwise_map.mpr hys

end same_rows
