/-
# Sorting with a comparison that can raise

Python compares list items while it sorts them, and a comparison of two items
without a common order raises out of the sort.  `sortM` is a stable insertion
sort over such a comparison.  Where the comparison is that of a key in a linear
order it never raises, and the last item has the greatest key.
-/

import Mathlib.Data.List.Basic
import Mathlib.Order.Lattice

namespace StateBenchmarks.Control

universe u v

variable {α : Type u} {ε : Type u} {β : Type v}

/-- Insert behind the last item that is not greater. -/
def insertM (lt : α → α → Except ε Bool) (x : α) : List α → Except ε (List α)
  | [] => .ok [x]
  | y :: ys =>
      match lt x y with
      | .error e => .error e
      | .ok true => .ok (x :: y :: ys)
      | .ok false =>
          match insertM lt x ys with
          | .error e => .error e
          | .ok zs => .ok (y :: zs)

/-- Insert item by item behind those sorted so far. -/
def sortFrom (lt : α → α → Except ε Bool) (sorted : List α) : List α → Except ε (List α)
  | [] => .ok sorted
  | x :: xs =>
      match insertM lt x sorted with
      | .error e => .error e
      | .ok sorted' => sortFrom lt sorted' xs

/-- `list.sort`. -/
def sortM (lt : α → α → Except ε Bool) (xs : List α) : Except ε (List α) := sortFrom lt [] xs

section Returns

variable {lt : α → α → Except ε Bool}

theorem perm_of_insertM {x : α} {ys zs : List α} (h : insertM lt x ys = .ok zs) :
    zs.Perm (x :: ys) := by
  induction ys generalizing zs with
  | nil =>
      cases h
      exact List.Perm.refl [x]
  | cons y ys ih =>
      rw [insertM] at h
      split at h
      · cases h
      · cases h
        exact List.Perm.refl _
      · split at h
        · cases h
        · rename_i inserted hinserted
          cases h
          exact ((ih hinserted).cons y).trans (List.Perm.swap x y ys)

theorem perm_of_sortFrom {sorted xs zs : List α} (h : sortFrom lt sorted xs = .ok zs) :
    zs.Perm (sorted ++ xs) := by
  induction xs generalizing sorted with
  | nil =>
      cases h
      rw [List.append_nil]
  | cons x xs ih =>
      rw [sortFrom] at h
      split at h
      · cases h
      · rename_i sorted' hinsert
        exact (ih h).trans
          (((perm_of_insertM hinsert).append_right xs).trans List.perm_middle.symm)

/-- A sort moves its items and keeps them. -/
theorem perm_of_sortM {xs zs : List α} (h : sortM lt xs = .ok zs) : zs.Perm xs :=
  perm_of_sortFrom h

variable {kind : α → Prop}

/-- The comparison raises on items of different kinds. -/
def Separates (lt : α → α → Except ε Bool) (kind : α → Prop) : Prop :=
  ∀ a b, ¬(kind a ↔ kind b) → ∃ e, lt a b = .error e

/-- An insertion that returns has compared its item with the first one. -/
theorem Separates.kind_iff_of_insertM (h : Separates lt kind) {x y : α} {ys zs : List α}
    (hinsert : insertM lt x (y :: ys) = .ok zs) : kind x ↔ kind y := by
  by_contra hkinds
  obtain ⟨e, he⟩ := h x y hkinds
  rw [insertM, he] at hinsert
  cases hinsert

theorem Separates.kind_iff_of_sortFrom (h : Separates lt kind) {sorted xs zs : List α} {y : α}
    (hy : y ∈ sorted) (hsame : ∀ a ∈ sorted, kind a ↔ kind y)
    (hsort : sortFrom lt sorted xs = .ok zs) : ∀ x ∈ xs, kind x ↔ kind y := by
  induction xs generalizing sorted with
  | nil =>
      intro x hx
      cases hx
  | cons x xs ih =>
      rw [sortFrom] at hsort
      split at hsort
      · cases hsort
      · rename_i sorted' hinsert
        have hperm := perm_of_insertM hinsert
        have hx : kind x ↔ kind y := by
          obtain ⟨first, rest, rfl⟩ := List.exists_cons_of_ne_nil (List.ne_nil_of_mem hy)
          exact (h.kind_iff_of_insertM hinsert).trans (hsame first List.mem_cons_self)
        have hsame' : ∀ a ∈ sorted', kind a ↔ kind y := fun a ha => by
          rcases List.mem_cons.mp (hperm.mem_iff.mp ha) with rfl | ha
          · exact hx
          · exact hsame a ha
        have hrest := ih (hperm.mem_iff.mpr (List.mem_cons_of_mem x hy)) hsame' hsort
        intro a ha
        rcases List.mem_cons.mp ha with rfl | ha
        · exact hx
        · exact hrest a ha

/-- A sort that returns has met items of one kind only. -/
theorem Separates.kind_iff_of_sortM (h : Separates lt kind) {xs zs : List α}
    (hsort : sortM lt xs = .ok zs) {x y : α} (hx : x ∈ xs) (hy : y ∈ xs) : kind x ↔ kind y := by
  obtain ⟨first, rest, rfl⟩ := List.exists_cons_of_ne_nil (List.ne_nil_of_mem hx)
  have hrest : ∀ a ∈ rest, kind a ↔ kind first :=
    h.kind_iff_of_sortFrom (List.mem_singleton_self first) (fun a ha => by
      rw [List.mem_singleton.mp ha]) hsort
  have hall : ∀ a ∈ first :: rest, kind a ↔ kind first := fun a ha => by
    rcases List.mem_cons.mp ha with rfl | ha
    · exact Iff.rfl
    · exact hrest a ha
  exact (hall x hx).trans (hall y hy).symm

end Returns

variable [LinearOrder β] {key : α → β} {lt : α → α → Except ε Bool}

/-- The comparison of a key: the items compared are those of a given list. -/
def ComparesBy (lt : α → α → Except ε Bool) (key : α → β) (xs : List α) : Prop :=
  ∀ x ∈ xs, ∀ y ∈ xs, lt x y = .ok (decide (key x < key y))

theorem ComparesBy.of_subset {xs ys : List α} (h : ComparesBy lt key xs) (hsub : ys ⊆ xs) :
    ComparesBy lt key ys :=
  fun a ha b hb => h a (hsub ha) b (hsub hb)

theorem insertM_spec {x : α} {ys : List α} (h : ComparesBy lt key (x :: ys))
    (hsorted : ys.Pairwise fun a b => key a ≤ key b) :
    ∃ zs, insertM lt x ys = .ok zs ∧ zs.Perm (x :: ys) ∧
      zs.Pairwise fun a b => key a ≤ key b := by
  induction ys with
  | nil => exact ⟨[x], rfl, List.Perm.refl _, List.pairwise_singleton _ _⟩
  | cons y ys ih =>
      have hcompare := h x List.mem_cons_self y (List.mem_cons_of_mem x List.mem_cons_self)
      obtain ⟨hy, hrest⟩ := List.pairwise_cons.mp hsorted
      by_cases hlt : key x < key y
      · refine ⟨x :: y :: ys, ?_, List.Perm.refl _, ?_⟩
        · rw [insertM, hcompare, decide_eq_true hlt]
        · refine List.pairwise_cons.mpr ⟨fun z hz => ?_, hsorted⟩
          rcases List.mem_cons.mp hz with rfl | hz
          · exact le_of_lt hlt
          · exact le_trans (le_of_lt hlt) (hy z hz)
      · have hrec : ComparesBy lt key (x :: ys) :=
          h.of_subset (List.cons_subset_cons x (List.subset_cons_self y ys))
        obtain ⟨zs, hinsert, hperm, hzs⟩ := ih hrec hrest
        refine ⟨y :: zs, ?_, ?_, ?_⟩
        · rw [insertM, hcompare, decide_eq_false hlt]
          dsimp only
          rw [hinsert]
        · exact (hperm.cons y).trans (List.Perm.swap x y ys)
        · refine List.pairwise_cons.mpr ⟨fun z hz => ?_, hzs⟩
          rcases List.mem_cons.mp (hperm.mem_iff.mp hz) with rfl | hz
          · exact le_of_not_gt hlt
          · exact hy z hz

theorem sortFrom_spec {sorted xs : List α} (h : ComparesBy lt key (sorted ++ xs))
    (hsorted : sorted.Pairwise fun a b => key a ≤ key b) :
    ∃ zs, sortFrom lt sorted xs = .ok zs ∧ zs.Perm (sorted ++ xs) ∧
      zs.Pairwise fun a b => key a ≤ key b := by
  induction xs generalizing sorted with
  | nil => exact ⟨sorted, rfl, by rw [List.append_nil], hsorted⟩
  | cons x xs ih =>
      have hinsertable : ComparesBy lt key (x :: sorted) := h.of_subset fun a ha => by
        rcases List.mem_cons.mp ha with rfl | ha
        · exact List.mem_append_right sorted List.mem_cons_self
        · exact List.mem_append_left _ ha
      obtain ⟨sorted', hinsert, hperm, hsorted'⟩ := insertM_spec hinsertable hsorted
      have hperm' : (sorted' ++ xs).Perm (sorted ++ x :: xs) :=
        (hperm.append_right xs).trans List.perm_middle.symm
      have hcompares : ComparesBy lt key (sorted' ++ xs) := h.of_subset hperm'.subset
      obtain ⟨zs, hrun, hzs, horder⟩ := ih hcompares hsorted'
      refine ⟨zs, ?_, hzs.trans hperm', horder⟩
      rw [sortFrom, hinsert]
      exact hrun

/-- A sort by a key returns, and its last item has the greatest key. -/
theorem sortM_getLast {xs : List α} (h : ComparesBy lt key xs) (hne : xs ≠ []) :
    ∃ zs last, sortM lt xs = .ok zs ∧ zs.getLast? = some last ∧ last ∈ xs ∧
      ∀ x ∈ xs, key x ≤ key last := by
  have hcompares : ComparesBy lt key ([] ++ xs) := h
  obtain ⟨zs, hrun, hperm', horder⟩ := sortFrom_spec hcompares List.Pairwise.nil
  rw [List.nil_append] at hperm'
  have hzs : zs ≠ [] := fun hnil => hne (by
    rw [hnil] at hperm'
    exact hperm'.nil_eq.symm)
  refine ⟨zs, zs.getLast hzs, hrun, List.getLast?_eq_getLast_of_ne_nil hzs,
    hperm'.mem_iff.mp (List.getLast_mem hzs), fun x hx => ?_⟩
  have hmem := hperm'.mem_iff.mpr hx
  rw [← List.dropLast_append_getLast hzs] at hmem horder
  rcases List.mem_append.mp hmem with hfront | hlast
  · exact (List.pairwise_append.mp horder).2.2 x hfront _ (List.mem_singleton_self _)
  · rw [List.mem_singleton.mp hlast]

end StateBenchmarks.Control
