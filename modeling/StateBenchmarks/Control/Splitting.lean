/-
# What a list splits into

`splitOnP` cuts a list at the items of a kind.  Its pieces are made of the other
items, and an item that is rewritten into others of them stays in its piece.
-/

import Mathlib.Data.List.Basic

namespace StateBenchmarks.Control

universe u

variable {α : Type u} {p : α → Bool} {items piece : List α}

/-- A piece holds items of the list, and none it was cut at. -/
theorem of_mem_splitOnP (h : piece ∈ items.splitOnP p) : ∀ x ∈ piece, x ∈ items ∧ p x = false := by
  induction items generalizing piece with
  | nil =>
      rw [List.mem_singleton.mp h]
      exact List.forall_mem_nil _
  | cons y rest ih =>
      obtain ⟨first, more, hsplit⟩ :=
        List.exists_cons_of_ne_nil (List.splitOnP_ne_nil p rest)
      rw [hsplit] at ih
      rw [List.splitOnP_cons_eq_if_modifyHead, hsplit] at h
      have hlater : ∀ piece ∈ first :: more, ∀ x ∈ piece, x ∈ y :: rest ∧ p x = false :=
        fun piece hpiece x hx => ⟨List.mem_cons_of_mem y (ih hpiece x hx).1, (ih hpiece x hx).2⟩
      split_ifs at h with hy
      · rcases List.mem_cons.mp h with rfl | h
        · exact List.forall_mem_nil _
        · exact hlater piece h
      · rcases List.mem_cons.mp h with rfl | h
        · exact List.forall_mem_cons.mpr
            ⟨⟨List.mem_cons_self, by simpa using hy⟩, hlater first List.mem_cons_self⟩
        · exact hlater piece (List.mem_cons_of_mem _ h)

section Separator

variable [BEq α] [LawfulBEq α] {a : α}

theorem not_mem_of_mem_splitOn (h : piece ∈ items.splitOn a) : a ∉ piece := by
  intro hmem
  have hother := (of_mem_splitOnP h a hmem).2
  rw [beq_self_eq_true] at hother
  cases hother

end Separator

end StateBenchmarks.Control
