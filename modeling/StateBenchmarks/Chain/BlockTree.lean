/-
# Trees of blocks

A block names one parent, and is one higher than it.  Blocks are known by their
hashes, of any type, and the tree is the map from a hash to its parent's: since
a hash commits to the block, it is the same for every node that ever sees it.

`OnChain top h` reads "`h` lies on the chain that ends in `top`".  `Linked base
hs` is a chain built upwards from `base`, one block at a time, and `tip` is
where it ends.
-/

import Mathlib.Data.List.Induction
import Mathlib.Logic.Relation

namespace StateBenchmarks.Chain

universe u

/-- Blocks by their hashes. -/
structure BlockTree (H : Type u) where
  parent : H → Option H
  height : H → ℕ
  height_parent : ∀ {h p : H}, parent h = some p → height h = height p + 1

namespace BlockTree

variable {H : Type u} (tree : BlockTree H)

/-- `h` is `top` or one of its ancestors. -/
def OnChain (top h : H) : Prop := Relation.ReflTransGen (fun a b => tree.parent a = some b) top h

variable {tree} {top h p : H}

/-- Nothing on a chain is higher than its top. -/
theorem OnChain.height_le (hchain : tree.OnChain top h) : tree.height h ≤ tree.height top := by
  induction hchain with
  | refl => exact Nat.le_refl _
  | tail _ hparent ih =>
      have hheight := tree.height_parent hparent
      omega

/-- A chain does not hold its top's children. -/
theorem not_onChain_of_parent (hparent : tree.parent h = some p) : ¬ tree.OnChain p h := by
  intro hchain
  have hle := hchain.height_le
  have hheight := tree.height_parent hparent
  omega

/-- Where the chain of `hs` on top of `base` ends. -/
def tip (base : H) (hs : List H) : H := hs.getLast?.getD base

@[simp]
theorem tip_nil (base : H) : tip base [] = base := rfl

@[simp]
theorem tip_append (base : H) (hs : List H) (h : H) : tip base (hs ++ [h]) = h := by
  simp [tip]

variable (tree) in
/-- Each of `hs` has the one before it for a parent, and the first has `base`. -/
inductive Linked (base : H) : List H → Prop
  | base : Linked base []
  | grow {hs : List H} {h : H} (below : Linked base hs)
      (parent : tree.parent h = some (tip base hs)) : Linked base (hs ++ [h])

namespace Linked

variable {base : H} {hs : List H}

/-- A chain of `n` blocks is `n` high. -/
theorem height_tip (linked : tree.Linked base hs) :
    tree.height (tip base hs) = tree.height base + hs.length := by
  induction linked with
  | base => rfl
  | grow below parent ih =>
      rw [tip_append, tree.height_parent parent, ih, List.length_append]
      rfl

/-- Every block of the chain has a parent. -/
theorem exists_parent (linked : tree.Linked base hs) (hmem : h ∈ hs) :
    ∃ p, tree.parent h = some p := by
  induction linked with
  | base => cases hmem
  | grow below parent ih =>
      rcases List.mem_append.mp hmem with hmem | hmem
      · exact ih hmem
      · obtain rfl := List.mem_singleton.mp hmem
        exact ⟨_, parent⟩

theorem parent_of_snoc (linked : tree.Linked base (hs ++ [h])) :
    tree.parent h = some (tip base hs) := by
  generalize hall : hs ++ [h] = all at linked
  cases linked with
  | base => simp at hall
  | grow below parent =>
      obtain ⟨rfl, hh⟩ := List.append_inj' hall rfl
      cases hh
      exact parent

/-- What a chain was before its last blocks is a chain too. -/
theorem of_append {more : List H} (linked : tree.Linked base (hs ++ more)) :
    tree.Linked base hs := by
  induction more using List.reverseRecOn with
  | nil => rwa [List.append_nil] at linked
  | append_singleton more h ih =>
      rw [← List.append_assoc] at linked
      generalize hall : hs ++ more ++ [h] = all at linked
      cases linked with
      | base => simp at hall
      | grow below parent =>
          obtain ⟨rfl, -⟩ := List.append_inj' hall rfl
          exact ih below

end Linked

end BlockTree

end StateBenchmarks.Chain
