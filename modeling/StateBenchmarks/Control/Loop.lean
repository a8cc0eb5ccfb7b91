/-
# Loops that can be left early

A Python `for` loop ends in one of two ways: its items run out, or the body
leaves it by `break`, `return` or an exception.  `forEach` is that loop with
the state passed explicitly and the reason for leaving as data.

`Arrives` says that a loop gets to its `k`-th iteration, and in which state.
Invariants are inductions over it, and `forEach_cases` reduces what a loop does
to the one iteration that leaves, or to arriving past the last item.
-/

import Mathlib.Data.List.Basic

namespace StateBenchmarks.Control

universe u v w

variable {α : Type u} {σ : Type v} {χ : Type w}

/-- Run `body` on each item in turn, numbering iterations from `start`.  A body
that answers `none` falls through to the next item; `some x` leaves the loop
with the reason `x`. -/
def forEach (body : ℕ → α → σ → Option χ × σ) : ℕ → List α → σ → Option χ × σ
  | _, [], s => (none, s)
  | i, a :: rest, s =>
      match body i a s with
      | (none, s') => forEach body (i + 1) rest s'
      | (some x, s') => (some x, s')

variable {body : ℕ → α → σ → Option χ × σ}

theorem forEach_cons_of_none {start : ℕ} {a : α} {rest : List α} {s s' : σ}
    (h : body start a s = (none, s')) :
    forEach body start (a :: rest) s = forEach body (start + 1) rest s' := by
  rw [forEach, h]

theorem forEach_cons_of_some {start : ℕ} {a : α} {rest : List α} {s s' : σ} {x : χ}
    (h : body start a s = (some x, s')) :
    forEach body start (a :: rest) s = (some x, s') := by
  rw [forEach, h]

/-- A loop that never leaves on the items it is given is a fold.  The items may
be the images of others, which is what the effect is then stated on. -/
theorem forEach_map_of_falls {γ : Type*} {g : γ → α} {effect : γ → σ → σ} {items : List γ}
    (h : ∀ i, ∀ c ∈ items, ∀ s, body i (g c) s = (none, effect c s)) (start : ℕ) (s : σ) :
    forEach body start (items.map g) s = (none, items.foldl (fun t c => effect c t) s) := by
  induction items generalizing start s with
  | nil => rfl
  | cons c rest ih =>
      rw [List.map_cons, forEach_cons_of_none (h start c List.mem_cons_self s), List.foldl_cons]
      exact ih (fun i c' hc' => h i c' (List.mem_cons_of_mem c hc')) (start + 1) (effect c s)

/-- A loop whose state is seen through `f` is the loop on what `f` shows. -/
theorem forEach_project {τ : Type*} {body' : ℕ → α → τ → Option χ × τ} {f : σ → τ}
    (h : ∀ i a s, ((body i a s).1, f (body i a s).2) = body' i a (f s)) (start : ℕ)
    (items : List α) (s : σ) :
    ((forEach body start items s).1, f (forEach body start items s).2) =
      forEach body' start items (f s) := by
  induction items generalizing start s with
  | nil => rfl
  | cons a rest ih =>
      have hstep := h start a s
      rcases hbody : body start a s with ⟨_ | x, s'⟩
      · rw [hbody] at hstep
        rw [forEach_cons_of_none hbody, forEach_cons_of_none hstep.symm]
        exact ih (start + 1) s'
      · rw [hbody] at hstep
        rw [forEach_cons_of_some hbody, forEach_cons_of_some hstep.symm]

variable (body) in
/-- The loop over `items` from `s` arrives at iteration `k` in the given state:
every earlier iteration fell through. -/
inductive Arrives (items : List α) (s : σ) : ℕ → σ → Prop
  | start : Arrives items s 0 s
  | next {k : ℕ} {a : α} {t t' : σ} (here : Arrives items s k t)
      (item : items[k]? = some a) (falls : body k a t = (none, t')) :
      Arrives items s (k + 1) t'

namespace Arrives

variable {items : List α} {s t t' : σ} {k : ℕ}

/-- From the iteration it arrives at, the loop runs on as on the items left. -/
theorem forEach_eq (h : Arrives body items s k t) :
    forEach body 0 items s = forEach body k (items.drop k) t := by
  induction h with
  | start => rfl
  | @next k a t t' here item falls ih =>
      obtain ⟨hlt, hget⟩ := List.getElem?_eq_some_iff.mp item
      have hdrop : items.drop k = a :: items.drop (k + 1) := by
        rw [List.drop_eq_getElem_cons hlt, hget]
      rw [ih, hdrop, forEach_cons_of_none falls]

/-- Where it can be told without the state whether an iteration falls through, so can
it be how far the loop gets. -/
theorem exists_iff (falls : ℕ → α → Prop)
    (h : ∀ k a t, Arrives body items s k t → items[k]? = some a →
      ((body k a t).1 = none ↔ falls k a)) :
    (∃ t, Arrives body items s k t) ↔ ∀ j < k, ∃ a, items[j]? = some a ∧ falls j a := by
  apply Iff.intro
  · rintro ⟨t, harrives⟩
    induction harrives with
    | start =>
        intro j hj
        exact absurd hj (Nat.not_lt_zero j)
    | @next k a t t' here item hfalls ih =>
        intro j hj
        rcases Nat.lt_succ_iff_lt_or_eq.mp hj with hj | rfl
        · exact ih j hj
        · exact ⟨a, item, (h j a t here item).mp (by rw [hfalls])⟩
  · intro hall
    induction k with
    | zero => exact ⟨s, .start⟩
    | succ k ih =>
        obtain ⟨t, ht⟩ := ih fun j hj => hall j (Nat.lt_succ_of_lt hj)
        obtain ⟨a, item, hfalls⟩ := hall k (Nat.lt_succ_self k)
        exact ⟨(body k a t).2, .next ht item (Prod.ext ((h k a t ht item).mpr hfalls) rfl)⟩

/-- Arriving past the last item is the loop running out of items. -/
theorem forEach_eq_none (h : Arrives body items s items.length t) :
    forEach body 0 items s = (none, t) := by
  rw [h.forEach_eq, List.drop_length]
  rfl

/-- The iteration that leaves decides how the loop ends. -/
theorem forEach_eq_some {a : α} {x : χ} (h : Arrives body items s k t)
    (item : items[k]? = some a) (leaves : body k a t = (some x, t')) :
    forEach body 0 items s = (some x, t') := by
  obtain ⟨hlt, hget⟩ := List.getElem?_eq_some_iff.mp item
  rw [h.forEach_eq, List.drop_eq_getElem_cons hlt, hget, forEach_cons_of_some leaves]

end Arrives

/-- A loop runs out of items, or arrives at the iteration that leaves it. -/
theorem forEach_cases (body : ℕ → α → σ → Option χ × σ) (items : List α) (s : σ) :
    (∃ t, Arrives body items s items.length t) ∨
      ∃ k a t x t', Arrives body items s k t ∧ items[k]? = some a ∧
        body k a t = (some x, t') := by
  by_contra hnot
  rw [not_or] at hnot
  obtain ⟨hnone, hsome⟩ := hnot
  have hall : ∀ k ≤ items.length, ∃ t, Arrives body items s k t := by
    intro k
    induction k with
    | zero => exact fun _ => ⟨s, .start⟩
    | succ k ih =>
        intro hk
        obtain ⟨t, ht⟩ := ih (Nat.le_of_succ_le hk)
        have item : items[k]? = some items[k] := List.getElem?_eq_getElem hk
        rcases hbody : body k items[k] t with ⟨_ | x, t'⟩
        · exact ⟨t', .next ht item hbody⟩
        · exact absurd ⟨k, _, t, x, t', ht, item, hbody⟩ hsome
  exact hnone (hall _ (Nat.le_refl _))

/-! A polling loop decides each item on its own and carries no decision between
iterations.  Such a loop stops at the first item its verdict accepts. -/

/-- A loop whose exit depends on the item alone leaves with the first verdict,
having performed its effect on every item up to and including that one. -/
theorem forEach_verdict (verdict : α → Option χ) (effect : α → σ → σ)
    (start : ℕ) (items : List α) (s : σ) :
    (∀ a ∈ items, verdict a = none) ∧
        forEach (fun _ a s => (verdict a, effect a s)) start items s =
          (none, items.foldl (fun t a => effect a t) s) ∨
      ∃ front a back x, items = front ++ a :: back ∧ (∀ b ∈ front, verdict b = none) ∧
        verdict a = some x ∧
        forEach (fun _ a s => (verdict a, effect a s)) start items s =
          (some x, (front ++ [a]).foldl (fun t a => effect a t) s) := by
  induction items generalizing start s with
  | nil => exact Or.inl ⟨by simp, rfl⟩
  | cons a rest ih =>
      cases hverdict : verdict a with
      | some x =>
          refine Or.inr ⟨[], a, rest, x, rfl, by simp, hverdict, ?_⟩
          rw [forEach_cons_of_some (by rw [hverdict])]
          rfl
      | none =>
          have hbody : (verdict a, effect a s) = (none, effect a s) := by rw [hverdict]
          rw [forEach_cons_of_none hbody]
          rcases ih (start + 1) (effect a s) with ⟨hall, hrun⟩ | hfound
          · refine Or.inl ⟨?_, by rw [hrun]; rfl⟩
            intro b hb
            rcases List.mem_cons.mp hb with rfl | hb
            · exact hverdict
            · exact hall b hb
          · obtain ⟨front, b, back, x, rfl, hfront, hb, hrun⟩ := hfound
            refine Or.inr ⟨a :: front, b, back, x, rfl, ?_, hb, by rw [hrun]; rfl⟩
            intro c hc
            rcases List.mem_cons.mp hc with rfl | hc
            · exact hverdict
            · exact hfront c hc

end StateBenchmarks.Control
