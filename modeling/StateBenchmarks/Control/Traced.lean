/-
# States with their history

What a script does between its start and its end is not in its result.  A traced
state carries along every operation performed on it and the state it was
performed in, so that a property of every moment of a run is a property of the
traced state the run ends in.
-/

import StateBenchmarks.Control.Script

namespace StateBenchmarks.Control

/-- A state, and the operations that led to it, each with the state before it, the
last one first. -/
structure Traced (ι σ : Type) where
  now : σ
  events : List (ι × σ)

namespace Traced

variable {ι σ α : Type}

/-- A state nothing has been done to yet. -/
def start (s : σ) : Traced ι σ := ⟨s, []⟩

/-- Performing an operation. -/
def perform (label : ι) (operation : σ → α × σ) (r : Traced ι σ) : α × Traced ι σ :=
  ((operation r.now).1, ⟨(operation r.now).2, (label, r.now) :: r.events⟩)

/-- Every state there was, the last one first. -/
def reached (r : Traced ι σ) : List σ := r.now :: r.events.map Prod.snd

/-- The operation that was performed first, and the state before it. -/
def first (r : Traced ι σ) : Option (ι × σ) := r.events.getLast?

/-- The state satisfies `P`, and every operation was performed as `Q` says. -/
structure Satisfies (P : σ → Prop) (Q : ι → σ → Prop) (r : Traced ι σ) : Prop where
  now : P r.now
  past : ∀ e ∈ r.events, Q e.1 e.2

variable {P P' : σ → Prop} {Q : ι → σ → Prop} {r : Traced ι σ}

theorem satisfies_start {s : σ} (h : P s) : Satisfies P Q (start s) := ⟨h, nofun⟩

namespace Satisfies

theorem perform {label : ι} {operation : σ → α × σ} (h : Satisfies P Q r)
    (hQ : Q label r.now) (hP : P' (operation r.now).2) :
    Satisfies P' Q (r.perform label operation).2 := by
  refine ⟨hP, fun e he => ?_⟩
  rcases List.mem_cons.mp he with rfl | he
  · exact hQ
  · exact h.past e he

theorem imp (h : Satisfies P Q r) (hP : P r.now → P' r.now) : Satisfies P' Q r :=
  ⟨hP h.now, h.past⟩

/-- What holds now and before every operation holds of every state there was. -/
theorem reached {R : σ → Prop} (h : Satisfies P Q r) (hP : ∀ s, P s → R s)
    (hQ : ∀ label s, Q label s → R s) {s : σ} (hs : s ∈ r.reached) : R s := by
  rcases List.mem_cons.mp hs with rfl | hs
  · exact hP _ h.now
  · obtain ⟨e, he, rfl⟩ := List.mem_map.mp hs
    exact hQ e.1 e.2 (h.past e he)

end Satisfies

end Traced

end StateBenchmarks.Control
