/-
# Rounds on a clock

A polling loop reads a clock when it enters a round and when it leaves one, and
sleeps before the next.  A monotone clock and a sleep that is not cut short are
all that bounds how many rounds fit into a span of time.
-/

import Mathlib.Algebra.Order.Field.Rat
import Mathlib.Algebra.Order.Floor.Semiring
import Mathlib.Data.Rat.Floor
import Mathlib.Tactic.Linarith

namespace StateBenchmarks.Control

variable {α : Type*} (enter leave : α → ℚ) (pause : ℚ)

/-- The rounds follow one another from a time on: each is left no earlier than it
is entered, and followed by a pause. -/
def Paced : ℚ → List α → Prop
  | _, [] => True
  | now, round :: rest =>
      now ≤ enter round ∧ enter round ≤ leave round ∧ Paced (leave round + pause) rest

variable {enter leave pause} {now : ℚ} {rounds : List α} {k : ℕ} {round : α}

/-- A round is entered after as many pauses as there were rounds before it. -/
theorem Paced.add_le_enter (h : Paced enter leave pause now rounds)
    (hround : rounds[k]? = some round) :
    now + k * pause ≤ enter round := by
  induction rounds generalizing k now with
  | nil => cases hround
  | cons first rest ih =>
      obtain ⟨hnow, hleave, hrest⟩ := h
      cases k with
      | zero =>
          obtain rfl : first = round := Option.some.inj hround
          simpa using hnow
      | succ k =>
          have hlater := ih hrest hround
          push_cast
          linarith

theorem Paced.enter_le_leave (h : Paced enter leave pause now rounds)
    (hround : rounds[k]? = some round) : enter round ≤ leave round := by
  induction rounds generalizing k now with
  | nil => cases hround
  | cons first rest ih =>
      obtain ⟨-, hleave, hrest⟩ := h
      cases k with
      | zero =>
          obtain rfl : first = round := Option.some.inj hround
          exact hleave
      | succ k => exact ih hrest hround

end StateBenchmarks.Control
