/-
# Scripts that can raise

A script is a program over an explicit state that ends with a value or with an
exception; the state it reached survives either way, as the effects of a shell
script do.  Lean's `EStateM` is that program type.  This module adds the
constructs of the source language it lacks (`except` clauses for some
exceptions, `finally`), and the rules that evaluate a script one statement at a
time.
-/

import Mathlib.Data.List.Basic

namespace StateBenchmarks.Control

universe u

/-- A program over states `σ` that returns an `α` or raises an `ε`. -/
abbrev Script (ε σ α : Type u) : Type u := EStateM ε σ α

namespace Script

variable {ε σ α β : Type u} {x : Script ε σ α} {f : α → Script ε σ β} {s t : σ}

/-- A computation that does not touch the state. -/
def ofExcept (x : Except ε α) : Script ε σ α := fun s =>
  match x with
  | .ok a => .ok a s
  | .error e => .error e s

theorem bind_of_ok {a : α} (h : x s = .ok a t) : (x >>= f) s = f a t := by
  show EStateM.bind x f s = f a t
  rw [EStateM.bind, h]

theorem bind_of_error {e : ε} (h : x s = .error e t) : (x >>= f) s = .error e t := by
  show EStateM.bind x f s = .error e t
  rw [EStateM.bind, h]

theorem ofExcept_bind {v : Except ε α} {a : α} (h : v = .ok a) :
    ((ofExcept v : Script ε σ α) >>= f) s = f a s := by
  rw [h]
  rfl

/-- A sequence returns exactly when both of its parts do. -/
theorem bind_eq_ok_iff {b : β} {t' : σ} :
    (x >>= f) s = .ok b t' ↔ ∃ a t, x s = .ok a t ∧ f a t = .ok b t' := by
  cases h : x s with
  | ok a t =>
      rw [bind_of_ok h]
      constructor
      · exact fun hf => ⟨a, t, rfl, hf⟩
      · rintro ⟨a', t'', heq, hf⟩
        cases heq
        exact hf
  | error e t =>
      rw [bind_of_error h]
      constructor
      · exact fun hf => by cases hf
      · rintro ⟨a', t'', heq, -⟩
        cases heq

/-- A sequence raises exactly when its first part does, or its second after it. -/
theorem bind_eq_error_iff {e : ε} {t' : σ} :
    (x >>= f) s = .error e t' ↔
      x s = .error e t' ∨ ∃ a t, x s = .ok a t ∧ f a t = .error e t' := by
  cases h : x s with
  | ok a t =>
      rw [bind_of_ok h]
      constructor
      · exact fun hf => Or.inr ⟨a, t, rfl, hf⟩
      · rintro (hx | ⟨a', t'', heq, hf⟩)
        · cases hx
        · cases heq
          exact hf
  | error e' t =>
      rw [bind_of_error h]
      constructor
      · intro heq
        cases heq
        exact Or.inl rfl
      · rintro (heq | ⟨a', t'', heq, -⟩)
        · cases heq
          rfl
        · cases heq

/-- `try: x / except …: handler`. -/
def handle (x : Script ε σ α) (handler : ε → Script ε σ α) : Script ε σ α := fun s =>
  match x s with
  | .ok a t => .ok a t
  | .error e t => handler e t

/-- `try: x / except E: pass`, where `caught` is the class `E`. -/
def suppress (caught : ε → Bool) (x : Script ε σ PUnit) : Script ε σ PUnit := fun s =>
  match x s with
  | .ok _ t => .ok ⟨⟩ t
  | .error e t => if caught e then .ok ⟨⟩ t else .error e t

/-- `try: x / finally: last`.  What `last` raises replaces what `x` raised. -/
def finallyDo (x : Script ε σ α) (last : Script ε σ PUnit) : Script ε σ α := fun s =>
  match x s with
  | .ok a t =>
      match last t with
      | .ok _ t' => .ok a t'
      | .error e t' => .error e t'
  | .error e t =>
      match last t with
      | .ok _ t' => .error e t'
      | .error e' t' => .error e' t'

/-- The state a script ends in, however it ends. -/
def stateOf : EStateM.Result ε σ α → σ
  | .ok _ t => t
  | .error _ t => t

/-- The script keeps `P`, also where it raises. -/
def Keeps (P : σ → Prop) (x : Script ε σ α) : Prop := ∀ s, P s → P (stateOf (x s))

/-- What holds after the first part of a sequence holds after it all, if the rest
keeps it. -/
theorem Keeps.after {P : σ → Prop} (hs : P (stateOf (x s))) (hf : ∀ a, Keeps P (f a)) :
    P (stateOf ((x >>= f) s)) := by
  cases h : x s with
  | ok a t =>
      rw [bind_of_ok h]
      rw [h] at hs
      exact hf a t hs
  | error e t =>
      rw [bind_of_error h]
      rw [h] at hs
      exact hs

/-- A sequence ends in `P` if its first part does where it raises, and the rest
does from wherever the first part returns. -/
theorem stateOf_bind {P : σ → Prop} (herror : ∀ e t, x s = .error e t → P t)
    (hok : ∀ a t, x s = .ok a t → P (stateOf (f a t))) : P (stateOf ((x >>= f) s)) := by
  cases h : x s with
  | ok a t =>
      rw [bind_of_ok h]
      exact hok a t h
  | error e t =>
      rw [bind_of_error h]
      exact herror e t h

/-- A sequence leads from `P` to `Q` if its first part keeps `P` and the rest leads
there. -/
theorem Keeps.leads {P Q : σ → Prop} (hx : Keeps P x) (hweaken : ∀ s, P s → Q s)
    (hf : ∀ a s, P s → Q (stateOf (f a s))) (hs : P s) : Q (stateOf ((x >>= f) s)) := by
  have hstep := hx s hs
  apply stateOf_bind
  · intro e t h
    rw [h] at hstep
    exact hweaken t hstep
  · intro a t h
    rw [h] at hstep
    exact hf a t hstep

theorem Keeps.bind {P : σ → Prop} (hx : Keeps P x) (hf : ∀ a, Keeps P (f a)) :
    Keeps P (x >>= f) :=
  fun s hs => Keeps.after (hx s hs) hf

theorem Keeps.pure {P : σ → Prop} (a : α) : Keeps P (pure a : Script ε σ α) := fun _ hs => hs

theorem Keeps.ofExcept {P : σ → Prop} (v : Except ε α) : Keeps P (ofExcept v : Script ε σ α) := by
  intro s hs
  cases v <;> exact hs

theorem Keeps.handle {P : σ → Prop} {handler : ε → Script ε σ α} (hx : Keeps P x)
    (hhandler : ∀ e, Keeps P (handler e)) : Keeps P (handle x handler) := by
  intro s hs
  have hstep := hx s hs
  rw [Script.handle]
  cases h : x s with
  | ok a t =>
      rw [h] at hstep
      exact hstep
  | error e t =>
      rw [h] at hstep
      exact hhandler e t hstep

/-- The last part runs wherever the body ended. -/
theorem stateOf_finallyDo (x : Script ε σ α) (last : Script ε σ PUnit) (s : σ) :
    stateOf (finallyDo x last s) = stateOf (last (stateOf (x s))) := by
  rw [Script.finallyDo]
  cases x s with
  | ok a t =>
      dsimp only [stateOf]
      cases last t <;> rfl
  | error e t =>
      dsimp only [stateOf]
      cases last t <;> rfl

/-- What holds where the body ends holds at the end, if the last part keeps it. -/
theorem Keeps.afterBody {P : σ → Prop} {last : Script ε σ PUnit} (hx : P (stateOf (x s)))
    (hlast : Keeps P last) : P (stateOf (finallyDo x last s)) := by
  rw [stateOf_finallyDo]
  exact hlast _ hx

theorem Keeps.finallyDo {P : σ → Prop} {last : Script ε σ PUnit} (hx : Keeps P x)
    (hlast : Keeps P last) : Keeps P (finallyDo x last) :=
  fun s hs => Keeps.afterBody (hx s hs) hlast

/-- Passing over an exception does not change the state. -/
theorem stateOf_suppress (caught : ε → Bool) (x : Script ε σ PUnit) (s : σ) :
    stateOf (suppress caught x s) = stateOf (x s) := by
  rw [suppress]
  cases x s with
  | ok a t => rfl
  | error e t =>
      dsimp only
      split_ifs <;> rfl

/-- Where every exception is passed over, the script returns. -/
theorem suppress_all (x : Script ε σ PUnit) (s : σ) :
    suppress (fun _ => true) x s = .ok ⟨⟩ (stateOf (x s)) := by
  rw [suppress]
  cases x s <;> rfl

theorem Keeps.suppress {P : σ → Prop} {caught : ε → Bool} {x : Script ε σ PUnit}
    (hx : Keeps P x) : Keeps P (suppress caught x) := by
  intro s hs
  rw [stateOf_suppress]
  exact hx s hs

/-- The script never returns. -/
def Raises (x : Script ε σ α) : Prop := ∀ s, ∃ e t, x s = .error e t

/-- Nothing that follows an exception happens. -/
theorem Raises.bind (hx : Raises x) (f : α → Script ε σ β) : Raises (x >>= f) := by
  intro s
  obtain ⟨e, t, h⟩ := hx s
  exact ⟨e, t, bind_of_error h⟩

theorem Raises.after (x : Script ε σ α) (hf : ∀ a, Raises (f a)) : Raises (x >>= f) := by
  intro s
  cases h : x s with
  | ok a t =>
      rw [bind_of_ok h]
      exact hf a t
  | error e t => exact ⟨e, t, bind_of_error h⟩

theorem Keeps.bind_of_raises {P : σ → Prop} (hx : Keeps P x) (hraises : Raises x) :
    Keeps P (x >>= f) := by
  intro s hs
  have hstep := hx s hs
  obtain ⟨e, t, h⟩ := hraises s
  rw [bind_of_error h]
  rw [h] at hstep
  exact hstep

/-- From `s` the script returns, with a value and in a state that satisfy `Q`. -/
def Returns (x : Script ε σ α) (s : σ) (Q : α → σ → Prop) : Prop :=
  ∃ a t, x s = .ok a t ∧ Q a t

theorem Returns.pure {Q : α → σ → Prop} {a : α} (h : Q a s) :
    Returns (pure a : Script ε σ α) s Q := ⟨a, s, rfl, h⟩

theorem Returns.bind {Q : α → σ → Prop} {R : β → σ → Prop} (hx : Returns x s Q)
    (hf : ∀ a t, Q a t → Returns (f a) t R) : Returns (x >>= f) s R := by
  obtain ⟨a, t, hstep, hQ⟩ := hx
  rw [Returns, bind_of_ok hstep]
  exact hf a t hQ

theorem Returns.ofExcept {Q : α → σ → Prop} {v : Except ε α} {a : α} (hv : v = .ok a)
    (h : Q a s) : Returns (ofExcept v : Script ε σ α) s Q := by
  rw [hv]
  exact ⟨a, s, rfl, h⟩

theorem Returns.handle {Q : α → σ → Prop} {handler : ε → Script ε σ α}
    (hx : ∀ a t, x s = .ok a t → Q a t)
    (hhandler : ∀ e t, x s = .error e t → Returns (handler e) t Q) :
    Returns (handle x handler) s Q := by
  rw [Returns, Script.handle]
  cases h : x s with
  | ok a t => exact ⟨a, t, rfl, hx a t h⟩
  | error e t => exact hhandler e t h

/-- A script whose exceptions are all passed over returns. -/
theorem Returns.suppress {caught : ε → Bool} {x : Script ε σ PUnit}
    (h : ∀ e t, x s = .error e t → caught e = true) :
    Returns (suppress caught x) s fun _ _ => True := by
  rw [Returns, Script.suppress]
  cases hx : x s with
  | ok a t => exact ⟨⟨⟩, t, rfl, trivial⟩
  | error e t =>
      dsimp only
      rw [if_pos (h e t hx)]
      exact ⟨⟨⟩, t, rfl, trivial⟩

/-- What a script that returns keeps, it keeps besides. -/
theorem Returns.keeping {P : σ → Prop} {Q : α → σ → Prop} (hx : Returns x s Q)
    (hkeeps : Keeps P x) (hs : P s) : Returns x s fun a t => Q a t ∧ P t := by
  obtain ⟨a, t, hstep, hQ⟩ := hx
  have hend := hkeeps s hs
  rw [hstep] at hend
  exact ⟨a, t, hstep, hQ, hend⟩

/-- After a part that returns, the state reached is that of the rest. -/
theorem Returns.after {P : σ → Prop} {Q : α → σ → Prop} (hx : Returns x s Q)
    (hf : ∀ a t, Q a t → P (stateOf (f a t))) : P (stateOf ((x >>= f) s)) := by
  obtain ⟨a, t, hstep, hQ⟩ := hx
  rw [bind_of_ok hstep]
  exact hf a t hQ

theorem forM_cons (f : α → Script ε σ PUnit) (a : α) (rest : List α) :
    (a :: rest).forM f s = (f a >>= fun _ => rest.forM f) s := rfl

/-- A loop over steps whose success does not depend on the state returns exactly
when all of them succeed, and is then a fold of their effects. -/
theorem forM_eq_ok_iff {f : α → Script ε σ PUnit} {succeeds : α → Prop} {effect : α → σ → σ}
    (h : ∀ a s t, f a s = .ok ⟨⟩ t ↔ succeeds a ∧ t = effect a s) (items : List α) (s t : σ) :
    items.forM f s = .ok ⟨⟩ t ↔
      (∀ a ∈ items, succeeds a) ∧ t = items.foldl (fun t a => effect a t) s := by
  induction items generalizing s with
  | nil =>
      show EStateM.Result.ok _ s = .ok _ t ↔ _
      constructor
      · intro heq
        cases heq
        exact ⟨nofun, rfl⟩
      · rintro ⟨-, rfl⟩
        rfl
  | cons a rest ih =>
      rw [forM_cons, bind_eq_ok_iff, List.forall_mem_cons, List.foldl_cons]
      constructor
      · rintro ⟨⟨⟩, s', hstep, hrest⟩
        obtain ⟨ha, rfl⟩ := (h a s s').mp hstep
        obtain ⟨hall, ht⟩ := (ih _).mp hrest
        exact ⟨⟨ha, hall⟩, ht⟩
      · rintro ⟨⟨ha, hall⟩, ht⟩
        exact ⟨⟨⟩, effect a s, (h a s _).mpr ⟨ha, rfl⟩, (ih _).mpr ⟨hall, ht⟩⟩

theorem Keeps.forM {P : σ → Prop} {f : α → Script ε σ PUnit} (h : ∀ a, Keeps P (f a))
    (items : List α) : Keeps P (items.forM f) := by
  induction items with
  | nil => exact Keeps.pure _
  | cons a rest ih => exact Keeps.bind (h a) fun _ => ih

end Script

end StateBenchmarks.Control
