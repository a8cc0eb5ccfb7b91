/-
# Programs that talk to a server

A program asks a server one question after another, and what it does next depends on
the answers.  The server belongs to others as well: its state goes on changing between
the questions, and a question can fail.  The program is a tree of its questions, so what
it does is a function and what the server does is a relation.

`Safe` says what a program promises whenever it asks, and what it ensures where it
ends.  A session starts a program again and again on one server, and `Guarantees` is
the rule for everything such a session comes to.
-/

import Mathlib.Logic.Relation

namespace StateBenchmarks.Control

/-- A program that asks questions `Q`, whose answers have the types `A`, and returns an `α`
or raises an `ε`. -/
inductive Dialogue (Q : Type) (A : Q → Type) (ε α : Type) where
  | ret (a : α)
  | raise (e : ε)
  | ask (q : Q) (next : Except ε (A q) → Dialogue Q A ε α)

variable {Q : Type} {A : Q → Type} {ε α β σ : Type}

namespace Dialogue

/-- One program after the other. -/
def bind : Dialogue Q A ε α → (α → Dialogue Q A ε β) → Dialogue Q A ε β
  | .ret a, f => f a
  | .raise e, _ => .raise e
  | .ask q next, f => .ask q fun r => (next r).bind f

instance : Monad (Dialogue Q A ε) where
  pure := .ret
  bind := bind

/-- A computation that asks nothing. -/
def ofExcept : Except ε α → Dialogue Q A ε α
  | .ok a => .ret a
  | .error e => .raise e

/-- Ask a question; if it fails, so does the program. -/
def query (q : Q) : Dialogue Q A ε (A q) := .ask q ofExcept

/-- Ask a question and look at how it went. -/
def attempt (q : Q) : Dialogue Q A ε (Except ε (A q)) := .ask q .ret

/-- The run against a server that answers every question at once and always the same. -/
def run (handler : (q : Q) → Except ε (A q)) : Dialogue Q A ε α → Except ε α
  | .ret a => .ok a
  | .raise e => .error e
  | .ask q next => (next (handler q)).run handler

/-- The program asks only questions that satisfy `P`, whatever the answers are. -/
def Asks (P : Q → Prop) : Dialogue Q A ε α → Prop
  | .ret _ => True
  | .raise _ => True
  | .ask q next => P q ∧ ∀ r, (next r).Asks P

theorem Asks.bind {P : Q → Prop} {d : Dialogue Q A ε α} {f : α → Dialogue Q A ε β}
    (hd : d.Asks P) (hf : ∀ a, (f a).Asks P) : (d >>= f).Asks P := by
  induction d with
  | ret a => exact hf a
  | raise e => exact trivial
  | ask q next ih => exact ⟨hd.1, fun r => ih r (hd.2 r)⟩

theorem Asks.query {P : Q → Prop} {q : Q} (hq : P q) :
    (query q : Dialogue Q A ε (A q)).Asks P := by
  refine ⟨hq, fun r => ?_⟩
  cases r <;> exact trivial

theorem Asks.attempt {P : Q → Prop} {q : Q} (hq : P q) :
    (attempt q : Dialogue Q A ε (Except ε (A q))).Asks P := ⟨hq, fun _ => trivial⟩

end Dialogue

/-- What a server may do: change by itself, and reply to a question.  A reply may come
after the server has changed by itself. -/
structure Server (Q : Type) (A : Q → Type) (ε σ : Type) where
  moves : σ → σ → Prop
  replies : σ → (q : Q) → Except ε (A q) → σ → Prop
  replies_of_moves : ∀ {s t u q r}, moves s t → replies t q r u → replies s q r u

namespace Server

/-- The server that answers every question at once and never changes. -/
def still (handler : (q : Q) → Except ε (A q)) : Server Q A ε σ where
  moves s t := t = s
  replies s q r t := t = s ∧ r = handler q
  replies_of_moves := by
    rintro s t u q r rfl hreplies
    exact hreplies

/-- The server in the runs on which it comes to states `P` only. -/
def within (server : Server Q A ε σ) (P : σ → Prop) : Server Q A ε σ where
  moves s t := server.moves s t ∧ P t
  replies s q r t := server.replies s q r t ∧ P t
  replies_of_moves := by
    rintro s t u q r ⟨hmoves, -⟩ ⟨hreplies, hu⟩
    exact ⟨server.replies_of_moves hmoves hreplies, hu⟩

end Server

namespace Dialogue

variable {server : Server Q A ε σ} {promise : σ → Q → Prop}
  {ensures ensures' : Except ε α → σ → Prop} {d : Dialogue Q A ε α} {s t : σ}

/-- Started in `s`, the program keeps its promise at every question it asks, and ends, if it
does, in a state that it ensures. -/
def Safe (server : Server Q A ε σ) (promise : σ → Q → Prop) (ensures : Except ε α → σ → Prop) :
    Dialogue Q A ε α → σ → Prop
  | .ret a, s => ensures (.ok a) s
  | .raise e, s => ensures (.error e) s
  | .ask q next, s =>
      promise s q ∧ ∀ r t, server.replies s q r t → Safe server promise ensures (next r) t

/-- What is ensured of a program that returns. -/
def onReturn (good : σ → α → Prop) : Except ε α → σ → Prop
  | .ok a, t => good t a
  | .error _, _ => True

theorem Safe.mono (h : Safe server promise ensures d s)
    (hmono : ∀ r t, ensures r t → ensures' r t) : Safe server promise ensures' d s := by
  induction d generalizing s with
  | ret a => exact hmono _ _ h
  | raise e => exact hmono _ _ h
  | ask q next ih => exact ⟨h.1, fun r t hreplies => ih r (h.2 r t hreplies)⟩

/-- One program after the other: the second starts where the first returns. -/
theorem Safe.bind {f : α → Dialogue Q A ε β} {last : Except ε β → σ → Prop}
    (hd : Safe server promise ensures d s)
    (hok : ∀ a t, ensures (.ok a) t → Safe server promise last (f a) t)
    (herror : ∀ e t, ensures (.error e) t → last (.error e) t) :
    Safe server promise last (d >>= f) s := by
  induction d generalizing s with
  | ret a => exact hok a s hd
  | raise e => exact herror e s hd
  | ask q next ih => exact ⟨hd.1, fun r t hreplies => ih r (hd.2 r t hreplies)⟩

theorem Safe.query {q : Q} {last : Except ε (A q) → σ → Prop} (hpromise : promise s q)
    (hreplies : ∀ r t, server.replies s q r t → last r t) :
    Safe server promise last (query q) s := by
  refine ⟨hpromise, fun r t h => ?_⟩
  cases r with
  | ok a => exact hreplies _ t h
  | error e => exact hreplies _ t h

/-- A program that asks only harmless questions keeps what their replies keep. -/
theorem Safe.of_asks {P : Q → Prop} {keeps : σ → Prop} (hd : d.Asks P) (hs : keeps s)
    (hpromise : ∀ s q, keeps s → P q → promise s q)
    (hreplies : ∀ s q r t, keeps s → P q → server.replies s q r t → keeps t) :
    Safe server promise (fun _ t => keeps t) d s := by
  induction d generalizing s with
  | ret a => exact hs
  | raise e => exact hs
  | ask q next ih =>
      refine ⟨hpromise s q hs hd.1, fun r t h => ?_⟩
      exact ih r (hd.2 r) (hreplies s q r t hs hd.1 h)

/-- What is safe stays so while the server changes by itself. -/
theorem Safe.moves (h : Safe server promise ensures d s) (hmoves : server.moves s t)
    (hpromise : ∀ q, promise s q → promise t q) (hensures : ∀ r, ensures r s → ensures r t) :
    Safe server promise ensures d t := by
  cases d with
  | ret a => exact hensures _ h
  | raise e => exact hensures _ h
  | ask q next =>
      refine ⟨hpromise q h.1, fun r u hreplies => ?_⟩
      exact h.2 r u (server.replies_of_moves hmoves hreplies)

/-- Against a server that never changes, what a program ensures holds of its run. -/
theorem Safe.run {handler : (q : Q) → Except ε (A q)}
    (h : Safe (Server.still handler) promise ensures d s) : ensures (d.run handler) s := by
  induction d with
  | ret a => exact h
  | raise e => exact h
  | ask q next ih => exact ih (handler q) (h.2 (handler q) s ⟨rfl, rfl⟩)

end Dialogue

/-- A server, the program that talks to it if one does, and what the programs before it
returned. -/
structure Session (Q : Type) (A : Q → Type) (ε α σ : Type) where
  state : σ
  running : Option (Dialogue Q A ε α)
  results : List α

namespace Session

variable {server : Server Q A ε σ} {begins : σ → Dialogue Q A ε α → Prop} {initial : σ → Prop}
  {c c' : Session Q A ε α σ}

/-- One step of a session.  A program can end at any time without a result: it raises, or
it is stopped from outside. -/
inductive Step (server : Server Q A ε σ) (begins : σ → Dialogue Q A ε α → Prop) :
    Session Q A ε α σ → Session Q A ε α σ → Prop
  | moves {c t} (hmoves : server.moves c.state t) : Step server begins c { c with state := t }
  | begins {c d} (hidle : c.running = none) (hbegins : begins c.state d) :
      Step server begins c { c with running := some d }
  | answered {c q next r t} (hrunning : c.running = some (.ask q next))
      (hreplies : server.replies c.state q r t) :
      Step server begins c { c with state := t, running := some (next r) }
  | returned {c a} (hrunning : c.running = some (.ret a)) :
      Step server begins c { c with running := none, results := c.results ++ [a] }
  | stopped {c d} (hrunning : c.running = some d) :
      Step server begins c { c with running := none }

/-- The sessions that start on a server in an initial state. -/
def Reached (server : Server Q A ε σ) (begins : σ → Dialogue Q A ε α → Prop) (initial : σ → Prop)
    (c : Session Q A ε α σ) : Prop :=
  ∃ s, initial s ∧ Relation.ReflTransGen (Step server begins) ⟨s, none, []⟩ c

/-- What makes a session safe: the server keeps an invariant as long as the programs keep
their promises, and every program that begins keeps them and returns a good result.
Promises and results do not go bad while the server changes. -/
structure Guarantees (server : Server Q A ε σ) (begins : σ → Dialogue Q A ε α → Prop)
    (initial invariant : σ → Prop) (promise : σ → Q → Prop) (good : σ → α → Prop) : Prop where
  invariant_initial : ∀ {s}, initial s → invariant s
  invariant_moves : ∀ {s t}, invariant s → server.moves s t → invariant t
  invariant_replies : ∀ {s t q r}, invariant s → promise s q → server.replies s q r t → invariant t
  promise_moves : ∀ {s t q}, promise s q → server.moves s t → promise t q
  good_moves : ∀ {s t a}, good s a → server.moves s t → good t a
  good_replies : ∀ {s t q r a}, good s a → server.replies s q r t → good t a
  safe : ∀ {s d}, invariant s → begins s d →
    Dialogue.Safe server promise (Dialogue.onReturn good) d s

/-- What then holds of a session. -/
structure Sound (server : Server Q A ε σ) (invariant : σ → Prop) (promise : σ → Q → Prop)
    (good : σ → α → Prop) (c : Session Q A ε α σ) : Prop where
  invariant : invariant c.state
  running : ∀ d, c.running = some d →
    Dialogue.Safe server promise (Dialogue.onReturn good) d c.state
  results : ∀ a ∈ c.results, good c.state a

variable {invariant : σ → Prop} {promise : σ → Q → Prop} {good : σ → α → Prop}

theorem Sound.step (h : Guarantees server begins initial invariant promise good)
    (hc : Sound server invariant promise good c) (hstep : Step server begins c c') :
    Sound server invariant promise good c' := by
  cases hstep with
  | moves hmoves =>
      refine ⟨h.invariant_moves hc.invariant hmoves, ?_, ?_⟩
      · intro d hd
        refine (hc.running d hd).moves hmoves (fun _ hpromise => h.promise_moves hpromise hmoves) ?_
        intro r hgood
        cases r with
        | ok a => exact h.good_moves hgood hmoves
        | error e => exact trivial
      · intro a ha
        exact h.good_moves (hc.results a ha) hmoves
  | begins hidle hbegins =>
      refine ⟨hc.invariant, ?_, hc.results⟩
      rintro d ⟨⟩
      exact h.safe hc.invariant hbegins
  | answered hrunning hreplies =>
      have hask := hc.running _ hrunning
      refine ⟨h.invariant_replies hc.invariant hask.1 hreplies, ?_, ?_⟩
      · rintro d ⟨⟩
        exact hask.2 _ _ hreplies
      · intro a ha
        exact h.good_replies (hc.results a ha) hreplies
  | returned hrunning =>
      refine ⟨hc.invariant, ?_, ?_⟩
      · rintro d ⟨⟩
      · intro a ha
        rcases List.mem_append.mp ha with hold | hnew
        · exact hc.results a hold
        · rw [List.mem_singleton.mp hnew]
          exact hc.running _ hrunning
  | stopped hrunning =>
      refine ⟨hc.invariant, ?_, hc.results⟩
      rintro d ⟨⟩

/-- The rule of sessions: what is guaranteed of every step holds of all they come to. -/
theorem Guarantees.sound (h : Guarantees server begins initial invariant promise good)
    (hreached : Reached server begins initial c) : Sound server invariant promise good c := by
  obtain ⟨s, hs, hsteps⟩ := hreached
  induction hsteps with
  | refl =>
      refine ⟨h.invariant_initial hs, ?_, ?_⟩
      · rintro d ⟨⟩
      · rintro a ⟨⟩
  | tail _ hstep ih => exact ih.step h hstep

end Session

end StateBenchmarks.Control
