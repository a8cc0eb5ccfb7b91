/-
# Traces whose events are justified by their past

A safety property of a driver usually has the form "it does this only after
that".  Over the list of events a run performed, in order, this says that every
event is justified by the events before it.  The library is the closure rules
of that predicate: it is preserved by events that need no justification, by one
justified event at a time, and it is inherited by every earlier moment of the
run.
-/

import Mathlib.Data.List.Basic

namespace StateBenchmarks.Control

universe u

variable {E : Type u} {J : List E → E → Prop}

/-- Every event of the trace is justified by the events before it. -/
def Justified (J : List E → E → Prop) (trace : List E) : Prop :=
  ∀ (past : List E) (e : E) (future : List E), trace = past ++ e :: future → J past e

theorem justified_nil : Justified J [] := by
  intro past e future h
  simp at h

/-- One more event: the trace so far, and a justification for the event. -/
theorem justified_snoc_iff {trace : List E} {e : E} :
    Justified J (trace ++ [e]) ↔ Justified J trace ∧ J trace e := by
  constructor
  · intro h
    refine ⟨fun past e' future heq => ?_, h trace e [] rfl⟩
    exact h past e' (future ++ [e]) (by rw [heq, List.append_assoc]; rfl)
  · rintro ⟨htrace, he⟩ past e' future heq
    rcases List.eq_nil_or_concat future with rfl | ⟨future, last, rfl⟩
    · obtain ⟨rfl, hlast⟩ := List.append_inj' heq rfl
      cases hlast
      exact he
    · have hsplit : trace ++ [e] = (past ++ e' :: future) ++ [last] := by
        simpa [List.append_assoc] using heq
      exact htrace past e' future (List.append_inj' hsplit rfl).1

/-- Every earlier moment of a justified trace is justified. -/
theorem Justified.of_append {trace extra : List E} (h : Justified J (trace ++ extra)) :
    Justified J trace := by
  intro past e future heq
  exact h past e (future ++ extra) (by rw [heq, List.append_assoc]; rfl)

/-- Events that are justified whatever came before can be appended freely. -/
theorem Justified.append_free {trace extra : List E} (h : Justified J trace)
    (hfree : ∀ e ∈ extra, ∀ past, J past e) : Justified J (trace ++ extra) := by
  induction extra generalizing trace with
  | nil => simpa using h
  | cons e rest ih =>
      have hone : Justified J (trace ++ [e]) :=
        justified_snoc_iff.mpr ⟨h, hfree e List.mem_cons_self trace⟩
      have hrest := ih hone fun e' he' => hfree e' (List.mem_cons_of_mem _ he')
      simpa [List.append_assoc] using hrest

theorem justified_append_free_iff {trace extra : List E}
    (hfree : ∀ e ∈ extra, ∀ past, J past e) :
    Justified J (trace ++ extra) ↔ Justified J trace :=
  ⟨Justified.of_append, fun h => h.append_free hfree⟩

end StateBenchmarks.Control
