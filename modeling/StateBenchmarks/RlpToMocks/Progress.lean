/-
# The decoder ends on every input

The termination of `decode` is built into its definition.  Here `_decode` runs as a
machine instead, with the stack of its open calls and no bound on anything: a call reads
a header, a loop asks for the next item or returns its list, and an item that is
returned moves the cursor of the loop that asked for it.  Nothing about the machine says
that it stops.

It stops because every item starts behind the one before it and inside of the input, so
neither nesting nor a declared length can make a loop go round more often than there
are bytes.
-/

import StateBenchmarks.RlpToMocks.Decode
import Mathlib.Computability.StateTransition

namespace StateBenchmarks.RlpToMocks

open Python Rlp StateTransition

/-- The loop of a list: the offset of its header, its declared `end`, the items read so
far and the cursor. -/
structure ListLoop where
  offset : ℕ
  stop : ℕ
  items : List Item
  cursor : ℕ

/-- What `_decode` is doing, and the loops that wait for it, the innermost first: it has
been called, it tests a loop's condition, it returns, or an index was out of range. -/
inductive Machine where
  | call (o : ℕ) (waiting : List ListLoop)
  | loop (current : ListLoop) (waiting : List ListLoop)
  | returned (item : Item) (next : ℕ) (waiting : List ListLoop)
  | raised (o : ℕ)

/-- `item, cursor = _decode(b, cursor); items.append(item)`, once the call returned. -/
def ListLoop.resume (l : ListLoop) (item : Item) (next : ℕ) : ListLoop :=
  { l with items := l.items ++ [item], cursor := next }

/-- One step of `_decode`. -/
def Machine.step (b : Bytes) : Machine → Option Machine
  | .call o waiting =>
      match b[o]? with
      | none => some (.raised o)
      | some first =>
          let e := extent b o first
          if e.isList then some (.loop ⟨o, e.stop, [], e.start⟩ waiting)
          else some (.returned (.bytes (slice b e.start e.stop)) e.stop waiting)
  | .loop current waiting =>
      if current.cursor < current.stop then some (.call current.cursor (current :: waiting))
      else some (.returned (.list current.items) current.stop waiting)
  | .returned item next (current :: waiting) => some (.loop (current.resume item next) waiting)
  | .returned _ _ [] => none
  | .raised _ => none

namespace Machine

variable {b : Bytes} {o : ℕ} {e : Extent} {current : ListLoop} {waiting : List ListLoop}

theorem step_call_of_none (h : extentAt b o = none) :
    step b (.call o waiting) = some (.raised o) := by
  rw [extentAt, Option.map_eq_none_iff] at h
  rw [step, h]

theorem step_call_of_string (he : extentAt b o = some e) (hstring : e.isList = false) :
    step b (.call o waiting) =
      some (.returned (.bytes (slice b e.start e.stop)) e.stop waiting) := by
  obtain ⟨first, hfirst, rfl⟩ := Option.map_eq_some_iff.mp he
  rw [step, hfirst]
  simp [hstring]

theorem step_call_of_list (he : extentAt b o = some e) (hlist : e.isList = true) :
    step b (.call o waiting) = some (.loop ⟨o, e.stop, [], e.start⟩ waiting) := by
  obtain ⟨first, hfirst, rfl⟩ := Option.map_eq_some_iff.mp he
  rw [step, hfirst]
  simp [hlist]

theorem step_loop_of_lt (h : current.cursor < current.stop) :
    step b (.loop current waiting) = some (.call current.cursor (current :: waiting)) := by
  rw [step, if_pos h]

theorem step_loop_of_le (h : current.stop ≤ current.cursor) :
    step b (.loop current waiting) =
      some (.returned (.list current.items) current.stop waiting) := by
  rw [step, if_neg (Nat.not_lt_of_le h)]

/-- The machine stops where the recursive function does: it returns what that returns,
and raises where an item starts at the end of the input or behind it. -/
inductive Settles (b : Bytes) (waiting : List ListLoop) : Except Exn (Item × ℕ) → Machine → Prop
  | returned (item : Item) (next : ℕ) :
      Settles b waiting (.ok (item, next)) (.returned item next waiting)
  | raised (o : ℕ) (h : b.length ≤ o) : Settles b waiting (.error .indexError) (.raised o)

theorem Settles.step_eq_none {result : Except Exn (Item × ℕ)} {final : Machine}
    (h : Settles b [] result final) : step b final = none := by
  cases h with
  | returned => rfl
  | raised => rfl

/-- The run of a loop. -/
def LoopSettles (b : Bytes) (current : ListLoop) : Prop :=
  ∀ waiting, ∃ final, Reaches (step b) (.loop current waiting) final ∧
    Settles b waiting ((decodeItems b current.cursor current.stop).map fun items =>
      (.list (current.items ++ items), current.stop)) final

/-- A call, where the loops behind its offset are known to end. -/
theorem call_settles_of (hloops : ∀ current : ListLoop, o < current.cursor →
    LoopSettles b current) (waiting : List ListLoop) :
    ∃ final, Reaches (step b) (.call o waiting) final ∧ Settles b waiting (decodeAt b o) final := by
  rw [decodeAt_eq]
  cases he : extentAt b o with
  | none =>
      refine ⟨.raised o, .single (step_call_of_none he), ?_⟩
      exact .raised o (extentAt_eq_none_iff.mp he)
  | some e =>
      dsimp only
      by_cases hlist : e.isList = true
      · rw [if_pos hlist]
        obtain ⟨final, hreach, hsettles⟩ :=
          hloops ⟨o, e.stop, [], e.start⟩ (lt_start_of_extentAt he hlist) waiting
        exact ⟨final, .head (step_call_of_list he hlist) hreach, hsettles⟩
      · rw [if_neg hlist]
        exact ⟨_, .single (step_call_of_string he (Bool.eq_false_of_not_eq_true hlist)),
          .returned _ _⟩

/-- Every loop ends.  The induction is on what is left of the input after the cursor. -/
theorem loop_settles (b : Bytes) (current : ListLoop) : LoopSettles b current := by
  induction hleft : b.length - current.cursor using Nat.strong_induction_on
    generalizing current with
  | h left ih =>
      intro waiting
      by_cases hlt : current.cursor < current.stop
      · by_cases hin : current.cursor < b.length
        · have hlater : ∀ later : ListLoop, current.cursor < later.cursor →
              LoopSettles b later := by
            intro later hlater
            exact ih (b.length - later.cursor) (by omega) later rfl
          obtain ⟨final, hreach, hsettles⟩ := call_settles_of hlater (current :: waiting)
          have hcall : Reaches (step b) (.loop current waiting) final :=
            .head (step_loop_of_lt hlt) hreach
          rw [decodeItems_eq, if_pos hlt]
          cases hdecode : decodeAt b current.cursor with
          | error err =>
              rw [hdecode] at hsettles
              cases hsettles with
              | raised o h => exact ⟨_, hcall, .raised o h⟩
          | ok result =>
              obtain ⟨item, next⟩ := result
              rw [hdecode] at hsettles
              cases hsettles with
              | returned =>
                  obtain ⟨e, he, rfl⟩ := next_of_decodeAt hdecode
                  obtain ⟨last, hrest, hlast⟩ := hlater (current.resume item e.stop)
                    (lt_stop_of_extentAt he) waiting
                  refine ⟨last, (hcall.tail rfl).trans hrest, ?_⟩
                  have hitems : (decodeItems b e.stop current.stop).map (fun items =>
                      (Item.list ((current.items ++ [item]) ++ items), current.stop)) =
                      ((decodeItems b e.stop current.stop).map (item :: ·)).map fun items =>
                        (Item.list (current.items ++ items), current.stop) := by
                    cases decodeItems b e.stop current.stop with
                    | error err => rfl
                    | ok rest => simp [Except.map]
                  rw [← hitems]
                  exact hlast
        · have hend := Nat.le_of_not_lt hin
          rw [decodeItems_of_length_le hlt hend]
          refine ⟨.raised current.cursor, ?_, .raised _ hend⟩
          exact .tail (.single (step_loop_of_lt hlt))
            (step_call_of_none (extentAt_eq_none_iff.mpr hend))
      · have hle := Nat.le_of_not_lt hlt
        rw [decodeItems_of_le hle]
        refine ⟨_, .single (step_loop_of_le hle), ?_⟩
        rw [Except.map, List.append_nil]
        exact .returned _ _

theorem call_settles (b : Bytes) (o : ℕ) (waiting : List ListLoop) :
    ∃ final, Reaches (step b) (.call o waiting) final ∧ Settles b waiting (decodeAt b o) final :=
  call_settles_of (fun current _ => loop_settles b current) waiting

end Machine

/-- The end a header declares: behind its one byte, behind as many bytes as the first byte
says, or behind as many as the `len_len` bytes after it say. -/
inductive DeclaredEnd (b : Bytes) (o : ℕ) (first : UInt8) : ℕ → Prop
  | byte (hfirst : first.toNat < 0x80) : DeclaredEnd b o first (o + 1)
  | short (length : ℕ) (hlength : length ≤ 55)
      (hfirst : first.toNat = 0x80 + length ∨ first.toNat = 0xc0 + length) :
      DeclaredEnd b o first (o + 1 + length)
  | long (lenLen : ℕ) (hpos : 1 ≤ lenLen) (hle : lenLen ≤ 8)
      (hfirst : first.toNat = 0xb7 + lenLen ∨ first.toNat = 0xf7 + lenLen) :
      DeclaredEnd b o first (o + 1 + lenLen + fromBytes (slice b (o + 1) (o + 1 + lenLen)))

theorem declaredEnd_extent (b : Bytes) (o : ℕ) (first : UInt8) :
    DeclaredEnd b o first (extent b o first).stop := by
  have hbyte := first.toNat_lt
  unfold extent
  dsimp only
  split_ifs with h80 hb8 hc0 hf8
  · exact .byte h80
  · exact .short _ (by omega) (.inl (by omega))
  · exact .long _ (by omega) (by omega) (.inl (by omega))
  · exact .short _ (by omega) (.inr (by omega))
  · exact .long _ (by omega) (by omega) (.inr (by omega))

/-- There is an item at `o`, and its header declares the end `next`. -/
def EndsAt (b : Bytes) (o next : ℕ) : Prop :=
  ∃ first, b[o]? = some first ∧ DeclaredEnd b o first next ∧ o < next

theorem endsAt_of_extentAt {b : Bytes} {o : ℕ} {e : Extent} (he : extentAt b o = some e) :
    EndsAt b o e.stop := by
  obtain ⟨first, hfirst, rfl⟩ := Option.map_eq_some_iff.mp he
  exact ⟨first, hfirst, declaredEnd_extent b o first, lt_extent_stop b o first⟩

theorem EndsAt.lt_length {b : Bytes} {o next : ℕ} (h : EndsAt b o next) : o < b.length := by
  obtain ⟨first, hfirst, -⟩ := h
  exact (List.getElem?_eq_some_iff.mp hfirst).1

theorem EndsAt.lt {b : Bytes} {o next : ℕ} (h : EndsAt b o next) : o < next := by
  obtain ⟨-, -, -, hlt⟩ := h
  exact hlt

/-- A loop stands behind its header with its cursor, by a byte or more for every item it
has read, and all of these bytes are inside of the input. -/
structure ListLoop.Sound (b : Bytes) (l : ListLoop) : Prop where
  header : EndsAt b l.offset l.stop
  moved : l.offset + l.items.length < l.cursor
  inside : l.offset + l.items.length < b.length

theorem ListLoop.Sound.resume {b : Bytes} {l : ListLoop} {next : ℕ} (h : l.Sound b)
    (hends : EndsAt b l.cursor next) (item : Item) : (l.resume item next).Sound b where
  header := h.header
  moved := by
    have hmoved := h.moved
    have hlt := hends.lt
    simp only [ListLoop.resume, List.length_append, List.length_singleton]
    omega
  inside := by
    have hmoved := h.moved
    have hin := hends.lt_length
    simp only [ListLoop.resume, List.length_append, List.length_singleton]
    omega

/-- The loops that wait for the item at `o`: the innermost at `o` itself, the next one at
the header of that loop, and so on. -/
def Awaited (b : Bytes) : ℕ → List ListLoop → Prop
  | _, [] => True
  | o, l :: waiting => l.cursor = o ∧ l.Sound b ∧ Awaited b l.offset waiting

namespace Machine

/-- The invariant of the machine. -/
def Sound (b : Bytes) : Machine → Prop
  | .call o waiting => Awaited b o waiting
  | .loop current waiting => current.Sound b ∧ Awaited b current.offset waiting
  | .returned _ next waiting => ∃ o, EndsAt b o next ∧ Awaited b o waiting
  | .raised o => b.length ≤ o

variable {b : Bytes} {m m' : Machine}

theorem sound_of_step (h : m.Sound b) (hstep : m.step b = some m') : m'.Sound b := by
  cases m with
  | call o waiting =>
      cases he : extentAt b o with
      | none =>
          rw [step_call_of_none he] at hstep
          cases hstep
          exact extentAt_eq_none_iff.mp he
      | some e =>
          have hends := endsAt_of_extentAt he
          cases hlist : e.isList with
          | false =>
              rw [step_call_of_string he hlist] at hstep
              cases hstep
              exact ⟨o, hends, h⟩
          | true =>
              rw [step_call_of_list he hlist] at hstep
              cases hstep
              exact ⟨⟨hends, lt_start_of_extentAt he hlist, hends.lt_length⟩, h⟩
  | loop current waiting =>
      by_cases hlt : current.cursor < current.stop
      · rw [step_loop_of_lt hlt] at hstep
        cases hstep
        exact ⟨rfl, h⟩
      · rw [step_loop_of_le (Nat.le_of_not_lt hlt)] at hstep
        cases hstep
        exact ⟨current.offset, h.1.header, h.2⟩
  | returned item next waiting =>
      cases waiting with
      | nil => cases hstep
      | cons current waiting =>
          cases hstep
          obtain ⟨o, hends, rfl, hcurrent, hwaiting⟩ := h
          exact ⟨hcurrent.resume hends item, hwaiting⟩
  | raised o => cases hstep

/-- The invariant holds of everything a call comes to. -/
theorem sound_of_reaches {o : ℕ} (h : Reaches (step b) (.call o []) m) : m.Sound b := by
  induction h with
  | refl => exact trivial
  | tail _ hstep ih => exact sound_of_step ih hstep

end Machine

/-- A call of `_decode` makes progress and ends: the machine stops, with the result of
`decode` or an `IndexError` because an item starts at the end of the input or behind it;
the item that is returned ends where its header declares, behind its start; whatever the
list loops come to on the way, an item that returns to one moves its cursor on, to where
that item's header says; and no loop reads as many items as there are bytes. -/
structure Progresses (b : Bytes) (o : ℕ) : Prop where
  ends : ∃ final ∈ eval (Machine.step b) (.call o []),
    Machine.Settles b [] (decodeAt b o) final
  next : ∀ item next, decodeAt b o = .ok (item, next) → EndsAt b o next
  advances : ∀ item next current waiting,
    Reaches (Machine.step b) (.call o []) (.returned item next (current :: waiting)) →
      current.cursor < next ∧ EndsAt b current.cursor next
  bounded : ∀ current waiting, Reaches (Machine.step b) (.call o []) (.loop current waiting) →
    current.items.length < b.length

/-- **`_decode` makes progress and ends on every input, at every offset.** -/
theorem decode_progresses (b : Bytes) (o : ℕ) : Progresses b o where
  ends := by
    obtain ⟨final, hreach, hsettles⟩ := Machine.call_settles b o []
    exact ⟨final, mem_eval.mpr ⟨hreach, hsettles.step_eq_none⟩, hsettles⟩
  next := by
    intro item next hdecode
    obtain ⟨e, he, rfl⟩ := next_of_decodeAt hdecode
    exact endsAt_of_extentAt he
  advances := by
    intro item next current waiting hreach
    obtain ⟨o, hends, rfl, -⟩ := Machine.sound_of_reaches hreach
    exact ⟨hends.lt, hends⟩
  bounded := by
    intro current waiting hreach
    have hin := (Machine.sound_of_reaches hreach).1.inside
    omega

end StateBenchmarks.RlpToMocks
