/-
# JSON values as Python sees them

Engine answers, payload files and metrics files all reach the program through
`json.loads`, and the code then treats the result as an ordinary Python value:
it tests its truth, calls `.get` on it, compares it with `==` and interpolates
it into messages.  This module fixes those operations once.

Text built by an f-string keeps its interpolated values symbolic: printing a
float or a nested container is Python's business, and no property here depends
on the characters it chooses.
-/

import StateBenchmarks.Python.Text
import Mathlib.Data.List.Forall2
import Mathlib.Data.List.Induction

namespace StateBenchmarks.Python

/-- A value `json.loads` can return.  Floats are their exact rational value. -/
inductive Json where
  | null
  | bool (b : Bool)
  | int (n : ℤ)
  | float (q : ℚ)
  | str (s : String)
  | arr (items : List Json)
  | obj (fields : List (String × Json))

/-- A JSON file as `json.load` finds it. -/
inductive JsonFile where
  | absent
  | unreadable
  | holds (v : Json)

/-- A Python dictionary with string keys, in insertion order. -/
abbrev Dict (α : Type) := List (String × α)

/-- One piece of an f-string: literal text, `{v}`, `{v!r}` or `{q:g}`. -/
inductive Fragment where
  | text (s : String)
  | str (v : Json)
  | repr (v : Json)
  | general (q : ℚ)

/-- The text an f-string builds. -/
abbrev FString := List Fragment

/-- The exceptions the modelled code can raise or meet. -/
inductive Exn where
  | indexError
  | typeError
  | attributeError
  | valueError (message : FString)
  | runtimeError (message : FString)
  | fileNotFoundError (message : FString)
  | calledProcessError (command : List String)
  /-- An exception raised by code outside the model, by its class name. -/
  | external (name : String)

/-- What `subprocess` raises about a command whose executable it does not find. -/
def Exn.notFound (argv : List String) : Exn :=
  .fileNotFoundError
    [.text "[Errno 2] No such file or directory: ", .repr (.str (argv.headD ""))]

/-- The parts of a computation that returns. -/
theorem except_bind_eq_ok {α β : Type} {v : Except Exn α} {f : α → Except Exn β} {b : β}
    (h : (v >>= f) = .ok b) : ∃ a, v = .ok a ∧ f a = .ok b := by
  cases v with
  | ok a => exact ⟨a, rfl, h⟩
  | error e => cases h

/-- In two lists related one by one, everything in the first has its partner. -/
theorem exists_mem_of_forall₂ {α β : Type} {R : α → β → Prop} {xs : List α} {ys : List β}
    (h : List.Forall₂ R xs ys) {x : α} (hx : x ∈ xs) : ∃ y ∈ ys, R x y := by
  induction h with
  | nil => cases hx
  | @cons x' y rest values hrel _ ih =>
      rcases List.mem_cons.mp hx with rfl | hx
      · exact ⟨y, List.mem_cons_self, hrel⟩
      · obtain ⟨y', hy', hrel'⟩ := ih hx
        exact ⟨y', List.mem_cons_of_mem y hy', hrel'⟩

/-- A list in two parts is related to lists in two such parts. -/
theorem forall₂_append_left_iff {α β : Type} {R : α → β → Prop} {front back : List α}
    {ys : List β} :
    List.Forall₂ R (front ++ back) ys ↔
      ∃ ys₁ ys₂, List.Forall₂ R front ys₁ ∧ List.Forall₂ R back ys₂ ∧ ys = ys₁ ++ ys₂ := by
  induction front generalizing ys with
  | nil => simp
  | cons x front ih =>
      simp only [List.cons_append, List.forall₂_cons_left_iff, ih]
      apply Iff.intro
      · rintro ⟨y, ys', hxy, ⟨ys₁, ys₂, hfront, hback, rfl⟩, rfl⟩
        exact ⟨y :: ys₁, ys₂, ⟨y, ys₁, hxy, hfront, rfl⟩, hback, rfl⟩
      · rintro ⟨-, ys₂, ⟨y, ys₁, hxy, hfront, rfl⟩, hback, rfl⟩
        exact ⟨y, ys₁ ++ ys₂, hxy, ⟨ys₁, ys₂, hfront, hback, rfl⟩, rfl⟩

/-- A map of computations returns what they return one by one. -/
theorem mapM_eq_ok_iff {α β : Type} {f : α → Except Exn β} {xs : List α} {ys : List β} :
    xs.mapM f = .ok ys ↔ List.Forall₂ (fun x y => f x = .ok y) xs ys := by
  induction xs generalizing ys with
  | nil => cases ys <;> simp [pure, Except.pure]
  | cons x rest ih =>
      rw [List.mapM_cons, List.forall₂_cons_left_iff]
      cases hx : f x with
      | error e => simp [bind, Except.bind]
      | ok y =>
          cases hrest : rest.mapM f with
          | error e => simp [← ih, hrest, bind, Except.bind]
          | ok values => simp [← ih, hrest, bind, Except.bind, pure, Except.pure, eq_comm]

/-- Every value of the map comes from one of the computations. -/
theorem mem_of_mapM {α β : Type} {f : α → Except Exn β} {xs : List α} {ys : List β}
    (h : xs.mapM f = .ok ys) {y : β} (hy : y ∈ ys) : ∃ x ∈ xs, f x = .ok y :=
  exists_mem_of_forall₂ (mapM_eq_ok_iff.mp h).flip hy

/-- Every computation of a map that returns returns. -/
theorem of_mem_mapM {α β : Type} {f : α → Except Exn β} {xs : List α} {ys : List β}
    (h : xs.mapM f = .ok ys) {x : α} (hx : x ∈ xs) : ∃ y ∈ ys, f x = .ok y :=
  exists_mem_of_forall₂ (mapM_eq_ok_iff.mp h) hx

/-- A map of computations returns exactly when all of them do. -/
theorem mapM_isOk_iff {α β : Type} {f : α → Except Exn β} {xs : List α} :
    (∃ ys, xs.mapM f = .ok ys) ↔ ∀ x ∈ xs, ∃ y, f x = .ok y := by
  apply Iff.intro
  · rintro ⟨ys, h⟩ x hx
    obtain ⟨y, -, hy⟩ := of_mem_mapM h hx
    exact ⟨y, hy⟩
  · intro h
    induction xs with
    | nil => exact ⟨[], rfl⟩
    | cons x rest ih =>
        obtain ⟨y, hy⟩ := h x List.mem_cons_self
        obtain ⟨ys, hys⟩ := ih fun x' hx' => h x' (List.mem_cons_of_mem x hx')
        exact ⟨y :: ys, mapM_eq_ok_iff.mpr (.cons hy (mapM_eq_ok_iff.mp hys))⟩

namespace Dict

variable {α : Type}

/-- `d[key]`, or nothing where Python raises `KeyError`. -/
def get? (d : Dict α) (key : String) : Option α := d.lookup key

theorem get?_nil (key : String) : get? ([] : Dict α) key = none := rfl

theorem get?_cons (name : String) (value : α) (d : Dict α) (key : String) :
    get? ((name, value) :: d) key = if key = name then some value else d.get? key := by
  rw [get?, List.lookup_cons]
  by_cases h : key = name
  · simp [h]
  · rw [beq_eq_false_iff_ne.mpr h, if_neg h]
    rfl

/-- `d[key] = value`: overwrite in place, or append a new key. -/
def set (d : Dict α) (key : String) (value : α) : Dict α :=
  if d.any (·.1 == key) then d.map fun entry => if entry.1 == key then (key, value) else entry
  else d ++ [(key, value)]

/-- `d.update(other)`. -/
def update (d other : Dict α) : Dict α :=
  other.foldl (fun acc entry => acc.set entry.1 entry.2) d

/-- A new key goes to the end. -/
theorem set_of_not_mem {d : Dict α} {key : String} {value : α} (h : key ∉ d.map Prod.fst) :
    d.set key value = d ++ [(key, value)] := by
  have hnone : d.any (·.1 == key) = false := by
    rw [List.any_eq_false]
    intro entry hentry heq
    exact h (List.mem_map.mpr ⟨entry, hentry, eq_of_beq heq⟩)
  rw [set, hnone]
  rfl

/-- Setting a key adds no name but its own. -/
theorem map_fst_set (d : Dict α) (key : String) (value : α) :
    (d.set key value).map Prod.fst =
      if key ∈ d.map Prod.fst then d.map Prod.fst else d.map Prod.fst ++ [key] := by
  by_cases h : key ∈ d.map Prod.fst
  · obtain ⟨entry, hentry, rfl⟩ := List.mem_map.mp h
    have hany : d.any (·.1 == entry.1) = true := List.any_eq_true.mpr ⟨entry, hentry, by simp⟩
    rw [set, hany, if_pos rfl, if_pos h, List.map_map]
    apply List.map_congr_left
    intro other _
    by_cases hname : other.1 = entry.1 <;> simp [hname]
  · rw [set_of_not_mem h, if_neg h, List.map_append]
    rfl

theorem nodup_set {d : Dict α} (h : (d.map Prod.fst).Nodup) (key : String) (value : α) :
    ((d.set key value).map Prod.fst).Nodup := by
  rw [map_fst_set]
  split_ifs with hmem
  · exact h
  · exact List.nodup_append.mpr ⟨h, List.nodup_singleton key, fun a ha b hb heq =>
      hmem (by rwa [← List.mem_singleton.mp hb, ← heq])⟩

/-- The value set is the value found. -/
theorem get?_set_self (d : Dict α) (key : String) (value : α) :
    (d.set key value).get? key = some value := by
  by_cases h : key ∈ d.map Prod.fst
  · obtain ⟨entry, hentry, rfl⟩ := List.mem_map.mp h
    have hany : d.any (·.1 == entry.1) = true := List.any_eq_true.mpr ⟨entry, hentry, by simp⟩
    rw [set, hany, if_pos rfl, get?]
    clear hany h
    induction d with
    | nil => cases hentry
    | cons first rest ih =>
        by_cases hname : first.1 = entry.1
        · simp [hname]
        · have hrest : entry ∈ rest := (List.mem_cons.mp hentry).resolve_left fun heq =>
            hname (congrArg Prod.fst heq.symm)
          have hbeq : (entry.1 == first.1) = false := beq_eq_false_iff_ne.mpr (Ne.symm hname)
          obtain ⟨name, v⟩ := first
          rw [List.map_cons, if_neg (by simpa using hname), List.lookup_cons, hbeq]
          exact ih hrest
  · rw [set_of_not_mem h, get?, List.lookup_append]
    have hnone : List.lookup key d = none := List.lookup_eq_none_iff.mpr fun entry hentry => by
      rw [bne_iff_ne]
      rintro rfl
      exact h (List.mem_map_of_mem hentry)
    simp [hnone]

/-- Setting a key leaves the others. -/
theorem get?_set_of_ne {d : Dict α} {key other : String} {value : α} (h : other ≠ key) :
    (d.set key value).get? other = d.get? other := by
  have hbeq : (other == key) = false := beq_eq_false_iff_ne.mpr h
  by_cases hmem : key ∈ d.map Prod.fst
  · obtain ⟨entry, hentry, rfl⟩ := List.mem_map.mp hmem
    have hany : d.any (·.1 == entry.1) = true := List.any_eq_true.mpr ⟨entry, hentry, by simp⟩
    rw [set, hany, if_pos rfl, get?, get?]
    clear hany hmem hentry
    induction d with
    | nil => rfl
    | cons first rest ih =>
        obtain ⟨name, v⟩ := first
        by_cases hname : name = entry.1
        · rw [List.map_cons, if_pos (by simpa using hname), List.lookup_cons, hbeq, ih,
            List.lookup_cons, hname, hbeq]
        · rw [List.map_cons, if_neg (by simpa using hname), List.lookup_cons, List.lookup_cons, ih]
  · rw [set_of_not_mem hmem, get?, get?, List.lookup_append, List.lookup_cons, hbeq]
    exact Option.or_none

theorem get?_set (d : Dict α) (key other : String) (value : α) :
    (d.set key value).get? other = if other = key then some value else d.get? other := by
  split_ifs with h
  · rw [h, get?_set_self]
  · exact get?_set_of_ne h

/-- In a dictionary without repeated keys an entry is what its key finds. -/
theorem get?_eq_some_iff {d : Dict α} (h : (d.map Prod.fst).Nodup) {key : String} {value : α} :
    d.get? key = some value ↔ (key, value) ∈ d := by
  rw [get?]
  induction d with
  | nil => simp
  | cons first rest ih =>
      rw [List.map_cons, List.nodup_cons] at h
      obtain ⟨name, v⟩ := first
      by_cases hname : key = name
      · subst hname
        have habsent : (key, value) ∉ rest := fun hmem => h.1 (List.mem_map.mpr ⟨_, hmem, rfl⟩)
        simp [habsent, eq_comm]
      · have hbeq : (key == name) = false := beq_eq_false_iff_ne.mpr hname
        rw [List.lookup_cons, hbeq]
        simp [ih h.2, hname]

/-- `d.get(key)` on a dictionary of JSON values, with `None` for a missing key. -/
def get (d : Dict Json) (key : String) : Json := (get? d key).getD .null

end Dict

section Updates

variable {α : Type} (d : Dict α) (entries : List (String × α)) (key : String)

/-- What a key was set to last. -/
def lastSet : Option α := entries.reverse.lookup key

theorem lastSet_eq_reverse : lastSet entries key = Dict.get? entries.reverse key := rfl

theorem lastSet_concat (entry : String × α) :
    lastSet (entries ++ [entry]) key =
      if key = entry.1 then some entry.2 else lastSet entries key := by
  rw [lastSet, List.reverse_append, List.reverse_singleton, List.singleton_append,
    List.lookup_cons]
  by_cases h : key = entry.1
  · simp [h]
  · rw [beq_eq_false_iff_ne.mpr h, if_neg h]
    rfl

theorem Dict.get?_update :
    (d.update entries).get? key = (lastSet entries key).or (d.get? key) := by
  induction entries using List.reverseRecOn with
  | nil => rfl
  | append_singleton entries entry ih =>
      rw [Dict.update, List.foldl_append, List.foldl_cons, List.foldl_nil, ← Dict.update,
        Dict.get?_set, ih, lastSet_concat]
      split_ifs <;> rfl

theorem Dict.nodup_update (h : (d.map Prod.fst).Nodup) :
    ((d.update entries).map Prod.fst).Nodup := by
  induction entries generalizing d with
  | nil => exact h
  | cons entry entries ih => exact ih _ (Dict.nodup_set h entry.1 entry.2)

variable {entries key} in
/-- A key among the entries was set. -/
theorem exists_lastSet (h : key ∈ entries.map Prod.fst) :
    ∃ value, lastSet entries key = some value := by
  obtain ⟨entry, hentry, rfl⟩ := List.mem_map.mp h
  apply Option.ne_none_iff_exists'.mp
  intro hnone
  have hne := List.lookup_eq_none_iff.mp hnone entry (List.mem_reverse.mpr hentry)
  exact absurd rfl (bne_iff_ne.mp hne)

/-- In a dictionary a key is set once. -/
theorem lastSet_eq_get? (h : (entries.map Prod.fst).Nodup) :
    lastSet entries key = Dict.get? entries key := by
  have hreverse : (entries.reverse.map Prod.fst).Nodup := by
    rwa [List.map_reverse, List.nodup_reverse]
  apply Option.ext
  intro value
  have hleft := @Dict.get?_eq_some_iff α _ hreverse key value
  rw [Dict.get?] at hleft
  rw [lastSet, hleft, Dict.get?_eq_some_iff h, List.mem_reverse]

end Updates

namespace Json

/-- `bool(v)`. -/
def truthy : Json → Bool
  | .null => false
  | .bool b => b
  | .int n => n != 0
  | .float q => q != 0
  | .str s => s != ""
  | .arr items => !items.isEmpty
  | .obj fields => !fields.isEmpty

/-- The value of a number.  Python's booleans are integers. -/
def number? : Json → Option ℚ
  | .bool b => some (if b then 1 else 0)
  | .int n => some n
  | .float q => some q
  | _ => none

mutual

/-- `v == w`: structural, except that numbers of every type compare by value
and dictionaries compare as maps. -/
def pyEq : Json → Json → Bool
  | .null, .null => true
  | .str s, .str t => s == t
  | .arr xs, .arr ys => pyEqItems xs ys
  | .obj fs, .obj gs => fs.length == gs.length && pyEqFields fs gs
  | v, w =>
      match number? v, number? w with
      | some q, some r => q == r
      | _, _ => false

/-- Element by element equality of two lists. -/
def pyEqItems : List Json → List Json → Bool
  | [], [] => true
  | x :: xs, y :: ys => pyEq x y && pyEqItems xs ys
  | _, _ => false

/-- Every field of the first dictionary has an equal value in the second. -/
def pyEqFields : List (String × Json) → List (String × Json) → Bool
  | [], _ => true
  | (key, v) :: fs, gs =>
      (match gs.lookup key with
        | some w => pyEq v w
        | none => false) && pyEqFields fs gs

end

mutual

/-- `v < w`: only texts, numbers and lists have an order, each among themselves. -/
def pyLt : Json → Json → Except Exn Bool
  | .str s, .str t => .ok (decide (s < t))
  | .arr xs, .arr ys => pyLtItems xs ys
  | v, w =>
      match number? v, number? w with
      | some q, some r => .ok (decide (q < r))
      | _, _ => .error .typeError

/-- The first two items that differ decide, else the length does. -/
def pyLtItems : List Json → List Json → Except Exn Bool
  | [], [] => .ok false
  | [], _ :: _ => .ok true
  | _ :: _, [] => .ok false
  | x :: xs, y :: ys => if pyEq x y then pyLtItems xs ys else pyLt x y

end

@[simp]
theorem pyEq_str (s t : String) : pyEq (.str s) (.str t) = (s == t) := rfl

/-- Only the same text equals a text. -/
theorem pyEq_str_iff {v : Json} {s : String} : v.pyEq (.str s) = true ↔ v = .str s := by
  cases v <;> simp [pyEq, number?]

/-- `v.get(key)`: only dictionaries have the method. -/
def get (v : Json) (key : String) : Except Exn Json :=
  match v with
  | .obj fields => .ok (Dict.get fields key)
  | _ => .error .attributeError

/-- `v.get(key, default)`. -/
def getD (v : Json) (key : String) (default : Json) : Except Exn Json :=
  match v with
  | .obj fields => .ok ((Dict.get? fields key).getD default)
  | _ => .error .attributeError

/-- `(v or {}).get(key)`, the program's idiom for a possibly null answer. -/
def orEmptyGet (v : Json) (key : String) : Except Exn Json :=
  if v.truthy then v.get key else .ok .null

/-- `key in v`. -/
def contains (v : Json) (key : String) : Except Exn Bool :=
  match v with
  | .obj fields => .ok (fields.any (·.1 == key))
  | .arr items => .ok (items.any (pyEq (.str key)))
  | .str s => .ok (s.toList.tails.any fun tail => key.toList.isPrefixOf tail)
  | _ => .error .typeError

/-- `v[key]`. -/
def item (v : Json) (key : String) : Except Exn Json :=
  match v with
  | .obj fields =>
      match Dict.get? fields key with
      | some value => .ok value
      | none => .error (.external "KeyError")
  | _ => .error .typeError

/-- `int(v, 16)`. -/
def int16 : Json → Except Exn ℤ
  | .str s =>
      match readInt16 s with
      | some n => .ok n
      | none =>
          .error (.valueError
            [.text "invalid literal for int() with base 16: ", .repr (.str s)])
  | _ => .error .typeError

theorem int16_hex (n : ℕ) : int16 (.str (hex n)) = .ok (n : ℤ) := by
  rw [int16, readInt16_hex]

end Json

end StateBenchmarks.Python
