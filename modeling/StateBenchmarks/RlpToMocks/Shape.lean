/-
# What `payload_from_rlp` takes for a payload

The conversion never checks the shape of a decoded value as a whole.  It counts
the fields from below only, and each field meets its encoder as it is: an empty
list is falsy where a number is read, and a loop over an empty string ends at
once where a list is expected.

`Tolerated` is what gets through.  It is the shape of an execution payload
(`Shaped`) but for three kinds of stand-ins, which `Strict` excludes.
-/

import StateBenchmarks.RlpToMocks.RoundTrip
import Mathlib.Data.Set.List

namespace StateBenchmarks.RlpToMocks

open Python Rlp

/-- The positions of `_FIELDS` written as DATA. -/
def dataIndices : List ℕ := [0, 1, 2, 3, 4, 5, 10, 12]

/-- The positions of `_FIELDS` written as QUANTITY. -/
def quantityIndices : List ℕ := [6, 7, 8, 9, 11, 15, 16]

/-- The fields of an `ExecutionPayloadV3`. -/
structure ShapedFields (items : List Item) : Prop where
  length : items.length = 17
  scalars : ∀ i ∈ dataIndices ++ quantityIndices, ∃ b, items[i]? = some (.bytes b)
  transactions : ∃ txs : List Bytes, items[13]? = some (.list (txs.map .bytes))
  withdrawals : ∃ ws : List Withdrawal, items[14]? = some (.list (ws.map Withdrawal.toItem))

/-- The value is a list of exactly the fields of an `ExecutionPayloadV3`. -/
def Shaped (v : Item) : Prop := ∃ items, v = .list items ∧ ShapedFields items

/-- What is read as a number: a string, or an empty list. -/
def ReadsAsQuantity (v : Item) : Prop := (∃ b, v = .bytes b) ∨ v = .list []

/-- Four values that pass for a withdrawal. -/
def ToleratedWithdrawal (w : Item) : Prop :=
  ∃ index validatorIndex address amount, w = .list [index, validatorIndex, .bytes address, amount] ∧
    ReadsAsQuantity index ∧ ReadsAsQuantity validatorIndex ∧ ReadsAsQuantity amount

/-- What is read as the transactions: strings, or nothing to iterate over. -/
def ReadsAsTransactions (v : Item) : Prop :=
  v = .bytes [] ∨ ∃ txs : List Bytes, v = .list (txs.map .bytes)

/-- What is read as the withdrawals. -/
def ReadsAsWithdrawals (v : Item) : Prop :=
  v = .bytes [] ∨ ∃ ws, v = .list ws ∧ ∀ w ∈ ws, ToleratedWithdrawal w

/-- The fields get through the conversion. -/
structure ToleratedFields (items : List Item) : Prop where
  length : 17 ≤ items.length
  data : ∀ i ∈ dataIndices, ∃ b, items[i]? = some (.bytes b)
  quantities : ∀ i ∈ quantityIndices, ∃ v, items[i]? = some v ∧ ReadsAsQuantity v
  transactions : ∃ v, items[13]? = some v ∧ ReadsAsTransactions v
  withdrawals : ∃ v, items[14]? = some v ∧ ReadsAsWithdrawals v

/-- The value gets through the conversion. -/
def Tolerated (v : Item) : Prop := ∃ items, v = .list items ∧ ToleratedFields items

/-- Nothing comes after the seventeenth field, no empty list stands for a number
and no empty string for a list. -/
structure StrictFields (items : List Item) : Prop where
  length : items.length ≤ 17
  quantities : ∀ i ∈ quantityIndices, items[i]? ≠ some (.list [])
  transactions : items[13]? ≠ some (.bytes [])
  withdrawals : items[14]? ≠ some (.bytes [])
  amounts : ∀ ws, items[14]? = some (.list ws) → ∀ values, .list values ∈ ws → .list [] ∉ values

/-- The value has none of the stand-ins. -/
def Strict (v : Item) : Prop := ∀ items, v = .list items → StrictFields items

/-- `payload_from_rlp` returns a payload. -/
def Accepts (v : Item) : Prop := ∃ payload, payloadFromRlp v = .ok payload

theorem toData_isOk_iff {v : Item} : (∃ text, toData (.item v) = .ok text) ↔ ∃ b, v = .bytes b := by
  cases v with
  | bytes b => simp [toData]
  | list items => simp [toData]

/-- Items that are all of one form are the images of a list. -/
theorem exists_map_of_forall {α β : Type} {f : α → β} {ys : List β} (h : ∀ y ∈ ys, ∃ x, y = f x) :
    ∃ xs : List α, xs.map f = ys := by
  rw [← Set.mem_range, Set.range_list_map]
  intro y hy
  obtain ⟨x, rfl⟩ := h y hy
  exact ⟨x, rfl⟩

theorem toQty_isOk_iff {v : Item} :
    (∃ text, toQty (.item v) = .ok text) ↔ ReadsAsQuantity v := by
  cases v with
  | bytes b => simp [toQty, fromBytesOrZero, ReadsAsQuantity, Except.map]
  | list items =>
      cases items with
      | nil => simp [toQty, fromBytesOrZero, ReadsAsQuantity, Except.map]
      | cons first rest => simp [toQty, fromBytesOrZero, ReadsAsQuantity, Except.map]

/-- Transactions are strings, and an empty string has no elements to fail on. -/
theorem transactions_isOk_iff {v : Item} :
    (∃ texts, (elements v).mapM toData = .ok texts) ↔ ReadsAsTransactions v := by
  rw [mapM_isOk_iff, ReadsAsTransactions]
  cases v with
  | bytes b =>
      cases b with
      | nil => simp [elements]
      | cons x rest => simp [elements, toData]
  | list items =>
      have hitems : (∀ x ∈ elements (.list items), ∃ text, toData x = .ok text) ↔
          ∀ v ∈ items, ∃ b, v = .bytes b := by
        simp only [elements, List.forall_mem_map, toData_isOk_iff]
      rw [hitems]
      apply Iff.intro
      · intro h
        obtain ⟨txs, htxs⟩ := exists_map_of_forall h
        exact Or.inr ⟨txs, by rw [htxs]⟩
      · intro h v hv
        obtain ⟨txs, htxs⟩ := h.resolve_left (by simp)
        rw [Item.list.inj htxs] at hv
        obtain ⟨b, -, rfl⟩ := List.mem_map.mp hv
        exact ⟨b, rfl⟩

theorem unpackFour_eq_ok_iff {w index validatorIndex address amount : Element} :
    unpackFour w = .ok (index, validatorIndex, address, amount) ↔
      ∃ v, w = .item v ∧ elements v = [index, validatorIndex, address, amount] := by
  cases w with
  | int x => simp [unpackFour]
  | item v =>
      unfold unpackFour
      dsimp only
      split
      · rename_i helements
        simp [helements]
      · rename_i hother
        have hne : elements v ≠ [index, validatorIndex, address, amount] := hother _ _ _ _
        split_ifs <;> simp [hne]

/-- A string can be unpacked, but what comes out of it is no address. -/
theorem withdrawalToObj_isOk_iff {v : Item} :
    (∃ obj, withdrawalToObj (.item v) = .ok obj) ↔ ToleratedWithdrawal v := by
  apply Iff.intro
  · rintro ⟨obj, h⟩
    obtain ⟨⟨index, validatorIndex, address, amount⟩, hunpack, h⟩ := except_bind_eq_ok h
    obtain ⟨indexText, hindex, h⟩ := except_bind_eq_ok h
    obtain ⟨validatorText, hvalidator, h⟩ := except_bind_eq_ok h
    obtain ⟨addressText, haddress, h⟩ := except_bind_eq_ok h
    obtain ⟨amountText, hamount, -⟩ := except_bind_eq_ok h
    obtain ⟨w, hw, helements⟩ := unpackFour_eq_ok_iff.mp hunpack
    cases hw
    cases v with
    | bytes b =>
        have hint : address ∈ b.map Element.int := by
          rw [show b.map Element.int = elements (.bytes b) from rfl, helements]
          simp
        obtain ⟨x, -, rfl⟩ := List.mem_map.mp hint
        cases haddress
    | list items =>
        obtain ⟨i, n, a, m, rfl, rfl, rfl, rfl, rfl⟩ :
            ∃ i n a m, items = [i, n, a, m] ∧ .item i = index ∧ .item n = validatorIndex ∧
              .item a = address ∧ .item m = amount := by
          match items, helements with
          | [i, n, a, m], helements =>
              simp only [elements, List.map_cons, List.map_nil, List.cons.injEq] at helements
              exact ⟨i, n, a, m, rfl, helements.1, helements.2.1, helements.2.2.1,
                helements.2.2.2.1⟩
        obtain ⟨b, rfl⟩ := toData_isOk_iff.mp ⟨_, haddress⟩
        exact ⟨i, n, b, m, rfl, toQty_isOk_iff.mp ⟨_, hindex⟩, toQty_isOk_iff.mp ⟨_, hvalidator⟩,
          toQty_isOk_iff.mp ⟨_, hamount⟩⟩
  · rintro ⟨index, validatorIndex, address, amount, rfl, hindex, hvalidator, hamount⟩
    obtain ⟨indexText, hindex⟩ := toQty_isOk_iff.mpr hindex
    obtain ⟨validatorText, hvalidator⟩ := toQty_isOk_iff.mpr hvalidator
    obtain ⟨amountText, hamount⟩ := toQty_isOk_iff.mpr hamount
    refine ⟨.obj [("index", .str indexText), ("validatorIndex", .str validatorText),
      ("address", .str (dataText address)), ("amount", .str amountText)], ?_⟩
    simp only [withdrawalToObj, unpackFour, elements, List.map_cons, List.map_nil, hindex,
      hvalidator, hamount, toData, bind, Except.bind, pure, Except.pure]

theorem withdrawals_isOk_iff {v : Item} :
    (∃ objs, (elements v).mapM withdrawalToObj = .ok objs) ↔ ReadsAsWithdrawals v := by
  rw [mapM_isOk_iff, ReadsAsWithdrawals]
  cases v with
  | bytes b =>
      cases b with
      | nil => simp [elements]
      | cons x rest => simp [elements, withdrawalToObj, unpackFour, bind, Except.bind]
  | list items => simp [elements, withdrawalToObj_isOk_iff]

section Scalars

variable {items : List Item} {table : List ((String × (Element → Except Exn String)) × ℕ)}
  {entries payload result : Dict Json}

theorem fieldAt_eq_ok_iff {i : ℕ} {v : Item} : fieldAt items i = .ok v ↔ items[i]? = some v := by
  unfold fieldAt
  split
  · rename_i w hw
    simp [hw]
  · rename_i hnone
    simp [hnone]

theorem map_fst_of_scalarOf (h : List.Forall₂ (ScalarOf items) table entries) :
    entries.map Prod.fst = table.map fun field => field.1.1 := by
  induction h with
  | nil => rfl
  | cons hfield hrest ih => rw [List.map_cons, List.map_cons, hfield.1, ih]

/-- The loop over the table finds and encodes every scalar. -/
theorem exists_of_foldlM_setScalar (h : table.foldlM (setScalar items) payload = .ok result) :
    ∃ entries, List.Forall₂ (ScalarOf items) table entries := by
  induction table generalizing payload with
  | nil => exact ⟨[], .nil⟩
  | cons field rest ih =>
      rw [List.foldlM_cons] at h
      obtain ⟨payload', hset, h⟩ := except_bind_eq_ok h
      obtain ⟨entries, hentries⟩ := ih h
      obtain ⟨v, hv, hset⟩ := except_bind_eq_ok hset
      obtain ⟨text, htext, -⟩ := except_bind_eq_ok hset
      exact ⟨(field.1.1, .str text) :: entries,
        .cons ⟨rfl, v, text, fieldAt_eq_ok_iff.mp hv, htext, rfl⟩ hentries⟩

/-- Every scalar of the table is found and encoded. -/
theorem exists_scalarOf_iff :
    (∃ entries, List.Forall₂ (ScalarOf items) table entries) ↔
      ∀ field ∈ table, ∃ v, items[field.2]? = some v ∧ ∃ text, field.1.2 (.item v) = .ok text := by
  induction table with
  | nil => simp
  | cons field rest ih =>
      rw [List.forall_mem_cons, ← ih]
      apply Iff.intro
      · rintro ⟨entries, h⟩
        cases h with
        | cons hfield hrest =>
            obtain ⟨-, v, text, hv, htext, -⟩ := hfield
            exact ⟨⟨v, hv, text, htext⟩, _, hrest⟩
      · rintro ⟨⟨v, hv, text, htext⟩, entries, hrest⟩
        exact ⟨(field.1.1, .str text) :: entries, .cons ⟨rfl, v, text, hv, htext, rfl⟩ hrest⟩

end Scalars

/-- The scalars and the two lists are all written under names of their own. -/
theorem nodup_keys_fields :
    ((fields.zip scalarIndices).map (fun field => field.1.1) ++
      ["transactions", "withdrawals"]).Nodup := by decide

/-- What `payload_from_rlp` puts together: the encoded scalars, in the order of the
table, and then the two lists. -/
def assembled (scalars : Dict Json) (texts : List String) (objs : List Json) : Dict Json :=
  scalars ++ [("transactions", .arr (texts.map .str)), ("withdrawals", .arr objs)]

theorem set_lists {items : List Item} {scalars : Dict Json}
    (h : List.Forall₂ (ScalarOf items) (fields.zip scalarIndices) scalars) (texts : List String)
    (objs : List Json) :
    (Dict.set scalars "transactions" (.arr (texts.map .str))).set "withdrawals" (.arr objs) =
      assembled scalars texts objs := by
  have hnodup := nodup_keys_fields
  rw [← map_fst_of_scalarOf h] at hnodup
  have htransactions : "transactions" ∉ scalars.map Prod.fst := fun hmem =>
    (List.nodup_append.mp hnodup).2.2 _ hmem _ (by simp) rfl
  have hwithdrawals : "withdrawals" ∉ scalars.map Prod.fst := fun hmem =>
    (List.nodup_append.mp hnodup).2.2 _ hmem _ (by simp) rfl
  rw [Dict.set_of_not_mem htransactions, Dict.set_of_not_mem]
  · rw [assembled, List.append_assoc]
    rfl
  · rw [List.map_append, List.mem_append]
    exact not_or.mpr ⟨hwithdrawals, by simp⟩

/-- The conversion as a whole. -/
theorem payloadFromRlp_eq_ok_iff {items : List Item} {payload : Dict Json} :
    payloadFromRlp (.list items) = .ok payload ↔
      17 ≤ items.length ∧ ∃ scalars transactions texts withdrawals objs,
        List.Forall₂ (ScalarOf items) (fields.zip scalarIndices) scalars ∧
        items[13]? = some transactions ∧ (elements transactions).mapM toData = .ok texts ∧
        items[14]? = some withdrawals ∧ (elements withdrawals).mapM withdrawalToObj = .ok objs ∧
        payload = assembled scalars texts objs := by
  have hscalars : ∀ {scalars : Dict Json},
      List.Forall₂ (ScalarOf items) (fields.zip scalarIndices) scalars →
      (fields.zip scalarIndices).foldlM (setScalar items) [] = .ok scalars := by
    intro scalars h
    apply foldlM_setScalar h []
    rw [List.nil_append, map_fst_of_scalarOf h]
    exact (List.nodup_append.mp nodup_keys_fields).1
  unfold payloadFromRlp
  dsimp only
  split_ifs with hshort
  · apply iff_of_false
    · intro h
      cases h
    · intro h
      exact absurd h.1 (by omega)
  · apply Iff.intro
    · intro h
      obtain ⟨scalars, hfold, h⟩ := except_bind_eq_ok h
      obtain ⟨transactions, h13, h⟩ := except_bind_eq_ok h
      obtain ⟨texts, htexts, h⟩ := except_bind_eq_ok h
      obtain ⟨withdrawals, h14, h⟩ := except_bind_eq_ok h
      obtain ⟨objs, hobjs, h⟩ := except_bind_eq_ok h
      obtain ⟨scalars', htable⟩ := exists_of_foldlM_setScalar hfold
      obtain rfl : scalars = scalars' := Except.ok.inj (hfold.symm.trans (hscalars htable))
      refine ⟨by omega, scalars, transactions, texts, withdrawals, objs, htable,
        fieldAt_eq_ok_iff.mp h13, htexts, fieldAt_eq_ok_iff.mp h14, hobjs, ?_⟩
      rw [← set_lists htable]
      exact (Except.ok.inj h).symm
    · rintro ⟨-, scalars, transactions, texts, withdrawals, objs, htable, h13, htexts, h14, hobjs,
        rfl⟩
      simp only [hscalars htable, fieldAt_eq_ok_iff.mpr h13, fieldAt_eq_ok_iff.mpr h14, htexts,
        hobjs, bind, Except.bind, pure, Except.pure]
      rw [set_lists htable]

/-- Every scalar of the table is in the payload, under its name. -/
theorem scalar_of_payload {items : List Item} {payload : Dict Json}
    (h : payloadFromRlp (.list items) = .ok payload)
    {field : (String × (Element → Except Exn String)) × ℕ}
    (hfield : field ∈ fields.zip scalarIndices) :
    ∃ v text, items[field.2]? = some v ∧ field.1.2 (.item v) = .ok text ∧
      Dict.get payload field.1.1 = .str text := by
  obtain ⟨-, scalars, transactions, texts, withdrawals, objs, htable, -, -, -, -, rfl⟩ :=
    payloadFromRlp_eq_ok_iff.mp h
  obtain ⟨⟨name, value⟩, hentry, hname, v, text, hv, htext, hvalue⟩ :=
    exists_mem_of_forall₂ htable hfield
  obtain rfl : name = field.1.1 := hname
  obtain rfl : value = .str text := hvalue
  have hnodup : ((assembled scalars texts objs).map Prod.fst).Nodup := by
    rw [assembled, List.map_append, map_fst_of_scalarOf htable]
    exact nodup_keys_fields
  have hget := (Dict.get?_eq_some_iff hnodup).mpr (List.mem_append_left _ hentry)
  exact ⟨v, text, hv, htext, by rw [Dict.get, hget]; rfl⟩

theorem forall_mem_fields_iff (items : List Item) :
    (∀ field ∈ fields.zip scalarIndices, ∃ v, items[field.2]? = some v ∧
        ∃ text, field.1.2 (.item v) = .ok text) ↔
      (∀ i ∈ dataIndices, ∃ b, items[i]? = some (.bytes b)) ∧
        ∀ i ∈ quantityIndices, ∃ v, items[i]? = some v ∧ ReadsAsQuantity v := by
  have hdata : ∀ i : ℕ, (∃ v, items[i]? = some v ∧ ∃ text, toData (.item v) = .ok text) ↔
      ∃ b, items[i]? = some (Item.bytes b) := by
    intro i
    simp only [toData_isOk_iff]
    apply Iff.intro
    · rintro ⟨v, hv, b, rfl⟩
      exact ⟨b, hv⟩
    · rintro ⟨b, hb⟩
      exact ⟨_, hb, b, rfl⟩
  have hscalars : scalarIndices = [0, 1, 2, 3, 4, 5, 6, 7, 8, 9, 10, 11, 12, 15, 16] := by decide
  simp only [fields, hscalars, List.zip_cons_cons, List.zip_nil_right, List.forall_mem_cons, hdata,
    toQty_isOk_iff, dataIndices, quantityIndices]
  simp only [List.not_mem_nil, false_imp_iff, implies_true, and_true]
  tauto

/-- The conversion returns on exactly the values that get through it. -/
theorem accepts_iff_tolerated {v : Item} : Accepts v ↔ Tolerated v := by
  cases v with
  | bytes b => simp [Accepts, Tolerated, payloadFromRlp]
  | list items =>
      have hscalars := exists_scalarOf_iff.trans (forall_mem_fields_iff items)
      apply Iff.intro
      · rintro ⟨payload, h⟩
        obtain ⟨hlength, scalars, transactions, texts, withdrawals, objs, htable, h13, htexts, h14,
          hobjs, -⟩ := payloadFromRlp_eq_ok_iff.mp h
        obtain ⟨hdata, hquantities⟩ := hscalars.mp ⟨scalars, htable⟩
        exact ⟨items, rfl, hlength, hdata, hquantities,
          ⟨transactions, h13, transactions_isOk_iff.mp ⟨texts, htexts⟩⟩,
          ⟨withdrawals, h14, withdrawals_isOk_iff.mp ⟨objs, hobjs⟩⟩⟩
      · rintro ⟨items', heq, h⟩
        obtain rfl := Item.list.inj heq
        obtain ⟨scalars, htable⟩ := hscalars.mpr ⟨h.data, h.quantities⟩
        obtain ⟨transactions, h13, htransactions⟩ := h.transactions
        obtain ⟨texts, htexts⟩ := transactions_isOk_iff.mpr htransactions
        obtain ⟨withdrawals, h14, hwithdrawals⟩ := h.withdrawals
        obtain ⟨objs, hobjs⟩ := withdrawals_isOk_iff.mpr hwithdrawals
        exact ⟨_, payloadFromRlp_eq_ok_iff.mpr ⟨h.length, scalars, transactions, texts, withdrawals,
          objs, htable, h13, htexts, h14, hobjs, rfl⟩⟩

/-- The shape of a payload, field by field. -/
theorem ToleratedFields.shaped {items : List Item} (h : ToleratedFields items)
    (hstrict : StrictFields items) : ShapedFields items where
  length := Nat.le_antisymm hstrict.length h.length
  scalars := by
    intro i hi
    rcases List.mem_append.mp hi with hi | hi
    · exact h.data i hi
    · obtain ⟨v, hv, ⟨b, rfl⟩ | rfl⟩ := h.quantities i hi
      · exact ⟨b, hv⟩
      · exact absurd hv (hstrict.quantities i hi)
  transactions := by
    obtain ⟨v, hv, rfl | ⟨txs, rfl⟩⟩ := h.transactions
    · exact absurd hv hstrict.transactions
    · exact ⟨txs, hv⟩
  withdrawals := by
    obtain ⟨v, hv, rfl | ⟨ws, rfl, hws⟩⟩ := h.withdrawals
    · exact absurd hv hstrict.withdrawals
    · have hitems : ∀ w ∈ ws, ∃ w' : Withdrawal, w = w'.toItem := by
        intro w hw
        obtain ⟨index, validatorIndex, address, amount, rfl, hindex, hvalidator, hamount⟩ :=
          hws w hw
        have hnone := hstrict.amounts ws hv _ hw
        obtain ⟨indexBytes, rfl⟩ := hindex.resolve_right (by rintro rfl; simp at hnone)
        obtain ⟨validatorBytes, rfl⟩ := hvalidator.resolve_right (by rintro rfl; simp at hnone)
        obtain ⟨amountBytes, rfl⟩ := hamount.resolve_right (by rintro rfl; simp at hnone)
        exact ⟨⟨indexBytes, validatorBytes, address, amountBytes⟩, rfl⟩
      obtain ⟨withdrawals, rfl⟩ := exists_map_of_forall hitems
      exact ⟨withdrawals, hv⟩

/-- A payload gets through. -/
theorem ShapedFields.tolerated {items : List Item} (h : ShapedFields items) :
    ToleratedFields items where
  length := h.length.ge
  data i hi := h.scalars i (List.mem_append_left _ hi)
  quantities := by
    intro i hi
    obtain ⟨b, hb⟩ := h.scalars i (List.mem_append_right _ hi)
    exact ⟨_, hb, Or.inl ⟨b, rfl⟩⟩
  transactions := by
    obtain ⟨txs, htxs⟩ := h.transactions
    exact ⟨_, htxs, Or.inr ⟨txs, rfl⟩⟩
  withdrawals := by
    obtain ⟨ws, hws⟩ := h.withdrawals
    refine ⟨_, hws, Or.inr ⟨_, rfl, ?_⟩⟩
    intro w hw
    obtain ⟨w', -, rfl⟩ := List.mem_map.mp hw
    exact ⟨_, _, _, _, rfl, Or.inl ⟨_, rfl⟩, Or.inl ⟨_, rfl⟩, Or.inl ⟨_, rfl⟩⟩

/-- Nothing in a payload stands for something else. -/
theorem ShapedFields.strict {items : List Item} (h : ShapedFields items) : StrictFields items where
  length := h.length.le
  quantities := by
    intro i hi heq
    obtain ⟨b, hb⟩ := h.scalars i (List.mem_append_right _ hi)
    simp [hb] at heq
  transactions := by
    obtain ⟨txs, htxs⟩ := h.transactions
    simp [htxs]
  withdrawals := by
    obtain ⟨ws, hws⟩ := h.withdrawals
    simp [hws]
  amounts := by
    intro ws hws values hvalues
    obtain ⟨ws', hws'⟩ := h.withdrawals
    obtain rfl := Item.list.inj (Option.some.inj (hws.symm.trans hws'))
    obtain ⟨w, -, hw⟩ := List.mem_map.mp hvalues
    obtain rfl := Item.list.inj hw
    simp

/-- The conversion returns on the execution payloads, and beyond them on what has
a stand-in it does not notice.  It tells the two apart exactly where nothing that
gets through has a stand-in. -/
theorem accepts_iff_shaped_iff (v : Item) :
    (Accepts v ↔ Shaped v) ↔ (Tolerated v → Strict v) := by
  rw [accepts_iff_tolerated]
  apply Iff.intro
  · intro hsame htolerated items hitems
    obtain ⟨items', hitems', hshaped⟩ := hsame.mp htolerated
    obtain rfl := Item.list.inj (hitems.symm.trans hitems')
    exact hshaped.strict
  · intro hstrict
    apply Iff.intro
    · intro htolerated
      obtain ⟨items, rfl, hfields⟩ := htolerated
      exact ⟨items, rfl, hfields.shaped (hstrict ⟨items, rfl, hfields⟩ items rfl)⟩
    · rintro ⟨items, rfl, hshaped⟩
      exact ⟨items, rfl, hshaped.tolerated⟩

/-- A payload of a later fork, with one field more. -/
def withExtraField : Item := .list (smallPayload.items ++ [.bytes [0x01]])

/-- It is converted, and the field is dropped. -/
theorem withExtraField_accepted : ¬ (Accepts withExtraField ↔ Shaped withExtraField) := by
  intro h
  obtain ⟨items, hitems, hshaped⟩ := h.mp ⟨_, rfl⟩
  obtain rfl := Item.list.inj hitems
  exact absurd hshaped.length (by decide)

end StateBenchmarks.RlpToMocks
