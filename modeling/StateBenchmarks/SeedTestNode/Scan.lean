/-
# What the scan finds

`find_existing_contract` goes through the last 201 blocks, the newest first, and answers
with the first contract of the development account that has code.  It never looks at
what was deployed.  So what it finds is a test contract exactly where one lies within
reach and no other contract of the account comes before it.

The chain goes on growing while the scan runs.  The blocks it reads do not change, and
whether a contract among them has code cannot change in a way that matters.
-/

import StateBenchmarks.SeedTestNode.Chain

namespace StateBenchmarks.SeedTestNode

open Python Control Dialogue

namespace Node

variable {σ : Type} (node : Node σ) (s : σ)

/-- The address the scan answers with when it comes to a transaction, if it does. -/
def matched (tx : Tx) : Option String :=
  if lower tx.sender = lower node.dev ∧ tx.recipient = none then
    tx.receipt.contractAddress.filter fun address =>
      address ≠ "" ∧ HasCode (node.code s address)
  else none

/-- The transactions of the block. -/
def block (number : ℕ) : List Tx := ((node.chain s)[number]?).getD []

/-- The transactions of the last 201 blocks, in the order of the scan. -/
def scanned : List Tx := (scanRange (node.head s)).flatMap (node.block s)

/-- The first match of the scan. -/
def detected : Option String := (node.scanned s).findSome? (node.matched s)

/-- The transaction is a creation of the development account, and the contract has code. -/
def LeftContract (tx : Tx) : Prop :=
  lower tx.sender = lower node.dev ∧ tx.recipient = none ∧
    ∃ address, tx.receipt.contractAddress = some address ∧ address ≠ "" ∧
      HasCode (node.code s address)

variable {node s}

theorem matched_eq_some_iff {tx : Tx} {address : String} :
    node.matched s tx = some address ↔
      lower tx.sender = lower node.dev ∧ tx.recipient = none ∧
        tx.receipt.contractAddress = some address ∧ address ≠ "" ∧
          HasCode (node.code s address) := by
  rw [matched]
  split_ifs with hcreation
  · simp [Option.filter_eq_some_iff, hcreation.1, hcreation.2]
  · apply iff_of_false
    · rintro ⟨⟩
    · rintro ⟨hsender, hrecipient, -⟩
      exact hcreation ⟨hsender, hrecipient⟩

theorem leftContract_iff {tx : Tx} :
    node.LeftContract s tx ↔ ∃ address, node.matched s tx = some address := by
  simp only [matched_eq_some_iff, LeftContract, exists_and_left]

theorem mem_mined_of_block {tx : Tx} {number : ℕ} (htx : tx ∈ node.block s number) :
    tx ∈ node.mined s := by
  rw [block] at htx
  cases hblock : (node.chain s)[number]? with
  | none =>
      rw [hblock] at htx
      cases htx
  | some transactions =>
      rw [hblock, Option.getD_some] at htx
      exact List.mem_flatten.mpr ⟨transactions, List.mem_of_getElem? hblock, htx⟩

theorem mem_mined_of_scanned {tx : Tx} (htx : tx ∈ node.scanned s) : tx ∈ node.mined s := by
  obtain ⟨number, -, hnumber⟩ := List.mem_flatMap.mp htx
  exact mem_mined_of_block hnumber

end Node

namespace DevNode

variable {σ : Type} {node : DevNode σ} {s t : σ}

theorem matched_of_testDeployment {tx : Tx} (htx : tx ∈ node.mined s)
    (hdeployment : node.IsTestDeployment tx) : ∃ address, node.matched s tx = some address := by
  obtain ⟨address, haddress, hne, hcode⟩ := node.code_deployed htx hdeployment
  obtain ⟨hsender, hrecipient, -⟩ := hdeployment
  exact ⟨address, Node.matched_eq_some_iff.mpr ⟨hsender, hrecipient, haddress, hne, hcode⟩⟩

/-- The transaction at the address of a test contract is its deployment. -/
theorem testDeployment_of_matched {tx : Tx} {address : String} (htx : tx ∈ node.mined s)
    (hmatched : node.matched s tx = some address) (htest : node.TestContract s address) :
    node.IsTestDeployment tx := by
  obtain ⟨-, -, haddress, -⟩ := Node.matched_eq_some_iff.mp hmatched
  obtain ⟨tx', htx', hdeployment, haddress'⟩ := htest
  rw [node.address_inj htx htx' haddress haddress']
  exact hdeployment

/-- The scan answers with the address of a test contract if there is one on the chain, and
with nothing if there is none. -/
def FindsExactly (node : DevNode σ) (s : σ) : Prop :=
  ∃ found, (findExistingContract node.dev).run (node.quietly s) = .ok found ∧
    (∀ address, found = some address → node.TestContract s address) ∧
    ((∃ address, node.TestContract s address) → found ≠ none)

/-- A test contract lies within the last 201 blocks if there is one on the chain, and every
other contract the account left there comes behind a test contract in the scan. -/
structure Detectable (node : DevNode σ) (s : σ) : Prop where
  reach : (∃ tx ∈ node.mined s, node.IsTestDeployment tx) →
    ∃ tx ∈ node.scanned s, node.IsTestDeployment tx
  alone : ∀ newer tx older, node.scanned s = newer ++ tx :: older → node.LeftContract s tx →
    ¬node.IsTestDeployment tx → ∃ tx' ∈ newer, node.IsTestDeployment tx'

/-- The first match is a test contract if there is one on the chain. -/
theorem detectable_iff :
    node.Detectable s ↔
      (∀ address, node.detected s = some address → node.TestContract s address) ∧
        ((∃ address, node.TestContract s address) → node.detected s ≠ none) := by
  rw [exists_testContract_iff]
  apply Iff.intro
  · intro h
    refine ⟨?_, ?_⟩
    · intro address hdetected
      obtain ⟨newer, tx, older, hscanned, hmatched, hnewer⟩ :=
        List.findSome?_eq_some_iff.mp hdetected
      have hmined : ∀ tx' ∈ newer ++ tx :: older, tx' ∈ node.mined s := by
        intro tx' htx'
        exact Node.mem_mined_of_scanned (hscanned ▸ htx')
      have htx : node.IsTestDeployment tx := by
        by_contra hother
        obtain ⟨tx', htx', hdeployment⟩ :=
          h.alone newer tx older hscanned (Node.leftContract_iff.mpr ⟨address, hmatched⟩) hother
        obtain ⟨address', hmatched'⟩ :=
          matched_of_testDeployment (hmined tx' (List.mem_append_left _ htx')) hdeployment
        rw [hnewer tx' htx'] at hmatched'
        cases hmatched'
      have haddress := (Node.matched_eq_some_iff.mp hmatched).2.2.1
      exact ⟨tx, hmined tx (by simp), htx, haddress⟩
    · intro hexists hnone
      obtain ⟨tx, htx, hdeployment⟩ := h.reach hexists
      obtain ⟨address, hmatched⟩ :=
        matched_of_testDeployment (Node.mem_mined_of_scanned htx) hdeployment
      rw [List.findSome?_eq_none_iff.mp hnone tx htx] at hmatched
      cases hmatched
  · rintro ⟨hsome, hnone⟩
    have hfirst : ∀ (tx : Tx) (address : String), tx ∈ node.scanned s →
        node.matched s tx = some address → node.detected s = some address →
        node.IsTestDeployment tx := fun tx address htx hmatched hdetected =>
      testDeployment_of_matched (Node.mem_mined_of_scanned htx) hmatched (hsome address hdetected)
    refine ⟨?_, ?_⟩
    · intro hexists
      obtain ⟨address, hdetected⟩ := Option.ne_none_iff_exists'.mp (hnone hexists)
      obtain ⟨tx, htx, hmatched⟩ := List.exists_of_findSome?_eq_some hdetected
      exact ⟨tx, htx, hfirst tx address htx hmatched hdetected⟩
    · intro newer tx older hscanned hleft hother
      obtain ⟨address, hmatched⟩ := Node.leftContract_iff.mp hleft
      have hdetected : node.detected s =
          (newer.findSome? (node.matched s)).or (some address) := by
        rw [Node.detected, hscanned, List.findSome?_append, List.findSome?_cons, hmatched]
      cases hnewer : newer.findSome? (node.matched s) with
      | none =>
          rw [hnewer, Option.none_or] at hdetected
          exact absurd (hfirst tx address (by simp [hscanned]) hmatched hdetected) hother
      | some address' =>
          rw [hnewer, Option.some_or] at hdetected
          obtain ⟨tx', htx', hmatched'⟩ := List.exists_of_findSome?_eq_some hnewer
          exact ⟨tx', htx', hfirst tx' address' (by simp [hscanned, htx']) hmatched' hdetected⟩

/-- Requests that read are answered from the chain, keep what is known of it, and fail only
if `fails`. -/
structure Reads (node : DevNode σ) (server : Server Ask Ask.Answer Exn σ)
    (promise : σ → Ask → Prop) (keeps : σ → Prop) (fails : Prop) : Prop where
  promised : ∀ s query, promise s (.rpc query)
  replies : ∀ {s t : σ} {query : Query} {r : Except Exn query.Answer}, keeps s →
    server.replies s (.rpc query) r t →
      keeps t ∧ (∀ v, r = .ok v → v = node.answer t query) ∧ (∀ e, r = .error e → fails)

/-- The result of a part of the scan: what is known of the chain is kept, and unless a
request failed it is `result`. -/
structure Finds (keeps : σ → Prop) (fails : Prop) (result : Option String)
    (r : Except Exn (Option String)) (t : σ) : Prop where
  keeps : keeps t
  found : ∀ found, r = .ok found → found = result
  fails : ∀ e, r = .error e → fails

/-- What the scan makes of transactions, whenever it comes to them: they are passed by, up to
the first one that is a match. -/
inductive Verdict (node : DevNode σ) (keeps : σ → Prop) : List Tx → Option String → Prop
  | nil : Verdict node keeps [] none
  | pass {tx : Tx} {rest : List Tx} {result : Option String}
      (h : ∀ t, keeps t → node.matched t tx = none) (hrest : Verdict node keeps rest result) :
      Verdict node keeps (tx :: rest) result
  | hit {tx : Tx} {rest : List Tx} {address : String}
      (h : ∀ t, keeps t → node.matched t tx = some address) :
      Verdict node keeps (tx :: rest) (some address)

variable {server : Server Ask Ask.Answer Exn σ} {promise : σ → Ask → Prop} {keeps : σ → Prop}
  {fails : Prop} {result : Option String}

theorem Verdict.append {xs ys : List Tx} (h : Verdict node keeps (xs ++ ys) result) :
    (∃ address, result = some address ∧ Verdict node keeps xs (some address)) ∨
      (Verdict node keeps xs none ∧ Verdict node keeps ys result) := by
  induction xs with
  | nil => exact .inr ⟨.nil, h⟩
  | cons tx rest ih =>
      cases h with
      | pass hpass hrest =>
          rcases ih hrest with ⟨address, hresult, hfirst⟩ | ⟨hfirst, hsecond⟩
          · exact .inl ⟨address, hresult, .pass hpass hfirst⟩
          · exact .inr ⟨.pass hpass hfirst, hsecond⟩
      | hit hhit => exact .inl ⟨_, rfl, .hit hhit⟩

/-- The first match of the scan is its verdict, if it makes the same of what it comes to at
any later time. -/
theorem verdict_of (txs : List Tx)
    (hpass : ∀ tx ∈ txs, node.matched s tx = none → ∀ t, keeps t → node.matched t tx = none)
    (hhit : ∀ tx address, node.matched s tx = some address →
      txs.findSome? (node.matched s) = some address →
        ∀ t, keeps t → node.matched t tx = some address) :
    Verdict node keeps txs (txs.findSome? (node.matched s)) := by
  induction txs with
  | nil => exact .nil
  | cons tx rest ih =>
      rw [List.findSome?_cons]
      cases hmatched : node.matched s tx with
      | none =>
          refine .pass (hpass tx List.mem_cons_self hmatched) (ih ?_ ?_)
          · intro tx' htx'
            exact hpass tx' (List.mem_cons_of_mem _ htx')
          · intro tx' address hmatched' hrest
            apply hhit tx' address hmatched'
            rw [List.findSome?_cons, hmatched]
            exact hrest
      | some address =>
          apply Verdict.hit
          apply hhit tx address hmatched
          rw [List.findSome?_cons, hmatched]

theorem Finds.ret (hs : keeps s) : Finds keeps fails result (.ok result) s where
  keeps := hs
  found := by
    rintro found ⟨⟩
    rfl
  fails := by
    rintro e ⟨⟩

theorem Finds.raise (hfails : fails) (e : Exn) (t : σ) (ht : keeps t) :
    Finds keeps fails result (.error e) t where
  keeps := ht
  found := by
    rintro found ⟨⟩
  fails := by
    rintro e -
    exact hfails

/-- Ask the node, and go on from any moment at which it may have answered. -/
theorem Reads.bind {α : Type} {ensures : Except Exn α → σ → Prop}
    (hreads : Reads node server promise keeps fails) (hs : keeps s)
    (hfails : fails → ∀ e t, keeps t → ensures (.error e) t) {query : Query}
    {f : query.Answer → Seeder α}
    (hf : ∀ t, keeps t → Safe server promise ensures (f (node.answer t query)) t) :
    Safe server promise ensures (rpc query >>= f) s := by
  have hquery : Safe server promise
      (fun r t => keeps t ∧ (∀ v, r = .ok v → v = node.answer t query) ∧
        (∀ e, r = .error e → fails)) (rpc query) s :=
    Safe.query (hreads.promised s query) fun r t hreplies => hreads.replies hs hreplies
  refine hquery.bind ?_ ?_
  · rintro v t ⟨ht, hv, -⟩
    rw [hv v rfl]
    exact hf t ht
  · rintro e t ⟨ht, -, he⟩
    exact hfails (he e rfl) e t ht

/-- One transaction. -/
theorem scanTransactions_cons (hreads : Reads node server promise keeps fails) {tx : Tx}
    {rest : List TxView} {verdict : Option String}
    (hmatched : ∀ t, keeps t → node.matched t tx = verdict)
    (hmined : ∀ t, keeps t → tx ∈ node.mined t)
    (hpass : verdict = none → ∀ t, keeps t →
      Safe server promise (Finds keeps fails result) (scanTransactions node.dev rest) t)
    (hhit : ∀ address, verdict = some address → result = some address) (hs : keeps s) :
    Safe server promise (Finds keeps fails result)
      (scanTransactions node.dev (tx.view :: rest)) s := by
  -- Wherever the loop goes on, the transaction is no match.
  have hskip : ∀ t, keeps t → (∀ address, node.matched t tx ≠ some address) →
      Safe server promise (Finds keeps fails result) (scanTransactions node.dev rest) t := by
    intro t ht hnone
    apply hpass _ t ht
    rw [← hmatched t ht]
    exact Option.eq_none_iff_forall_ne_some.mpr hnone
  rw [scanTransactions]
  split_ifs with hsender hrecipient
  · apply hskip s hs
    intro address h
    exact hsender (Node.matched_eq_some_iff.mp h).1
  · apply hskip s hs
    intro address h
    rw [Tx.view, (Node.matched_eq_some_iff.mp h).2.1] at hrecipient
    cases hrecipient
  · refine hreads.bind hs Finds.raise fun t ht => ?_
    rw [Tx.view, answer_receipt (hmined t ht), Option.bind_some]
    cases haddress : tx.receipt.contractAddress with
    | none =>
        apply hskip t ht
        intro address h
        rw [(Node.matched_eq_some_iff.mp h).2.2.1] at haddress
        cases haddress
    | some address =>
        dsimp only
        split_ifs with hempty
        · apply hskip t ht
          intro address' h
          obtain ⟨-, -, haddress', hne, -⟩ := Node.matched_eq_some_iff.mp h
          cases haddress.symm.trans haddress'
          exact hne hempty
        · refine hreads.bind ht Finds.raise fun u hu => ?_
          dsimp only [Node.answer]
          split_ifs with hcode
          · have hmatch : node.matched u tx = some address := by
              rw [Node.matched_eq_some_iff]
              refine ⟨not_not.mp hsender, ?_, haddress, hempty, hcode⟩
              exact Option.not_isSome_iff_eq_none.mp hrecipient
            rw [← hhit address ((hmatched u hu).symm.trans hmatch)]
            exact Finds.ret hu
          · apply hskip u hu
            intro address' h
            obtain ⟨-, -, haddress', -, hcode'⟩ := Node.matched_eq_some_iff.mp h
            cases haddress.symm.trans haddress'
            exact hcode hcode'

/-- The transactions of a block. -/
theorem scanTransactions_safe (hreads : Reads node server promise keeps fails) {txs : List Tx}
    (hmined : ∀ t, keeps t → ∀ tx ∈ txs, tx ∈ node.mined t)
    (hverdict : Verdict node keeps txs result) (hs : keeps s) :
    Safe server promise (Finds keeps fails result)
      (scanTransactions node.dev (txs.map Tx.view)) s := by
  induction hverdict generalizing s with
  | nil => exact Finds.ret hs
  | pass h _ ih =>
      refine scanTransactions_cons hreads h (fun t ht => hmined t ht _ List.mem_cons_self) ?_ ?_ hs
      · intro _ t ht
        exact ih (fun u hu tx htx => hmined u hu tx (List.mem_cons_of_mem _ htx)) ht
      · rintro address ⟨⟩
  | hit h =>
      refine scanTransactions_cons hreads h (fun t ht => hmined t ht _ List.mem_cons_self) ?_ ?_ hs
      · rintro ⟨⟩
      · intro address heq
        exact heq

/-- The blocks. -/
theorem scanBlocks_safe (hreads : Reads node server promise keeps fails) {numbers : List ℕ}
    {blocks : ℕ → Option (List Tx)}
    (hblocks : ∀ t, keeps t → ∀ number ∈ numbers, (node.chain t)[number]? = blocks number)
    (hverdict : Verdict node keeps (numbers.flatMap fun number => (blocks number).getD []) result)
    (hs : keeps s) :
    Safe server promise (Finds keeps fails result) (scanBlocks node.dev numbers) s := by
  induction numbers generalizing s with
  | nil =>
      cases hverdict
      exact Finds.ret hs
  | cons number rest ih =>
      have hrest := fun t ht k hk => hblocks t ht k (List.mem_cons_of_mem number hk)
      rw [scanBlocks]
      refine hreads.bind hs Finds.raise fun t ht => ?_
      rw [Node.answer, hblocks t ht number List.mem_cons_self]
      rw [List.flatMap_cons] at hverdict
      cases hblock : blocks number with
      | none =>
          rw [hblock] at hverdict
          exact ih hrest hverdict ht
      | some txs =>
          rw [hblock, Option.getD_some] at hverdict
          have hmined : ∀ u, keeps u → ∀ tx ∈ txs, tx ∈ node.mined u := by
            intro u hu tx htx
            have hplace := (hblocks u hu number List.mem_cons_self).trans hblock
            exact List.mem_flatten.mpr ⟨txs, List.mem_of_getElem? hplace, htx⟩
          rcases hverdict.append with ⟨address, rfl, hfirst⟩ | ⟨hfirst, hsecond⟩
          · refine (scanTransactions_safe hreads hmined hfirst ht).bind ?_ ?_
            · intro found u hfound
              rw [hfound.found found rfl]
              exact Finds.ret hfound.keeps
            · intro e u hfound
              exact Finds.raise (hfound.fails e rfl) e u hfound.keeps
          · refine (scanTransactions_safe hreads hmined hfirst ht).bind ?_ ?_
            · intro found u hfound
              rw [hfound.found found rfl]
              exact ih hrest hsecond hfound.keeps
            · intro e u hfound
              exact Finds.raise (hfound.fails e rfl) e u hfound.keeps

/-- An account that sent nothing deployed nothing. -/
theorem not_sent_of_count (h : node.answer s (.transactionCount node.dev) = 0) {tx : Tx}
    (htx : tx ∈ node.mined s) : lower tx.sender ≠ lower node.dev := by
  have hcount : (node.mined s).countP (fun tx => lower tx.sender = lower node.dev) = 0 := h
  have hnone := List.countP_eq_zero.mp hcount tx htx
  simpa using hnone

theorem detected_of_count (h : node.answer s (.transactionCount node.dev) = 0) :
    node.detected s = none := by
  refine List.findSome?_eq_none_iff.mpr fun tx htx => ?_
  rw [Option.eq_none_iff_forall_ne_some]
  intro address hmatched
  exact not_sent_of_count h (Node.mem_mined_of_scanned htx)
    (Node.matched_eq_some_iff.mp hmatched).1

/-- `find_existing_contract` answers at once if the account sent nothing; otherwise what it
answers is what the scan from the newest block finds. -/
theorem findExistingContract_safe {ensures : Except Exn (Option String) → σ → Prop}
    (hreads : Reads node server promise keeps fails) (hs : keeps s)
    (hfails : fails → ∀ e t, keeps t → ensures (.error e) t)
    (hnone : ∀ t, keeps t → node.answer t (.transactionCount node.dev) = 0 →
      ensures (.ok none) t)
    (hscan : ∀ t, keeps t →
      Safe server promise ensures (scanBlocks node.dev (scanRange (node.head t))) t) :
    Safe server promise ensures (findExistingContract node.dev) s := by
  rw [findExistingContract]
  refine hreads.bind hs hfails fun t ht => ?_
  split_ifs with hcount
  · exact hnone t ht hcount
  · exact hreads.bind ht hfails fun u hu => hscan u hu

/-- While nothing else goes on, the function answers with the first match. -/
theorem run_findExistingContract (node : DevNode σ) (s : σ) :
    (findExistingContract node.dev).run (node.quietly s) = .ok (node.detected s) := by
  have hreads : Reads node (Server.still (node.quietly s)) (fun _ _ => True) (fun t => t = s)
      False := by
    refine ⟨fun _ _ => trivial, ?_⟩
    rintro _ t query r rfl ⟨rfl, rfl⟩
    refine ⟨rfl, ?_, ?_⟩
    · rintro v ⟨⟩
      rfl
    · rintro e ⟨⟩
  have hverdict : Verdict node (fun t => t = s) (node.scanned s) (node.detected s) := by
    refine verdict_of (node.scanned s) ?_ ?_
    · rintro tx - hmatched t rfl
      exact hmatched
    · rintro tx address hmatched - t rfl
      exact hmatched
  have hsafe : Safe (Server.still (node.quietly s)) (fun _ _ => True)
      (Finds (fun t => t = s) False (node.detected s)) (findExistingContract node.dev) s := by
    refine findExistingContract_safe hreads rfl Finds.raise ?_ ?_
    · rintro t rfl hcount
      rw [← detected_of_count hcount]
      exact Finds.ret rfl
    · rintro t rfl
      refine scanBlocks_safe hreads ?_ hverdict rfl
      rintro u rfl number -
      rfl
  have hfinds := hsafe.run
  cases hrun : (findExistingContract node.dev).run (node.quietly s) with
  | error e =>
      rw [hrun] at hfinds
      exact (hfinds.fails e rfl).elim
  | ok found =>
      rw [hrun] at hfinds
      rw [hfinds.found found rfl]

/-- The function finds the test contract exactly where it is detectable. -/
theorem findsExactly_iff : node.FindsExactly s ↔ node.Detectable s := by
  rw [FindsExactly, detectable_iff, run_findExistingContract]
  apply Iff.intro
  · rintro ⟨found, hfound, hgood⟩
    rw [Except.ok.inj hfound]
    exact hgood
  · intro hgood
    exact ⟨node.detected s, rfl, hgood⟩

end DevNode

end StateBenchmarks.SeedTestNode
