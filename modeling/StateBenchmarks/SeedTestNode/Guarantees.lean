/-
# What a run of the seeder guarantees

Between its deployments the seeder does nothing that matters to the contract, and
neither does anything else that happens to the node.  So what the scan finds, while the
chain grows under it, is what it would have found at the moment it began, and a run
deploys only where no deployment of the seeder is on the chain or waits to be mined.
-/

import StateBenchmarks.SeedTestNode.Scan

namespace StateBenchmarks.SeedTestNode

open Python Control Dialogue

namespace DevNode

variable {σ : Type} {node : DevNode σ} {s t u : σ}

/-- Some time later, with no deployment of the seeder handed in since. -/
structure Undisturbed (node : DevNode σ) (s t : σ) : Prop where
  later : node.Later s t
  deployments : node.deployed t + node.pending t ≤ node.deployed s + node.pending s

theorem Undisturbed.refl (s : σ) : node.Undisturbed s s := ⟨.refl, le_rfl⟩

theorem Undisturbed.trans (hst : node.Undisturbed s t) (htu : node.Undisturbed t u) :
    node.Undisturbed s u :=
  ⟨hst.later.trans htu.later, htu.deployments.trans hst.deployments⟩

/-- Nothing waits to be mined if nothing did before. -/
theorem Undisturbed.pending_eq_zero (h : node.Undisturbed s t) (hs : node.pending s = 0) :
    node.pending t = 0 := by
  have hdeployed := deployed_le_of_later h.later
  have hsum := h.deployments
  omega

/-- All that the seeder asks, but its deployments and the state file. -/
def Harmless : Ask → Prop
  | .rpc _ => True
  | .sendTransaction request => request.data ≠ some deployBytecode
  | .polls _ => True
  | .writeState _ _ _ => False

theorem Undisturbed.of_replies {q : Ask} {r : Except Exn q.Answer} (hq : Harmless q)
    (h : node.Replies s q r t) : node.Undisturbed s t := by
  refine ⟨later_of_replies h, ?_⟩
  cases h with
  | fails q e hq' hmoves => exact node.pending_moves hmoves
  | rpc query hmoves => exact node.pending_moves hmoves
  | sendTransaction hmoves hsubmits =>
      have hsum := node.pending_submits hsubmits
      rw [if_neg hq, Nat.add_zero] at hsum
      exact hsum.trans (node.pending_moves hmoves)
  | polls timeout rounds hmoves => exact node.pending_moves hmoves
  | writeState url contract funded hmoves => exact node.pending_moves hmoves

theorem waitForTx_asks (txHash : String) : (waitForTx txHash).Asks Harmless := by
  refine Asks.bind (Asks.query trivial) fun rounds => ?_
  induction rounds with
  | zero => exact trivial
  | succ n ih =>
      refine Asks.bind (Asks.query trivial) fun receipt => ?_
      cases receipt with
      | none => exact ih
      | some receipt => exact trivial

theorem sendValue_asks (sender recipient value : String) :
    (sendValue sender recipient value).Asks Harmless := by
  refine Asks.bind (Asks.query ?_) fun txHash => Asks.bind (waitForTx_asks txHash) fun receipt => ?_
  · rintro ⟨⟩
  · split_ifs <;> exact trivial

theorem waitForChain_asks (url : String) : (waitForChain url).Asks Harmless := by
  refine Asks.bind (Asks.query trivial) fun rounds => ?_
  generalize false = sawRpc, (none : Option Exn) = lastError
  induction rounds generalizing sawRpc lastError with
  | zero => exact trivial
  | succ n ih =>
      refine Asks.bind (Asks.attempt trivial) fun block => ?_
      cases block with
      | error e => exact ih sawRpc (some e)
      | ok number =>
          dsimp only
          split_ifs
          · exact trivial
          · exact ih true lastError

theorem fundAddresses_asks (sender fundWei : String) (addresses : List String) :
    (fundAddresses sender fundWei addresses).Asks Harmless := by
  induction addresses with
  | nil => exact trivial
  | cons address rest ih =>
      refine Asks.bind (Asks.query trivial) fun balance => ?_
      split_ifs
      · exact ih
      · exact Asks.bind (sendValue_asks sender address fundWei) fun _ => ih

theorem extraTransfers_asks (sender : String) (i n : ℕ) :
    (extraTransfers sender i n).Asks Harmless := by
  induction n generalizing i with
  | zero => exact trivial
  | succ n ih => exact Asks.bind (sendValue_asks sender _ "0x1") fun _ => ih (i + 1)

/-- The seeder deploys only where it has no deployment on the chain or waiting, and writes
only the address of a test contract into the state file. -/
def Promise (node : DevNode σ) (s : σ) : Ask → Prop
  | .rpc _ => True
  | .sendTransaction request =>
      request.data = some deployBytecode → node.deployed s + node.pending s = 0
  | .polls _ => True
  | .writeState _ contract _ => ∃ address, contract = some address ∧ node.TestContract s address

/-- The address is there, and it is that of a test contract. -/
def Reported (node : DevNode σ) (s : σ) (found : Option String) : Prop :=
  ∃ address, found = some address ∧ node.TestContract s address

theorem promise_of_harmless {q : Ask} (hq : Harmless q) : node.Promise s q := by
  cases q with
  | rpc query => exact trivial
  | sendTransaction request => exact fun hdata => absurd hdata hq
  | polls timeout => exact trivial
  | writeState url contract funded => exact hq.elim

theorem reported_of_later (h : node.Later s t) {found : Option String}
    (hs : node.Reported s found) : node.Reported t found := by
  obtain ⟨address, hfound, htest⟩ := hs
  exact ⟨address, hfound, testContract_of_later h htest⟩

/-- The node in the runs on which the test contract is detectable all along. -/
def watched (node : DevNode σ) : Server Ask Ask.Answer Exn σ := node.server.within node.Detectable

/-- Since `s` nothing was deployed, and the test contract is detectable. -/
def Calm (node : DevNode σ) (s t : σ) : Prop := node.Undisturbed s t ∧ node.Detectable t

theorem Calm.of_replies {q : Ask} {r : Except Exn q.Answer} (hs : node.Calm s t) (hq : Harmless q)
    (h : node.watched.replies t q r u) : node.Calm s u :=
  ⟨hs.1.trans (.of_replies hq h.1), h.2⟩

/-- A harmless part of the script leaves things as they are. -/
theorem calm_of_asks {α : Type} {d : Seeder α} (hd : d.Asks Harmless) (hs : node.Calm s t) :
    Safe node.watched node.Promise (fun _ u => node.Calm s u) d t :=
  Safe.of_asks hd hs (fun _ _ _ hq => promise_of_harmless hq)
    fun _ _ _ _ ht hq hreplies => ht.of_replies hq hreplies

theorem reads_calm (node : DevNode σ) (s : σ) :
    Reads node node.watched node.Promise (node.Calm s) True := by
  refine ⟨fun _ _ => trivial, ?_⟩
  intro t u query r ht hreplies
  refine ⟨ht.of_replies (q := .rpc query) trivial hreplies, ?_, fun _ _ => trivial⟩
  rintro v rfl
  cases hreplies.1
  rfl

/-- A block that was there when the scan began stays what it was. -/
theorem chain_getElem?_of_later (h : node.Later s t) {number : ℕ}
    (hnumber : number ∈ scanRange (node.head s)) :
    (node.chain t)[number]? = (node.chain s)[number]? := by
  have hlength : 0 < (node.chain s).length := List.length_pos_of_ne_nil (node.chain_ne_nil s)
  have hlt : number < (node.chain s).length := by
    simp only [scanRange, List.mem_reverse, List.mem_range'_1, Node.head] at hnumber
    omega
  obtain ⟨new, hnew⟩ := node.chain_grows h
  rw [← hnew, List.getElem?_append_left hlt]

/-- What the scan of a detectable chain comes to is the same whenever it comes to it. -/
theorem verdict_of_detectable (hs : node.Detectable s) :
    Verdict node (node.Calm s) (node.scanned s) (node.detected s) := by
  have htests := (detectable_iff.mp hs).1
  refine verdict_of (node.scanned s) ?_ ?_
  · intro tx htx hmatched t ht
    have hmined := Node.mem_mined_of_scanned htx
    rw [Option.eq_none_iff_forall_ne_some] at hmatched ⊢
    intro address hlater
    obtain ⟨hsender, hrecipient, haddress, hne, hcode⟩ := Node.matched_eq_some_iff.mp hlater
    have hbefore := node.code_later ht.1.later hmined haddress hcode
    exact hmatched address
      (Node.matched_eq_some_iff.mpr ⟨hsender, hrecipient, haddress, hne, hbefore⟩)
  · intro tx address hmatched hdetected t ht
    obtain ⟨hsender, hrecipient, haddress, hne, -⟩ := Node.matched_eq_some_iff.mp hmatched
    obtain ⟨tx', htx', hdeployment, haddress'⟩ :=
      testContract_of_later ht.1.later (htests address hdetected)
    obtain ⟨address'', haddress'', -, hcode⟩ := node.code_deployed htx' hdeployment
    cases haddress'.symm.trans haddress''
    exact Node.matched_eq_some_iff.mpr ⟨hsender, hrecipient, haddress, hne, hcode⟩

/-- What `main` knows of the contract after the scan: the address it got is that of a test
contract, and if it got none the seeder has deployed none and none of its deployments
waits. -/
structure Known (node : DevNode σ) (t : σ) (found : Option String) : Prop where
  some : ∀ address, found = some address → address ≠ "" ∧ node.TestContract t address
  none : found = none → node.deployed t + node.pending t = 0

theorem known_of_detected (ht : node.Detectable t) (hpending : node.pending t = 0)
    (hu : node.Undisturbed t u) : node.Known u (node.detected t) := by
  obtain ⟨htests, hexists⟩ := detectable_iff.mp ht
  refine ⟨?_, ?_⟩
  · intro address hdetected
    obtain ⟨tx, -, hmatched⟩ := List.exists_of_findSome?_eq_some hdetected
    refine ⟨(Node.matched_eq_some_iff.mp hmatched).2.2.2.1, ?_⟩
    exact testContract_of_later hu.later (htests address hdetected)
  · intro hdetected
    have hdeployed : node.deployed t = 0 := by
      by_contra hsome
      exact hexists (exists_testContract_iff.mpr (exists_testDeployment_of_deployed hsome))
        hdetected
    have hsum := hu.deployments
    omega

theorem findExistingContract_known (hpending : node.pending s = 0) (hs : node.Calm s s) :
    Safe node.watched node.Promise
      (onReturn node.Known) (findExistingContract node.dev) s := by
  refine findExistingContract_safe (reads_calm node s) hs (fun _ _ _ _ => trivial) ?_ ?_
  · intro t ht hcount
    rw [onReturn, ← detected_of_count hcount]
    exact known_of_detected ht.2 (ht.1.pending_eq_zero hpending) (.refl t)
  · intro t ht
    have hscan : Safe node.watched node.Promise (Finds (node.Calm t) True (node.detected t))
        (scanBlocks node.dev (scanRange (node.head t))) t :=
      scanBlocks_safe (reads_calm node t)
        (fun u hu number hnumber => chain_getElem?_of_later hu.1.later hnumber)
        (verdict_of_detectable ht.2) ⟨.refl t, ht.2⟩
    refine hscan.mono fun r u hfinds => ?_
    cases r with
    | error e => exact trivial
    | ok found =>
        rw [onReturn, hfinds.found found rfl]
        exact known_of_detected ht.2 (ht.1.pending_eq_zero hpending) hfinds.keeps.1

/-- The receipt is that of a mined transaction with the hash. -/
def Receipted (node : DevNode σ) (txHash : String) (t : σ) (receipt : Receipt) : Prop :=
  ∃ tx ∈ node.mined t, tx.hash = txHash ∧ tx.receipt = receipt

theorem waitForTx_receipted (hs : node.Calm s s) (txHash : String) :
    Safe node.watched node.Promise
      (fun r t => node.Calm s t ∧ onReturn (node.Receipted txHash) r t) (waitForTx txHash) s := by
  have hpolls : (query (Ask.polls 30) : Seeder ℕ).Asks Harmless := Asks.query trivial
  refine (calm_of_asks hpolls hs).bind ?_ fun _ _ ht => ⟨ht, trivial⟩
  intro rounds t ht
  induction rounds generalizing t with
  | zero => exact ⟨ht, trivial⟩
  | succ n ih =>
      refine (reads_calm node s).bind ht (fun _ _ _ hu => ⟨hu, trivial⟩) fun u hu => ?_
      cases hreceipt : node.answer u (.receipt txHash) with
      | none => exact ih u hu
      | some receipt => exact ⟨hu, exists_mined_of_receipt hreceipt⟩

/-- A deployment that is mined and has succeeded put a test contract on the chain. -/
theorem deployContract_reported (hs : node.deployed s + node.pending s = 0) :
    Safe node.watched node.Promise (onReturn node.Reported) (deployContract node.dev) s := by
  refine (Safe.query (fun _ => hs) fun r t hreplies => hreplies).bind ?_ fun _ _ _ => trivial
  rintro txHash t ⟨hreplies, hdetectable⟩
  cases hreplies with
  | sendTransaction hmoves hsubmits =>
      refine (waitForTx_receipted ⟨.refl t, hdetectable⟩ txHash).bind ?_ fun _ _ _ => trivial
      rintro receipt u ⟨hcalm, tx, htx, hhash, rfl⟩
      split_ifs with hstatus
      · exact trivial
      · have hcarries := node.submits_hash hsubmits hcalm.1.later htx hhash
        have hdeployment : node.IsTestDeployment tx := by
          refine ⟨?_, hcarries.recipient, hcarries.data, not_not.mp hstatus⟩
          rw [hcarries.sender]
          rfl
        obtain ⟨address, haddress, -⟩ := node.code_deployed htx hdeployment
        exact ⟨address, haddress, tx, htx, hdeployment, haddress⟩

theorem ensureContract_reported (hpending : node.pending s = 0) (hs : node.Calm s s) :
    Safe node.watched node.Promise (onReturn node.Reported) (ensureContract node.dev) s := by
  refine (findExistingContract_known hpending hs).bind ?_ fun _ _ _ => trivial
  intro found t hknown
  cases found with
  | none => exact deployContract_reported (hknown.none rfl)
  | some existing =>
      obtain ⟨hne, htest⟩ := hknown.some existing rfl
      dsimp only
      rw [if_pos hne]
      exact ⟨existing, rfl, htest⟩

/-- What follows the deployment leaves the report as it is. -/
theorem reported_of_asks {α : Type} {d : Seeder α} {found : Option String}
    (hd : d.Asks Harmless) (hs : node.Reported s found) :
    Safe node.watched node.Promise (fun _ t => node.Reported t found) d s :=
  Safe.of_asks hd hs (fun _ _ _ hq => promise_of_harmless hq)
    fun _ _ _ _ ht _ hreplies => reported_of_later (later_of_replies hreplies.1) ht

/-- A run that begins while nothing waits keeps the promises, and reports a test contract if
it returns. -/
theorem main_reported (args : Args) (hpending : node.pending s = 0) (hs : node.Calm s s) :
    Safe node.watched node.Promise (onReturn node.Reported) (main args) s := by
  refine (calm_of_asks (waitForChain_asks args.rpc) hs).bind ?_ fun _ _ _ => trivial
  intro _ t ht
  refine (reads_calm node s).bind ht (fun _ _ _ _ => trivial) fun u hu => ?_
  refine (calm_of_asks (fundAddresses_asks node.dev args.fundWei testAddresses) hu).bind ?_
    fun _ _ _ => trivial
  intro _ t ht
  refine (ensureContract_reported (ht.1.pending_eq_zero hpending) ⟨.refl t, ht.2⟩).bind ?_
    fun _ _ _ => trivial
  intro contractAddr t hreported
  refine (reported_of_asks (extraTransfers_asks node.dev 0 args.extraTxs.toNat) hreported).bind ?_
    fun _ _ _ => trivial
  intro _ u hu
  split_ifs with hfile
  · have hwrite : Safe node.watched node.Promise (fun _ t => node.Reported t contractAddr)
        (query (Ask.writeState args.rpc contractAddr testAddresses)) u :=
      Safe.query hu fun r v hreplies => reported_of_later (later_of_replies hreplies.1) hu
    exact hwrite.bind (fun _ v hv => hv) fun _ _ _ => trivial
  · exact hu

end DevNode

end StateBenchmarks.SeedTestNode
