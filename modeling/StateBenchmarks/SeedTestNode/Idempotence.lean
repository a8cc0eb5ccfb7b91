/-
# Seeding again and again

The seeder is run any number of times against one node, each run completed or not, while
the chain grows and the development account is used for other things.  It deploys the
test contract once, and reports no other, as long as the contract is detectable in every
state the chain comes to and no run begins while a deployment of an earlier one waits
to be mined.
-/

import StateBenchmarks.SeedTestNode.Guarantees

namespace StateBenchmarks.SeedTestNode

open Python Control Dialogue

namespace DevNode

variable {σ : Type}

/-- A run of the script begins. -/
def Begins (_ : σ) (d : Seeder (Option String)) : Prop := ∃ args, d = main args

/-- The seeder deployed nothing yet. -/
def Fresh (node : DevNode σ) (s : σ) : Prop := node.deployed s + node.pending s = 0

/-- A session of the seeder and all else that happens to the node. -/
abbrev Seeding (σ : Type) : Type := Session Ask Ask.Answer Exn (Option String) σ

/-- Seeding is idempotent for the contract: the scan finds the test contract exactly where
there is one, no more than one is the seeder's, and what the runs reported, or are about
to write into the state file, is the address of a test contract. -/
structure SeedsOnce (node : DevNode σ) (c : Seeding σ) : Prop where
  finds : node.FindsExactly c.state
  once : node.deployed c.state ≤ 1
  reported : ∀ found ∈ c.results, node.Reported c.state found
  written : ∀ url contract funded next,
    c.running = some (.ask (.writeState url contract funded) next) →
      node.Reported c.state contract

/-- What the seeder guarantees where the contract is detectable all along and no run begins
while a deployment waits. -/
theorem guarantees (node : DevNode σ) :
    Session.Guarantees node.watched (fun s d => node.pending s = 0 ∧ Begins s d)
      (fun s => node.Fresh s ∧ node.Detectable s)
      (fun s => node.deployed s + node.pending s ≤ 1 ∧ node.Detectable s)
      node.Promise node.Reported where
  invariant_initial := by
    rintro s ⟨hfresh, hdetectable⟩
    exact ⟨hfresh.le.trans (Nat.zero_le 1), hdetectable⟩
  invariant_moves := by
    rintro s t ⟨hsum, -⟩ ⟨hmoves, hdetectable⟩
    exact ⟨(node.pending_moves hmoves).trans hsum, hdetectable⟩
  invariant_replies := by
    rintro s t q r ⟨hsum, -⟩ hpromise ⟨hreplies, hdetectable⟩
    refine ⟨?_, hdetectable⟩
    cases hreplies with
    | fails q e hq hmoves => exact (node.pending_moves hmoves).trans hsum
    | rpc query hmoves => exact (node.pending_moves hmoves).trans hsum
    | sendTransaction hmoves hsubmits =>
        have hmoved := node.pending_moves hmoves
        have hsubmitted := node.pending_submits hsubmits
        split_ifs at hsubmitted with hdata
        · have hnone := hpromise hdata
          omega
        · omega
    | polls timeout rounds hmoves => exact (node.pending_moves hmoves).trans hsum
    | writeState url contract funded hmoves => exact (node.pending_moves hmoves).trans hsum
  promise_moves := by
    rintro s t q hpromise ⟨hmoves, -⟩
    cases q with
    | rpc query => exact trivial
    | sendTransaction request =>
        intro hdata
        exact Nat.le_zero.mp ((node.pending_moves hmoves).trans (hpromise hdata).le)
    | polls timeout => exact trivial
    | writeState url contract funded => exact reported_of_later (later_of_moves hmoves) hpromise
  good_moves := by
    rintro s t found hgood ⟨hmoves, -⟩
    exact reported_of_later (later_of_moves hmoves) hgood
  good_replies := by
    rintro s t q r found hgood ⟨hreplies, -⟩
    exact reported_of_later (later_of_replies hreplies) hgood
  safe := by
    rintro s d ⟨-, hdetectable⟩ ⟨hpending, args, rfl⟩
    exact main_reported args hpending ⟨.refl s, hdetectable⟩

/-- **Seeding is idempotent for the contract in every session in which the test contract is
detectable in each state of the chain and no run begins while a deployment of an earlier
one waits to be mined.** -/
theorem seedsOnce_of_detectable (node : DevNode σ) {c : Seeding σ}
    (h : Session.Reached (node.server.within node.Detectable)
      (fun s d => node.pending s = 0 ∧ Begins s d)
      (fun s => node.Fresh s ∧ node.Detectable s) c) : node.SeedsOnce c := by
  have hsound := node.guarantees.sound h
  refine ⟨?_, ?_, hsound.results, ?_⟩
  · exact findsExactly_iff.mpr hsound.invariant.2
  · exact (Nat.le_add_right _ _).trans hsound.invariant.1
  · intro url contract funded next hrunning
    exact (hsound.running _ hrunning).1

end DevNode

/-- Before and after the contract is there. -/
inductive Stage where
  | before
  | after

/-- The creation of the contract. -/
def creation (data : String) (seeded : Bool) : Tx where
  hash := "0xd1"
  sender := "0xde"
  recipient := none
  data := data
  receipt := ⟨some "0x1", some "0xc0"⟩
  seeded := seeded

/-- A node that mines one creation: the seeder's deployment as soon as it is handed in, or
somebody else's at any time. -/
def stagedNode (data code : String) (seeded : Bool) : Node Stage where
  dev := "0xde"
  others := []
  chain
    | .before => [[], []]
    | .after => [[], [], [creation data seeded]]
  balance _ _ := 1
  code _ address := if address = "0xc0" then code else "0x"
  pending _ := 0
  moves s t := s = t ∨ (seeded = false ∧ s = .before ∧ t = .after)
  submits s request r t :=
    (r = .error (.external "Refused") ∧ s = t) ∨
      (seeded = true ∧ request = deployRequest "0xde" ∧ r = .ok "0xd1" ∧ s = .before ∧ t = .after)

section

variable {data code : String} {seeded : Bool} {s t : Stage}

theorem staged_later (h : (stagedNode data code seeded).Later s t) :
    s = t ∨ (s = .before ∧ t = .after) := by
  induction h with
  | refl => exact .inl rfl
  | tail _ hstep ih =>
      rcases hstep with (rfl | ⟨-, rfl, rfl⟩) | ⟨request, r, ⟨-, rfl⟩ | ⟨-, -, -, rfl, rfl⟩⟩
      · exact ih
      · exact .inr ⟨ih.elim id And.left, rfl⟩
      · exact ih
      · exact .inr ⟨ih.elim id And.left, rfl⟩

theorem staged_mined {tx : Tx} (htx : tx ∈ (stagedNode data code seeded).mined s) :
    tx = creation data seeded := by
  cases s with
  | before => cases htx
  | after => exact List.mem_singleton.mp htx

/-- It behaves as a development node does, if what the seeder deploys is the test contract. -/
def oneContract (data code : String) (seeded : Bool) (hcode : HasCode code)
    (hseeded : seeded = true → data = deployBytecode) : DevNode Stage where
  toNode := stagedNode data code seeded
  chain_ne_nil := by
    rintro (_ | _) <;> exact List.cons_ne_nil _ _
  moves_trans := by
    rintro s t u (rfl | ⟨hother, rfl, rfl⟩) (rfl | ⟨hother', hs, rfl⟩)
    · exact .inl rfl
    · exact .inr ⟨hother', hs, rfl⟩
    · exact .inr ⟨hother, rfl, rfl⟩
    · cases hs
  chain_grows := by
    intro s t h
    rcases staged_later h with rfl | ⟨rfl, rfl⟩
    · exact List.prefix_rfl
    · exact ⟨[[creation data seeded]], rfl⟩
  hash_inj := fun htx htx' _ => (staged_mined htx).trans (staged_mined htx').symm
  address_inj := fun htx htx' _ _ => (staged_mined htx).trans (staged_mined htx').symm
  code_deployed := by
    intro s tx htx _
    rw [staged_mined htx]
    exact ⟨"0xc0", rfl, by decide, hcode⟩
  code_later := fun _ _ _ h => h
  pending_moves := by
    rintro s t (rfl | ⟨rfl, rfl, rfl⟩)
    · exact le_rfl
    · exact le_rfl
  pending_submits := by
    rintro s request r t (⟨-, rfl⟩ | ⟨-, rfl, -, rfl, rfl⟩)
    · exact Nat.le_add_right _ _
    · exact List.countP_le_length
  submits_hash := by
    rintro s request hash t u tx (⟨h, -⟩ | ⟨hours, rfl, -⟩) - htx -
    · cases h
    · rw [staged_mined htx]
      exact ⟨rfl, rfl, hseeded hours⟩

end

/-- A development account that was used to deploy some other contract. -/
def otherContract : DevNode Stage :=
  oneContract "0x6001600c60003960016000f300" "0x00" false (by decide) (by rintro ⟨⟩)

/-- Where the account deployed another contract, the scan finds that one. -/
theorem otherContract_not_seedsOnce :
    ¬∀ c : DevNode.Seeding Stage,
      Session.Reached otherContract.server DevNode.Begins otherContract.Fresh c →
        otherContract.SeedsOnce c := by
  intro hclaim
  have hreached : Session.Reached otherContract.server DevNode.Begins otherContract.Fresh
      ⟨.after, none, []⟩ := by
    refine ⟨.before, rfl, .single (.moves (.inr ⟨rfl, rfl, rfl⟩))⟩
  have hdetected : otherContract.detected .after = some "0xc0" := by decide
  obtain ⟨found, hrun, hgood, -⟩ := (hclaim _ hreached).finds
  rw [DevNode.run_findExistingContract, hdetected] at hrun
  obtain ⟨tx, htx, hdeployment, -⟩ := hgood "0xc0" (Except.ok.inj hrun).symm
  rw [staged_mined htx] at hdeployment
  exact absurd hdeployment.2.2.1 (by decide)

/-- A development node that is new. -/
def newNode : DevNode Stage :=
  oneContract deployBytecode "0x6103e860005260206000f3" true (by decide) fun _ => rfl

theorem newNode_detectable (s : Stage) : newNode.Detectable s := by
  have htest : newNode.IsTestDeployment (creation deployBytecode true) := ⟨rfl, rfl, rfl, rfl⟩
  refine ⟨?_, ?_⟩
  · rintro ⟨tx, htx, -⟩
    cases s with
    | before => cases htx
    | after => exact ⟨creation deployBytecode true, .head _, htest⟩
  · intro newer tx older hscanned _ hother
    have htx : tx ∈ newNode.scanned s := by simp [hscanned]
    rw [staged_mined (Node.mem_mined_of_scanned htx)] at hother
    exact absurd htest hother

/-- A run on a new node deploys the test contract and reports it. -/
theorem seedsOnce_of_detectable_newNode :
    newNode.SeedsOnce ⟨.after, none, [some "0xc0"]⟩ := by
  refine newNode.seedsOnce_of_detectable ⟨.before, ⟨rfl, newNode_detectable _⟩, ?_⟩
  have hstay : ∀ s, newNode.moves s s := fun _ => .inl rfl
  have hsubmits : newNode.submits .before (deployRequest "0xde") (.ok "0xd1") .after :=
    .inr ⟨rfl, rfl, rfl, rfl, rfl⟩
  refine .head (.begins rfl ⟨rfl, ⟨"http://localhost:8545", "0x1", 0, ""⟩, rfl⟩) ?_
  refine .head (.answered rfl ⟨.polls 60 1 (hstay _), newNode_detectable _⟩) ?_
  refine .head (.answered rfl ⟨.rpc .blockNumber (hstay _), newNode_detectable _⟩) ?_
  refine .head (.answered rfl ⟨.rpc .accounts (hstay _), newNode_detectable _⟩) ?_
  refine .head (.answered rfl ⟨.rpc (.balance _) (hstay _), newNode_detectable _⟩) ?_
  refine .head (.answered rfl ⟨.rpc (.balance _) (hstay _), newNode_detectable _⟩) ?_
  refine .head (.answered rfl ⟨.rpc (.balance _) (hstay _), newNode_detectable _⟩) ?_
  refine .head (.answered rfl ⟨.rpc (.transactionCount _) (hstay _), newNode_detectable _⟩) ?_
  refine .head (.answered rfl ⟨.sendTransaction (hstay _) hsubmits, newNode_detectable _⟩) ?_
  refine .head (.answered rfl ⟨.polls 30 1 (hstay _), newNode_detectable _⟩) ?_
  refine .head (.answered rfl ⟨.rpc (.receipt _) (hstay _), newNode_detectable _⟩) ?_
  exact .single (.returned rfl)

end StateBenchmarks.SeedTestNode
