/-
# From the seeder to the load test

The seeder writes the address of its contract to a state file; the runner reads the file
and hands the address to Locust in the environment, and the load test adds it to the
addresses of its configuration.  Three processes pass on one string, as JSON text and
between commas.

The load test compares addresses without their case, and adds none that is there already.
-/

import StateBenchmarks.Orchestrator.Runner
import StateBenchmarks.Python.JsonRoundTrip
import StateBenchmarks.SeedTestNode.Idempotence

namespace StateBenchmarks.LoadTests

open Python Orchestrator SeedTestNode

/-- `_extra_addresses`, by the value of `LOCUST_EXTRA_ADDRESSES`. -/
def extraAddresses (value : String) : List String :=
  ((value.toList.splitOn ',').map fun piece => strip (String.ofList piece)).filter (· ≠ "")

/-- One iteration of the loop that appends to `ADDRESSES`. -/
def addAddress (addresses : List String) (addr : String) : List String :=
  if lower addr ∈ addresses.map lower then addresses else addresses ++ [addr]

/-- `ADDRESSES`, by the configured ones and the environment. -/
def targetAddresses (configured : List String) (value : String) : List String :=
  (extraAddresses value).foldl addAddress configured

/-- The value the runner leaves in Locust's environment. -/
def extraAddressesValue (inherited : Option String) (seeded : List String) : String :=
  if seeded = [] then inherited.getD "" else String.intercalate "," seeded

/-- Text that passes through commas unchanged. -/
structure Plain (address : String) : Prop where
  ne_empty : address ≠ ""
  no_comma : ',' ∉ address.toList
  no_space : ∀ c ∈ address.toList, isSpace c = false

theorem extraAddresses_intercalate {texts : List String} (hne : texts ≠ [])
    (h : ∀ text ∈ texts, Plain text) :
    extraAddresses (String.intercalate "," texts) = texts := by
  have hsplit : (String.intercalate "," texts).toList.splitOn ',' = texts.map String.toList := by
    rw [String.toList_intercalate]
    refine List.splitOn_intercalate ',' ?_ (by simpa using hne)
    intro piece hpiece
    obtain ⟨text, htext, rfl⟩ := List.mem_map.mp hpiece
    exact (h text htext).no_comma
  have hstrip : (texts.map String.toList).map (fun piece => strip (String.ofList piece)) =
      texts := by
    rw [List.map_map]
    refine (List.map_congr_left fun text htext => ?_).trans (List.map_id texts)
    rw [Function.comp_apply, strip, String.toList_ofList,
      stripChars_eq_self (h text htext).no_space, String.ofList_toList, id]
  rw [extraAddresses, hsplit, hstrip, List.filter_eq_self]
  intro text htext
  simpa using (h text htext).ne_empty

/-- The text of the state file. -/
def stateText (floatText : ℚ → List Char) (url : String) (contract : Option String)
    (funded : List String) : String :=
  JsonText.dumps (.indented 2) floatText (.obj [("rpc", .str url),
    ("contract_address", contract.elim .null .str), ("funded_addresses", .arr (funded.map .str))])

/-- The runner reads out of the file what the seeder wrote. -/
theorem addressTexts_stateText (floatOf : List Char → ℚ) (floatText : ℚ → List Char)
    (url : String) {address : String} (hne : address ≠ "") (funded : List String) :
    addressTexts (loadSeededAddresses
      (JsonText.jsonFile floatOf (stateText floatText url (some address) funded))) =
        .ok [address] := by
  have hfunded : JsonText.ReadableItems floatOf floatText (funded.map .str) := by
    refine JsonText.properItems_iff.mpr fun v hv => ?_
    obtain ⟨text, -, rfl⟩ := List.mem_map.mp hv
    trivial
  have hnames : ["rpc", "contract_address", "funded_addresses"].Nodup := by decide
  have hreadable : JsonText.Readable floatOf floatText (.obj [("rpc", .str url),
      ("contract_address", .str address), ("funded_addresses", .arr (funded.map .str))]) :=
    ⟨hnames, trivial, trivial, hfunded, trivial⟩
  have hfile : JsonText.jsonFile floatOf (stateText floatText url (some address) funded) = _ :=
    JsonText.jsonFile_dumps (JsonText.blank_indented 2) hreadable
  rw [hfile]
  have htruthy : (Json.str address).truthy = true := by simpa [Json.truthy] using hne
  show addressTexts (if (Json.str address).truthy then [Json.str address] else []) = _
  rw [if_pos htruthy]
  rfl

/-- **In every session of the seeder: what it writes to the state file is the address of a
test contract on the chain, and the load test that is started with this file has the
configured targets, and this address behind them unless it is one of them.** -/
theorem targetAddresses_seeded {σ : Type} (node : DevNode σ) {c : DevNode.Seeding σ}
    (h : Control.Session.Reached (node.server.within node.Detectable)
      (fun s d => node.pending s = 0 ∧ DevNode.Begins s d)
      (fun s => node.Fresh s ∧ node.Detectable s) c)
    {url : String} {contract : Option String} {funded : List String}
    {next : Except Exn (Ask.Answer (.writeState url contract funded)) → Seeder (Option String)}
    (hwrites : c.running = some (.ask (.writeState url contract funded) next))
    (hplain : ∀ address, node.TestContract c.state address → Plain address)
    (floatOf : List Char → ℚ) (floatText : ℚ → List Char) (configured : List String)
    (inherited : Option String) :
    ∃ address seeded, node.TestContract c.state address ∧
      addressTexts (loadSeededAddresses
        (JsonText.jsonFile floatOf (stateText floatText url contract funded))) = .ok seeded ∧
      targetAddresses configured (extraAddressesValue inherited seeded) =
        if lower address ∈ configured.map lower then configured else configured ++ [address] := by
  have hsound := node.guarantees.sound h
  obtain ⟨address, rfl, htest⟩ := (hsound.running _ hwrites).1
  have haddress := hplain address htest
  refine ⟨address, [address], htest,
    addressTexts_stateText floatOf floatText url haddress.ne_empty funded, ?_⟩
  have hextra := extraAddresses_intercalate (List.cons_ne_nil address []) (by simpa using haddress)
  rw [extraAddressesValue, if_neg (List.cons_ne_nil address []), targetAddresses, hextra]
  rfl

/-- The seeder on a new node, about to write its state file. -/
def aboutToWrite (next : Except Exn (Ask.Answer (.writeState "http://localhost:8545"
    (some "0xc0") testAddresses)) → Seeder (Option String)) : DevNode.Seeding Stage :=
  ⟨.after, some (.ask (.writeState "http://localhost:8545" (some "0xc0") testAddresses) next), []⟩

theorem reached_aboutToWrite :
    ∃ next, Control.Session.Reached (newNode.server.within newNode.Detectable)
      (fun s d => newNode.pending s = 0 ∧ DevNode.Begins s d)
      (fun s => newNode.Fresh s ∧ newNode.Detectable s) (aboutToWrite next) := by
  apply Exists.intro
  refine ⟨.before, ⟨rfl, newNode_detectable _⟩, ?_⟩
  have hstay : ∀ s, newNode.moves s s := fun _ => .inl rfl
  have hsubmits : newNode.submits .before (deployRequest "0xde") (.ok "0xd1") .after :=
    .inr ⟨rfl, rfl, rfl, rfl, rfl⟩
  refine .head (.begins rfl ⟨rfl, ⟨"http://localhost:8545", "0x1", 0, "seed.json"⟩, rfl⟩) ?_
  refine .head (.answered rfl ⟨.polls 60 1 (hstay _), newNode_detectable _⟩) ?_
  refine .head (.answered rfl ⟨.rpc .blockNumber (hstay _), newNode_detectable _⟩) ?_
  refine .head (.answered rfl ⟨.rpc .accounts (hstay _), newNode_detectable _⟩) ?_
  refine .head (.answered rfl ⟨.rpc (.balance _) (hstay _), newNode_detectable _⟩) ?_
  refine .head (.answered rfl ⟨.rpc (.balance _) (hstay _), newNode_detectable _⟩) ?_
  refine .head (.answered rfl ⟨.rpc (.balance _) (hstay _), newNode_detectable _⟩) ?_
  refine .head (.answered rfl ⟨.rpc (.transactionCount _) (hstay _), newNode_detectable _⟩) ?_
  refine .head (.answered rfl ⟨.sendTransaction (hstay _) hsubmits, newNode_detectable _⟩) ?_
  refine .head (.answered rfl ⟨.polls 30 1 (hstay _), newNode_detectable _⟩) ?_
  refine .head (.answered rfl ⟨.rpc (.receipt _) (hstay _), newNode_detectable _⟩) ?_
  exact .refl

theorem targetAddresses_seeded_newNode :
    ∃ address seeded, newNode.TestContract .after address ∧
      addressTexts (loadSeededAddresses (JsonText.jsonFile (fun _ => 0)
        (stateText (fun _ => []) "http://localhost:8545" (some "0xc0") testAddresses))) =
          .ok seeded ∧
      targetAddresses ["0xAB"] (extraAddressesValue none seeded) =
        if lower address ∈ ["0xAB"].map lower then ["0xAB"] else ["0xAB"] ++ [address] := by
  obtain ⟨next, hreached⟩ := reached_aboutToWrite
  refine targetAddresses_seeded newNode hreached rfl ?_ (fun _ => 0) (fun _ => []) ["0xAB"] none
  rintro address ⟨tx, htx, -, haddress⟩
  rw [staged_mined htx] at haddress
  obtain rfl : "0xc0" = address := Option.some_inj.mp haddress
  exact ⟨by decide, by decide, by simp [isSpace]⟩

end StateBenchmarks.LoadTests
