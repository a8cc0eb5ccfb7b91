/-
# The command line of the mock consensus layer

`python -m mock_cl` is started by the runner, by `run_benchmark.sh` and by hand.  `main`
reads the options, loads the secret, and hands the attributes of the namespace to the
driver of the subcommand.  What it comes to is an `Operation`, before the first request.
-/

import StateBenchmarks.MockCl.JwtSecret
import StateBenchmarks.MockCl.Pivot
import StateBenchmarks.MockCl.Replay
import StateBenchmarks.Python.ArgParse

namespace StateBenchmarks.MockCl

open Python

namespace CommandLine

namespace Options

def engineUrl : Opt where
  name := "engine-url"
  default := .str "http://localhost:8551"

def jwt : Opt where
  name := "jwt"
  required := true

def engineTimeout : Opt where
  name := "engine-timeout"
  action := .store .int
  default := .int 60

def pivotHash : Opt where
  name := "pivot-hash"
  required := true

def pivotNumber : Opt where
  name := "pivot-number"
  action := .store .int

def interval : Opt where
  name := "interval"
  action := .store .int
  default := .int 12

def version : Opt where
  name := "version"
  action := .store .int
  default := .int 3

def statusRpc : Opt where
  name := "status-rpc"

def maxSeconds : Opt where
  name := "max-seconds"
  action := .store .int

def payloads : Opt where
  name := "payloads"
  required := true

def count : Opt where
  name := "count"
  action := .store .int

def noAdvanceHead : Opt where
  name := "no-advance-head"
  action := .storeTrue
  default := .bool false

def latencyCsv : Opt where
  name := "latency-csv"

def newpayloadVersion : Opt where
  name := "newpayload-version"
  action := .store .int

def fcuWaitSeconds : Opt where
  name := "fcu-wait-seconds"
  action := .store .float
  default := .float 600

def sourceRpc : Opt where
  name := "source-rpc"
  required := true

def start : Opt where
  name := "start"
  action := .store .int
  required := true

def recordedCount : Opt where
  name := "count"
  action := .store .int
  required := true

def out : Opt where
  name := "out"
  required := true

end Options

open Options in
/-- The options before the subcommand. -/
def engineOptions : ArgumentParser where
  options := [engineUrl, jwt, engineTimeout]
  distinct := by simp [engineUrl, jwt, engineTimeout]
  named := by simp [engineUrl, jwt, engineTimeout]

open Options in
def pivotOptions : ArgumentParser where
  options := [pivotHash, pivotNumber, interval, version, statusRpc, maxSeconds]
  distinct := by simp [pivotHash, pivotNumber, interval, version, statusRpc, maxSeconds]
  named := by simp [pivotHash, pivotNumber, interval, version, statusRpc, maxSeconds]

open Options in
def replayOptions : ArgumentParser where
  options := [payloads, count, noAdvanceHead, latencyCsv, newpayloadVersion, fcuWaitSeconds]
  distinct := by
    simp [payloads, count, noAdvanceHead, latencyCsv, newpayloadVersion, fcuWaitSeconds]
  named := by
    simp [payloads, count, noAdvanceHead, latencyCsv, newpayloadVersion, fcuWaitSeconds]

open Options in
def recordOptions : ArgumentParser where
  options := [sourceRpc, start, recordedCount, out]
  distinct := by simp [sourceRpc, start, recordedCount, out]
  named := by simp [sourceRpc, start, recordedCount, out]

/-- `_build_parser`. -/
def buildParser : CommandParser where
  main := engineOptions
  dest := "subcommand"
  commands := [("pivot", pivotOptions), ("replay", replayOptions), ("record", recordOptions)]

section Attributes

variable (args : Dict ArgValue) (name : String)

/-! The parser gives each attribute the type its option has. -/

def text : Except Exn String :=
  match args.get? name with
  | some (.str s) => .ok s
  | _ => .error .attributeError

def textOrNone : Except Exn (Option String) :=
  match args.get? name with
  | some (.str s) => .ok (some s)
  | some .none => .ok none
  | _ => .error .attributeError

def int : Except Exn ℤ :=
  match args.get? name with
  | some (.int n) => .ok n
  | _ => .error .attributeError

def intOrNone : Except Exn (Option ℤ) :=
  match args.get? name with
  | some (.int n) => .ok (some n)
  | some .none => .ok none
  | _ => .error .attributeError

def rational : Except Exn ℚ :=
  match args.get? name with
  | some (.float q) => .ok q
  | _ => .error .attributeError

def flag : Except Exn Bool :=
  match args.get? name with
  | some (.bool b) => .ok b
  | _ => .error .attributeError

end Attributes

end CommandLine

/-- The attributes of an `EngineClient` that are set from outside. -/
structure EngineSettings where
  engineUrl : String
  secret : Bytes
  timeout : ℤ

/-- What a command line comes to. -/
inductive Operation where
  | pivot (engine : EngineSettings) (driver : PivotDriver)
  | replay (engine : EngineSettings) (payloads : String) (driver : ReplayDriver)
  | record (sourceRpc : String) (start count : ℤ) (out : String)

namespace CommandLine

variable (host : SecretHost) (args : Dict ArgValue)

/-- The driver `_run_pivot` runs, with a stop event. -/
def pivotDriver : Except Exn PivotDriver := do
  let pivotHash ← text args "pivot_hash"
  let interval ← int args "interval"
  let version ← int args "version"
  let statusRpc ← textOrNone args "status_rpc"
  let pivotNumber ← intOrNone args "pivot_number"
  let maxSeconds ← intOrNone args "max_seconds"
  return ⟨pivotHash, interval, version, statusRpc, pivotNumber, true, maxSeconds⟩

/-- The driver `_run_replay` runs. -/
def replayDriver : Except Exn ReplayDriver := do
  let noAdvanceHead ← flag args "no_advance_head"
  let count ← intOrNone args "count"
  let latencyCsv ← textOrNone args "latency_csv"
  let newpayloadVersion ← intOrNone args "newpayload_version"
  let fcuWaitSeconds ← rational args "fcu_wait_seconds"
  return ⟨!noAdvanceHead, count, latencyCsv, newpayloadVersion, fcuWaitSeconds⟩

/-- The `EngineClient` of `main`. -/
def engineSettings : Except Exn EngineSettings := do
  let jwt ← text args "jwt"
  let secret ← host.loadSecret (some jwt)
  let engineUrl ← text args "engine_url"
  let timeout ← int args "engine_timeout"
  return ⟨engineUrl, secret, timeout⟩

/-- What `main` does with the namespace. -/
def operation : Except Exn Operation := do
  let subcommand ← text args "subcommand"
  if subcommand = "record" then
    let sourceRpc ← text args "source_rpc"
    let start ← int args "start"
    let count ← int args "count"
    let out ← text args "out"
    return .record sourceRpc start count out
  else
    let engine ← engineSettings host args
    if subcommand = "pivot" then
      let driver ← pivotDriver args
      return .pivot engine driver
    else
      let payloads ← text args "payloads"
      let driver ← replayDriver args
      return .replay engine payloads driver

/-- `main`, up to the first request of what it runs. -/
def main (numbers : NumberText) (words : List String) : Option (Except Exn Operation) :=
  (buildParser.parse numbers words).map (operation host)

/-! ## Command lines -/

/-- An option, passed where there is a text for it. -/
def passed (o : Opt) (text : Option String) : List (Opt × String) :=
  (text.map fun text => (o, text)).toList

/-- The options of every command line. -/
structure EngineLine where
  engineUrl : String
  jwt : String
  engineTimeout : Option String

structure PivotLine extends EngineLine where
  pivotHash : String
  pivotNumber : Option String
  interval : Option String
  statusRpc : String

structure ReplayLine extends EngineLine where
  payloads : String
  count : Option String
  latencyCsv : Option String
  newpayloadVersion : Option String

def EngineLine.pairs (l : EngineLine) : List (Opt × String) :=
  (Options.engineUrl, l.engineUrl) :: (Options.jwt, l.jwt) ::
    passed Options.engineTimeout l.engineTimeout

def PivotLine.pairs (l : PivotLine) : List (Opt × String) :=
  (Options.pivotHash, l.pivotHash) ::
    (passed Options.pivotNumber l.pivotNumber ++
      (passed Options.interval l.interval ++ [(Options.statusRpc, l.statusRpc)]))

def ReplayLine.pairs (l : ReplayLine) : List (Opt × String) :=
  (Options.payloads, l.payloads) ::
    (passed Options.count l.count ++
      (passed Options.latencyCsv l.latencyCsv ++
        passed Options.newpayloadVersion l.newpayloadVersion))

/-- The words behind `python -m mock_cl`. -/
def PivotLine.words (l : PivotLine) : List String :=
  spelled l.toEngineLine.pairs ++ "pivot" :: spelled l.pairs

def ReplayLine.words (l : ReplayLine) : List String :=
  spelled l.toEngineLine.pairs ++ "replay" :: spelled l.pairs

/-- The driver of a line whose numbers are these. -/
def PivotLine.driver (l : PivotLine) (number interval : Option ℤ) : PivotDriver :=
  ⟨l.pivotHash, interval.getD 12, 3, some l.statusRpc, number, true, none⟩

def ReplayLine.driver (l : ReplayLine) (count version : Option ℤ) : ReplayDriver :=
  ⟨true, count, l.latencyCsv, version, 600⟩

variable {numbers : NumberText}

/-- What is passed is read as the integer; where nothing is, there is none. -/
def ReadsInt (numbers : NumberText) (p : ArgumentParser) (text : Option String)
    (n : Option ℤ) : Prop :=
  match text with
  | none => n = none
  | some text => p.look text = .argument ∧ ∃ k, numbers.int text = some k ∧ n = some k

structure EngineLine.ReadAs (l : EngineLine) (numbers : NumberText) (timeout : Option ℤ) :
    Prop where
  engineUrl : engineOptions.look l.engineUrl = .argument
  jwt : engineOptions.look l.jwt = .argument
  engineTimeout : ReadsInt numbers engineOptions l.engineTimeout timeout

structure PivotLine.ReadAs (l : PivotLine) (numbers : NumberText) (number interval : Option ℤ) :
    Prop where
  pivotHash : pivotOptions.look l.pivotHash = .argument
  pivotNumber : ReadsInt numbers pivotOptions l.pivotNumber number
  interval : ReadsInt numbers pivotOptions l.interval interval
  statusRpc : pivotOptions.look l.statusRpc = .argument

structure ReplayLine.ReadAs (l : ReplayLine) (numbers : NumberText) (count version : Option ℤ) :
    Prop where
  payloads : replayOptions.look l.payloads = .argument
  count : ReadsInt numbers replayOptions l.count count
  latencyCsv : ∀ text ∈ l.latencyCsv, replayOptions.look text = .argument
  newpayloadVersion : ReadsInt numbers replayOptions l.newpayloadVersion version

/-- The values read for what is passed. -/
def intValues (n : Option ℤ) : List ArgValue := (n.map ArgValue.int).toList

def textValues (text : Option String) : List ArgValue := (text.map ArgValue.str).toList

theorem fst_of_mem_passed {o : Opt} {text : Option String} {g : Opt × String}
    (h : g ∈ passed o text) : g.1 = o := by
  cases text with
  | none => cases h
  | some text => rw [List.mem_singleton.mp h]

theorem takes_text_iff {p : ArgumentParser} {o : Opt} (h : o.action = .store .str)
    {text : String} {v : ArgValue} :
    p.Takes numbers (o, text) v ↔ p.look text = .argument ∧ v = .str text := by
  rw [ArgumentParser.takes_iff h, ArgType.convert, Option.some.injEq, @eq_comm _ v]

theorem forall₂_passed_int {p : ArgumentParser} {o : Opt} (h : o.action = .store .int)
    {text : Option String} {values : List ArgValue} :
    List.Forall₂ (p.Takes numbers) (passed o text) values ↔
      ∃ n, ReadsInt numbers p text n ∧ values = intValues n := by
  cases text with
  | none => simp [passed, ReadsInt, intValues]
  | some text =>
      simp only [passed, Option.map_some, Option.toList_some, List.forall₂_cons_left_iff,
        List.forall₂_nil_left_iff, ReadsInt]
      simp only [ArgumentParser.takes_iff (g := (o, text)) h, ArgType.convert,
        Option.map_eq_some_iff]
      apply Iff.intro
      · rintro ⟨-, -, ⟨hlook, k, hk, rfl⟩, rfl, rfl⟩
        exact ⟨some k, ⟨hlook, k, hk, rfl⟩, rfl⟩
      · rintro ⟨-, ⟨hlook, k, hk, rfl⟩, rfl⟩
        exact ⟨_, _, ⟨hlook, k, hk, rfl⟩, rfl, rfl⟩

theorem forall₂_passed_text {p : ArgumentParser} {o : Opt} (h : o.action = .store .str)
    {text : Option String} {values : List ArgValue} :
    List.Forall₂ (p.Takes numbers) (passed o text) values ↔
      (∀ t ∈ text, p.look t = .argument) ∧ values = textValues text := by
  cases text with
  | none => simp [passed, textValues]
  | some text => simp [passed, textValues, List.forall₂_cons_left_iff, takes_text_iff h]

theorem EngineLine.taken_iff (l : EngineLine) {values : List ArgValue} :
    List.Forall₂ (engineOptions.Takes numbers) l.pairs values ↔
      ∃ timeout, l.ReadAs numbers timeout ∧
        values = .str l.engineUrl :: .str l.jwt :: intValues timeout := by
  rw [EngineLine.pairs, List.forall₂_cons_left_iff]
  simp only [List.forall₂_cons_left_iff,
    takes_text_iff (show Options.engineUrl.action = .store .str from rfl),
    takes_text_iff (show Options.jwt.action = .store .str from rfl),
    forall₂_passed_int (show Options.engineTimeout.action = .store .int from rfl)]
  apply Iff.intro
  · rintro ⟨-, -, ⟨hurl, rfl⟩, ⟨-, -, ⟨hjwt, rfl⟩, ⟨timeout, htimeout, rfl⟩, rfl⟩, rfl⟩
    exact ⟨timeout, ⟨hurl, hjwt, htimeout⟩, rfl⟩
  · rintro ⟨timeout, ⟨hurl, hjwt, htimeout⟩, rfl⟩
    exact ⟨_, _, ⟨hurl, rfl⟩, ⟨_, _, ⟨hjwt, rfl⟩, ⟨timeout, htimeout, rfl⟩, rfl⟩, rfl⟩

theorem PivotLine.taken_iff (l : PivotLine) {values : List ArgValue} :
    List.Forall₂ (pivotOptions.Takes numbers) l.pairs values ↔
      ∃ number interval, l.ReadAs numbers number interval ∧
        values = .str l.pivotHash ::
          (intValues number ++ (intValues interval ++ [.str l.statusRpc])) := by
  rw [PivotLine.pairs, List.forall₂_cons_left_iff]
  simp only [forall₂_append_left_iff, List.forall₂_cons_left_iff, List.forall₂_nil_left_iff,
    takes_text_iff (show Options.pivotHash.action = .store .str from rfl),
    takes_text_iff (show Options.statusRpc.action = .store .str from rfl),
    forall₂_passed_int (show Options.pivotNumber.action = .store .int from rfl),
    forall₂_passed_int (show Options.interval.action = .store .int from rfl)]
  apply Iff.intro
  · rintro ⟨-, -, ⟨hhash, rfl⟩, ⟨-, -, ⟨number, hnumber, rfl⟩,
      ⟨-, -, ⟨interval, hinterval, rfl⟩, ⟨-, -, ⟨hrpc, rfl⟩, rfl, rfl⟩, rfl⟩, rfl⟩, rfl⟩
    exact ⟨number, interval, ⟨hhash, hnumber, hinterval, hrpc⟩, rfl⟩
  · rintro ⟨number, interval, ⟨hhash, hnumber, hinterval, hrpc⟩, rfl⟩
    exact ⟨_, _, ⟨hhash, rfl⟩, ⟨_, _, ⟨number, hnumber, rfl⟩,
      ⟨_, _, ⟨interval, hinterval, rfl⟩, ⟨_, _, ⟨hrpc, rfl⟩, rfl, rfl⟩, rfl⟩, rfl⟩, rfl⟩

theorem ReplayLine.taken_iff (l : ReplayLine) {values : List ArgValue} :
    List.Forall₂ (replayOptions.Takes numbers) l.pairs values ↔
      ∃ count version, l.ReadAs numbers count version ∧
        values = .str l.payloads ::
          (intValues count ++ (textValues l.latencyCsv ++ intValues version)) := by
  rw [ReplayLine.pairs, List.forall₂_cons_left_iff]
  simp only [forall₂_append_left_iff,
    takes_text_iff (show Options.payloads.action = .store .str from rfl),
    forall₂_passed_int (show Options.count.action = .store .int from rfl),
    forall₂_passed_text (show Options.latencyCsv.action = .store .str from rfl),
    forall₂_passed_int (show Options.newpayloadVersion.action = .store .int from rfl)]
  apply Iff.intro
  · rintro ⟨-, -, ⟨hpayloads, rfl⟩, ⟨-, -, ⟨count, hcount, rfl⟩,
      ⟨-, -, ⟨hcsv, rfl⟩, ⟨version, hversion, rfl⟩, rfl⟩, rfl⟩, rfl⟩
    exact ⟨count, version, ⟨hpayloads, hcount, hcsv, hversion⟩, rfl⟩
  · rintro ⟨count, version, ⟨hpayloads, hcount, hcsv, hversion⟩, rfl⟩
    exact ⟨_, _, ⟨hpayloads, rfl⟩, ⟨_, _, ⟨count, hcount, rfl⟩,
      ⟨_, _, ⟨hcsv, rfl⟩, ⟨version, hversion, rfl⟩, rfl⟩, rfl⟩, rfl⟩

theorem EngineLine.pairs_options (l : EngineLine) :
    ∀ g ∈ l.pairs, g.1 ∈ engineOptions.options ∧ ∃ type, g.1.action = .store type := by
  intro g hg
  rw [EngineLine.pairs, List.mem_cons, List.mem_cons] at hg
  rcases hg with rfl | rfl | hg
  · exact ⟨.head _, _, rfl⟩
  · exact ⟨.tail _ (.head _), _, rfl⟩
  · rw [fst_of_mem_passed hg]
    exact ⟨.tail _ (.tail _ (.head _)), _, rfl⟩

theorem PivotLine.pairs_options (l : PivotLine) :
    ∀ g ∈ l.pairs, g.1 ∈ pivotOptions.options ∧ ∃ type, g.1.action = .store type := by
  intro g hg
  rw [PivotLine.pairs, List.mem_cons, List.mem_append, List.mem_append, List.mem_singleton] at hg
  rcases hg with rfl | hg | hg | rfl
  · exact ⟨.head _, _, rfl⟩
  · rw [fst_of_mem_passed hg]
    exact ⟨.tail _ (.head _), _, rfl⟩
  · rw [fst_of_mem_passed hg]
    exact ⟨.tail _ (.tail _ (.head _)), _, rfl⟩
  · exact ⟨.tail _ (.tail _ (.tail _ (.tail _ (.head _)))), _, rfl⟩

theorem ReplayLine.pairs_options (l : ReplayLine) :
    ∀ g ∈ l.pairs, g.1 ∈ replayOptions.options ∧ ∃ type, g.1.action = .store type := by
  intro g hg
  rw [ReplayLine.pairs, List.mem_cons, List.mem_append, List.mem_append] at hg
  rcases hg with rfl | hg | hg | hg
  · exact ⟨.head _, _, rfl⟩
  · rw [fst_of_mem_passed hg]
    exact ⟨.tail _ (.head _), _, rfl⟩
  · rw [fst_of_mem_passed hg]
    exact ⟨.tail _ (.tail _ (.tail _ (.head _))), _, rfl⟩
  · rw [fst_of_mem_passed hg]
    exact ⟨.tail _ (.tail _ (.tail _ (.tail _ (.head _)))), _, rfl⟩

theorem EngineLine.pairs_complete (l : EngineLine) : engineOptions.Complete l.pairs := by
  intro o ho hrequired
  simp only [engineOptions, List.mem_cons, List.not_mem_nil, or_false] at ho
  rcases ho with rfl | rfl | rfl
  · cases hrequired
  · exact List.mem_cons_of_mem _ List.mem_cons_self
  · cases hrequired

theorem PivotLine.pairs_complete (l : PivotLine) : pivotOptions.Complete l.pairs := by
  intro o ho hrequired
  simp only [pivotOptions, List.mem_cons, List.not_mem_nil, or_false] at ho
  rcases ho with rfl | rfl | rfl | rfl | rfl | rfl
  · exact List.mem_cons_self
  · cases hrequired
  · cases hrequired
  · cases hrequired
  · cases hrequired
  · cases hrequired

theorem ReplayLine.pairs_complete (l : ReplayLine) : replayOptions.Complete l.pairs := by
  intro o ho hrequired
  simp only [replayOptions, List.mem_cons, List.not_mem_nil, or_false] at ho
  rcases ho with rfl | rfl | rfl | rfl | rfl | rfl
  · exact List.mem_cons_self
  · cases hrequired
  · cases hrequired
  · cases hrequired
  · cases hrequired
  · cases hrequired

/-! ## The attributes -/

/-- The attributes of the main parser. -/
theorem engineDefaults : (engineOptions.options.map fun o => (o.dest, o.default)) =
    [("engine_url", .str "http://localhost:8551"), ("jwt", .none),
      ("engine_timeout", .int 60)] := by
  simp [engineOptions, Options.engineUrl, Options.jwt, Options.engineTimeout, Opt.dest]

theorem pivotDefaults : (pivotOptions.options.map fun o => (o.dest, o.default)) =
    [("pivot_hash", .none), ("pivot_number", .none), ("interval", .int 12), ("version", .int 3),
      ("status_rpc", .none), ("max_seconds", .none)] := by
  simp [pivotOptions, Options.pivotHash, Options.pivotNumber, Options.interval, Options.version,
    Options.statusRpc, Options.maxSeconds, Opt.dest]

theorem replayDefaults : (replayOptions.options.map fun o => (o.dest, o.default)) =
    [("payloads", .none), ("count", .none), ("no_advance_head", .bool false),
      ("latency_csv", .none), ("newpayload_version", .none), ("fcu_wait_seconds", .float 600)] := by
  simp [replayOptions, Options.payloads, Options.count, Options.noAdvanceHead,
    Options.latencyCsv, Options.newpayloadVersion, Options.fcuWaitSeconds, Opt.dest]

theorem nodup_dests {p : ArgumentParser} {table : Dict ArgValue}
    (h : (p.options.map fun o => (o.dest, o.default)) = table)
    (hnodup : (table.map Prod.fst).Nodup) : (p.options.map Opt.dest).Nodup := by
  rw [← h, List.map_map] at hnodup
  exact hnodup

theorem nodup_pivotDests : (pivotOptions.options.map Opt.dest).Nodup :=
  nodup_dests pivotDefaults (by simp)

theorem nodup_replayDests : (replayOptions.options.map Opt.dest).Nodup :=
  nodup_dests replayDefaults (by simp)

theorem ReadsInt.cases {p : ArgumentParser} {text : Option String} {n : Option ℤ}
    (h : ReadsInt numbers p text n) :
    text = none ∧ n = none ∨ ∃ t k, text = some t ∧ n = some k := by
  cases text with
  | none => exact .inl ⟨rfl, h⟩
  | some text =>
      obtain ⟨-, k, -, hn⟩ := h
      exact .inr ⟨text, k, rfl, hn⟩

/-- The driver of a pivot line. -/
theorem pivotDriver_assembled (d : Dict ArgValue) (l : PivotLine) {number interval : Option ℤ}
    (h : l.ReadAs numbers number interval) :
    pivotDriver (d.update (pivotOptions.assembled l.pairs
      (.str l.pivotHash :: (intValues number ++ (intValues interval ++ [.str l.statusRpc]))))) =
      .ok (l.driver number interval) := by
  simp only [pivotDriver, text, int, intOrNone, textOrNone,
    ArgumentParser.get?_update_assembled _ nodup_pivotDests, ArgumentParser.get?_assembled,
    pivotDefaults, lastSet_eq_reverse, PivotLine.pairs]
  rcases h.pivotNumber.cases with ⟨hn, rfl⟩ | ⟨t, k, hn, rfl⟩ <;>
    rcases h.interval.cases with ⟨hi, rfl⟩ | ⟨u, m, hi, rfl⟩ <;>
    simp [hn, hi, passed, intValues, Dict.get?_cons, Dict.get?_nil, Opt.dest, Options.pivotHash,
      Options.pivotNumber, Options.interval, Options.statusRpc] <;>
    rfl

/-- The driver of a replay line. -/
theorem replayDriver_assembled (d : Dict ArgValue) (l : ReplayLine) {count version : Option ℤ}
    (h : l.ReadAs numbers count version) :
    replayDriver (d.update (replayOptions.assembled l.pairs
      (.str l.payloads :: (intValues count ++ (textValues l.latencyCsv ++ intValues version))))) =
      .ok (l.driver count version) := by
  simp only [replayDriver, flag, intOrNone, textOrNone, rational,
    ArgumentParser.get?_update_assembled _ nodup_replayDests, ArgumentParser.get?_assembled,
    replayDefaults, lastSet_eq_reverse, ReplayLine.pairs]
  rcases h.count.cases with ⟨hc, rfl⟩ | ⟨t, k, hc, rfl⟩ <;>
    rcases h.newpayloadVersion.cases with ⟨hv, rfl⟩ | ⟨u, m, hv, rfl⟩ <;>
    cases hcsv : l.latencyCsv <;>
    simp [hc, hv, hcsv, ReplayLine.driver, passed, intValues, textValues, Dict.get?_cons,
      Dict.get?_nil, Opt.dest, Options.payloads, Options.count, Options.latencyCsv,
      Options.newpayloadVersion] <;>
    rfl

/-- Its file of payloads. -/
theorem payloads_assembled (d : Dict ArgValue) (l : ReplayLine) {count version : Option ℤ}
    (h : l.ReadAs numbers count version) :
    text (d.update (replayOptions.assembled l.pairs
      (.str l.payloads :: (intValues count ++ (textValues l.latencyCsv ++ intValues version)))))
      "payloads" = .ok l.payloads := by
  simp only [text, ArgumentParser.get?_update_assembled _ nodup_replayDests,
    ArgumentParser.get?_assembled, replayDefaults, lastSet_eq_reverse, ReplayLine.pairs]
  rcases h.count.cases with ⟨hc, rfl⟩ | ⟨t, k, hc, rfl⟩ <;>
    rcases h.newpayloadVersion.cases with ⟨hv, rfl⟩ | ⟨u, m, hv, rfl⟩ <;>
    cases hcsv : l.latencyCsv <;>
    simp [hc, hv, passed, intValues, textValues, Dict.get?_cons, Opt.dest, Options.payloads,
      Options.count, Options.latencyCsv, Options.newpayloadVersion]

section Engine

variable (host : SecretHost) (l : EngineLine) {timeout : Option ℤ} (name : String)

/-- The namespace of the main parser, with the subcommand. -/
def EngineLine.namespaceOf (timeout : Option ℤ) : Dict ArgValue :=
  (engineOptions.assembled l.pairs (.str l.engineUrl :: .str l.jwt :: intValues timeout)).set
    "subcommand" (.str name)

/-- The client of a command line, where the subcommand sets none of its attributes. -/
theorem engine_assembled (h : l.ReadAs numbers timeout) {args : Dict ArgValue}
    (hargs : ∀ key ∈ ["engine_url", "jwt", "engine_timeout", "subcommand"],
      args.get? key = (l.namespaceOf name timeout).get? key) :
    text args "subcommand" = .ok name ∧
      engineSettings host args = (host.loadSecret (some l.jwt)).map
        fun secret => ⟨l.engineUrl, secret, timeout.getD 60⟩ := by
  simp only [List.forall_mem_cons, List.not_mem_nil, false_implies, implies_true, and_true] at hargs
  obtain ⟨hurl, hjwt, htimeout, hsub⟩ := hargs
  simp only [EngineLine.namespaceOf, Dict.get?_set, ArgumentParser.get?_assembled, engineDefaults,
    lastSet_eq_reverse, EngineLine.pairs] at hurl hjwt htimeout hsub
  have hgiven : args.get? "engine_url" = some (.str l.engineUrl) ∧
      args.get? "jwt" = some (.str l.jwt) ∧
      args.get? "engine_timeout" = some (.int (timeout.getD 60)) ∧
      args.get? "subcommand" = some (.str name) := by
    rcases h.engineTimeout.cases with ⟨ht, rfl⟩ | ⟨t, k, ht, rfl⟩ <;>
      simp [hurl, hjwt, htimeout, hsub, ht, passed, intValues, Dict.get?_cons, Dict.get?_nil,
        Opt.dest, Options.engineUrl, Options.jwt, Options.engineTimeout]
  rw [engineSettings, text, text, text, int, hgiven.1, hgiven.2.1, hgiven.2.2.1, hgiven.2.2.2]
  refine ⟨rfl, ?_⟩
  show (host.loadSecret (some l.jwt)).bind _ = _
  cases host.loadSecret (some l.jwt) <;> rfl

end Engine

section Main

variable (host : SecretHost) (numbers : NumberText)

/-- A subcommand leaves the attributes it has no option for. -/
theorem get?_main (d : Dict ArgValue) {p : ArgumentParser} {table : Dict ArgValue}
    (htable : (p.options.map fun o => (o.dest, o.default)) = table)
    (hnodup : (table.map Prod.fst).Nodup) {pairs : List (Opt × String)}
    (h : ∀ g ∈ pairs, g.1 ∈ p.options ∧ ∃ type, g.1.action = .store type)
    (values : List ArgValue) {key : String} (hkey : key ∉ table.map Prod.fst) :
    (d.update (p.assembled pairs values)).get? key = d.get? key := by
  have hdests : key ∉ p.options.map Opt.dest := by
    rwa [← htable, List.map_map] at hkey
  rw [ArgumentParser.get?_update_assembled d (nodup_dests htable hnodup),
    ArgumentParser.get?_assembled_of_not_mem (fun g hg => (h g hg).1) values hdests]
  rfl

theorem operation_pivot (l : PivotLine) {timeout number interval : Option ℤ}
    (hengine : l.toEngineLine.ReadAs numbers timeout) (hline : l.ReadAs numbers number interval) :
    operation host ((l.toEngineLine.namespaceOf "pivot" timeout).update
      (pivotOptions.assembled l.pairs (.str l.pivotHash ::
        (intValues number ++ (intValues interval ++ [.str l.statusRpc]))))) =
      (host.loadSecret (some l.jwt)).map fun secret =>
        .pivot ⟨l.engineUrl, secret, timeout.getD 60⟩ (l.driver number interval) := by
  have hargs : ∀ key ∈ ["engine_url", "jwt", "engine_timeout", "subcommand"],
      Dict.get? ((l.toEngineLine.namespaceOf "pivot" timeout).update
        (pivotOptions.assembled l.pairs (.str l.pivotHash ::
          (intValues number ++ (intValues interval ++ [.str l.statusRpc]))))) key =
        (l.toEngineLine.namespaceOf "pivot" timeout).get? key := by
    intro key hkey
    apply get?_main _ pivotDefaults (by simp) l.pairs_options
    simp only [List.mem_cons, List.not_mem_nil, or_false] at hkey
    rcases hkey with rfl | rfl | rfl | rfl <;> simp
  obtain ⟨hsub, hsettings⟩ := engine_assembled host l.toEngineLine "pivot" hengine hargs
  have hrecord : "pivot" ≠ "record" := by simp
  simp only [operation, hsub, hsettings, pivotDriver_assembled _ l hline, bind, Except.bind,
    if_neg hrecord, if_true]
  cases host.loadSecret (some l.jwt) <;> rfl

theorem operation_replay (l : ReplayLine) {timeout count version : Option ℤ}
    (hengine : l.toEngineLine.ReadAs numbers timeout) (hline : l.ReadAs numbers count version) :
    operation host ((l.toEngineLine.namespaceOf "replay" timeout).update
      (replayOptions.assembled l.pairs (.str l.payloads ::
        (intValues count ++ (textValues l.latencyCsv ++ intValues version))))) =
      (host.loadSecret (some l.jwt)).map fun secret =>
        .replay ⟨l.engineUrl, secret, timeout.getD 60⟩ l.payloads (l.driver count version) := by
  have hargs : ∀ key ∈ ["engine_url", "jwt", "engine_timeout", "subcommand"],
      Dict.get? ((l.toEngineLine.namespaceOf "replay" timeout).update
        (replayOptions.assembled l.pairs (.str l.payloads ::
          (intValues count ++ (textValues l.latencyCsv ++ intValues version))))) key =
        (l.toEngineLine.namespaceOf "replay" timeout).get? key := by
    intro key hkey
    apply get?_main _ replayDefaults (by simp) l.pairs_options
    simp only [List.mem_cons, List.not_mem_nil, or_false] at hkey
    rcases hkey with rfl | rfl | rfl | rfl <;> simp
  obtain ⟨hsub, hsettings⟩ := engine_assembled host l.toEngineLine "replay" hengine hargs
  have hrecord : "replay" ≠ "record" := by simp
  have hpivot : "replay" ≠ "pivot" := by simp
  simp only [operation, hsub, hsettings, replayDriver_assembled _ l hline,
    payloads_assembled _ l hline, bind, Except.bind, if_neg hrecord, if_neg hpivot]
  cases host.loadSecret (some l.jwt) <;> rfl

/-- **A pivot command line is accepted exactly where its values read as what they are for, and
comes to the driver they describe.** -/
theorem main_pivot_iff (l : PivotLine) (r : Except Exn Operation) :
    main host numbers l.words = some r ↔
      ∃ timeout number interval, l.toEngineLine.ReadAs numbers timeout ∧
        l.ReadAs numbers number interval ∧
        r = (host.loadSecret (some l.jwt)).map fun secret =>
          .pivot ⟨l.engineUrl, secret, timeout.getD 60⟩ (l.driver number interval) := by
  have hparse := @CommandParser.parse_spelled_iff buildParser numbers pivotOptions "pivot"
    l.toEngineLine.pairs l.pairs (ArgumentParser.look_plain (by simp)) rfl
    l.toEngineLine.pairs_complete l.toEngineLine.pairs_options l.pairs_complete l.pairs_options
  rw [main, PivotLine.words, Option.map_eq_some_iff]
  apply Iff.intro
  · rintro ⟨ns, hns, rfl⟩
    obtain ⟨mainValues, values, hmain, hvalues, rfl⟩ := hparse.mp hns
    obtain ⟨timeout, hengine, rfl⟩ := l.toEngineLine.taken_iff.mp hmain
    obtain ⟨number, interval, hline, rfl⟩ := l.taken_iff.mp hvalues
    exact ⟨timeout, number, interval, hengine, hline,
      operation_pivot host numbers l hengine hline⟩
  · rintro ⟨timeout, number, interval, hengine, hline, rfl⟩
    refine ⟨_, hparse.mpr ⟨_, _, l.toEngineLine.taken_iff.mpr ⟨timeout, hengine, rfl⟩,
      l.taken_iff.mpr ⟨number, interval, hline, rfl⟩, rfl⟩, ?_⟩
    exact operation_pivot host numbers l hengine hline

/-- **So is a replay command line.** -/
theorem main_replay_iff (l : ReplayLine) (r : Except Exn Operation) :
    main host numbers l.words = some r ↔
      ∃ timeout count version, l.toEngineLine.ReadAs numbers timeout ∧
        l.ReadAs numbers count version ∧
        r = (host.loadSecret (some l.jwt)).map fun secret =>
          .replay ⟨l.engineUrl, secret, timeout.getD 60⟩ l.payloads (l.driver count version) := by
  have hparse := @CommandParser.parse_spelled_iff buildParser numbers replayOptions "replay"
    l.toEngineLine.pairs l.pairs (ArgumentParser.look_plain (by simp)) rfl
    l.toEngineLine.pairs_complete l.toEngineLine.pairs_options l.pairs_complete l.pairs_options
  rw [main, ReplayLine.words, Option.map_eq_some_iff]
  apply Iff.intro
  · rintro ⟨ns, hns, rfl⟩
    obtain ⟨mainValues, values, hmain, hvalues, rfl⟩ := hparse.mp hns
    obtain ⟨timeout, hengine, rfl⟩ := l.toEngineLine.taken_iff.mp hmain
    obtain ⟨count, version, hline, rfl⟩ := l.taken_iff.mp hvalues
    exact ⟨timeout, count, version, hengine, hline,
      operation_replay host numbers l hengine hline⟩
  · rintro ⟨timeout, count, version, hengine, hline, rfl⟩
    refine ⟨_, hparse.mpr ⟨_, _, l.toEngineLine.taken_iff.mpr ⟨timeout, hengine, rfl⟩,
      l.taken_iff.mpr ⟨count, version, hline, rfl⟩, rfl⟩, ?_⟩
    exact operation_replay host numbers l hengine hline

end Main

end CommandLine

end StateBenchmarks.MockCl
