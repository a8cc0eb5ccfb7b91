/-
# The files a sweep edits

For each entry `run_snapshot_matrix.sh` points two files at its snapshot: the database
directory goes into `.env.<client>`, and into `config_<client>.yml` as the overlay's
`lowerdir`.  The payloads, the secret and each duration follow.  The node, the overlay and
the benchmark read these files by themselves when they are started.

The sweep over `lowerdir` alone is what a sweep over the two files does to the machine, and
what a benchmark finds in them is of its own entry, whatever was served before.
-/

import Mathlib.Data.List.Forall2
import StateBenchmarks.Shell.Lines
import StateBenchmarks.Templates.SweepSummary

namespace StateBenchmarks.Templates

open Shell

namespace Setting

def lowerdir : Text := "lowerdir".toList

def runTime : Text := "run_time".toList

def mockClPayloads : Text := "MOCK_CL_PAYLOADS".toList

def mockClJwt : Text := "MOCK_CL_JWT".toList

def clientRpcPort : Text := "CLIENT_RPC_PORT".toList

end Setting

/-- A text that stands for itself in the replacement of a `sed` command, and between
quotes. -/
def isPlain (text : Text) : Bool :=
  text.all fun c => c != '&' && c != '\\' && c != '|' && c != '"' && c != '\n'

/-- The name of a variable. -/
def isName (text : Text) : Bool := text != [] && text.all fun c => c.isAlphanum || c == '_'

/-- The knobs for the files, of which `jwtPath` is `GETH_JWT_PATH` or its default.  What is
put into a file is plain. -/
structure FileKnobs extends Knobs where
  client : String
  dbPathEnv : Text
  payloadsPattern : Text
  jwtPath : Text
  dbPathEnv_name : isName dbPathEnv = true
  dbPathEnv_free : dbPathEnv ∉ [Setting.mockClPayloads, Setting.mockClJwt, Setting.clientRpcPort]
  directories_plain : ∀ s ∈ [snapBase, snapAlias, snapLabel, snapSuffix, dbSubdir],
    isPlain s.toList = true
  durations_plain : ∀ dur ∈ durations, isPlain dur.toList = true
  payloadsPattern_plain : isPlain payloadsPattern = true
  jwtPath_plain : isPlain jwtPath = true

/-- A line of the manifest, with what the machine answers for it.  Where there is no second
word, `payloads` is empty. -/
structure ManifestLine extends Serving where
  payloads : Text
  payloads_plain : isPlain payloads = true

structure Files where
  config : Text
  env : Text

namespace Files

variable (files : Files)

/-- `set_kv`, in the environment file. -/
def setKv (key value : Text) : Files := { files with env := setKey key value files.env }

/-- `set_yaml_quoted`, in the configuration. -/
def setYamlQuoted (key value : Text) : Files :=
  { files with config := setScalar key value files.config }

/-- `prev_lower`. -/
def prevLower : String := String.ofList (readScalar Setting.lowerdir files.config)

/-- The port that is polled. -/
def port : Text :=
  let value := ((valueOf Setting.clientRpcPort files.env).getD []).takeWhile (· != '=')
  if value = [] then "8545".toList else value

end Files

/-- A start of `run_benchmark.sh`: the port the node has answered on, and the files as they
are by then. -/
structure Launch where
  milestone : String
  port : Text
  files : Files

/-- What an entry does, the files it leaves, the benchmarks it starts and its lines of the
summary. -/
structure FileVisit where
  events : List Event
  files : Files
  launches : List Launch
  summary : List (String × String)

/-- A sweep over the two files. -/
structure FileReport where
  files : Files
  trace : List Moment
  launches : List Launch
  summary : List (String × String)
  runs : List Run
  ended : Bool

/-- `${text//pattern/value}`, with what is left of an occurrence to pass over. -/
def substitute (pattern value : Text) : ℕ → Text → Text
  | _, [] => []
  | skip + 1, _ :: rest => substitute pattern value skip rest
  | 0, c :: rest =>
      if pattern.isPrefixOf (c :: rest) then
        value ++ substitute pattern value (pattern.length - 1) rest
      else c :: substitute pattern value 0 rest

namespace FileKnobs

variable (k : FileKnobs)

/-- The payloads of an entry. -/
def payloadsOf (line : ManifestLine) : Text :=
  if line.payloads = [] then
    substitute "<block>".toList (Knobs.block line.entry).toList 0 k.payloadsPattern
  else line.payloads

/-- The DB directory, in both files. -/
def point (e : Entry) (o : Outcome) (files : Files) : Files :=
  (files.setKv k.dbPathEnv (k.dbDir e o).toList).setYamlQuoted Setting.lowerdir
    (k.dbDir e o).toList

/-- What the replay is to read. -/
def stage (line : ManifestLine) (files : Files) : Files :=
  let staged := files.setKv Setting.mockClPayloads (k.payloadsOf line)
  if k.client = "geth" then staged.setKv Setting.mockClJwt k.jwtPath else staged

/-- The durations, one after the other: the files they leave and the benchmarks that are
started. -/
def launch (e : Entry) (port : Text) : List (String × RunOutcome) → Files → Files × List Launch
  | [], files => (files, [])
  | (dur, o) :: rest, files =>
      let timed := files.setYamlQuoted Setting.runTime dur.toList
      let started := if o.rpcReady then [⟨k.milestone e dur, port, timed⟩] else []
      let more := launch e port rest timed
      (more.1, started ++ more.2)

/-- `run_one_snapshot`. -/
def runOneSnapshot (files : Files) (line : ManifestLine) (o : Outcome) : FileVisit :=
  let e := line.entry
  if isNumeric (Knobs.block e) = false then ⟨[], files, [], [(e.url, "SKIP:bad-url")]⟩
  else
    let acquired := .infraDown :: k.acquire (some files.prevLower) e o
    match k.acquireFailure o with
    | some status => ⟨acquired, files, [], [(Knobs.block e, status)]⟩
    | none =>
        let pointed := k.point e o files
        match Knobs.payloadsFailure o with
        | some status => ⟨acquired, pointed, [], [(Knobs.block e, status)]⟩
        | none =>
            let staged := k.stage line pointed
            let done := k.launch e staged.port (k.durations.mapIdx fun i dur => (dur, o.runs i))
              staged
            ⟨acquired ++ (k.durations.mapIdx fun i dur => k.runEvents e dur (o.runs i)).flatten ++
                k.finish e,
              done.1, done.2,
              k.durations.mapIdx fun i dur => (k.milestone e dur, Knobs.runStatus (o.runs i))⟩

/-- One iteration of the main loop. -/
def serveNext (prior : Benchmarks) (r : FileReport) (line : ManifestLine) : FileReport :=
  let step := line.toServing
  if r.ended then r
  else if k.stops step then
    let visit := k.runOneSnapshot r.files line { step.outcome with payloadsAtHead := false }
    { r with
      files := visit.files
      trace := r.trace ++ visit.events.map (Moment.mk (k.target step.entry))
      launches := r.launches ++ visit.launches
      ended := true }
  else
    let visit := k.runOneSnapshot r.files line (k.outcomeAfter prior r.runs step)
    { files := visit.files
      trace := r.trace ++ visit.events.map (Moment.mk (k.target step.entry))
      launches := r.launches ++ visit.launches
      summary := r.summary ++ visit.summary
      runs := r.runs ++ k.runsOf step
      ended := false }

/-- The main loop, over the lines of the manifest. -/
def report (prior : Benchmarks) (files : Files) (lines : List ManifestLine) : FileReport :=
  lines.foldl (k.serveNext prior) ⟨files, [], [], [], [], false⟩

end FileKnobs

theorem isPlain_append {front back : Text} :
    isPlain (front ++ back) = true ↔ isPlain front = true ∧ isPlain back = true := by
  rw [isPlain, List.all_append, Bool.and_eq_true, isPlain, isPlain]

theorem isPlain_cons {c : Char} {rest : Text} :
    isPlain (c :: rest) = true ↔ isPlain [c] = true ∧ isPlain rest = true :=
  @isPlain_append [c] rest

theorem isPlain_iff {text : Text} :
    isPlain text = true ↔ ∀ c ∈ text, c ∉ ['&', '\\', '|', '"', '\n'] := by
  simp [isPlain, and_assoc]

theorem isScalar_of_isPlain {text : Text} (h : isPlain text = true) : IsScalar text := by
  rw [isPlain_iff] at h
  exact ⟨fun hmem => h _ hmem (by decide), fun hmem => h _ hmem (by decide)⟩

theorem isPlain_of_isDigit {text : Text} (h : text.all Char.isDigit = true) :
    isPlain text = true := by
  rw [isPlain_iff]
  intro c hc hbad
  have hdigit := List.all_eq_true.mp h c hc
  simp only [List.mem_cons, List.not_mem_nil, or_false] at hbad
  rcases hbad with rfl | rfl | rfl | rfl | rfl <;> exact absurd hdigit (by decide)

theorem isPlain_substitute {pattern value : Text} (hvalue : isPlain value = true) {skip : ℕ}
    {text : Text} (htext : isPlain text = true) :
    isPlain (substitute pattern value skip text) = true := by
  fun_induction substitute pattern value skip text with
  | case1 => rfl
  | case2 c rest skip ih => exact ih (isPlain_cons.mp htext).2
  | case3 c rest h ih => exact isPlain_append.mpr ⟨hvalue, ih (isPlain_cons.mp htext).2⟩
  | case4 c rest h ih =>
      rw [isPlain_cons] at htext ⊢
      exact ⟨htext.1, ih htext.2⟩

theorem isKey_of_isName {text : Text} (h : isName text = true) : IsKey text := by
  rw [isName, Bool.and_eq_true, List.all_eq_true] at h
  refine ⟨fun hmem => ?_, fun hmem => ?_⟩
  · exact absurd (h.2 _ hmem) (by decide)
  · exact absurd (h.2 _ hmem) (by decide)

theorem isScalarKey_lowerdir : IsScalarKey Setting.lowerdir :=
  ⟨⟨'l', "owerdir".toList, rfl, by decide⟩, by decide, by decide⟩

theorem isScalarKey_runTime : IsScalarKey Setting.runTime :=
  ⟨⟨'r', "un_time".toList, rfl, by decide⟩, by decide, by decide⟩

namespace FileKnobs

variable {k : FileKnobs} {e : Entry} {o : Outcome} {line : ManifestLine}

theorem isPlain_dbDir (hblock : isNumeric (Knobs.block e) = true) :
    isPlain (k.dbDir e o).toList = true := by
  rw [isNumeric, Bool.and_eq_true] at hblock
  have hdirs := k.directories_plain
  simp only [List.forall_mem_cons] at hdirs
  obtain ⟨hbase, halias, hlabel, hsuffix, hsubdir, -⟩ := hdirs
  have htarget : isPlain (k.target e).toList = true := by
    simp only [Knobs.target, Knobs.dirName, Knobs.label, String.toList_append, isPlain_append]
    exact ⟨⟨hbase, by decide⟩, ⟨⟨⟨⟨halias, by decide⟩, hlabel⟩, by decide⟩,
      isPlain_of_isDigit hblock.2⟩, hsuffix⟩
  rw [Knobs.dbDir]
  split_ifs
  · simp only [String.toList_append, isPlain_append]
    exact ⟨⟨htarget, by decide⟩, hsubdir⟩
  · rw [String.toList_append, isPlain_append]
    exact ⟨htarget, by decide⟩
  · exact htarget

theorem isPlain_payloadsOf (hblock : isNumeric (Knobs.block line.entry) = true) :
    isPlain (k.payloadsOf line) = true := by
  rw [isNumeric, Bool.and_eq_true] at hblock
  rw [payloadsOf]
  split_ifs
  · exact isPlain_substitute (isPlain_of_isDigit hblock.2) k.payloadsPattern_plain
  · exact line.payloads_plain

end FileKnobs

namespace Files

variable {files : Files} {value : Text}

/-- What the next entry finds configured, where a line is for it. -/
def lowerdir (files : Files) : Option String :=
  (keyLine Setting.lowerdir files.config).map fun _ => files.prevLower

/-- The configuration quotes its `lowerdir`, or has none. -/
def Readable (files : Files) : Prop :=
  keyLine Setting.lowerdir files.config = none ∨ Quotes Setting.lowerdir files.config

theorem prevLower_eq (files : Files) : files.prevLower = files.lowerdir.getD "" := by
  rw [lowerdir, prevLower, readScalar]
  cases hline : keyLine Setting.lowerdir files.config with
  | none =>
      rw [keyLine] at hline
      rw [hline]
      rfl
  | some line => rfl

theorem lowerdir_setYamlQuoted_lowerdir (h : files.Readable) (hvalue : isPlain value = true) :
    (files.setYamlQuoted Setting.lowerdir value).lowerdir =
      files.lowerdir.map fun _ => String.ofList value := by
  have hscalar := isScalar_of_isPlain hvalue
  have hline := keyLine_setScalar isScalarKey_lowerdir isScalarKey_lowerdir hscalar files.config
  rw [lowerdir, lowerdir, setYamlQuoted, hline, Option.map_map, Option.map_map]
  rcases h with hnone | hquotes
  · rw [hnone]
    rfl
  · rw [prevLower, readScalar_setScalar isScalarKey_lowerdir hscalar hquotes]
    rfl

theorem readable_setYamlQuoted {key : Text} (hkey : IsScalarKey key) (hvalue : isPlain value = true)
    (h : files.Readable) : (files.setYamlQuoted key value).Readable := by
  have hscalar := isScalar_of_isPlain hvalue
  rcases h with hnone | hquotes
  · left
    rw [setYamlQuoted, keyLine_setScalar hkey isScalarKey_lowerdir hscalar, hnone]
    rfl
  · exact Or.inr ((quotes_setScalar_iff hkey isScalarKey_lowerdir hscalar).mpr hquotes)

theorem lowerdir_setYamlQuoted_runTime (hvalue : isPlain value = true) :
    (files.setYamlQuoted Setting.runTime value).lowerdir = files.lowerdir := by
  have hscalar := isScalar_of_isPlain hvalue
  rw [lowerdir, lowerdir, prevLower, prevLower, setYamlQuoted,
    keyLine_setScalar_of_ne isScalarKey_runTime isScalarKey_lowerdir (by decide) hscalar,
    readScalar_setScalar_of_ne isScalarKey_runTime isScalarKey_lowerdir (by decide) hscalar]

end Files

/-- The visit of an entry, without its files. -/
def FileVisit.visit (v : FileVisit) : Visit := ⟨v.events, v.files.lowerdir, v.summary⟩

/-- A sweep, without its files. -/
def FileReport.report (r : FileReport) : Report :=
  ⟨⟨r.files.lowerdir, r.trace, r.summary⟩, r.runs, r.ended⟩

/-- The milestone of a benchmark that is started. -/
def Event.started : Event → Option String
  | .benchmark milestone => some milestone
  | _ => none

namespace FileKnobs

variable {k : FileKnobs} {e : Entry} {o : Outcome} {line : ManifestLine} {files : Files}
  {port : Text} {runs : List (String × RunOutcome)}

/-! ## The durations -/

/-- What an edit of `run_time` keeps is so after the durations. -/
theorem launch_keeps {P : Files → Prop}
    (hstep : ∀ f dur, isPlain dur = true → P f → P (f.setYamlQuoted Setting.runTime dur))
    (hruns : ∀ run ∈ runs, isPlain run.1.toList = true) (h : P files) :
    P (k.launch e port runs files).1 := by
  induction runs generalizing files with
  | nil => exact h
  | cons run rest ih =>
      rw [List.forall_mem_cons] at hruns
      exact ih hruns.2 (hstep files _ hruns.1 h)

/-- Each benchmark starts with its own duration only. -/
theorem launches_eq (hruns : ∀ run ∈ runs, isPlain run.1.toList = true) :
    (k.launch e port runs files).2 =
      (runs.filter fun run => run.2.rpcReady).map fun run =>
        ⟨k.milestone e run.1, port, files.setYamlQuoted Setting.runTime run.1.toList⟩ := by
  induction runs generalizing files with
  | nil => rfl
  | cons run rest ih =>
      rw [List.forall_mem_cons] at hruns
      have hagain : ∀ later ∈ rest.filter (fun run => run.2.rpcReady),
          (files.setYamlQuoted Setting.runTime run.1.toList).setYamlQuoted Setting.runTime
            later.1.toList = files.setYamlQuoted Setting.runTime later.1.toList := by
        intro later hlater
        have hplain := hruns.2 later (List.mem_of_mem_filter hlater)
        rw [Files.setYamlQuoted, Files.setYamlQuoted, setScalar_setScalar isScalarKey_runTime
          (isScalar_of_isPlain hruns.1) (isScalar_of_isPlain hplain)]
        rfl
      rw [launch, ih hruns.2, List.filter_cons]
      have hrest := List.map_congr_left fun later hlater =>
        congrArg (Launch.mk (k.milestone e later.1) port) (hagain later hlater)
      split_ifs with hready
      · rw [List.map_cons, hrest]
        rfl
      · rw [hrest]
        rfl

theorem plain_mapIdx (answers : ℕ → RunOutcome) :
    ∀ run ∈ k.durations.mapIdx fun i dur => (dur, answers i), isPlain run.1.toList = true := by
  intro run hrun
  obtain ⟨i, hi, rfl⟩ := List.mem_mapIdx.mp hrun
  exact k.durations_plain _ (List.getElem_mem hi)

theorem lowerdir_point (hblock : isNumeric (Knobs.block e) = true) (h : files.Readable) :
    (k.point e o files).lowerdir = files.lowerdir.map fun _ => k.dbDir e o := by
  have hpoint := @Files.lowerdir_setYamlQuoted_lowerdir
    (files.setKv k.dbPathEnv (k.dbDir e o).toList) _ h (isPlain_dbDir (k := k) (o := o) hblock)
  rw [String.ofList_toList] at hpoint
  exact hpoint

theorem lowerdir_stage : (k.stage line files).lowerdir = files.lowerdir := by
  rw [stage]
  split_ifs <;> rfl

theorem acquire_prevLower :
    k.acquire (some files.prevLower) e o = k.acquire files.lowerdir e o := by
  rw [Knobs.acquire, Knobs.acquire, Knobs.removePrevious, Knobs.removePrevious, Option.getD_some,
    files.prevLower_eq]

/-- An entry does to the machine what it does by its `lowerdir`. -/
theorem visit_runOneSnapshot (h : files.Readable) :
    (k.runOneSnapshot files line o).visit =
      k.toKnobs.runOneSnapshot files.lowerdir line.entry o := by
  rw [runOneSnapshot, Knobs.runOneSnapshot]
  dsimp only
  rw [acquire_prevLower]
  cases hblock : isNumeric (Knobs.block line.entry) with
  | false => rfl
  | true =>
      rw [if_neg (by simp), if_neg (by simp)]
      cases k.acquireFailure o with
      | some status => rfl
      | none =>
          have hpoint := lowerdir_point (k := k) (o := o) hblock h
          cases Knobs.payloadsFailure o with
          | some status => rw [FileVisit.visit, ← hpoint]
          | none =>
              have hafter : (k.launch line.entry (k.stage line (k.point line.entry o files)).port
                  (k.durations.mapIdx fun i dur => (dur, o.runs i))
                  (k.stage line (k.point line.entry o files))).1.lowerdir =
                    files.lowerdir.map fun _ => k.dbDir line.entry o := by
                apply launch_keeps (P := fun f => f.lowerdir = _) _ (plain_mapIdx o.runs)
                · rw [lowerdir_stage, hpoint]
                · intro f dur hdur hf
                  rw [Files.lowerdir_setYamlQuoted_runTime hdur, hf]
              rw [FileVisit.visit, ← hafter]
              rfl

/-- What is done to the files is done to their settings. -/
theorem runOneSnapshot_keeps {P : Files → Prop} (o : Outcome)
    (hpoint : ∀ f, isNumeric (Knobs.block line.entry) = true → P f → P (k.point line.entry o f))
    (hstage : ∀ f, isNumeric (Knobs.block line.entry) = true → P f → P (k.stage line f))
    (htime : ∀ f dur, isPlain dur = true → P f → P (f.setYamlQuoted Setting.runTime dur))
    (h : P files) : P (k.runOneSnapshot files line o).files := by
  rw [runOneSnapshot]
  cases hblock : isNumeric (Knobs.block line.entry) with
  | false => exact h
  | true =>
      rw [if_neg (by simp)]
      cases k.acquireFailure o with
      | some status => exact h
      | none =>
          cases Knobs.payloadsFailure o with
          | some status => exact hpoint files hblock h
          | none =>
              exact launch_keeps htime (plain_mapIdx o.runs)
                (hstage _ hblock (hpoint files hblock h))

variable (k) in
/-- The durations whose node has answered. -/
def ready (answered : ℕ → Bool) : List String :=
  ((k.durations.mapIdx fun i dur => (dur, answered i)).filter Prod.snd).map Prod.fst

theorem mem_durations_of_mem_ready {answered : ℕ → Bool} {dur : String}
    (h : dur ∈ k.ready answered) : dur ∈ k.durations := by
  obtain ⟨run, hrun, rfl⟩ := List.mem_map.mp h
  obtain ⟨i, hi, rfl⟩ := List.mem_mapIdx.mp (List.mem_of_mem_filter hrun)
  exact List.getElem_mem hi

theorem map_ready {β : Type} (answers : ℕ → RunOutcome) (g : String → β) :
    ((k.durations.mapIdx fun i dur => (dur, answers i)).filter fun run => run.2.rpcReady).map
        (fun run => g run.1) = (k.ready fun i => (answers i).rpcReady).map g := by
  rw [ready, List.mapIdx_eq_zipIdx_map, List.mapIdx_eq_zipIdx_map, List.filter_map,
    List.filter_map, List.map_map, List.map_map, List.map_map]
  rfl

/-- The benchmarks an entry starts, and the files they start on. -/
theorem launches_runOneSnapshot :
    (k.runOneSnapshot files line o).launches =
      if k.serves (line.entry, o) && (Knobs.payloadsFailure o).isNone then
        (k.ready fun i => (o.runs i).rpcReady).map fun dur =>
          ⟨k.milestone line.entry dur, (k.stage line (k.point line.entry o files)).port,
            (k.stage line (k.point line.entry o files)).setYamlQuoted Setting.runTime dur.toList⟩
      else [] := by
  rw [runOneSnapshot, Knobs.serves]
  cases isNumeric (Knobs.block line.entry) with
  | false => rfl
  | true =>
      cases k.acquireFailure o with
      | some status => rfl
      | none =>
          cases Knobs.payloadsFailure o with
          | some status => rfl
          | none =>
              rw [if_neg (by simp), ← map_ready]
              exact (launches_eq (plain_mapIdx o.runs)).trans (if_pos rfl).symm

theorem started_runEvents (e : Entry) (dur : String) (o : RunOutcome) :
    (k.runEvents e dur o).filterMap Event.started =
      if o.rpcReady then [k.milestone e dur] else [] := by
  rw [Knobs.runEvents]
  split_ifs <;> rfl

theorem started_acquire (lowerdir : Option String) (e : Entry) (o : Outcome) :
    (k.acquire lowerdir e o).filterMap Event.started = [] := by
  rw [Knobs.acquire, Knobs.removePrevious]
  split_ifs <;> rfl

theorem started_finish (e : Entry) : (k.finish e).filterMap Event.started = [] := by
  rw [Knobs.finish]
  split_ifs <;> rfl

/-- The benchmarks of the runs are those whose node has answered. -/
theorem started_runs (answers : ℕ → RunOutcome) :
    (k.durations.mapIdx fun i dur => k.runEvents e dur (answers i)).flatten.filterMap
        Event.started =
      (k.ready fun i => (answers i).rpcReady).map (k.milestone e) := by
  rw [← map_ready]
  have hpairs : (k.durations.mapIdx fun i dur => k.runEvents e dur (answers i)) =
      (k.durations.mapIdx fun i dur => (dur, answers i)).map fun run =>
        k.runEvents e run.1 run.2 := by
    rw [List.mapIdx_eq_zipIdx_map, List.mapIdx_eq_zipIdx_map, List.map_map]
    rfl
  rw [hpairs]
  induction k.durations.mapIdx fun i dur => (dur, answers i) with
  | nil => rfl
  | cons run rest ih =>
      rw [List.map_cons, List.flatten_cons, List.filterMap_append, started_runEvents, ih,
        List.filter_cons]
      split_ifs <;> rfl

/-- Every benchmark that is started has its files. -/
theorem milestones_runOneSnapshot :
    (k.runOneSnapshot files line o).launches.map Launch.milestone =
      (k.runOneSnapshot files line o).events.filterMap Event.started := by
  have hacquired := started_acquire (k := k) (some files.prevLower) line.entry o
  rw [launches_runOneSnapshot, runOneSnapshot, Knobs.serves]
  dsimp only
  cases isNumeric (Knobs.block line.entry) with
  | false => rfl
  | true =>
      cases k.acquireFailure o with
      | some status => exact hacquired.symm
      | none =>
          cases Knobs.payloadsFailure o with
          | some status => exact hacquired.symm
          | none =>
              show List.map _ (List.map _ _) =
                (k.acquire (some files.prevLower) line.entry o ++ _ ++ _).filterMap Event.started
              rw [List.filterMap_append, List.filterMap_append, hacquired, started_runs,
                started_finish, List.append_nil, List.map_map]
              rfl

variable (k) in
/-- The variables an entry sets. -/
def edits : List Text :=
  [k.dbPathEnv, Setting.mockClPayloads] ++ if k.client = "geth" then [Setting.mockClJwt] else []

/-- Nothing but the settings of entries is other than at the start. -/
structure Edited (k : FileKnobs) (start files : Files) : Prop where
  config : ∀ {dir dur : Text}, IsScalar dir → IsScalar dur →
    setScalar Setting.runTime dur (setScalar Setting.lowerdir dir files.config) =
      setScalar Setting.runTime dur (setScalar Setting.lowerdir dir start.config)
  closed : Closed files.env
  env : ∀ key, IsKey key → key ∉ k.edits → valueOf key files.env = valueOf key start.env

/-- The files a benchmark is started on are those of the start with the settings of its entry
and its duration. -/
structure IsFor (k : FileKnobs) (start : Files) (line : ManifestLine) (dur : String)
    (l : Launch) : Prop where
  milestone : l.milestone = k.milestone line.entry dur
  config : l.files.config = setScalar Setting.runTime dur.toList
    (setScalar Setting.lowerdir (k.dbDir line.entry line.outcome).toList start.config)
  lowerdir : Quotes Setting.lowerdir start.config →
    readScalar Setting.lowerdir l.files.config = (k.dbDir line.entry line.outcome).toList
  runTime : Quotes Setting.runTime start.config →
    readScalar Setting.runTime l.files.config = dur.toList
  dbPath : valueOf k.dbPathEnv l.files.env = some (k.dbDir line.entry line.outcome).toList
  payloads : valueOf Setting.mockClPayloads l.files.env = some (k.payloadsOf line)
  jwt : k.client = "geth" → valueOf Setting.mockClJwt l.files.env = some k.jwtPath
  others : ∀ key, IsKey key → key ∉ k.edits → valueOf key l.files.env = valueOf key start.env
  port : l.port = start.port

variable {start : Files}

theorem isKey_of_mem_edits {key : Text} (h : key ∈ k.edits) : IsKey key := by
  have hname : isName key = true := by
    rw [edits] at h
    split_ifs at h
    · simp only [List.mem_append, List.mem_cons, List.not_mem_nil, or_false] at h
      rcases h with (rfl | rfl) | rfl
      · exact k.dbPathEnv_name
      · decide
      · decide
    · simp only [List.mem_append, List.mem_cons, List.not_mem_nil, or_false] at h
      rcases h with rfl | rfl
      · exact k.dbPathEnv_name
      · decide
  exact isKey_of_isName hname

theorem Edited.setKv (h : k.Edited start files) {key value : Text} (hkey : key ∈ k.edits)
    (hvalue : isPlain value = true) : k.Edited start (files.setKv key value) := by
  have hname := isKey_of_mem_edits hkey
  have hline := (isScalar_of_isPlain hvalue).no_newline
  refine ⟨h.config, h.closed.setKey hname hline, fun other hother hnot => ?_⟩
  rw [← h.env other hother hnot]
  exact valueOf_setKey_of_ne hname hother (fun heq => hnot (heq ▸ hkey)) hline (.inr h.closed)

theorem Edited.lowerdir (h : k.Edited start files) {value : Text} (hvalue : isPlain value = true) :
    k.Edited start (files.setYamlQuoted Setting.lowerdir value) := by
  refine ⟨fun hdir hdur => ?_, h.closed, h.env⟩
  rw [Files.setYamlQuoted, setScalar_setScalar isScalarKey_lowerdir (isScalar_of_isPlain hvalue)
    hdir, h.config hdir hdur]

theorem Edited.runTime (h : k.Edited start files) {value : Text} (hvalue : isPlain value = true) :
    k.Edited start (files.setYamlQuoted Setting.runTime value) := by
  refine ⟨fun hdir hdur => ?_, h.closed, h.env⟩
  rw [Files.setYamlQuoted, setScalar_comm isScalarKey_lowerdir isScalarKey_runTime (by decide) hdir
    (isScalar_of_isPlain hvalue), setScalar_setScalar isScalarKey_runTime
    (isScalar_of_isPlain hvalue) hdur, h.config hdir hdur]

theorem dbPathEnv_mem_edits : k.dbPathEnv ∈ k.edits := by simp [edits]

theorem mockClPayloads_mem_edits : Setting.mockClPayloads ∈ k.edits := by simp [edits]

theorem Edited.point (h : k.Edited start files) (hblock : isNumeric (Knobs.block e) = true) :
    k.Edited start (k.point e o files) :=
  (h.setKv dbPathEnv_mem_edits (isPlain_dbDir hblock)).lowerdir (isPlain_dbDir hblock)

theorem Edited.stage (h : k.Edited start files)
    (hblock : isNumeric (Knobs.block line.entry) = true) : k.Edited start (k.stage line files) := by
  have hstaged := h.setKv mockClPayloads_mem_edits (isPlain_payloadsOf (k := k) hblock)
  rw [FileKnobs.stage]
  split_ifs with hgeth
  · have hjwt : Setting.mockClJwt ∈ k.edits := by simp [edits, hgeth]
    exact hstaged.setKv hjwt k.jwtPath_plain
  · exact hstaged

/-- The files of an entry that is skipped or over are edited in its settings only. -/
theorem Edited.runOneSnapshot (h : k.Edited start files) (o : Outcome) :
    k.Edited start (k.runOneSnapshot files line o).files :=
  runOneSnapshot_keeps o (fun _ hblock hf => hf.point hblock) (fun _ hblock hf => hf.stage hblock)
    (fun _ _ hdur hf => hf.runTime hdur) h

theorem readable_runOneSnapshot (h : files.Readable) (o : Outcome) :
    (k.runOneSnapshot files line o).files.Readable := by
  refine runOneSnapshot_keeps o (fun f hblock hf => ?_) (fun f _ hf => ?_)
    (fun f dur hdur hf => Files.readable_setYamlQuoted isScalarKey_runTime hdur hf) h
  · exact @Files.readable_setYamlQuoted (f.setKv k.dbPathEnv (k.dbDir line.entry o).toList) _ _
      isScalarKey_lowerdir (isPlain_dbDir hblock) hf
  · rw [FileKnobs.stage]
    split_ifs <;> exact hf

/-- The variables an entry sets are read back. -/
theorem valueOf_stage (h : k.Edited start files)
    (hblock : isNumeric (Knobs.block line.entry) = true) :
    let staged := k.stage line (k.point line.entry o files)
    valueOf k.dbPathEnv staged.env = some (k.dbDir line.entry o).toList ∧
      valueOf Setting.mockClPayloads staged.env = some (k.payloadsOf line) ∧
      (k.client = "geth" → valueOf Setting.mockClJwt staged.env = some k.jwtPath) := by
  have hdb := isKey_of_isName k.dbPathEnv_name
  have hpayloads : IsKey Setting.mockClPayloads := isKey_of_isName (by decide)
  have hjwt : IsKey Setting.mockClJwt := isKey_of_isName (by decide)
  have hfree := k.dbPathEnv_free
  simp only [List.mem_cons, List.not_mem_nil, or_false, not_or] at hfree
  have hdbLine := (isScalar_of_isPlain (isPlain_dbDir (k := k) (o := o) hblock)).no_newline
  have hpayloadsLine := (isScalar_of_isPlain (isPlain_payloadsOf (k := k) hblock)).no_newline
  have hjwtLine := (isScalar_of_isPlain k.jwtPath_plain).no_newline
  have hpointed := (h.point (o := o) hblock).closed
  have hset : valueOf k.dbPathEnv (k.point line.entry o files).env =
      some (k.dbDir line.entry o).toList :=
    (valueOf_setKey_iff hdb hdbLine).mpr (.inr h.closed)
  have hpayloadsSet : valueOf Setting.mockClPayloads ((k.point line.entry o files).setKv
      Setting.mockClPayloads (k.payloadsOf line)).env = some (k.payloadsOf line) :=
    (valueOf_setKey_iff hpayloads hpayloadsLine).mpr (.inr hpointed)
  have hdbKept : valueOf k.dbPathEnv ((k.point line.entry o files).setKv Setting.mockClPayloads
      (k.payloadsOf line)).env = some (k.dbDir line.entry o).toList := by
    rw [← hset]
    exact valueOf_setKey_of_ne hpayloads hdb hfree.1 hpayloadsLine (.inr hpointed)
  rw [FileKnobs.stage]
  dsimp only
  split_ifs with hgeth
  · have hclosed := hpointed.setKey hpayloads hpayloadsLine
    refine ⟨?_, ?_, fun _ => (valueOf_setKey_iff hjwt hjwtLine).mpr (.inr hclosed)⟩
    · rw [← hdbKept]
      exact valueOf_setKey_of_ne hjwt hdb hfree.2.1 hjwtLine (.inr hclosed)
    · rw [← hpayloadsSet]
      exact valueOf_setKey_of_ne hjwt hpayloads (by decide) hjwtLine (.inr hclosed)
  · exact ⟨hdbKept, hpayloadsSet, fun h => absurd h hgeth⟩

/-- A benchmark of an entry is for it, whatever was edited before. -/
theorem isFor_of_edited (h : k.Edited start files)
    (hblock : isNumeric (Knobs.block line.entry) = true) {dur : String} (hdur : dur ∈ k.durations)
    (ho : k.dbDir line.entry o = k.dbDir line.entry line.outcome) :
    k.IsFor start line dur ⟨k.milestone line.entry dur,
      (k.stage line (k.point line.entry o files)).port,
      (k.stage line (k.point line.entry o files)).setYamlQuoted Setting.runTime dur.toList⟩ := by
  have hdbDir := isScalar_of_isPlain (isPlain_dbDir (k := k) (o := o) hblock)
  have hduration := isScalar_of_isPlain (k.durations_plain dur hdur)
  have hstaged := (h.point (o := o) hblock).stage hblock
  have hsets := valueOf_stage (o := o) h hblock
  have hconfig : (k.stage line (k.point line.entry o files)).config =
      setScalar Setting.lowerdir (k.dbDir line.entry o).toList files.config := by
    rw [FileKnobs.stage]
    split_ifs <;> rfl
  have hport : IsKey Setting.clientRpcPort := isKey_of_isName (by decide)
  have hfree := k.dbPathEnv_free
  simp only [List.mem_cons, List.not_mem_nil, or_false, not_or] at hfree
  have hportFree : Setting.clientRpcPort ∉ k.edits := by
    rw [edits]
    have hne : Setting.clientRpcPort ≠ k.dbPathEnv := fun heq => hfree.2.2 heq.symm
    split_ifs <;> simp [hne] <;> decide
  rw [ho] at hconfig hsets hdbDir
  have hwhole : setScalar Setting.runTime dur.toList
      (k.stage line (k.point line.entry o files)).config =
        setScalar Setting.runTime dur.toList (setScalar Setting.lowerdir
          (k.dbDir line.entry line.outcome).toList start.config) := by
    rw [hconfig, h.config hdbDir hduration]
  refine ⟨rfl, hwhole, fun hquotes => ?_, fun hquotes => ?_, hsets.1, hsets.2.1, hsets.2.2,
    hstaged.env, ?_⟩
  · rw [Files.setYamlQuoted, hwhole, readScalar_setScalar_of_ne isScalarKey_runTime
      isScalarKey_lowerdir (by decide) hduration]
    exact readScalar_setScalar isScalarKey_lowerdir hdbDir hquotes
  · rw [Files.setYamlQuoted, hwhole]
    exact readScalar_setScalar isScalarKey_runTime hduration
      ((quotes_setScalar_iff isScalarKey_lowerdir isScalarKey_runTime hdbDir).mpr hquotes)
  · show Files.port _ = _
    rw [Files.port, Files.port, hstaged.env _ hport hportFree]

/-! ## The whole sweep -/

variable (k) in
/-- The benchmarks a line of the manifest is to start. -/
def starts (line : ManifestLine) : List (ManifestLine × String) :=
  if k.benchmarks line.toServing then
    (k.ready fun i => (line.attempts i).rpcReady).map fun dur => (line, dur)
  else []

variable {prior : Benchmarks} {r : FileReport} {lines : List ManifestLine}

/-- The benchmarks of an entry are the ones its line is to start, each for its duration. -/
theorem launches_isFor (h : k.Edited start files) (past : List Run)
    (hstops : k.stops line.toServing = false) :
    List.Forall₂ (fun planned l => k.IsFor start planned.1 planned.2 l) (k.starts line)
      (k.runOneSnapshot files line (k.outcomeAfter prior past line.toServing)).launches := by
  have hserves : (k.serves (line.entry, k.outcomeAfter prior past line.toServing) &&
      (Knobs.payloadsFailure (k.outcomeAfter prior past line.toServing)).isNone) =
        k.benchmarks line.toServing := by
    rw [Knobs.benchmarks, hstops, Bool.not_false, Bool.and_true]
    rfl
  rw [launches_runOneSnapshot, hserves, starts]
  split_ifs with hbench
  · rw [Knobs.benchmarks, Knobs.serves, Bool.and_eq_true, Bool.and_eq_true, Bool.and_eq_true]
      at hbench
    rw [List.forall₂_map_left_iff, List.forall₂_map_right_iff]
    exact List.forall₂_same.mpr fun dur hdur =>
      isFor_of_edited h hbench.1.1.1 (mem_durations_of_mem_ready hdur) rfl
  · exact .nil

theorem launches_of_stops (files : Files) (line : ManifestLine) :
    (k.runOneSnapshot files line { line.outcome with payloadsAtHead := false }).launches = [] := by
  have hfails : (Knobs.payloadsFailure { line.outcome with payloadsAtHead := false }).isNone =
      false := by
    rw [Knobs.payloadsFailure]
    split_ifs with hexist hhead
    · rfl
    · rfl
    · exact absurd rfl hhead
  rw [launches_runOneSnapshot, hfails, Bool.and_false, if_neg (by simp)]

theorem foldl_of_ended (h : r.ended = true) : lines.foldl (k.serveNext prior) r = r := by
  induction lines with
  | nil => rfl
  | cons line rest ih =>
      have hstay : k.serveNext prior r line = r := if_pos h
      rw [List.foldl_cons, hstay, ih]

variable (prior) in
theorem serveNext_of_stops (hended : r.ended = false) (hstops : k.stops line.toServing = true) :
    k.serveNext prior r line =
      let visit := k.runOneSnapshot r.files line { line.outcome with payloadsAtHead := false }
      { r with
        files := visit.files
        trace := r.trace ++ visit.events.map (Moment.mk (k.target line.entry))
        launches := r.launches ++ visit.launches
        ended := true } := by
  rw [serveNext, if_neg (by simp [hended]), if_pos hstops]

variable (prior) in
theorem serveNext_of_not_stops (hended : r.ended = false)
    (hstops : k.stops line.toServing = false) :
    k.serveNext prior r line =
      let visit := k.runOneSnapshot r.files line (k.outcomeAfter prior r.runs line.toServing)
      { files := visit.files
        trace := r.trace ++ visit.events.map (Moment.mk (k.target line.entry))
        launches := r.launches ++ visit.launches
        summary := r.summary ++ visit.summary
        runs := r.runs ++ k.runsOf line.toServing
        ended := false } := by
  rw [serveNext, if_neg (by simp [hended]), if_neg (by simp [hstops])]

/-- The benchmarks of a sweep that goes on. -/
theorem launches_foldl (h : k.Edited start r.files) (hended : r.ended = false) :
    ∃ more, (lines.foldl (k.serveNext prior) r).launches = r.launches ++ more ∧
      List.Forall₂ (fun planned l => k.IsFor start planned.1 planned.2 l)
        ((lines.takeWhile fun line => !k.stops line.toServing).flatMap k.starts) more := by
  induction lines generalizing r with
  | nil => exact ⟨[], by simp, .nil⟩
  | cons line rest ih =>
      rw [List.foldl_cons]
      cases hstops : k.stops line.toServing with
      | true =>
          rw [serveNext_of_stops _ hended hstops, foldl_of_ended rfl,
            List.takeWhile_cons_of_neg (by simp [hstops])]
          exact ⟨[], congrArg (r.launches ++ ·) (launches_of_stops r.files line), .nil⟩
      | false =>
          rw [serveNext_of_not_stops _ hended hstops]
          obtain ⟨more, hmore, hplanned⟩ := @ih ⟨_, _, _, _, _, false⟩ (h.runOneSnapshot _) rfl
          rw [hmore, List.takeWhile_cons_of_pos (by simp [hstops]), List.flatMap_cons]
          exact ⟨_, List.append_assoc .., List.rel_append (launches_isFor h r.runs hstops) hplanned⟩

theorem report_concat : k.report prior start (lines ++ [line]) =
    k.serveNext prior (k.report prior start lines) line := by
  rw [report, List.foldl_append]
  rfl

/-- What an iteration does to the files and the machine is done by an entry. -/
theorem serveNext_cases (prior : Benchmarks) (r : FileReport) (line : ManifestLine) :
    k.serveNext prior r line = r ∨
      ∃ o, (k.serveNext prior r line).files = (k.runOneSnapshot r.files line o).files ∧
        (k.serveNext prior r line).trace = r.trace ++
          (k.runOneSnapshot r.files line o).events.map (Moment.mk (k.target line.entry)) ∧
        (k.serveNext prior r line).launches =
          r.launches ++ (k.runOneSnapshot r.files line o).launches := by
  cases hended : r.ended with
  | true => exact .inl (if_pos hended)
  | false =>
      cases hstops : k.stops line.toServing with
      | true =>
          have hnext := serveNext_of_stops prior hended hstops
          exact .inr ⟨{ line.outcome with payloadsAtHead := false }, by rw [hnext], by rw [hnext],
            by rw [hnext]⟩
      | false =>
          have hnext := serveNext_of_not_stops prior hended hstops
          exact .inr ⟨k.outcomeAfter prior r.runs line.toServing, by rw [hnext], by rw [hnext],
            by rw [hnext]⟩

/-- Every benchmark of the trace has its files. -/
theorem milestones_report (k : FileKnobs) (prior : Benchmarks) (start : Files)
    (lines : List ManifestLine) : (k.report prior start lines).launches.map Launch.milestone =
      (k.report prior start lines).trace.filterMap fun m => m.event.started := by
  induction lines using List.reverseRecOn with
  | nil => rfl
  | append_singleton lines line ih =>
      rw [report_concat]
      rcases serveNext_cases prior (k.report prior start lines) line with
        hstay | ⟨o, -, htrace, hlaunches⟩
      · rw [hstay, ih]
      · rw [hlaunches, htrace, List.map_append, List.filterMap_append, ih,
          milestones_runOneSnapshot, List.filterMap_map]
        rfl

theorem readable_report (hreads : start.Readable) :
    (k.report prior start lines).files.Readable := by
  induction lines using List.reverseRecOn with
  | nil => exact hreads
  | append_singleton lines line ih =>
      rw [report_concat]
      rcases serveNext_cases prior (k.report prior start lines) line with hstay | ⟨o, hfiles, -⟩
      · rw [hstay]
        exact ih
      · rw [hfiles]
        exact readable_runOneSnapshot ih o

/-- An iteration does to the machine what it does by the `lowerdir`. -/
theorem report_serveNext (h : r.files.Readable) :
    (k.serveNext prior r line).report = k.toKnobs.serveNext prior r.report line.toServing := by
  cases hended : r.ended with
  | true =>
      have hstay : k.serveNext prior r line = r := if_pos hended
      have hover : r.report.ended = true := hended
      rw [hstay, Knobs.serveNext, if_pos hover]
  | false =>
      have hgoes : ¬ r.report.ended = true := ne_true_of_eq_false hended
      rw [Knobs.serveNext, if_neg hgoes]
      cases hstops : k.stops line.toServing with
      | true =>
          have hvisit : (k.runOneSnapshot r.files line
              { line.outcome with payloadsAtHead := false }).visit = _ := visit_runOneSnapshot h
          rw [serveNext_of_stops _ hended hstops, if_pos rfl]
          generalize k.runOneSnapshot r.files line { line.outcome with payloadsAtHead := false } = v
            at hvisit ⊢
          dsimp only [Knobs.serve, FileReport.report]
          rw [← hvisit]
          rfl
      | false =>
          have hvisit : (k.runOneSnapshot r.files line
              (k.outcomeAfter prior r.runs line.toServing)).visit = _ := visit_runOneSnapshot h
          rw [serveNext_of_not_stops _ hended hstops, if_neg (by simp)]
          generalize k.runOneSnapshot r.files line
            (k.outcomeAfter prior r.runs line.toServing) = v at hvisit ⊢
          dsimp only [Knobs.serve, FileReport.report]
          rw [← hvisit]
          rfl

/-- A sweep over the files is the sweep over what they have for `lowerdir`. -/
theorem report_report (hreads : start.Readable) :
    (k.report prior start lines).report =
      k.toKnobs.report prior start.lowerdir (lines.map ManifestLine.toServing) := by
  induction lines using List.reverseRecOn with
  | nil => rfl
  | append_singleton lines line ih =>
      rw [report_concat, report_serveNext (readable_report hreads), ih, List.map_append,
        List.map_singleton, Knobs.report_concat]

/-- **A sweep over the two files does to the machine, and reports, what the sweep does that
knows only what is configured for `lowerdir`.  And it starts one benchmark for each duration
whose node has answered, in their order, on the files of the start with the settings of its
own entry and nothing else changed, whatever was served or skipped before.** -/
theorem report_files (k : FileKnobs) (prior : Benchmarks) {start : Files}
    (lines : List ManifestLine) (hclosed : Closed start.env) (hreads : start.Readable) :
    (k.report prior start lines).report =
        k.toKnobs.report prior start.lowerdir (lines.map ManifestLine.toServing) ∧
      ((k.report prior start lines).launches.map Launch.milestone =
        (k.report prior start lines).trace.filterMap fun m => m.event.started) ∧
      List.Forall₂ (fun planned l => k.IsFor start planned.1 planned.2 l)
        ((lines.takeWhile fun line => !k.stops line.toServing).flatMap k.starts)
        (k.report prior start lines).launches := by
  refine ⟨report_report hreads, milestones_report k prior start lines, ?_⟩
  have hstart : k.Edited start start := ⟨fun _ _ => rfl, hclosed, fun _ _ _ => rfl⟩
  obtain ⟨more, hmore, hplanned⟩ :
      ∃ more, (k.report prior start lines).launches = [] ++ more ∧ _ := launches_foldl hstart rfl
  rw [hmore]
  exact hplanned

end FileKnobs

def nethermindKnobs : FileKnobs where
  toKnobs := keepingKnobs
  client := "nethermind"
  dbPathEnv := "NETHERMIND_DB_PATH".toList
  payloadsPattern := "payloads_x35_<block>.jsonl".toList
  jwtPath := "docker/jwtsecret".toList
  dbPathEnv_name := by decide
  dbPathEnv_free := by decide
  directories_plain := by decide
  durations_plain := by decide
  payloadsPattern_plain := by decide
  jwtPath_plain := by decide

/-- The files of an earlier sweep over another snapshot. -/
def earlierFiles : Files where
  config := "overlay:\n  lowerdir: \"/mnt/bigdata/old/mainnet\"\n  run_time: \"1m\"\n".toList
  env := "CLIENT_RPC_PORT=8547\nNETHERMIND_DB_PATH=/mnt/bigdata/old/mainnet\n".toList

def failedLine : ManifestLine where
  toServing := failedServing
  payloads := []
  payloads_plain := rfl

/-- The second benchmark of a snapshot starts on its files, not on those of the first or of an
earlier sweep. -/
theorem report_files_earlier :
    ∃ l ∈ (nethermindKnobs.report (fun _ => .missing) earlierFiles [failedLine]).launches,
      l.milestone = "neth-x35-24358000-60m" ∧ l.port = "8547".toList ∧
      readScalar Setting.lowerdir l.files.config =
        "/mnt/bigdata/neth-x35-24358000-benchmark/mainnet".toList ∧
      readScalar Setting.runTime l.files.config = "60m".toList ∧
      valueOf Setting.mockClPayloads l.files.env = some "payloads_x35_24358000.jsonl".toList := by
  have hclosed : Closed earlierFiles.env :=
    ⟨(lines earlierFiles.env).dropLast, by decide +kernel⟩
  have hquotes : Quotes Setting.lowerdir earlierFiles.config := ⟨_, rfl, rfl⟩
  have htime : Quotes Setting.runTime earlierFiles.config := ⟨_, rfl, rfl⟩
  have hplanned := (nethermindKnobs.report_files (fun _ => .missing) [failedLine] hclosed
    (.inr hquotes)).2.2
  have hblock : Knobs.block failedLine.entry = "24358000" := block_block24358000
  have hstops : nethermindKnobs.stops failedLine.toServing = false :=
    stops_failedServing _ (List.mem_singleton_self _)
  have hbench : nethermindKnobs.benchmarks failedLine.toServing = true := by
    rw [Knobs.benchmarks, Knobs.serves, hblock, hstops]
    decide
  have hstarts : nethermindKnobs.starts failedLine = [(failedLine, "5m"), (failedLine, "60m")] := by
    rw [FileKnobs.starts, if_pos hbench]
    rfl
  rw [List.takeWhile_cons_of_pos (by simp [hstops]), List.takeWhile_nil, List.flatMap_singleton,
    hstarts] at hplanned
  obtain ⟨first, rest, -, hrest, hlaunches⟩ := List.forall₂_cons_left_iff.mp hplanned
  obtain ⟨l, last, hl, -, rfl⟩ := List.forall₂_cons_left_iff.mp hrest
  have hmem : l ∈ first :: l :: last := List.mem_cons_of_mem _ List.mem_cons_self
  refine ⟨l, hlaunches ▸ hmem, ?_, ?_, ?_, hl.runTime htime, ?_⟩
  · rw [hl.milestone, Knobs.milestone, hblock]
    decide
  · rw [hl.port]
    decide +kernel
  · rw [hl.lowerdir hquotes, Knobs.dbDir, Knobs.target, Knobs.dirName, hblock]
    decide
  · have hdefault : nethermindKnobs.payloadsOf failedLine =
        substitute "<block>".toList (Knobs.block failedLine.entry).toList 0
          nethermindKnobs.payloadsPattern := if_pos rfl
    rw [hl.payloads, hdefault, hblock]
    decide

end StateBenchmarks.Templates
