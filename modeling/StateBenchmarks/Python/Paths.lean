/-
# Paths as `os.path` handles them

Only the textual functions, in their POSIX form; what a path leads to is a
matter of the file system.  Without symbolic links it leads where its components
say, and joining, normalising and taking the directory of paths can be followed
there.
-/

import StateBenchmarks.Control.Splitting

namespace StateBenchmarks.Python

open Control

/-- `os.path.join(a, b)`. -/
def joinPath (a b : String) : String :=
  if b.toList.head? = some '/' then b
  else if a.toList = [] ∨ a.toList.getLast? = some '/' then a ++ b
  else a ++ "/" ++ b

/-- `os.path.dirname(p)`: up to the last slash, without trailing slashes unless
it is nothing but slashes. -/
def dirname (p : String) : String :=
  let head := (p.toList.reverse.dropWhile (· != '/')).reverse
  if head.all (· == '/') then String.ofList head
  else String.ofList (head.reverse.dropWhile (· == '/')).reverse

example : dirname "/mnt/bigdata/snapshot" = "/mnt/bigdata" := by decide

/-- `os.path.isabs(p)`. -/
def Rooted (p : String) : Prop := p.toList.head? = some '/'

instance (p : String) : Decidable (Rooted p) := inferInstanceAs (Decidable (_ = _))

/-- One component, in `os.path.normpath`. -/
def normStep (rooted : Bool) (comps : List (List Char)) (comp : List Char) :
    List (List Char) :=
  if comp = [] ∨ comp = ['.'] then comps
  else if comp ≠ ['.', '.'] ∨ (rooted = false ∧ comps = []) ∨
      comps.getLast? = some ['.', '.'] then comps ++ [comp]
  else comps.dropLast

/-- The slashes a normalised path starts with: exactly two are kept. -/
def initialSlashes : List Char → ℕ
  | '/' :: '/' :: '/' :: _ => 1
  | '/' :: '/' :: _ => 2
  | '/' :: _ => 1
  | _ => 0

/-- `os.path.normpath(p)`. -/
def normpath (p : String) : String :=
  let slashes := initialSlashes p.toList
  let comps := (p.toList.splitOn '/').foldl (normStep (decide (0 < slashes))) []
  let path := List.replicate slashes '/' ++ ['/'].intercalate comps
  if path = [] then "." else String.ofList path

/-- `os.path.abspath(p)` in the working directory `cwd`. -/
def abspath (cwd p : String) : String :=
  if Rooted p then normpath p else normpath (joinPath cwd p)

/-- A directory by the names on the way to it from the root. -/
abbrev Place := List (List Char)

/-- Going on by one component. -/
def enter (dir : Place) (comp : List Char) : Place :=
  if comp = [] ∨ comp = ['.'] then dir
  else if comp = ['.', '.'] then dir.dropLast
  else dir ++ [comp]

/-- Going on along a path. -/
def follow (dir : Place) (path : List Char) : Place := (path.splitOn '/').foldl enter dir

/-- Where an absolute path leads when no component is a symbolic link. -/
def location (p : String) : Place := follow [] p.toList

example : location "/mnt/data/../snapshot//db/." = location "/mnt/snapshot/db" := by decide

/-- A component that names an entry of a directory. -/
structure IsEntry (comp : List Char) : Prop where
  noSlash : '/' ∉ comp
  ne_nil : comp ≠ []
  ne_dot : comp ≠ ['.']
  ne_dots : comp ≠ ['.', '.']

theorem enter_of_isEntry {comp : List Char} (h : IsEntry comp) (dir : Place) :
    enter dir comp = dir ++ [comp] := by
  rw [enter, if_neg (not_or.mpr ⟨h.ne_nil, h.ne_dot⟩), if_neg h.ne_dots]

theorem follow_of_noSlash {comp : List Char} (h : '/' ∉ comp) (dir : Place) :
    follow dir comp = enter dir comp := by
  rw [follow, List.splitOn_eq_singleton h]
  rfl

/-- A slash separates what is followed first from what is followed next. -/
theorem follow_slash (dir : Place) (front back : List Char) :
    follow dir (front ++ '/' :: back) = follow (follow dir front) back := by
  rw [follow, List.splitOn_append_cons_self, List.foldl_append]
  rfl

theorem follow_nil (dir : Place) : follow dir [] = dir := rfl

/-- A trailing slash leads nowhere else. -/
theorem follow_trailing (dir : Place) (path : List Char) :
    follow dir (path ++ ['/']) = follow dir path := by
  rw [follow_slash, follow_nil]

/-- A leading slash leads nowhere else. -/
theorem follow_leading (dir : Place) (path : List Char) :
    follow dir ('/' :: path) = follow dir path := follow_slash dir [] path

theorem follow_slashes (dir : Place) (n : ℕ) (path : List Char) :
    follow dir (List.replicate n '/' ++ path) = follow dir path := by
  induction n with
  | zero => rfl
  | succ n ih => rw [List.replicate_succ, List.cons_append, follow_leading, ih]

/-- A path that never goes up stays inside. -/
theorem prefix_follow {path : List Char} (h : ['.', '.'] ∉ path.splitOn '/') (dir : Place) :
    dir <+: follow dir path := by
  rw [follow]
  generalize path.splitOn '/' = comps at h
  induction comps generalizing dir with
  | nil => exact List.prefix_rfl
  | cons comp comps ih =>
      rw [List.mem_cons, not_or] at h
      have hone : dir <+: enter dir comp := by
        rw [enter, if_neg (Ne.symm h.1)]
        split_ifs
        · exact List.prefix_rfl
        · exact List.prefix_append dir [comp]
      exact hone.trans (ih (enter dir comp) h.2)

/-- Only entries are on the way to where a path leads. -/
theorem isEntry_of_mem_follow {dir : Place} (hdir : ∀ c ∈ dir, IsEntry c) (path : List Char) :
    ∀ c ∈ follow dir path, IsEntry c := by
  have hcomps : ∀ c ∈ path.splitOn '/', '/' ∉ c := fun _ => not_mem_of_mem_splitOn
  rw [follow]
  generalize path.splitOn '/' = comps at hcomps
  induction comps generalizing dir with
  | nil => exact hdir
  | cons comp rest ih =>
      rw [List.forall_mem_cons] at hcomps
      refine ih (fun c hc => ?_) hcomps.2
      rw [enter] at hc
      split_ifs at hc with hstay hup
      · exact hdir c hc
      · exact hdir c (List.dropLast_subset dir hc)
      · rcases List.mem_append.mp hc with hc | hc
        · exact hdir c hc
        · rw [not_or] at hstay
          rw [List.mem_singleton.mp hc]
          exact ⟨hcomps.1, hstay.1, hstay.2, hup⟩

theorem isEntry_of_mem_location {p : String} : ∀ c ∈ location p, IsEntry c :=
  isEntry_of_mem_follow (List.forall_mem_nil _) _

/-- Entries written out one after the other are entered one after the other. -/
theorem follow_intercalate (dir : Place) {comps : Place} (h : ∀ c ∈ comps, IsEntry c) :
    follow dir (['/'].intercalate comps) = dir ++ comps := by
  induction comps generalizing dir with
  | nil =>
      rw [List.append_nil]
      rfl
  | cons comp rest ih =>
      rw [List.forall_mem_cons] at h
      have hcomp : follow dir comp = dir ++ [comp] :=
        (follow_of_noSlash h.1.noSlash dir).trans (enter_of_isEntry h.1 dir)
      cases rest with
      | nil =>
          rw [List.intercalate_singleton]
          exact hcomp
      | cons next more =>
          rw [List.intercalate_cons_cons, List.append_assoc, List.singleton_append, follow_slash,
            hcomp, ih _ h.2, List.append_assoc, List.singleton_append]

/-- From the root `normpath` goes the way the path leads. -/
theorem foldl_normStep {dir : Place} (hdir : ∀ c ∈ dir, IsEntry c) {comps : List (List Char)}
    (hcomps : ∀ c ∈ comps, '/' ∉ c) :
    comps.foldl (normStep true) dir = comps.foldl enter dir := by
  induction comps generalizing dir with
  | nil => rfl
  | cons comp rest ih =>
      rw [List.forall_mem_cons] at hcomps
      have hlast : dir.getLast? ≠ some ['.', '.'] := fun h =>
        (hdir _ (List.mem_of_getLast? h)).ne_dots rfl
      have hstep : normStep true dir comp = enter dir comp := by
        rw [normStep, enter]
        by_cases hup : comp = ['.', '.'] <;> simp [hup, hlast]
      rw [List.foldl_cons, List.foldl_cons, hstep]
      apply ih _ hcomps.2
      rw [← follow_of_noSlash hcomps.1]
      exact isEntry_of_mem_follow hdir comp

theorem initialSlashes_cons (rest : List Char) : ∃ n, initialSlashes ('/' :: rest) = n + 1 := by
  rw [initialSlashes.eq_def]
  split
  · exact ⟨0, rfl⟩
  · exact ⟨1, rfl⟩
  · exact ⟨0, rfl⟩
  · rename_i hnone
    exact absurd rfl (hnone rest)

/-- A rooted path is normalised to one or two slashes and the names on its way. -/
theorem normpath_eq {p : String} (h : Rooted p) : ∃ n,
    normpath p =
      String.ofList (List.replicate n '/' ++ '/' :: ['/'].intercalate (location p)) := by
  have hcomps : (p.toList.splitOn '/').foldl (normStep true) [] = location p :=
    foldl_normStep (List.forall_mem_nil _) fun _ => not_mem_of_mem_splitOn
  obtain ⟨n, hn⟩ : ∃ n, initialSlashes p.toList = n + 1 := by
    obtain ⟨rest, hrest⟩ := List.head?_eq_some_iff.mp h
    rw [hrest]
    exact initialSlashes_cons rest
  refine ⟨n, ?_⟩
  rw [normpath, hn, decide_eq_true (Nat.succ_pos n), hcomps, List.replicate_succ',
    List.append_assoc, List.singleton_append]
  exact if_neg (by simp)

/-- Normalising a rooted path does not change where it leads. -/
theorem location_normpath {p : String} (h : Rooted p) : location (normpath p) = location p := by
  obtain ⟨n, hnorm⟩ := normpath_eq h
  rw [location, hnorm, String.toList_ofList, follow_slashes, follow_leading,
    follow_intercalate [] isEntry_of_mem_location]
  rfl

/-- A relative path is followed from where the first one leads. -/
theorem location_joinPath (a : String) {b : String} (h : ¬ Rooted b) :
    location (joinPath a b) = follow (location a) b.toList := by
  have hrelative : ¬ b.toList.head? = some '/' := h
  rw [joinPath, if_neg hrelative]
  split_ifs with hbare
  · rw [location, String.toList_append]
    rcases hbare with hnil | hslash
    · rw [hnil, location, hnil]
      rfl
    · obtain ⟨front, hfront⟩ := List.getLast?_eq_some_iff.mp hslash
      rw [location, hfront, List.append_assoc, List.singleton_append, follow_slash, follow_trailing]
  · have hslash : "/".toList = ['/'] := rfl
    rw [location, String.toList_append, String.toList_append, hslash, List.append_assoc,
      List.singleton_append, follow_slash]
    rfl

theorem rooted_joinPath {a : String} (h : Rooted a) (b : String) : Rooted (joinPath a b) := by
  obtain ⟨rest, hrest⟩ := List.head?_eq_some_iff.mp h
  rw [joinPath]
  split_ifs with hb
  · exact hb
  · rw [Rooted, String.toList_append, hrest]
    rfl
  · rw [Rooted, String.toList_append, String.toList_append, hrest]
    rfl

/-- An absolute path is a rooted one, normalised. -/
theorem abspath_eq_normpath {cwd : String} (h : Rooted cwd) (p : String) :
    ∃ q, Rooted q ∧ abspath cwd p = normpath q := by
  rw [abspath]
  split_ifs with hp
  · exact ⟨p, hp, rfl⟩
  · exact ⟨joinPath cwd p, rooted_joinPath h p, rfl⟩

/-- Stripping trailing slashes does not change where a path leads. -/
theorem location_stripSlashes (back : List Char) :
    location (String.ofList (back.dropWhile (· == '/')).reverse) =
      location (String.ofList back.reverse) := by
  induction back with
  | nil => rfl
  | cons c rest ih =>
      by_cases hc : c = '/'
      · rw [List.dropWhile_cons_of_pos (by rw [hc]; rfl), ih, location, location,
          String.toList_ofList, String.toList_ofList, List.reverse_cons, hc, follow_trailing]
      · rw [List.dropWhile_cons_of_neg (by simpa using hc)]

/-- The directory of a path is where it leads without its last component. -/
theorem location_dirname_of_split {front comp : List Char} (h : '/' ∉ comp) :
    location (dirname (String.ofList (front ++ '/' :: comp))) =
      location (String.ofList front) := by
  have hhead : ((front ++ '/' :: comp).reverse.dropWhile (· != '/')).reverse = front ++ ['/'] := by
    rw [List.reverse_append, List.reverse_cons, List.append_assoc, List.singleton_append,
      List.dropWhile_append_of_pos]
    · rw [List.dropWhile_cons_of_neg (by decide), List.reverse_cons, List.reverse_reverse]
    · intro c hc
      have hne : c ≠ '/' := fun heq => h (heq ▸ List.mem_reverse.mp hc)
      simpa using hne
  have hfront : location (String.ofList (front ++ ['/'])) = location (String.ofList front) := by
    rw [location, location, String.toList_ofList, String.toList_ofList, follow_trailing]
  rw [dirname, String.toList_ofList, hhead]
  split_ifs
  · exact hfront
  · rw [location_stripSlashes, List.reverse_reverse, hfront]

/-- The last of several names written out stands behind a slash. -/
theorem intercalate_concat (dir : Place) (comp : List Char) : ∃ front,
    '/' :: ['/'].intercalate (dir ++ [comp]) = front ++ '/' :: comp := by
  induction dir with
  | nil => exact ⟨[], by simp⟩
  | cons name rest ih =>
      obtain ⟨front, hfront⟩ := ih
      refine ⟨'/' :: name ++ front, ?_⟩
      rw [List.cons_append, List.intercalate_cons_of_ne_nil (by simp), List.append_assoc,
        List.singleton_append, hfront, List.cons_append, List.cons_append, List.append_assoc]

/-- The directory of an absolute path is the one above it. -/
theorem location_dirname_abspath {cwd : String} (h : Rooted cwd) (p : String) :
    location (dirname (abspath cwd p)) = (location (abspath cwd p)).dropLast := by
  obtain ⟨q, hq, habs⟩ := abspath_eq_normpath h p
  obtain ⟨n, hnorm⟩ := normpath_eq hq
  have hplace := location_normpath hq
  have hentries := isEntry_of_mem_location (p := q)
  rw [hnorm] at hplace
  rw [habs, hnorm, hplace]
  rcases List.eq_nil_or_concat (location q) with hroot | ⟨dir, comp, hdir⟩
  · have hslashes := follow_slashes [] n []
    rw [List.append_nil] at hslashes
    rw [hroot, List.intercalate_nil, location_dirname_of_split (List.not_mem_nil), location,
      String.toList_ofList, hslashes]
    rfl
  · rw [List.concat_eq_append] at hdir
    rw [hdir, List.forall_mem_append, List.forall_mem_singleton] at hentries
    obtain ⟨front, hfront⟩ := intercalate_concat dir comp
    rw [hdir, hfront, ← List.append_assoc] at hplace
    rw [hdir, hfront, ← List.append_assoc, location_dirname_of_split hentries.2.noSlash,
      List.dropLast_concat]
    rw [location, String.toList_ofList, follow_slash, follow_of_noSlash hentries.2.noSlash,
      enter_of_isEntry hentries.2] at hplace
    rw [location, String.toList_ofList]
    exact (List.append_inj' hplace rfl).1

/-- Where a path leads from the working directory `cwd`. -/
def placeFrom (cwd p : String) : Place := location (joinPath cwd p)

/-- `os.path.realpath(p)` when no component is a symbolic link. -/
def realpath (cwd p : String) : String :=
  String.ofList ('/' :: ['/'].intercalate (placeFrom cwd p))

theorem placeFrom_of_rooted {p : String} (h : Rooted p) (cwd : String) :
    placeFrom cwd p = location p := by
  have hrooted : p.toList.head? = some '/' := h
  rw [placeFrom, joinPath, if_pos hrooted]

/-- A relative path without detours: first some ways up, then some names. -/
structure Route where
  ups : ℕ
  names : Place
  deriving DecidableEq

namespace Route

/-- Going on by one component. -/
def enter (r : Route) (comp : List Char) : Route :=
  if comp = [] ∨ comp = ['.'] then r
  else if comp = ['.', '.'] then
    if r.names = [] then ⟨r.ups + 1, []⟩ else ⟨r.ups, r.names.dropLast⟩
  else ⟨r.ups, r.names ++ [comp]⟩

/-- Where the route leads. -/
def leadsTo (r : Route) (dir : Place) : Place := dir.take (dir.length - r.ups) ++ r.names

theorem leadsTo_enter (r : Route) (dir : Place) (comp : List Char) :
    (r.enter comp).leadsTo dir = Python.enter (r.leadsTo dir) comp := by
  rw [enter, Python.enter]
  split_ifs with hstay hup hnames
  · rfl
  · rw [leadsTo, leadsTo, hnames, List.append_nil, List.append_nil, List.dropLast_eq_take,
      List.take_take, List.length_take]
    dsimp only
    congr 1
    omega
  · rw [leadsTo, leadsTo, List.dropLast_append_of_ne_nil hnames]
  · rw [leadsTo, leadsTo, List.append_assoc]

/-- A route leads below the directory it starts from exactly if its names go back the way
it came up. -/
theorem leadsTo_eq_append_iff {r : Route} {dir more : Place} :
    r.leadsTo dir = dir ++ more ↔ r.names = dir.drop (dir.length - r.ups) ++ more := by
  have hsplit := (List.take_append_drop (dir.length - r.ups) dir).symm
  apply Iff.intro
  · intro h
    nth_rewrite 2 [hsplit] at h
    rw [leadsTo, List.append_assoc] at h
    exact List.append_cancel_left h
  · intro h
    rw [leadsTo, h, ← List.append_assoc, List.take_append_drop]

end Route

/-- The route along a relative path. -/
def route (path : List Char) : Route := (path.splitOn '/').foldl Route.enter ⟨0, []⟩

example : route "a/../../b//./c".toList = ⟨1, ["b".toList, "c".toList]⟩ := by decide

/-- A path leads where its route does. -/
theorem follow_eq_leadsTo (dir : Place) (path : List Char) :
    follow dir path = (route path).leadsTo dir := by
  have hfold : ∀ (comps : List (List Char)) (r : Route),
      comps.foldl enter (r.leadsTo dir) = (comps.foldl Route.enter r).leadsTo dir := by
    intro comps
    induction comps with
    | nil => exact fun _ => rfl
    | cons comp rest ih =>
        intro r
        rw [List.foldl_cons, List.foldl_cons, ← Route.leadsTo_enter, ih]
  have hstart : (⟨0, []⟩ : Route).leadsTo dir = dir := by simp [Route.leadsTo]
  rw [follow, route, ← hfold, hstart]

end StateBenchmarks.Python
