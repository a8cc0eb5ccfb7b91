/-
# What the commands of a text do to files

A running command changes files one step at a time, any step may fail, and other
processes look at the files in between.  So a run is related to all the files it leaves
behind it on its way: what holds of each of them holds whenever anyone looks, also when
the run is killed.

Only the utilities of a file that is written beside its place and then moved are here.
`printf` may write in as many pieces as it likes; `mv` within a directory is one step.
-/

import StateBenchmarks.Shell.Words

namespace StateBenchmarks.Shell

/-- The contents of the files, by path. -/
abbrev Files := String → Option String

namespace Files

def write (files : Files) (path content : String) : Files := fun p =>
  if p = path then some content else files p

def rename (files : Files) (source target : String) : Files := fun p =>
  if p = target then files source else if p = source then none else files p

theorem write_of_ne (files : Files) {path p : String} (content : String) (h : p ≠ path) :
    files.write path content p = files p := by
  rw [write, if_neg h]

@[simp]
theorem write_self (files : Files) (path content : String) :
    files.write path content path = some content := by
  rw [write, if_pos rfl]

@[simp]
theorem rename_target (files : Files) (source target : String) :
    files.rename source target target = files source := by
  rw [rename, if_pos rfl]

theorem rename_of_ne (files : Files) {source target p : String} (htarget : p ≠ target)
    (hsource : p ≠ source) : files.rename source target p = files p := by
  rw [rename, if_neg htarget, if_neg hsource]

end Files

/-- What a simple command runs, and where its output goes. -/
structure Action where
  argv : List String
  target : Option String
  deriving DecidableEq

def Simple.action (command : Simple) : Option Action :=
  command.argv.map fun argv => ⟨argv, command.target.map Word.text⟩

/-- An action takes the files from one state through others to the last, and succeeds or
fails.  The last state is among those it goes through. -/
inductive Performs : Action → Files → List Files → Files → Bool → Prop where
  | mkdir (dir : String) (files : Files) (ok : Bool) :
      Performs ⟨["mkdir", "-p", dir], none⟩ files [files] files ok
  /-- The target cannot be opened. -/
  | unopened (argv : List String) (path : String) (files : Files) :
      Performs ⟨argv, some path⟩ files [files] files false
  | printf (content path : String) (files : Files) (pieces : List String) :
      Performs ⟨["printf", "%s", content], some path⟩ files
        ((("" :: pieces) ++ [content]).map (files.write path)) (files.write path content) true
  /-- The disk is full, or the shell is stopped. -/
  | printfFails (content path : String) (files : Files) (pieces : List String) (last : String) :
      Performs ⟨["printf", "%s", content], some path⟩ files
        ((("" :: pieces) ++ [last]).map (files.write path)) (files.write path last) false
  | mv (source target : String) (files : Files) (hsource : (files source).isSome) :
      Performs ⟨["mv", source, target], none⟩ files [files.rename source target]
        (files.rename source target) true
  | unmoved (source target : String) (files : Files) :
      Performs ⟨["mv", source, target], none⟩ files [files] files false

namespace Performs

variable {files files' : Files} {seen : List Files} {ok : Bool}

theorem of_mkdir {dir : String} (h : Performs ⟨["mkdir", "-p", dir], none⟩ files seen files' ok) :
    seen = [files] ∧ files' = files := by
  generalize haction : (⟨["mkdir", "-p", dir], none⟩ : Action) = action at h
  cases h with
  | mkdir => exact ⟨rfl, rfl⟩
  | unopened => simp at haction
  | printf => simp at haction
  | printfFails => simp at haction
  | mv => simp at haction
  | unmoved => simp at haction

/-- Only the target is written, and all of it when nothing fails. -/
theorem of_printf {content path : String}
    (h : Performs ⟨["printf", "%s", content], some path⟩ files seen files' ok) :
    (∀ now ∈ files' :: seen, ∀ p, p ≠ path → now p = files p) ∧
      (ok = true → files' path = some content) := by
  have hwrites (pieces : List String) (last : String) :
      ∀ now ∈ files.write path last :: pieces.map (files.write path),
        ∀ p, p ≠ path → now p = files p := by
    rw [← List.map_cons (f := files.write path)]
    intro now hnow p hp
    obtain ⟨piece, -, rfl⟩ := List.mem_map.mp hnow
    exact Files.write_of_ne files piece hp
  generalize haction : (⟨["printf", "%s", content], some path⟩ : Action) = action at h
  cases h with
  | mkdir => simp at haction
  | unopened argv target =>
      exact ⟨by simp, by simp⟩
  | printf content' path' _ pieces =>
      simp only [Action.mk.injEq, List.cons.injEq, Option.some_inj, true_and, and_true] at haction
      rw [← haction.1, ← haction.2]
      exact ⟨hwrites _ _, fun _ => Files.write_self files path content⟩
  | printfFails content' path' _ pieces last =>
      simp only [Action.mk.injEq, List.cons.injEq, Option.some_inj, true_and, and_true] at haction
      rw [← haction.2]
      exact ⟨hwrites _ _, by simp⟩
  | mv => simp at haction
  | unmoved => simp at haction

theorem of_mv {source target : String}
    (h : Performs ⟨["mv", source, target], none⟩ files seen files' ok) :
    seen = [files'] ∧ files' = if ok then files.rename source target else files := by
  generalize haction : (⟨["mv", source, target], none⟩ : Action) = action at h
  cases h with
  | mkdir => simp at haction
  | unopened => simp at haction
  | printf => simp at haction
  | printfFails => simp at haction
  | mv =>
      simp only [Action.mk.injEq, List.cons.injEq, true_and, and_true] at haction
      rw [haction.1, haction.2]
      exact ⟨rfl, rfl⟩
  | unmoved => exact ⟨rfl, rfl⟩

end Performs

/-- Actions joined by `&&`: the first failure ends them. -/
inductive AndList : List Action → Files → List Files → Files → Bool → Prop where
  | nil (files : Files) : AndList [] files [] files true
  | stop {action : Action} {rest : List Action} {files files' : Files} {seen : List Files}
      (h : Performs action files seen files' false) :
      AndList (action :: rest) files seen files' false
  | next {action : Action} {rest : List Action} {files files' files'' : Files}
      {seen seen' : List Files} {ok : Bool} (h : Performs action files seen files' true)
      (hrest : AndList rest files' seen' files'' ok) :
      AndList (action :: rest) files (seen ++ seen') files'' ok

/-- A run of a text by a shell. -/
def Executes (text : String) (files : Files) (seen : List Files) (files' : Files) (ok : Bool) :
    Prop :=
  ∃ actions, (commands text).bind (fun cs => cs.mapM Simple.action) = some actions ∧
    AndList actions files seen files' ok

/-- The actions that write a file beside its place and move it there. -/
def publishing (dir content beside path : String) : List Action :=
  [⟨["mkdir", "-p", dir], none⟩, ⟨["printf", "%s", content], some beside⟩,
    ⟨["mv", beside, path], none⟩]

/-- The states of a run that replaces a file whole or leaves it alone. -/
structure Published (content beside path : String) (files : Files) (seen : List Files)
    (files' : Files) (ok : Bool) : Prop where
  /-- The file is as it was, or all of the new one is there. -/
  whole : ∀ now ∈ seen, now path = files path ∨ ok = true ∧ now path = some content
  final : files' path = if ok then some content else files path
  others : ∀ now ∈ files' :: seen, ∀ p, p ≠ path → p ≠ beside → now p = files p

section Publishing

variable {content beside path : String} {files files' : Files} {seen : List Files} {ok : Bool}

/-- A run that touches nothing but the file beside publishes nothing. -/
theorem published_of_untouched (hne : path ≠ beside)
    (h : ∀ now ∈ files' :: seen, ∀ p, p ≠ beside → now p = files p) :
    Published content beside path files seen files' false where
  whole now hnow := .inl (h now (.tail _ hnow) path hne)
  final := h files' (.head _) path hne
  others now hnow p _ hp := h now hnow p hp

/-- What comes before may touch the file beside. -/
theorem Published.after {start : Files} {earlier : List Files} (hne : path ≠ beside)
    (h : ∀ now ∈ files :: earlier, ∀ p, p ≠ beside → now p = start p)
    (hpublished : Published content beside path files seen files' ok) :
    Published content beside path start (earlier ++ seen) files' ok := by
  have hstart : ∀ p, p ≠ beside → files p = start p := h files (.head _)
  constructor
  · intro now hnow
    cases List.mem_append.mp hnow with
    | inl hnow => exact .inl (h now (.tail _ hnow) path hne)
    | inr hnow => exact hstart path hne ▸ hpublished.whole now hnow
  · exact hstart path hne ▸ hpublished.final
  · intro now hnow p hp hbeside
    rw [← List.cons_append, List.mem_append, List.mem_cons, or_assoc, or_left_comm,
      ← List.mem_cons] at hnow
    cases hnow with
    | inl hnow => exact h now (.tail _ hnow) p hbeside
    | inr hnow => exact (hpublished.others now hnow p hp hbeside).trans (hstart p hbeside)

/-- Moving a file that holds the whole content. -/
theorem published_of_moving (hne : path ≠ beside) (hwhole : files beside = some content)
    (h : AndList [⟨["mv", beside, path], none⟩] files seen files' ok) :
    Published content beside path files seen files' ok := by
  cases h with
  | stop h =>
      obtain ⟨rfl, rfl⟩ := h.of_mv
      exact published_of_untouched hne (by simp)
  | next h hrest =>
      cases hrest
      obtain ⟨rfl, rfl⟩ := h.of_mv
      have hpath : files.rename beside path path = some content := by
        rw [Files.rename_target, hwhole]
      constructor
      · intro now hnow
        rw [List.append_nil, List.mem_singleton] at hnow
        exact .inr ⟨rfl, hnow ▸ hpath⟩
      · exact hpath
      · intro now hnow p hp hbeside
        rw [List.append_nil, List.mem_cons, List.mem_singleton, or_self] at hnow
        exact hnow ▸ Files.rename_of_ne files hp hbeside

/-- **A file that is written beside its place and moved there is never seen half.** -/
theorem published_of_publishing {dir : String} (hne : path ≠ beside)
    (h : AndList (publishing dir content beside path) files seen files' ok) :
    Published content beside path files seen files' ok := by
  cases h with
  | stop h =>
      obtain ⟨rfl, rfl⟩ := h.of_mkdir
      exact published_of_untouched hne (by simp)
  | @next _ _ _ made _ _ later _ hmkdir h =>
      obtain ⟨rfl, rfl⟩ := hmkdir.of_mkdir
      have hpublished : Published content beside path made later files' ok := by
        cases h with
        | stop h => exact published_of_untouched hne h.of_printf.1
        | next h hmove =>
            exact .after hne h.of_printf.1 (published_of_moving hne (h.of_printf.2 rfl) hmove)
      exact .after hne (by simp) hpublished

end Publishing

end StateBenchmarks.Shell
