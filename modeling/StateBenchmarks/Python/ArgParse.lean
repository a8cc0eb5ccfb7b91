/-
# `argparse`, for options and one subcommand

The parser goes over the words of a command line once.  A word that names an option, in
full or abbreviated, takes the next word for its value, unless that word looks like an
option itself.  The first word left over is the subcommand, and the words after it are for
the parser of that subcommand.  How a word looks depends on who reads it.

Every end of the process by `argparse`, a usage error or the help, is `none` here.  A `--`
is read only where it is refused, for a value.
-/

import StateBenchmarks.Python.JsonRoundTrip
import Mathlib.Data.List.TakeWhile

namespace StateBenchmarks.Python

/-- The `type` of an option. -/
inductive ArgType where
  | str
  | int
  | float

/-- An attribute of a namespace. -/
inductive ArgValue where
  | none
  | bool (b : Bool)
  | int (n : ℤ)
  | float (q : ℚ)
  | str (s : String)

/-- What naming an option does. -/
inductive ArgAction where
  | store (type : ArgType)
  | storeTrue

/-- A long option, by its name without the dashes. -/
structure Opt where
  name : String
  action : ArgAction := .store .str
  required : Bool := false
  default : ArgValue := .none

namespace Opt

def flag (o : Opt) : String := "--" ++ o.name

/-- The attribute it sets. -/
def dest (o : Opt) : String :=
  String.ofList (o.name.toList.map fun c => if c = '-' then '_' else c)

end Opt

/-- How a word looks. -/
inductive Look where
  | argument
  /-- An option, with the value behind its `=`. -/
  | option (o : Opt) (explicit : Option String)
  /-- The help, or an option that is unknown or ambiguous. -/
  | refused

def Look.isArgument : Look → Bool
  | .argument => true
  | _ => false

/-- An `ArgumentParser`.  Two options of one name are a conflict, and the parser has one for
its help. -/
structure ArgumentParser where
  options : List Opt
  distinct : ("help" :: options.map Opt.name).Nodup
  named : ∀ o ∈ options, o.name ≠ ""

/-- `-[0-9]+` or `-[0-9]*.[0-9]+`, before at most one newline. -/
def looksNegative (cs : List Char) : Bool :=
  match cs with
  | '-' :: rest =>
      let body := if ['\n'].isSuffixOf rest then rest.dropLast else rest
      let whole := body.takeWhile Char.isDigit
      match body.dropWhile Char.isDigit with
      | [] => whole != []
      | '.' :: fraction => fraction != [] && fraction.all Char.isDigit
      | _ => false
  | _ => false

/-- What stands before and behind the first `=`. -/
def assigned (cs : List Char) : Option (List Char × List Char) :=
  if '=' ∈ cs then some (cs.takeWhile (· != '='), (cs.dropWhile (· != '=')).tail) else none

namespace ArgumentParser

variable (p : ArgumentParser)

/-- The flags there are, those of the help without an option. -/
def flags : Dict (Option Opt) :=
  ("-h", none) :: ("--help", none) :: p.options.map fun o => (o.flag, some o)

/-- A word that names a flag. -/
def naming (found : Option Opt) (explicit : Option String) : Look :=
  match found with
  | some o => .option o explicit
  | none => .refused

/-- `_get_option_tuples`: the flags a word may be short for, with what is left of it. -/
def abbreviated (cs : List Char) : List Look :=
  match cs with
  | '-' :: '-' :: _ =>
      let front := ((assigned cs).map Prod.fst).getD cs
      let explicit := (assigned cs).map fun parts => String.ofList parts.2
      (p.flags.filter fun entry => front.isPrefixOf entry.1.toList).map
        fun entry => naming entry.2 explicit
  | '-' :: c :: rest =>
      p.flags.filterMap fun entry =>
        if entry.1.toList = ['-', c] then some (naming entry.2 (some (String.ofList rest)))
        else if cs.isPrefixOf entry.1.toList then some (naming entry.2 none)
        else none
  | _ => []

/-- `_parse_optional`. -/
def look (s : String) : Look :=
  let cs := s.toList
  if cs.head? ≠ some '-' then .argument
  else if cs = ['-', '-'] then .refused
  else
    match p.flags.get? s with
    | some found => naming found none
    | none =>
        if cs = ['-'] then .argument
        else
          match (assigned cs).bind fun (front, value) =>
              (p.flags.get? (String.ofList front)).map fun found =>
                naming found (some (String.ofList value)) with
          | some named => named
          | none =>
              match p.abbreviated cs with
              | [named] => named
              | _ :: _ :: _ => .refused
              | [] =>
                  -- no flag of the parser looks like a negative number
                  if looksNegative cs || cs.contains ' ' then .argument else .refused

end ArgumentParser

/-- `type(text)`. -/
def ArgType.convert (numbers : NumberText) (type : ArgType) (text : String) : Option ArgValue :=
  match type with
  | .str => some (.str text)
  | .int => (numbers.int text).map .int
  | .float => (numbers.float text).map .float

namespace ArgumentParser

variable (numbers : NumberText) (p : ArgumentParser)

/-- The values given before the first word that is left over, and what is left over. -/
def readOptions : List String → Dict ArgValue → Option (Dict ArgValue × List String)
  | [], given => some (given, [])
  | s :: rest, given =>
      match p.look s with
      | .argument => some (given, s :: rest)
      | .refused => none
      | .option o (some text) =>
          match o.action with
          | .storeTrue => none
          | .store type =>
              match type.convert numbers text with
              | some value => readOptions rest (given.set o.dest value)
              | none => none
      | .option o none =>
          match o.action, rest with
          | .storeTrue, rest => readOptions rest (given.set o.dest (.bool true))
          | .store _, [] => none
          | .store type, text :: rest =>
              if (p.look text).isArgument then
                match type.convert numbers text with
                | some value => readOptions rest (given.set o.dest value)
                | none => none
              else none

/-- The namespace, once the required options are there. -/
def finish (given : Dict ArgValue) : Option (Dict ArgValue) :=
  if p.options.all fun o => !o.required || (given.get? o.dest).isSome then
    some (Dict.update (p.options.map fun o => (o.dest, o.default)) given)
  else none

/-- `parse_args` of a parser without positionals. -/
def parse (words : List String) : Option (Dict ArgValue) := do
  let (given, rest) ← p.readOptions numbers words []
  if rest = [] then p.finish given else none

end ArgumentParser

/-- A parser with `add_subparsers(dest=…, required=True)`. -/
structure CommandParser where
  main : ArgumentParser
  dest : String
  commands : List (String × ArgumentParser)

/-- `parse_args`. -/
def CommandParser.parse (p : CommandParser) (numbers : NumberText) (words : List String) :
    Option (Dict ArgValue) := do
  let (given, rest) ← p.main.readOptions numbers words []
  match rest with
  | [] => none
  | name :: rest =>
      let command ← p.commands.lookup name
      let own ← command.parse numbers rest
      let given ← p.main.finish given
      return (given.set p.dest (.str name)).update own

/-! ## How words look -/

namespace ArgumentParser

variable {p : ArgumentParser} {o : Opt}

/-- No flag is there twice. -/
theorem nodup_flags (p : ArgumentParser) : (p.flags.map Prod.fst).Nodup := by
  have hflags : p.flags.map Prod.fst =
      "-h" :: ("help" :: p.options.map Opt.name).map ("--" ++ ·) := by
    rw [flags, List.map_cons, List.map_cons, List.map_cons, List.map_map, List.map_map]
    rfl
  have hshort : "-h" ∉ ("help" :: p.options.map Opt.name).map ("--" ++ ·) := by
    intro hmem
    obtain ⟨name, -, hname⟩ := List.mem_map.mp hmem
    have hlist := congrArg String.toList hname
    simp at hlist
  rw [hflags, List.nodup_cons]
  refine ⟨hshort, p.distinct.map fun first second heq => ?_⟩
  have hlist := congrArg String.toList heq
  rw [String.toList_append, String.toList_append] at hlist
  exact String.toList_inj.mp (List.append_cancel_left hlist)

/-- A flag of the parser looks like its option. -/
theorem look_flag (h : o ∈ p.options) : p.look o.flag = .option o none := by
  have hlist : o.flag.toList = '-' :: '-' :: o.name.toList := by
    rw [Opt.flag, String.toList_append]
    rfl
  have hname : o.name.toList ≠ [] := by simpa using p.named o h
  have hentry : (o.flag, some o) ∈ p.flags :=
    List.mem_cons_of_mem _ (List.mem_cons_of_mem _ (List.mem_map_of_mem h))
  have hfound : p.flags.get? o.flag = some (some o) :=
    (Dict.get?_eq_some_iff p.nodup_flags).mpr hentry
  rw [look, hfound, hlist, if_neg (by simp), if_neg (by simpa using hname)]
  rfl

/-- A word without a dash in front is an argument. -/
theorem look_plain {s : String} (h : s.toList.head? ≠ some '-') : p.look s = .argument := by
  rw [look, if_pos h]

/-- Every flag has a dash, or an `h`, behind its first dash. -/
theorem second_of_flag {entry : String × Option Opt} (h : entry ∈ p.flags) :
    ∃ c rest, entry.1.toList = '-' :: c :: rest ∧ c.isDigit = false := by
  rw [flags, List.mem_cons, List.mem_cons, List.mem_map] at h
  rcases h with rfl | rfl | ⟨o, -, rfl⟩
  · exact ⟨'h', [], rfl, rfl⟩
  · exact ⟨'-', "help".toList, rfl, rfl⟩
  · refine ⟨'-', o.name.toList, ?_, rfl⟩
    rw [Opt.flag, String.toList_append]
    rfl

theorem looksNegative_digits {cs : List Char} (hne : cs ≠ []) (h : ∀ c ∈ cs, c.isDigit = true) :
    looksNegative ('-' :: cs) = true := by
  have hline : ['\n'].isSuffixOf cs = false := by
    rw [Bool.eq_false_iff, ne_eq, List.isSuffixOf_iff_suffix]
    intro hsuffix
    have hnewline := h '\n' (hsuffix.subset List.mem_cons_self)
    exact absurd hnewline (by decide)
  have htake : cs.takeWhile Char.isDigit = cs := List.takeWhile_eq_self_iff.mpr h
  have hdrop : cs.dropWhile Char.isDigit = [] := List.dropWhile_eq_nil_iff.mpr h
  simp [looksNegative, hline, htake, hdrop, hne]

/-- So is a negative integer: no flag begins like one. -/
theorem look_digits (p : ArgumentParser) {c : Char} {cs : List Char}
    (h : ∀ d ∈ c :: cs, d.isDigit = true) :
    p.look (String.ofList ('-' :: c :: cs)) = .argument := by
  have hc := h c List.mem_cons_self
  have hnot : ∀ d, d.isDigit = false → d ∉ c :: cs := fun d hd hmem =>
    absurd (h d hmem) (by simp [hd])
  have hother : ∀ entry ∈ p.flags, ∀ rest, entry.1.toList ≠ '-' :: c :: rest := by
    intro entry hentry rest heq
    obtain ⟨d, tail, hlist, hd⟩ := second_of_flag hentry
    rw [heq] at hlist
    injection hlist with _ hlist
    injection hlist with hcd
    rw [hcd, hd] at hc
    exact Bool.false_ne_true hc
  have hunnamed : p.flags.get? (String.ofList ('-' :: c :: cs)) = none := by
    rw [Dict.get?, List.lookup_eq_none_iff]
    intro entry hentry
    rw [bne_iff_ne]
    intro heq
    exact hother entry hentry cs (by rw [← heq, String.toList_ofList])
  have hassigned : assigned ('-' :: c :: cs) = none := by
    rw [assigned, if_neg]
    rw [List.mem_cons, not_or]
    exact ⟨by decide, hnot '=' (by decide)⟩
  have habbreviated : p.abbreviated ('-' :: c :: cs) = [] := by
    have hdash : c ≠ '-' := fun heq => hnot '-' (by decide) (heq ▸ List.mem_cons_self)
    rw [abbreviated, List.filterMap_eq_nil_iff]
    · intro entry hentry
      rw [if_neg (hother entry hentry []), if_neg]
      rw [List.isPrefixOf_iff_prefix]
      rintro ⟨tail, htail⟩
      exact hother entry hentry (cs ++ tail) htail.symm
    · exact hdash
  rw [look, String.toList_ofList, if_neg (by simp), if_neg, hunnamed, if_neg (by simp), hassigned]
  · show (match p.abbreviated ('-' :: c :: cs) with
      | [named] => named
      | _ :: _ :: _ => .refused
      | [] => _) = _
    rw [habbreviated, looksNegative_digits (List.cons_ne_nil c cs) h]
    rfl
  · intro heq
    injection heq with _ heq
    injection heq with heq
    exact hnot '-' (by decide) (heq ▸ List.mem_cons_self)

/-- So is an integer, whatever its sign. -/
theorem look_intText (p : ArgumentParser) (n : ℤ) :
    p.look (String.ofList (JsonText.intText n)) = .argument := by
  cases n with
  | ofNat n =>
      apply look_plain
      rw [String.toList_ofList, JsonText.intText]
      intro hhead
      have hdash := JsonText.isDigit_decimalDigits '-' (List.mem_of_head? hhead)
      exact absurd hdash (by decide)
  | negSucc n =>
      rw [JsonText.intText]
      cases hdigits : JsonText.decimalDigits (n + 1) with
      | nil => exact absurd hdigits (JsonText.decimalDigits_ne_nil (n + 1))
      | cons c cs => exact p.look_digits (hdigits ▸ JsonText.isDigit_decimalDigits)

end ArgumentParser

/-- Options with their values, as words. -/
def spelled (given : List (Opt × String)) : List String :=
  given.flatMap fun g => [g.1.flag, g.2]

namespace ArgumentParser

variable {numbers : NumberText} {p : ArgumentParser}

/-- The parser takes the text for a value of the option. -/
structure Takes (numbers : NumberText) (p : ArgumentParser) (g : Opt × String) (v : ArgValue) :
    Prop where
  argument : p.look g.2 = .argument
  converts : ∃ type, g.1.action = .store type ∧ type.convert numbers g.2 = some v

theorem takes_iff {g : Opt × String} {type : ArgType} (h : g.1.action = .store type)
    {v : ArgValue} :
    p.Takes numbers g v ↔ p.look g.2 = .argument ∧ type.convert numbers g.2 = some v := by
  apply Iff.intro
  · rintro ⟨hlook, type', haction, hconvert⟩
    rw [h] at haction
    cases haction
    exact ⟨hlook, hconvert⟩
  · rintro ⟨hlook, hconvert⟩
    exact ⟨hlook, type, h, hconvert⟩

/-- Options that are written out are read exactly where the parser takes each value. -/
theorem readOptions_spelled_iff {pairs : List (Opt × String)}
    (h : ∀ g ∈ pairs, g.1 ∈ p.options ∧ ∃ type, g.1.action = .store type) {rest : List String}
    {given : Dict ArgValue} {r : Dict ArgValue × List String} :
    p.readOptions numbers (spelled pairs ++ rest) given = some r ↔
      ∃ values, List.Forall₂ (p.Takes numbers) pairs values ∧
        p.readOptions numbers rest
          (given.update ((pairs.map fun g => g.1.dest).zip values)) = some r := by
  induction pairs generalizing given with
  | nil => simp [spelled, Dict.update]
  | cons g pairs ih =>
      rw [List.forall_mem_cons] at h
      obtain ⟨⟨hoption, type, hstore⟩, hrest⟩ := h
      have hwords : spelled (g :: pairs) ++ rest = g.1.flag :: g.2 :: (spelled pairs ++ rest) := rfl
      rw [hwords, readOptions, look_flag hoption]
      simp only [hstore, List.forall₂_cons_left_iff, takes_iff hstore]
      cases hlook : p.look g.2 with
      | option o explicit => simp [Look.isArgument]
      | refused => simp [Look.isArgument]
      | argument =>
          cases hvalue : type.convert numbers g.2 with
          | none => simp [Look.isArgument]
          | some value =>
              simp only [Look.isArgument, if_true, ih hrest]
              apply Iff.intro
              · rintro ⟨values, hvalues, hread⟩
                exact ⟨value :: values, ⟨value, values, ⟨trivial, rfl⟩, hvalues, rfl⟩, hread⟩
              · rintro ⟨-, ⟨taken, values, ⟨-, heq⟩, hvalues, rfl⟩, hread⟩
                cases heq
                exact ⟨values, hvalues, hread⟩

/-- The namespace of options that were given values. -/
def assembled (p : ArgumentParser) (pairs : List (Opt × String)) (values : List ArgValue) :
    Dict ArgValue :=
  Dict.update (p.options.map fun o => (o.dest, o.default))
    (Dict.update [] ((pairs.map fun g => g.1.dest).zip values))

/-- An attribute is what was given for it last, or the default. -/
theorem get?_assembled (p : ArgumentParser) (pairs : List (Opt × String))
    (values : List ArgValue) (key : String) :
    (p.assembled pairs values).get? key =
      (lastSet ((pairs.map fun g => g.1.dest).zip values) key).or
        (Dict.get? (p.options.map fun o => (o.dest, o.default)) key) := by
  have hnodup : ((Dict.update [] ((pairs.map fun g => g.1.dest).zip values)).map Prod.fst).Nodup :=
    Dict.nodup_update [] _ List.nodup_nil
  rw [assembled, Dict.get?_update, lastSet_eq_get? _ _ hnodup, Dict.get?_update]
  congr 1
  exact Option.or_none

/-- A name that no option sets is not there. -/
theorem get?_assembled_of_not_mem {pairs : List (Opt × String)}
    (h : ∀ g ∈ pairs, g.1 ∈ p.options) (values : List ArgValue) {key : String}
    (hkey : key ∉ p.options.map Opt.dest) : (p.assembled pairs values).get? key = none := by
  have hgiven : lastSet ((pairs.map fun g => g.1.dest).zip values) key = none := by
    rw [lastSet, List.lookup_eq_none_iff]
    intro entry hentry
    rw [bne_iff_ne]
    rintro rfl
    obtain ⟨g, hg, hdest⟩ :=
      List.mem_map.mp (List.of_mem_zip (List.mem_reverse.mp hentry)).1
    exact hkey (List.mem_map.mpr ⟨g.1, h g hg, hdest⟩)
  have hdefault : Dict.get? (p.options.map fun o => (o.dest, o.default)) key = none := by
    rw [Dict.get?, List.lookup_eq_none_iff]
    intro entry hentry
    rw [bne_iff_ne]
    rintro rfl
    obtain ⟨o, ho, rfl⟩ := List.mem_map.mp hentry
    exact hkey (List.mem_map_of_mem ho)
  rw [get?_assembled, hgiven, hdefault]
  rfl

/-- The required options are among those given. -/
def Complete (p : ArgumentParser) (pairs : List (Opt × String)) : Prop :=
  ∀ o ∈ p.options, o.required = true → o ∈ pairs.map Prod.fst

theorem finish_update {pairs : List (Opt × String)} {values : List ArgValue}
    (h : p.Complete pairs) (hvalues : List.Forall₂ (p.Takes numbers) pairs values) :
    p.finish (Dict.update [] ((pairs.map fun g => g.1.dest).zip values)) =
      some (p.assembled pairs values) := by
  rw [finish, if_pos, assembled]
  rw [List.all_eq_true]
  intro o ho
  cases hrequired : o.required with
  | false => rfl
  | true =>
      have hlength : (pairs.map fun g => g.1.dest).length ≤ values.length := by
        rw [List.length_map, hvalues.length_eq]
      have hmem : o.dest ∈ ((pairs.map fun g => g.1.dest).zip values).map Prod.fst := by
        rw [List.map_fst_zip hlength]
        obtain ⟨g, hg, rfl⟩ := List.mem_map.mp (h o ho hrequired)
        exact List.mem_map.mpr ⟨g, hg, rfl⟩
      obtain ⟨value, hvalue⟩ := exists_lastSet hmem
      rw [Dict.get?_update, hvalue]
      rfl

theorem parse_spelled_iff {pairs : List (Opt × String)} (hcomplete : p.Complete pairs)
    (h : ∀ g ∈ pairs, g.1 ∈ p.options ∧ ∃ type, g.1.action = .store type) {ns : Dict ArgValue} :
    p.parse numbers (spelled pairs) = some ns ↔
      ∃ values, List.Forall₂ (p.Takes numbers) pairs values ∧ ns = p.assembled pairs values := by
  have hread := @readOptions_spelled_iff numbers p pairs h [] []
  rw [List.append_nil] at hread
  apply Iff.intro
  · intro hparse
    obtain ⟨⟨given, rest⟩, hgiven, hfinish⟩ := Option.bind_eq_some_iff.mp hparse
    obtain ⟨values, hvalues, hrest⟩ := hread.mp hgiven
    cases hrest
    have hns := (finish_update hcomplete hvalues).symm.trans hfinish
    exact ⟨values, hvalues, (Option.some.inj hns).symm⟩
  · rintro ⟨values, hvalues, rfl⟩
    have hgiven := hread.mpr ⟨values, hvalues, rfl⟩
    rw [parse, hgiven]
    exact finish_update hcomplete hvalues

/-- The attributes of a subcommand go over those of the main parser. -/
theorem get?_update_assembled (d : Dict ArgValue) {p : ArgumentParser}
    (h : (p.options.map Opt.dest).Nodup) (pairs : List (Opt × String)) (values : List ArgValue)
    (key : String) :
    (d.update (p.assembled pairs values)).get? key =
      ((p.assembled pairs values).get? key).or (d.get? key) := by
  have hdests : ((p.options.map fun o => (o.dest, o.default)).map Prod.fst).Nodup := by
    rwa [List.map_map]
  have hnodup : ((p.assembled pairs values).map Prod.fst).Nodup :=
    Dict.nodup_update _ _ hdests
  rw [Dict.get?_update, lastSet_eq_get? _ _ hnodup]

end ArgumentParser

/-- **A command line that is written out is parsed exactly where the parser of each part takes
its values.** -/
theorem CommandParser.parse_spelled_iff {p : CommandParser} {numbers : NumberText}
    {command : ArgumentParser} {name : String} {mainPairs pairs : List (Opt × String)}
    (hname : p.main.look name = .argument) (hcommand : p.commands.lookup name = some command)
    (hmainComplete : p.main.Complete mainPairs)
    (hmain : ∀ g ∈ mainPairs, g.1 ∈ p.main.options ∧ ∃ type, g.1.action = .store type)
    (hcomplete : command.Complete pairs)
    (h : ∀ g ∈ pairs, g.1 ∈ command.options ∧ ∃ type, g.1.action = .store type)
    {ns : Dict ArgValue} :
    p.parse numbers (spelled mainPairs ++ name :: spelled pairs) = some ns ↔
      ∃ mainValues values, List.Forall₂ (p.main.Takes numbers) mainPairs mainValues ∧
        List.Forall₂ (command.Takes numbers) pairs values ∧
        ns = ((p.main.assembled mainPairs mainValues).set p.dest (.str name)).update
          (command.assembled pairs values) := by
  have hread := @ArgumentParser.readOptions_spelled_iff numbers p.main mainPairs hmain
    (name :: spelled pairs) []
  have hown := @ArgumentParser.parse_spelled_iff numbers command pairs hcomplete h
  have hstops : ∀ given, p.main.readOptions numbers (name :: spelled pairs) given =
      some (given, name :: spelled pairs) := by
    intro given
    rw [ArgumentParser.readOptions, hname]
  apply Iff.intro
  · intro hparse
    obtain ⟨⟨given, rest⟩, hgiven, hparse⟩ := Option.bind_eq_some_iff.mp hparse
    obtain ⟨mainValues, hmainValues, hrest⟩ := hread.mp hgiven
    rw [hstops] at hrest
    cases hrest
    obtain ⟨found, hfound, hparse⟩ := Option.bind_eq_some_iff.mp hparse
    obtain rfl := Option.some.inj (hcommand.symm.trans hfound)
    obtain ⟨own, hparsed, hparse⟩ := Option.bind_eq_some_iff.mp hparse
    obtain ⟨values, hvalues, rfl⟩ := hown.mp hparsed
    rw [ArgumentParser.finish_update hmainComplete hmainValues] at hparse
    exact ⟨mainValues, values, hmainValues, hvalues, (Option.some.inj hparse).symm⟩
  · rintro ⟨mainValues, values, hmainValues, hvalues, rfl⟩
    have hgiven := hread.mpr ⟨mainValues, hmainValues, hstops _⟩
    have hparsed := hown.mpr ⟨values, hvalues, rfl⟩
    rw [parse, hgiven]
    show ((p.commands.lookup name).bind _) = _
    rw [hcommand]
    show ((command.parse numbers (spelled pairs)).bind _) = _
    rw [hparsed]
    show ((p.main.finish _).bind _) = _
    rw [ArgumentParser.finish_update hmainComplete hmainValues]
    rfl

end StateBenchmarks.Python
