/-
# Reading the mount table

`is_mounted` splits the lines of `/proc/mounts` at white space and compares the
second word with the merged directory.  The kernel writes white space and
backslashes of a mount point in octal, which nothing turns back, and other white
space as it is; and it writes bytes, which need not be UTF-8.

A mount point of ordinary characters is read as it stands.  An overlay at a path
with a space in it is not seen: `restore` then leaves it mounted and removes the
directories below it.
-/

import StateBenchmarks.Orchestrator.OverlayStack

namespace StateBenchmarks.Orchestrator

open Python Control

/-- The characters the kernel writes in octal. -/
def IsEscaped (c : Char) : Prop := c = ' ' ∨ c = '\t' ∨ c = '\n' ∨ c = '\\'

instance : DecidablePred IsEscaped := fun _ => inferInstanceAs (Decidable (_ ∨ _ ∨ _ ∨ _))

/-- Characters as the kernel writes them. -/
def escape (cs : List Char) : List Char := cs.flatMap octalEscape

/-- No character is written in octal. -/
def Plain (cs : List Char) : Prop := ∀ c ∈ cs, ¬ IsEscaped c

instance (cs : List Char) : Decidable (Plain cs) := List.decidableBAll (¬ IsEscaped ·) cs

/-- White space that the kernel writes as it is. -/
def IsForeign (c : Char) : Prop := isSpace c = true ∧ ¬ IsEscaped c

instance : DecidablePred IsForeign := fun _ => inferInstanceAs (Decidable (_ ∧ ¬ _))

/-- A field without such white space. -/
def Unspaced (s : String) : Prop := ∀ c ∈ s.toList, ¬ IsForeign c

/-- A field that is one word of its line. -/
def IsWord (s : String) : Prop := Unspaced s ∧ s ≠ ""

instance (s : String) : Decidable (Unspaced s) := List.decidableBAll (¬ IsForeign ·) s.toList

instance (s : String) : Decidable (IsWord s) := inferInstanceAs (Decidable (_ ∧ _))

namespace Mount

/-- The line is one line, of the words that were written. -/
structure Tidy (m : Mount) : Prop where
  device : IsWord m.device
  point : IsWord m.point
  rooted : Rooted m.point
  fstype : IsWord m.fstype
  options : '\r' ∉ m.options.toList

/-- The mount is an overlay whose mount point is written as the path to `dir`. -/
def WrittenAt (m : Mount) (dir : Place) : Prop :=
  m.fstype = "overlay" ∧ (location m.point).map escape = dir

def fields (m : Mount) : List String := [m.device, m.point, m.fstype, m.options]

end Mount

namespace Mount.Tidy

variable {m : Mount}

end Mount.Tidy

/-! ## Untidy lines -/

namespace Mount

variable {m : Mount}

end Mount

section Restore

variable {σ : Type} {H : Host σ} {cfg : OverlayConfig} {s : σ}

end Restore

/-- A mount as the kernel has it. -/
structure RawMount where
  device : ByteArray
  point : ByteArray
  fstype : ByteArray
  options : ByteArray

/-- The bytes of a mount of text, in UTF-8. -/
def Mount.raw (m : Mount) : RawMount :=
  ⟨m.device.toUTF8, m.point.toUTF8, m.fstype.toUTF8, m.options.toUTF8⟩

namespace RawMount

/-- The bytes are UTF-8. -/
def Legible (m : RawMount) : Prop := ∃ text : Mount, text.raw = m

end RawMount

/-- A mount table as it is read.  Every read gives whole lines, and is decoded before
any of them is looked at: `front` are the mounts of the reads that decode, `rest` those
from the first read on that does not. -/
structure Listing where
  front : List Mount
  rest : List RawMount
  garbled : rest ≠ [] → ∃ m ∈ rest, ¬ m.Legible

namespace Listing

/-- All the mounts. -/
def mounts (l : Listing) : List RawMount := l.front.map Mount.raw ++ l.rest

/-- A mount that is read, of words, is an overlay whose mount point is written as the
path to `dir`. -/
def Written (l : Listing) (dir : Place) : Prop := ∃ m ∈ l.front, m.Tidy ∧ m.WrittenAt dir

end Listing

namespace Listing

variable {l : Listing} {dir : Place}

end Listing

end StateBenchmarks.Orchestrator
