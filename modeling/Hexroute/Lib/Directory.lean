import Mathlib

/-!
# Durable directories

A record is written by staging it under a temporary name, syncing the file,
renaming it into place and syncing the directory.  A write may be stopped at
any boundary of that sequence.  Everything before the rename leaves a staged
file nobody reads; everything after it leaves the published record.
-/

namespace Hexroute.Lib

universe u v

/-- A point of the write sequence a crash can land on. -/
inductive Boundary where
  | beforeFileSync
  | afterFileSync
  | beforeRename
  | afterRename
  | beforeDirectorySync
  | afterDirectorySync
  deriving DecidableEq, Repr

/-- How a write ended. -/
inductive Written where
  | done
  | interrupted
  | nameTaken
  deriving DecidableEq, Repr

/-- Published records and staged files, by name. -/
structure Directory (κ : Type u) (α : Type v) [Ord κ] where
  published : Std.ExtTreeMap κ α
  staged : Std.ExtTreeMap κ α

variable {κ : Type u} {α : Type v} [Ord κ] [Std.TransOrd κ]

def Directory.empty : Directory κ α :=
  ⟨∅, ∅⟩

/-- Publish the staged file under its name. -/
def Directory.rename (directory : Directory κ α) (name : κ) (content : α) :
    Directory κ α :=
  ⟨directory.published.insert name content, directory.staged.erase name⟩

/-- A record that may not replace another finds its name in use. -/
def Directory.taken
    (replace : Bool) (directory : Directory κ α) (name : κ) : Bool :=
  !replace && (directory.published[name]?).isSome

/-- One durable write, stopped at the first boundary that fires. -/
def Directory.write
    (fires : Boundary → Bool) (replace : Bool) (directory : Directory κ α)
    (name : κ) (content : α) : Written × Directory κ α :=
  let staged :=
    { directory with
      staged := (directory.staged.erase name).insert name content }
  if fires .beforeFileSync || fires .afterFileSync || fires .beforeRename then
    (.interrupted, staged)
  else if directory.taken replace name then
    (.nameTaken, { staged with staged := staged.staged.erase name })
  else
    let renamed := staged.rename name content
    if fires .afterRename || fires .beforeDirectorySync ||
        fires .afterDirectorySync then
      (.interrupted, renamed)
    else
      (.done, renamed)

/-- No boundary fires. -/
def unfaulted (_ : Boundary) : Bool := false

variable {replace : Bool} {directory : Directory κ α} {name : κ}
  {content : α}

/-- A write publishes its record under a free name, or it publishes nothing
and is not done. -/
theorem Directory.write_cases
    (directory : Directory κ α) (fires : Boundary → Bool) (replace : Bool)
    (name : κ) (content : α) :
    (directory.write fires replace name content).2.published =
          directory.published ∧
        (directory.write fires replace name content).1 ≠ .done ∨
      (directory.write fires replace name content).2.published =
          directory.published.insert name content ∧
        directory.taken replace name = false := by
  unfold Directory.write
  simp only
  split
  · exact Or.inl ⟨rfl, by simp⟩
  · split
    · exact Or.inl ⟨rfl, by simp⟩
    · rename_i free
      right
      split <;> exact ⟨rfl, by simpa using free⟩

/-- However a write ends, it has published its record or nothing. -/
theorem Directory.write_published
    (directory : Directory κ α) (fires : Boundary → Bool) (replace : Bool)
    (name : κ) (content : α) :
    (directory.write fires replace name content).2.published =
        directory.published ∨
      (directory.write fires replace name content).2.published =
        directory.published.insert name content :=
  (directory.write_cases fires replace name content).imp And.left And.left

end Hexroute.Lib
