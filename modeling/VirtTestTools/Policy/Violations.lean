import VirtTestTools.Policy.GitPaths
import Mathlib.Data.List.Sort

/-!
# Policy violations

The value type of `policy_types.py` that every check of the hooks returns, and
the two operations on paths and texts that the messages and their order need:
the POSIX form of a path, and the order of texts by code points.

A message may quote a path, so it is a text with surrogates.
-/

namespace VirtTestTools.Policy

/-- `PolicyViolation`. -/
structure PolicyViolation where
  filePath : Path
  lineNumber : Option Nat
  message : FsText
deriving DecidableEq, Repr

/-- A fixed piece of a message. -/
def FsText.ofString (text : String) : FsText := FsText.ofText text.toList

/-- `path.as_posix()`. -/
def Path.asPosix (path : Path) : FsText :=
  if path.root = 0 ∧ path.parts = [] then [Path.dot]
  else List.replicate path.root Path.slash ++ [Path.slash].intercalate path.parts

/-- The code point; a surrogate stands for the byte in its low bits. -/
def FsChar.code : FsChar → Nat
  | .char character => character.toNat
  | .escaped byte => 0xDC00 + byte.toNat

/-- Python's order of texts. -/
def FsText.codes (text : FsText) : List Nat := text.map FsChar.code

/-- Sorting reports nothing only when there is nothing to report. -/
theorem mergeSort_eq_nil_iff {α : Type} (order : α → α → Bool) (members : List α) :
    members.mergeSort order = [] ↔ members = [] := by
  rw [← List.length_eq_zero_iff, List.length_mergeSort, List.length_eq_zero_iff]

end VirtTestTools.Policy
