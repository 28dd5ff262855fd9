import Mathlib.Data.Set.Basic
import Mathlib.Data.List.Sort

/-!
# Directories

A directory has entries under names, each in a part that has a name itself. Parts may be empty.
-/

/-- The entries of each part that is there. -/
abbrev Directory (κ ν : Type) := κ → Option (κ → Option ν)

namespace Directory

variable {κ ν : Type} {d d' n n' : κ} {v : ν} {c : Directory κ ν}

def lookup (d n : κ) (c : Directory κ ν) : Option ν := (c d).bind fun part => part n

def parts (c : Directory κ ν) : Set κ := {d | (c d).isSome}

/-- The names of the entries of a part, none when the part is not there. -/
def entries (d : κ) (c : Directory κ ν) : Set κ := {n | (c.lookup d n).isSome}

section Update
variable [DecidableEq κ]

/-- Enter a value under a name, in a part that is made when it is not there. -/
def put (d n : κ) (v : ν) (c : Directory κ ν) : Directory κ ν :=
  Function.update c d (some (Function.update ((c d).getD fun _ => none) n (some v)))

def remove (d n : κ) (c : Directory κ ν) : Directory κ ν :=
  Function.update c d ((c d).map fun part => Function.update part n none)

theorem lookup_put : (put d n v c).lookup d n = some v := by
  simp [lookup, put]

theorem put_made (absent : c d = none) :
    put d n v (Function.update c d (some fun _ => none)) = put d n v c := by
  simp [put, absent]

theorem put_other (other : d' ≠ d) : put d n v c d' = c d' := Function.update_of_ne other _ _

theorem remove_other (other : d' ≠ d) : remove d n c d' = c d' := Function.update_of_ne other _ _

theorem lookup_put_ne (other : n' ≠ n) : (put d n v c).lookup d n' = c.lookup d n' := by
  cases here : c d <;> simp [lookup, put, here, other]

theorem lookup_remove : (remove d n c).lookup d n = none := by
  cases here : c d <;> simp [lookup, remove, here]

theorem lookup_remove_ne (other : n' ≠ n) : (remove d n c).lookup d n' = c.lookup d n' := by
  cases here : c d <;> simp [lookup, remove, here, other]

end Update

/-- The names of a set, each once and in ascending order. -/
structure Lists [LT κ] (names : List κ) (S : Set κ) : Prop where
  ascending : names.Pairwise (· < ·)
  complete : ∀ n, n ∈ names ↔ n ∈ S

theorem lists_insertionSort [LE κ] [LT κ] [DecidableLE κ] [Std.IsLinearOrder κ]
    [Std.LawfulOrderLT κ] {keys : List κ} {S : Set κ} (nodup : keys.Nodup)
    (complete : ∀ n, n ∈ keys ↔ n ∈ S) : Lists (keys.insertionSort (· ≤ ·)) S := by
  have same := List.perm_insertionSort (· ≤ ·) keys
  constructor
  · have sorted := List.pairwise_insertionSort (· ≤ ·) keys
    have distinct : (keys.insertionSort (· ≤ ·)).Nodup := same.nodup_iff.mpr nodup
    exact (sorted.and distinct).imp fun both => Std.lt_of_le_of_ne both.1 both.2
  · intro n
    rw [same.mem_iff, complete]

end Directory
