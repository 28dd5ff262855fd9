import Mathlib.Data.List.TakeWhile

/-!
# Precedence climbing

A tree of binary operators is read in order as its first operand and the steps behind it, each an
operator with the operand to its right. Climbing builds from such a sequence the one tree in which
operators of higher precedence bind tighter and those of equal precedence group to the left.
-/

namespace Precedence

inductive Tree (α β : Type) where
  | leaf (operand : α)
  | node (left : Tree α β) (op : β) (right : Tree α β)

variable {α β : Type}

namespace Tree

def first : Tree α β → α
  | leaf operand => operand
  | node left _ _ => left.first

def steps : Tree α β → List (β × α)
  | leaf _ => []
  | node left op right => left.steps ++ (op, right.first) :: right.steps

/-- Operators of higher precedence bind tighter, and those of equal precedence group to the left. -/
def Grouped (prec : β → Nat) : Tree α β → Prop
  | leaf _ => True
  | node left op right =>
      (∀ s ∈ left.steps, prec op ≤ prec s.1) ∧ (∀ s ∈ right.steps, prec op < prec s.1) ∧
        left.Grouped prec ∧ right.Grouped prec

end Tree

open Precedence.Tree

section Grouping
variable (prec : β → Nat)

/-- The tree is read in order as this operand and these steps. -/
structure IsGrouping (operand : α) (steps : List (β × α)) (tree : Tree α β) : Prop where
  first : tree.first = operand
  steps : tree.steps = steps
  grouped : tree.Grouped prec

variable {prec} {left right left' right' : Tree α β} {op op' : β}

/-- The root of a grouped tree is the last of its loosest operators. -/
theorem Tree.Grouped.left_eq (grouped : (node left op right).Grouped prec)
    (grouped' : (node left' op' right').Grouped prec)
    (same : (node left op right).steps = (node left' op' right').steps) :
    left.steps = left'.steps := by
  have earlier {left right left' right' : Tree α β} {op op' : β} {s : β × α} {between : List (β × α)}
      (grouped : (node left op right).Grouped prec) (grouped' : (node left' op' right').Grouped prec)
      (longer : left'.steps = left.steps ++ s :: between)
      (same : (op, right.first) :: right.steps = (s :: between) ++ (op', right'.first) :: right'.steps) :
      False := by
    obtain ⟨rfl, inside⟩ := List.cons.inj same
    have looser := grouped'.1 (op, right.first) (by simp [longer])
    have tighter := grouped.2.1 (op', right'.first) (by simp [inside])
    exact Nat.not_lt.mpr looser tighter
  rcases List.append_eq_append_iff.mp same with ⟨between, longer, rest⟩ | ⟨between, longer, rest⟩
  · cases between with
    | nil => simpa using longer.symm
    | cons s between => exact (earlier grouped grouped' longer rest).elim
  · cases between with
    | nil => simpa using longer
    | cons s between => exact (earlier grouped' grouped longer rest).elim

theorem IsGrouping.unique {operand : α} {steps : List (β × α)} {tree tree' : Tree α β}
    (grouping : IsGrouping prec operand steps tree)
    (grouping' : IsGrouping prec operand steps tree') : tree' = tree := by
  obtain ⟨first, reading, grouped⟩ := grouping
  obtain ⟨first', reading', grouped'⟩ := grouping'
  have same := reading'.trans reading.symm
  have operands := first'.trans first.symm
  clear first first' reading reading'
  induction tree generalizing tree' with
  | leaf x =>
      cases tree' with
      | leaf x' => exact congrArg leaf operands
      | node left' op' right' => simp [Tree.steps] at same
  | node left op right ihLeft ihRight =>
      cases tree' with
      | leaf x' => simp [Tree.steps] at same
      | node left' op' right' =>
          have lefts := grouped'.left_eq grouped same
          rw [Tree.steps, Tree.steps, lefts] at same
          obtain ⟨here, rights⟩ := List.cons.inj (List.append_cancel_left same)
          obtain ⟨rfl, firsts⟩ := Prod.mk.inj here
          obtain ⟨-, -, leftGrouped, rightGrouped⟩ := grouped
          obtain ⟨-, -, leftGrouped', rightGrouped'⟩ := grouped'
          rw [ihLeft leftGrouped leftGrouped' lefts operands,
            ihRight rightGrouped rightGrouped' rights firsts]

end Grouping

/-! ## Climbing -/

/-- With a tree to the left and these steps ahead, climbing at a minimum precedence comes to a tree
and leaves the other steps. -/
inductive Climbs (prec : β → Nat) :
    Nat → Tree α β → List (β × α) → Tree α β → List (β × α) → Prop where
  | stop {p : Nat} {left : Tree α β} {steps : List (β × α)} :
      (∀ s ∈ steps.head?, prec s.1 < p) → Climbs prec p left steps left steps
  | turn {p : Nat} {left tree : Tree α β} {op : β} {x : α} {steps rest : List (β × α)} :
      p ≤ prec op → (∀ s ∈ steps.head?, prec s.1 ≤ prec op) →
      Climbs prec p (node left op (leaf x)) steps tree rest →
      Climbs prec p left ((op, x) :: steps) tree rest
  | tighter {p : Nat} {left right tree : Tree α β} {op : β} {x : α}
      {steps between rest : List (β × α)} {s : β × α} :
      p ≤ prec op → s ∈ steps.head? → prec op < prec s.1 →
      Climbs prec (prec op + 1) (leaf x) steps right between →
      Climbs prec p (node left op right) between tree rest →
      Climbs prec p left ((op, x) :: steps) tree rest

section Climbs
variable {prec : β → Nat} {p : Nat} {left tree : Tree α β} {steps rest : List (β × α)}

theorem Climbs.length_le (climbs : Climbs prec p left steps tree rest) :
    rest.length ≤ steps.length := by
  induction climbs with
  | stop => exact Nat.le_refl _
  | turn here next later ih => exact Nat.le_succ_of_le ih
  | tighter here first next inner later ihInner ih => exact Nat.le_succ_of_le (ih.trans ihInner)

theorem Climbs.ends (climbs : Climbs prec p left steps tree rest) :
    ∀ s ∈ rest.head?, prec s.1 < p := by
  induction climbs with
  | stop ends => exact ends
  | turn here next later ih => exact ih
  | tighter here first next inner later ihInner ih => exact ih

theorem climbs_total (prec : β → Nat) (p : Nat) (left : Tree α β) (steps : List (β × α)) :
    ∃ tree rest, Climbs prec p left steps tree rest := by
  induction length : steps.length using Nat.strong_induction_on generalizing p left steps with
  | h n ih =>
      subst length
      cases steps with
      | nil => exact ⟨left, [], .stop nofun⟩
      | cons first steps =>
          obtain ⟨op, x⟩ := first
          by_cases here : p ≤ prec op
          · by_cases next : ∃ s ∈ steps.head?, prec op < prec s.1
            · obtain ⟨s, first, next⟩ := next
              obtain ⟨right, between, inner⟩ :=
                ih _ (Nat.lt_succ_self _) (prec op + 1) (leaf x) steps rfl
              obtain ⟨tree, rest, later⟩ := ih _ (Nat.lt_succ_of_le inner.length_le) p
                (node left op right) between rfl
              exact ⟨tree, rest, .tighter here first next inner later⟩
            · have next : ∀ s ∈ steps.head?, prec s.1 ≤ prec op :=
                fun s first => Nat.not_lt.mp fun higher => next ⟨s, first, higher⟩
              obtain ⟨tree, rest, later⟩ :=
                ih _ (Nat.lt_succ_self _) p (node left op (leaf x)) steps rfl
              exact ⟨tree, rest, .turn here next later⟩
          · refine ⟨left, (op, x) :: steps, .stop ?_⟩
            rintro s ⟨⟩
            exact Nat.not_le.mp here

/-- The steps are taken in order, up to the first one of lower precedence. -/
theorem Climbs.reading (climbs : Climbs prec p left steps tree rest) : ∃ taken,
    steps = taken ++ rest ∧ (∀ s ∈ taken, p ≤ prec s.1) ∧ tree.first = left.first ∧
      tree.steps = left.steps ++ taken := by
  induction climbs with
  | stop => exact ⟨[], rfl, nofun, rfl, (List.append_nil _).symm⟩
  | @turn p left tree op x steps rest here next later ih =>
      obtain ⟨taken, rfl, all, first, reading⟩ := ih
      refine ⟨(op, x) :: taken, rfl, List.forall_mem_cons.mpr ⟨here, all⟩, first, ?_⟩
      simp [reading, Tree.steps, Tree.first]
  | @tighter p left right tree op x steps between rest s here head next inner later ihInner ih =>
      obtain ⟨inside, rfl, high, firstRight, readingRight⟩ := ihInner
      obtain ⟨taken, rfl, all, first, reading⟩ := ih
      have higher : ∀ s ∈ inside, p ≤ prec s.1 :=
        fun s member => here.trans (Nat.le_of_succ_le (high s member))
      refine ⟨(op, x) :: (inside ++ taken), by simp, ?_, first, ?_⟩
      · exact List.forall_mem_cons.mpr ⟨here, List.forall_mem_append.mpr ⟨higher, all⟩⟩
      · simp [reading, Tree.steps, readingRight, firstRight, Tree.first]

theorem Climbs.grouped (climbs : Climbs prec p left steps tree rest) (grouped : left.Grouped prec)
    (tight : ∀ s ∈ left.steps, ∀ o ∈ steps.head?, prec o.1 ≤ prec s.1) : tree.Grouped prec := by
  induction climbs with
  | stop => exact grouped
  | @turn p left tree op x steps rest here next later ih =>
      have lefts : ∀ s ∈ left.steps, prec op ≤ prec s.1 := fun s member => tight s member (op, x) rfl
      apply ih
      · exact ⟨lefts, nofun, grouped, trivial⟩
      · intro s member o ahead
        apply (next o ahead).trans
        rcases List.mem_append.mp member with before | last
        · exact lefts s before
        · rw [List.mem_singleton.mp last]
  | @tighter p left right tree op x steps between rest s here head next inner later ihInner ih =>
      have lefts : ∀ s ∈ left.steps, prec op ≤ prec s.1 := fun s member => tight s member (op, x) rfl
      obtain ⟨inside, -, high, -, reading⟩ := inner.reading
      rw [Tree.steps, List.nil_append] at reading
      have rights : ∀ s ∈ right.steps, prec op < prec s.1 := reading ▸ high
      apply ih
      · exact ⟨lefts, rights, grouped, ihInner trivial nofun⟩
      · intro s member o ahead
        apply (Nat.le_of_lt_succ (inner.ends o ahead)).trans
        rcases List.mem_append.mp member with before | behind
        · exact lefts s before
        · rcases List.mem_cons.mp behind with rfl | behind
          · exact Nat.le_refl _
          · exact (rights s behind).le

/-- From an operand, climbing takes the steps before the first one of lower precedence. -/
theorem exists_climbs (prec : β → Nat) (p : Nat) (x : α) (steps : List (β × α)) : ∃ tree,
    IsGrouping prec x (steps.takeWhile fun s => p ≤ prec s.1) tree ∧
      Climbs prec p (leaf x) steps tree (steps.dropWhile fun s => p ≤ prec s.1) := by
  obtain ⟨tree, rest, climbs⟩ := climbs_total prec p (leaf x) steps
  obtain ⟨taken, rfl, all, first, reading⟩ := climbs.reading
  have grouped := climbs.grouped trivial nofun
  have all' : ∀ s ∈ taken, decide (p ≤ prec s.1) = true := fun s member => decide_eq_true (all s member)
  have stop : rest.takeWhile (fun s => p ≤ prec s.1) = [] ∧
      rest.dropWhile (fun s => p ≤ prec s.1) = rest := by
    cases rest with
    | nil => exact ⟨rfl, rfl⟩
    | cons s rest =>
        have lower : ¬ p ≤ prec s.1 := Nat.not_le.mpr (climbs.ends s rfl)
        exact ⟨by simp [lower], by simp [lower]⟩
  refine ⟨tree, ⟨first, ?_, grouped⟩, ?_⟩
  · rw [List.takeWhile_append_of_pos all', stop.1, List.append_nil, reading]
    rfl
  · rwa [List.dropWhile_append_of_pos all', stop.2]

end Climbs

end Precedence
