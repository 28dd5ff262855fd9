import Mathlib.Data.List.Basic

/-!
# Machines that answer

A machine answers each call and changes its state. One machine implements another where related
states give the same answer to a proper call and are related again after it; it then gives the
answers of the other one to every sequence of proper calls.
-/

namespace Machine

variable {σ τ ι ο : Type} {call : σ → ι → ο × σ} {spec : τ → ι → ο × τ} {s : σ} {t : τ}

def answers (call : σ → ι → ο × σ) (s : σ) : List ι → List ο
  | [] => []
  | i :: rest => (call s i).1 :: answers call (call s i).2 rest

def after (call : σ → ι → ο × σ) (s : σ) (calls : List ι) : σ :=
  calls.foldl (fun s i => (call s i).2) s

theorem after_append (call : σ → ι → ο × σ) (s : σ) (first second : List ι) :
    after call s (first ++ second) = after call (after call s first) second := List.foldl_append

/-- Every call of the sequence is made in a state in which it is proper. -/
def Properly (call : σ → ι → ο × σ) (Proper : σ → ι → Prop) (s : σ) : List ι → Prop
  | [] => True
  | i :: rest => Proper s i ∧ Properly call Proper (call s i).2 rest

theorem answers_append (call : σ → ι → ο × σ) (s : σ) (first second : List ι) :
    answers call s (first ++ second) =
      answers call s first ++ answers call (after call s first) second := by
  induction first generalizing s with
  | nil => rfl
  | cons i rest ih =>
      rw [List.cons_append, answers, ih]
      rfl

theorem Properly.append {Proper : σ → ι → Prop} {first second : List ι}
    (before : Properly call Proper s first)
    (later : Properly call Proper (after call s first) second) :
    Properly call Proper s (first ++ second) := by
  induction first generalizing s with
  | nil => exact later
  | cons i rest ih => exact ⟨before.1, ih before.2 later⟩

theorem Properly.mono {Proper Proper' : σ → ι → Prop} {calls : List ι}
    (properly : Properly call Proper s calls) (weaker : ∀ s i, Proper s i → Proper' s i) :
    Properly call Proper' s calls := by
  induction calls generalizing s with
  | nil => trivial
  | cons i rest ih => exact ⟨weaker s i properly.1, ih properly.2⟩

instance decidableProperly {Proper : σ → ι → Prop} [∀ s i, Decidable (Proper s i)] (s : σ) :
    (calls : List ι) → Decidable (Properly call Proper s calls)
  | [] => isTrue trivial
  | i :: rest =>
      have : Decidable (Properly call Proper (call s i).2 rest) :=
        decidableProperly (call s i).2 rest
      inferInstanceAs (Decidable (_ ∧ _))

def Implements (call : σ → ι → ο × σ) (spec : τ → ι → ο × τ) (Proper : τ → ι → Prop)
    (Related : σ → τ → Prop) : Prop :=
  ∀ s t i, Related s t → Proper t i →
    (call s i).1 = (spec t i).1 ∧ Related (call s i).2 (spec t i).2

theorem Implements.run {Proper : τ → ι → Prop} {Related : σ → τ → Prop}
    (implements : Implements call spec Proper Related) (related : Related s t) {calls : List ι}
    (properly : Properly spec Proper t calls) :
    answers call s calls = answers spec t calls ∧
      Related (after call s calls) (after spec t calls) := by
  induction calls generalizing s t with
  | nil => exact ⟨rfl, related⟩
  | cons i rest ih =>
      obtain ⟨proper, properly⟩ := properly
      obtain ⟨same, related⟩ := implements s t i related proper
      obtain ⟨sames, related⟩ := ih related properly
      constructor
      · rw [answers, answers, same, sames]
      · exact related

end Machine
