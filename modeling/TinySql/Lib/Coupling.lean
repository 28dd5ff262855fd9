import Mathlib.Data.List.Basic

/-!
# Two runs side by side

`Coupled P Q R m m'`: from states that `P` relates, both computations return the same value in states
that `Q` relates, or throw the same exception in states that `R` relates. It is closed under
sequencing and under the loops of a list.
-/

namespace Coupling

variable {ε σ τ α β : Type}

/-- Two computations have ended in the same way. -/
inductive Alike (Q R : σ → τ → Prop) : EStateM.Result ε σ α → EStateM.Result ε τ α → Prop where
  | ok {a : α} {s : σ} {t : τ} : Q s t → Alike Q R (.ok a s) (.ok a t)
  | error {e : ε} {s : σ} {t : τ} : R s t → Alike Q R (.error e s) (.error e t)

def Coupled (P Q R : σ → τ → Prop) (m : EStateM ε σ α) (m' : EStateM ε τ α) : Prop :=
  ∀ s t, P s t → Alike Q R (m.run s) (m'.run t)

variable {P P' Q Q' M R : σ → τ → Prop}

theorem coupled_pure (a : α) : Coupled Q Q R (pure a : EStateM ε σ α) (pure a) :=
  fun _ _ related => .ok related

theorem coupled_throw (e : ε) : Coupled R Q R (throw e : EStateM ε σ α) (throw e) :=
  fun _ _ related => .error related

theorem coupled_modify {f : σ → σ} {g : τ → τ} (step : ∀ s t, P s t → Q (f s) (g t)) :
    Coupled P Q R (modify f : EStateM ε σ Unit) (modify g) :=
  fun s t related => .ok (step s t related)

theorem Coupled.bind {m : EStateM ε σ α} {m' : EStateM ε τ α} {f : α → EStateM ε σ β}
    {f' : α → EStateM ε τ β} (first : Coupled P M R m m')
    (second : ∀ a, Coupled M Q R (f a) (f' a)) : Coupled P Q R (m >>= f) (m' >>= f') := by
  intro s t related
  have first := first s t related
  rw [EStateM.run_bind, EStateM.run_bind]
  generalize m.run s = r at first ⊢
  generalize m'.run t = r' at first ⊢
  cases first with
  | ok related => exact second _ _ _ related
  | error related => exact .error related

/-- What is read may differ, as long as the rest of the computation makes nothing of it. -/
theorem coupled_get_bind {f : σ → EStateM ε σ β} {f' : τ → EStateM ε τ β}
    (each : ∀ s t, P s t → Alike Q R ((f s).run s) ((f' t).run t)) :
    Coupled P Q R (get >>= f) (get >>= f') := each

theorem Coupled.mono {m : EStateM ε σ α} {m' : EStateM ε τ α} (coupled : Coupled P Q R m m')
    (before : ∀ s t, P' s t → P s t) (after : ∀ s t, Q s t → Q' s t) : Coupled P' Q' R m m' := by
  intro s t related
  have ended := coupled s t (before s t related)
  generalize m.run s = r at ended ⊢
  generalize m'.run t = r' at ended ⊢
  cases ended with
  | ok related => exact .ok (after _ _ related)
  | error related => exact .error related

section Loops
variable {f : β → α → EStateM ε σ β} {f' : β → α → EStateM ε τ β}

theorem coupled_foldlM (step : ∀ b a, Coupled P P R (f b a) (f' b a)) (xs : List α) (b : β) :
    Coupled P P R (xs.foldlM f b) (xs.foldlM f' b) := by
  induction xs generalizing b with
  | nil => exact coupled_pure b
  | cons x rest ih =>
      rw [List.foldlM_cons, List.foldlM_cons]
      exact (step b x).bind ih

theorem coupled_mapM {f : α → EStateM ε σ β} {f' : α → EStateM ε τ β}
    (step : ∀ a, Coupled P P R (f a) (f' a)) (xs : List α) :
    Coupled P P R (xs.mapM f) (xs.mapM f') := by
  induction xs with
  | nil => exact coupled_pure []
  | cons x rest ih =>
      rw [List.mapM_cons, List.mapM_cons]
      exact (step x).bind fun y => ih.bind fun ys => coupled_pure (y :: ys)

end Loops

end Coupling
