import Mathlib.Data.List.Basic

/-!
# What a stateful computation may change

`Respects R m`: however `m` ends, with a value or with an exception, the states before and after it
are related by `R`. For a reflexive and transitive relation this is closed under sequencing and
under the loops of a list.
-/

namespace Frame

variable {ε σ α β : Type}

def final : EStateM.Result ε σ α → σ
  | .ok _ s | .error _ s => s

-- Rewriting with these two keeps what follows from being evaluated.
theorem run_get_bind (f : σ → EStateM ε σ α) (s : σ) : (get >>= f).run s = (f s).run s := rfl

theorem run_bind_ok {m : EStateM ε σ α} {f : α → EStateM ε σ β} {s s' : σ} {a : α}
    (ran : m.run s = .ok a s') : (m >>= f).run s = (f a).run s' := by
  rw [EStateM.run_bind, ran]

def Respects (R : σ → σ → Prop) (m : EStateM ε σ α) : Prop := ∀ s, R s (final (m.run s))

variable {R : σ → σ → Prop}

theorem respects_modify {f : σ → σ} (step : ∀ s, R s (f s)) :
    Respects R (modify f : EStateM ε σ Unit) := step

theorem respects_pure [Std.Refl R] (a : α) : Respects R (pure a : EStateM ε σ α) :=
  fun s => Std.Refl.refl s

theorem respects_get [Std.Refl R] : Respects R (get : EStateM ε σ σ) :=
  fun s => Std.Refl.refl s

theorem respects_throw [Std.Refl R] (e : ε) : Respects R (throw e : EStateM ε σ α) :=
  fun s => Std.Refl.refl s

theorem Respects.bind [IsTrans σ R] {m : EStateM ε σ α} {f : α → EStateM ε σ β}
    (first : Respects R m) (second : ∀ a, Respects R (f a)) : Respects R (m >>= f) := by
  intro s
  have first := first s
  rw [EStateM.run_bind]
  cases run : m.run s with
  | error e s' =>
      rw [run] at first
      exact first
  | ok a s' =>
      rw [run] at first
      exact trans_of R first (second a s')

section Preorder
variable [Std.Refl R] [IsTrans σ R]

theorem Respects.map {m : EStateM ε σ α} (f : α → β) (here : Respects R m) :
    Respects R (f <$> m) := by
  rw [← bind_pure_comp]
  exact here.bind fun a => respects_pure (f a)

theorem respects_foldlM {f : β → α → EStateM ε σ β} (step : ∀ b a, Respects R (f b a))
    (xs : List α) (b : β) : Respects R (xs.foldlM f b) := by
  induction xs generalizing b with
  | nil => exact respects_pure b
  | cons x rest ih =>
      rw [List.foldlM_cons]
      exact (step b x).bind ih

theorem respects_mapM {f : α → EStateM ε σ β} (step : ∀ a, Respects R (f a)) (xs : List α) :
    Respects R (xs.mapM f) := by
  induction xs with
  | nil => exact respects_pure []
  | cons x rest ih =>
      rw [List.mapM_cons]
      exact (step x).bind fun y => ih.bind fun ys => respects_pure (y :: ys)

end Preorder

/-! ## Computations that never throw -/

def Total (m : EStateM ε σ α) : Prop := ∀ s, ∃ a s', m.run s = .ok a s'

theorem total_pure (a : α) : Total (pure a : EStateM ε σ α) := fun s => ⟨a, s, rfl⟩

theorem total_modify (f : σ → σ) : Total (modify f : EStateM ε σ Unit) := fun s => ⟨(), f s, rfl⟩

theorem total_get : Total (get : EStateM ε σ σ) := fun s => ⟨s, s, rfl⟩

theorem Total.bind {m : EStateM ε σ α} {f : α → EStateM ε σ β} (first : Total m)
    (second : ∀ a, Total (f a)) : Total (m >>= f) := by
  intro s
  obtain ⟨a, s', ran⟩ := first s
  obtain ⟨b, s'', ran'⟩ := second a s'
  exact ⟨b, s'', by rw [run_bind_ok ran, ran']⟩

theorem total_foldlM {f : β → α → EStateM ε σ β} {xs : List α}
    (step : ∀ b, ∀ a ∈ xs, Total (f b a)) (b : β) : Total (xs.foldlM f b) := by
  induction xs generalizing b with
  | nil => exact total_pure b
  | cons x rest ih =>
      rw [List.foldlM_cons]
      apply (step b x List.mem_cons_self).bind
      exact ih fun b a member => step b a (List.mem_cons_of_mem _ member)

theorem total_mapM {f : α → EStateM ε σ β} {xs : List α} (step : ∀ a ∈ xs, Total (f a)) :
    Total (xs.mapM f) := by
  induction xs with
  | nil => exact total_pure []
  | cons x rest ih =>
      rw [List.mapM_cons]
      apply (step x List.mem_cons_self).bind
      intro y
      apply (ih fun a member => step a (List.mem_cons_of_mem _ member)).bind
      exact fun ys => total_pure (y :: ys)

/-! ## What holds on return -/

/-- If the computation returns from this state, its value and its last state satisfy `Q`. -/
def Ensures (m : EStateM ε σ α) (s : σ) (Q : α → σ → Prop) : Prop :=
  ∀ a s', m.run s = .ok a s' → Q a s'

section Ensures
variable {m : EStateM ε σ α} {f : α → EStateM ε σ β} {s : σ} {Q : α → σ → Prop}
  {P : β → σ → Prop} {a : α}

theorem Ensures.bind (first : Ensures m s Q) (later : ∀ a s', Q a s' → Ensures (f a) s' P) :
    Ensures (m >>= f) s P := by
  intro b s'' ran
  rw [EStateM.run_bind] at ran
  cases here : m.run s with
  | error e s' =>
      rw [here] at ran
      cases ran
  | ok a s' =>
      rw [here] at ran
      exact later a s' (first a s' here) b s'' ran

theorem Ensures.pure (holds : Q a s) : Ensures (Pure.pure a : EStateM ε σ α) s Q := by
  intro a' s' ran
  cases ran
  exact holds

theorem ensures_throw (e : ε) : Ensures (throw e : EStateM ε σ α) s Q := by
  intro a s' ran
  cases ran

theorem Ensures.get {f : σ → EStateM ε σ β} (later : Ensures (f s) s P) :
    Ensures (MonadState.get >>= f) s P := later

theorem Ensures.mono {Q' : α → σ → Prop} (here : Ensures m s Q)
    (weaker : ∀ a s', Q a s' → Q' a s') : Ensures m s Q' :=
  fun a s' ran => weaker a s' (here a s' ran)

/-- What a step needs to return holds of every element of a list that a loop has been through. -/
theorem ensures_foldlM {g : β → α → EStateM ε σ β} {R : α → Prop}
    (step : ∀ b a s, Ensures (g b a) s fun _ _ => R a) (xs : List α) (b : β) (s : σ) :
    Ensures (xs.foldlM g b) s fun _ _ => ∀ a ∈ xs, R a := by
  induction xs generalizing b s with
  | nil => exact Ensures.pure (by simp)
  | cons x rest ih =>
      rw [List.foldlM_cons]
      refine (step b x s).bind fun b' s' here => (ih b' s').mono fun _ _ later => ?_
      exact List.forall_mem_cons.mpr ⟨here, later⟩

theorem ensures_mapM {R : α → Prop} (step : ∀ a s, Ensures (f a) s fun _ _ => R a) (xs : List α)
    (s : σ) : Ensures (xs.mapM f) s fun _ _ => ∀ a ∈ xs, R a := by
  induction xs generalizing s with
  | nil => exact Ensures.pure (by simp)
  | cons x rest ih =>
      rw [List.mapM_cons]
      refine (step x s).bind fun y s' here => (ih s').bind fun ys s'' later => Ensures.pure ?_
      exact List.forall_mem_cons.mpr ⟨here, later⟩

end Ensures

end Frame
