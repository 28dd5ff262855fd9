import Mathlib.Data.List.Infix

/-!
# Runs of a labelled transition system

A run is a list of labels taken one after the other. What every step preserves, every run
preserves; and a property holds all along a run exactly when each of its steps is admitted, as
soon as admitted steps keep an invariant and the others show a violation at once.
-/

namespace Run

variable {σ ι : Type}

/-- The run takes the first state to the last one. -/
inductive Runs (step : σ → ι → σ → Prop) : σ → List ι → σ → Prop where
  | nil (s : σ) : Runs step s [] s
  | cons {s s' s'' : σ} {i : ι} {rest : List ι} :
      step s i s' → Runs step s' rest s'' → Runs step s (i :: rest) s''

variable {step : σ → ι → σ → Prop}

theorem Runs.preserves {Inv : σ → Prop} (keeps : ∀ s i s', Inv s → step s i s' → Inv s')
    {s s' : σ} {run : List ι} (runs : Runs step s run s') (holds : Inv s) : Inv s' := by
  induction runs with
  | nil => exact holds
  | cons first _ ih => exact ih (keeps _ _ _ holds first)

theorem Runs.append {s s' s'' : σ} {first second : List ι} (runs : Runs step s first s')
    (later : Runs step s' second s'') : Runs step s (first ++ second) s'' := by
  induction runs with
  | nil => exact later
  | cons one _ ih => exact .cons one (ih later)

theorem Runs.concat {s s' s'' : σ} {run : List ι} {i : ι} (runs : Runs step s run s')
    (last : step s' i s'') : Runs step s (run ++ [i]) s'' :=
  runs.append (.cons last (.nil s''))

/-- The property holds of every state that the run passes through, the first and the last too. -/
def Always (step : σ → ι → σ → Prop) (Good : σ → Prop) (s : σ) (run : List ι) : Prop :=
  ∀ done s', done <+: run → Runs step s done s' → Good s'

/-- Every step of the run is taken in a state that admits it. -/
def Admits (step : σ → ι → σ → Prop) (Ok : σ → ι → Prop) (s : σ) (run : List ι) : Prop :=
  ∀ done i s', done ++ [i] <+: run → Runs step s done s' → Ok s' i

section Cons
variable {Good : σ → Prop} {Ok : σ → ι → Prop} {s : σ} {i : ι} {rest : List ι}

theorem always_nil : Always step Good s [] ↔ Good s := by
  constructor
  · exact fun always => always [] s List.nil_prefix (.nil s)
  · intro good done s' within runs
    rw [List.prefix_nil.mp within] at runs
    cases runs with
    | nil => exact good

theorem always_cons : Always step Good s (i :: rest) ↔
    Good s ∧ ∀ s', step s i s' → Always step Good s' rest := by
  constructor
  · refine fun always => ⟨always [] s List.nil_prefix (.nil s), ?_⟩
    intro s' first done s'' within runs
    exact always (i :: done) s'' (List.prefix_cons_inj i |>.mpr within) (.cons first runs)
  · rintro ⟨good, later⟩ done s'' within runs
    cases runs with
    | nil => exact good
    | cons first runs =>
        obtain ⟨rfl, inside⟩ := List.cons_prefix_cons.mp within
        exact later _ first _ _ inside runs

theorem admits_nil : Admits step Ok s [] := by
  intro done i s' within
  simp at within

theorem admits_cons : Admits step Ok s (i :: rest) ↔
    Ok s i ∧ ∀ s', step s i s' → Admits step Ok s' rest := by
  constructor
  · refine fun admits => ⟨admits [] i s (by simp) (.nil s), ?_⟩
    intro s' first done j s'' within runs
    exact admits (i :: done) j s'' (List.prefix_cons_inj i |>.mpr within) (.cons first runs)
  · rintro ⟨ok, later⟩ done j s'' within runs
    cases runs with
    | nil =>
        obtain ⟨rfl, -⟩ := List.cons_prefix_cons.mp within
        exact ok
    | cons first runs =>
        obtain ⟨rfl, inside⟩ := List.cons_prefix_cons.mp within
        exact later _ first _ _ _ inside runs

end Cons

theorem Admits.mono {Ok Ok' : σ → ι → Prop} {s : σ} {run : List ι} (admits : Admits step Ok s run)
    (weaker : ∀ s i, Ok s i → Ok' s i) : Admits step Ok' s run :=
  fun done i s' within runs => weaker s' i (admits done i s' within runs)

/-- Where admitted steps keep an invariant, they are all taken in states that satisfy it. -/
theorem Admits.of_invariant {Ok Ok' : σ → ι → Prop} (Inv : σ → Prop)
    (keeps : ∀ s i s', Inv s → Ok s i → step s i s' → Inv s')
    (weaker : ∀ s i, Inv s → Ok s i → Ok' s i) {s : σ} {run : List ι} (holds : Inv s)
    (admits : Admits step Ok s run) : Admits step Ok' s run := by
  induction run generalizing s with
  | nil => exact admits_nil
  | cons i rest ih =>
      obtain ⟨ok, later⟩ := admits_cons.mp admits
      rw [admits_cons]
      constructor
      · exact weaker s i holds ok
      · intro s' first
        exact ih (keeps s i s' holds ok first) (later s' first)

/-- Where admitted steps keep an invariant and any other step leads to a violation, the property
holds along a run exactly when every step of the run is admitted. -/
theorem always_iff_admits {Good : σ → Prop} {Ok : σ → ι → Prop} (Inv : σ → Prop)
    (good : ∀ s, Inv s → Good s)
    (keeps : ∀ s i s', Inv s → Ok s i → step s i s' → Inv s')
    (shows : ∀ s i, Inv s → ¬ Ok s i → ∃ s', step s i s' ∧ ¬ Good s')
    (s : σ) (run : List ι) (holds : Inv s) : Always step Good s run ↔ Admits step Ok s run := by
  induction run generalizing s with
  | nil => exact iff_of_true (always_nil.mpr (good s holds)) admits_nil
  | cons i rest ih =>
      rw [always_cons, admits_cons]
      constructor
      · rintro ⟨-, later⟩
        have ok : Ok s i := by
          by_contra refused
          obtain ⟨s', first, bad⟩ := shows s i holds refused
          exact bad (later s' first [] s' List.nil_prefix (.nil s'))
        exact ⟨ok, fun s' first => (ih s' (keeps s i s' holds ok first)).mp (later s' first)⟩
      · rintro ⟨ok, later⟩
        exact ⟨good s holds, fun s' first =>
          (ih s' (keeps s i s' holds ok first)).mpr (later s' first)⟩

/-! ## Steps that are functions

The runs of a step function are what it computes, and whether their steps are admitted can be
decided. -/

section Functional
variable {next : σ → ι → Option σ} {s s' : σ} {run : List ι}

theorem runs_of_foldlM (ends : run.foldlM next s = some s') :
    Runs (fun s i s' => next s i = some s') s run s' := by
  induction run generalizing s with
  | nil =>
      cases ends
      exact .nil _
  | cons i rest ih =>
      rw [List.foldlM_cons] at ends
      obtain ⟨s'', first, ends⟩ := Option.bind_eq_some_iff.mp ends
      exact .cons first (ih ends)

theorem admits_iff_of_next {Ok : σ → ι → Prop} {i : ι} {rest : List ι} :
    Admits (fun s i s' => next s i = some s') Ok s (i :: rest) ↔
      Ok s i ∧ ∀ s' ∈ next s i, Admits (fun s i s' => next s i = some s') Ok s' rest := admits_cons

instance decidableAdmits {Ok : σ → ι → Prop} [∀ s i, Decidable (Ok s i)] (s : σ) :
    (run : List ι) → Decidable (Admits (fun s i s' => next s i = some s') Ok s run)
  | [] => isTrue admits_nil
  | _ :: rest =>
      have (s' : σ) : Decidable (Admits (fun s i s' => next s i = some s') Ok s' rest) :=
        decidableAdmits s' rest
      decidable_of_iff _ admits_iff_of_next.symm

end Functional

end Run
