import Mathlib.Data.Nat.Notation

/-!
# Runs of a deterministic system

A system is a step function `step : σ → ι → σ`; whatever is nondeterministic (which event comes
next, what the clock reads, which bytes are drawn) is part of the input `ι`.  A run is a start
state with a list of inputs.  This file gives the vocabulary in which properties of runs are
stated (`AllStates`, `AllSteps`, `observe`) and the induction rules that reduce them to facts
about one step.
-/

namespace Run

variable {σ ι : Type} (step : σ → ι → σ)

/-- The state at the end of a run. -/
def final (s : σ) (is : List ι) : σ := is.foldl step s

/-- `P` holds of the start state and of every state the run reaches. -/
def AllStates (P : σ → Prop) : σ → List ι → Prop
  | s, [] => P s
  | s, i :: is => P s ∧ AllStates P (step s i) is

/-- `C` holds of every step of the run, read on the state before it and its input. -/
def AllSteps (C : σ → ι → Prop) : σ → List ι → Prop
  | _, [] => True
  | s, i :: is => C s i ∧ AllSteps C (step s i) is

/-- What `obs` sees along the run, in order. -/
def observe {β : Type} (obs : σ → ι → Option β) : σ → List ι → List β
  | _, [] => []
  | s, i :: is => (obs s i).toList ++ observe obs (step s i) is

variable {step}

@[simp] theorem final_cons (s : σ) (i : ι) (is : List ι) :
    final step s (i :: is) = final step (step s i) is := rfl

theorem final_append (s : σ) (is js : List ι) :
    final step s (is ++ js) = final step (final step s is) js :=
  List.foldl_append

instance decidableAllStates (P : σ → Prop) [DecidablePred P] :
    ∀ (s : σ) (is : List ι), Decidable (AllStates step P s is)
  | s, [] => inferInstanceAs (Decidable (P s))
  | s, i :: is =>
    have := decidableAllStates P (step s i) is
    inferInstanceAs (Decidable (P s ∧ AllStates step P (step s i) is))

instance decidableAllSteps (C : σ → ι → Prop) [∀ s i, Decidable (C s i)] :
    ∀ (s : σ) (is : List ι), Decidable (AllSteps step C s is)
  | _, [] => inferInstanceAs (Decidable True)
  | s, i :: is =>
    have := decidableAllSteps C (step s i) is
    inferInstanceAs (Decidable (C s i ∧ AllSteps step C (step s i) is))

/-! ## Reading a property off a run -/

variable {P Q : σ → Prop} {C D : σ → ι → Prop} {s : σ} {is : List ι}

theorem AllStates.head (h : AllStates step P s is) : P s := by
  cases is with
  | nil => exact h
  | cons i is => exact h.1

theorem allStates_iff :
    AllStates step P s is ↔ ∀ pre post, is = pre ++ post → P (final step s pre) := by
  induction is generalizing s with
  | nil =>
    constructor
    · intro h pre post e
      rw [(List.append_eq_nil_iff.1 e.symm).1]
      exact h
    · intro h
      exact h [] [] rfl
  | cons i is ih =>
    constructor
    · rintro ⟨h₀, h⟩ pre post e
      cases pre with
      | nil => exact h₀
      | cons j pre =>
        obtain ⟨rfl, e'⟩ := List.cons.inj e
        exact ih.1 h pre post e'
    · intro h
      refine ⟨h [] _ rfl, ih.2 fun pre post e => ?_⟩
      exact h (i :: pre) post (by rw [e, List.cons_append])

theorem AllStates.final (h : AllStates step P s is) : P (final step s is) :=
  allStates_iff.1 h is [] (List.append_nil _).symm

theorem allSteps_iff :
    AllSteps step C s is ↔ ∀ pre i post, is = pre ++ i :: post → C (final step s pre) i := by
  induction is generalizing s with
  | nil =>
    refine iff_of_true trivial fun pre i post e => ?_
    exact absurd (List.append_eq_nil_iff.1 e.symm).2 (List.cons_ne_nil _ _)
  | cons i is ih =>
    constructor
    · rintro ⟨h₀, h⟩ pre j post e
      cases pre with
      | nil =>
        obtain ⟨rfl, -⟩ := List.cons.inj e
        exact h₀
      | cons k pre =>
        obtain ⟨rfl, e'⟩ := List.cons.inj e
        exact ih.1 h pre j post e'
    · intro h
      refine ⟨h [] i is rfl, ih.2 fun pre j post e => ?_⟩
      exact h (i :: pre) j post (by rw [e, List.cons_append])

/-- What holds of every step of a run, at the step after the first `k`. -/
theorem AllSteps.after (h : AllSteps step C s is) (k : ℕ) (hk : k < is.length) :
    C (final step s (is.take k)) is[k] :=
  allSteps_iff.1 h (is.take k) is[k] (is.drop (k + 1))
    (by rw [List.getElem_cons_drop, List.take_append_drop])

/-- What holds of every state of a run, after the first `k` steps. -/
theorem AllStates.after (h : AllStates step P s is) (k : ℕ) :
    P (Run.final step s (is.take k)) :=
  allStates_iff.1 h (is.take k) (is.drop k) (List.take_append_drop k is).symm

theorem AllStates.mono (h : AllStates step P s is) (hPQ : ∀ s, P s → Q s) :
    AllStates step Q s is :=
  allStates_iff.2 fun pre post e => hPQ _ (allStates_iff.1 h pre post e)

theorem AllSteps.mono (h : AllSteps step C s is) (hCD : ∀ s i, C s i → D s i) :
    AllSteps step D s is :=
  allSteps_iff.2 fun pre i post e => hCD _ _ (allSteps_iff.1 h pre i post e)

theorem AllStates.and (hP : AllStates step P s is) (hQ : AllStates step Q s is) :
    AllStates step (fun s => P s ∧ Q s) s is :=
  allStates_iff.2 fun pre post e => ⟨allStates_iff.1 hP pre post e, allStates_iff.1 hQ pre post e⟩

/-! ## Invariants -/

/-- An invariant holds in every state of every run. -/
theorem AllStates.of_invariant (h₀ : P s) (hstep : ∀ s i, P s → P (step s i)) (is : List ι) :
    AllStates step P s is := by
  induction is generalizing s with
  | nil => exact h₀
  | cons i is ih => exact ⟨h₀, ih (hstep s i h₀)⟩

/-- A property kept by the steps that meet `C` holds in every state of a run of such steps. -/
theorem AllStates.of_steps (h₀ : P s) (hstep : ∀ s i, P s → C s i → P (step s i))
    (hC : AllSteps step C s is) : AllStates step P s is := by
  induction is generalizing s with
  | nil => exact h₀
  | cons i is ih => exact ⟨h₀, ih (hstep s i h₀ hC.1) hC.2⟩

/-- When `C` says of each step exactly whether it keeps `P`, the runs that stay in `P` are the
runs whose steps all meet `C`. -/
theorem allStates_iff_allSteps (h₀ : P s) (hstep : ∀ s i, P s → (P (step s i) ↔ C s i)) :
    AllStates step P s is ↔ AllSteps step C s is := by
  induction is generalizing s with
  | nil => exact iff_of_true h₀ trivial
  | cons i is ih =>
    constructor
    · rintro ⟨-, h⟩
      exact ⟨(hstep s i h₀).1 h.head, (ih h.head).1 h⟩
    · rintro ⟨hC, h⟩
      have h₁ := (hstep s i h₀).2 hC
      exact ⟨h₀, (ih h₁).2 h⟩

/-- The same within an invariant of the system. -/
theorem allStates_iff_of_invariant {I : σ → Prop} (hI₀ : I s) (hI : ∀ s i, I s → I (step s i))
    (h₀ : P s) (hstep : ∀ s i, I s → P s → (P (step s i) ↔ C s i)) :
    AllStates step P s is ↔ AllSteps step C s is := by
  have hinv : AllStates step I s is := .of_invariant hI₀ hI is
  have hboth : AllStates step (fun s => I s ∧ P s) s is ↔ AllSteps step C s is := by
    refine allStates_iff_allSteps ⟨hI₀, h₀⟩ fun s i h => ?_
    rw [← hstep s i h.1 h.2]
    exact and_iff_right (hI s i h.1)
  rw [← hboth]
  exact ⟨hinv.and, fun h => h.mono fun _ => And.right⟩

/-- The same for a property of the states together with one of the steps. -/
theorem allStates_and_allSteps_iff (h₀ : P s)
    (hstep : ∀ s i, P s → (P (step s i) ∧ D s i ↔ C s i)) :
    AllStates step P s is ∧ AllSteps step D s is ↔ AllSteps step C s is := by
  induction is generalizing s with
  | nil => exact iff_of_true ⟨h₀, trivial⟩ trivial
  | cons i is ih =>
    constructor
    · rintro ⟨⟨-, h⟩, hD, hsteps⟩
      exact ⟨(hstep s i h₀).1 ⟨h.head, hD⟩, (ih h.head).1 ⟨h, hsteps⟩⟩
    · rintro ⟨hC, h⟩
      obtain ⟨h₁, hD⟩ := (hstep s i h₀).2 hC
      obtain ⟨hstates, hsteps⟩ := (ih h₁).2 h
      exact ⟨⟨h₀, hstates⟩, hD, hsteps⟩

/-- What holds of every step taken from a state of the invariant holds of every step. -/
theorem AllStates.toSteps (h : AllStates step P s is) (hC : ∀ s i, P s → C s i) :
    AllSteps step C s is :=
  allSteps_iff.2 fun pre i post e => hC _ _ (allStates_iff.1 h pre (i :: post) e)

/-- What holds of every state holds of the state after each step. -/
theorem AllStates.stepped (h : AllStates step P s is) :
    AllSteps step (fun s i => P (step s i)) s is := by
  refine allSteps_iff.2 fun pre i post e => ?_
  have hafter := allStates_iff.1 h (pre ++ [i]) post (by rw [e, List.append_assoc]; rfl)
  rwa [final_append] at hafter

/-- What holds of every step that meets `C` from a state of the invariant holds of every step. -/
theorem AllSteps.of_states (hP : AllStates step P s is) (hC : AllSteps step C s is)
    (hD : ∀ s i, P s → C s i → D s i) : AllSteps step D s is :=
  allSteps_iff.2 fun pre i post e =>
    hD _ _ (allStates_iff.1 hP pre (i :: post) e) (allSteps_iff.1 hC pre i post e)

/-- Among the runs whose steps meet `B`, those whose steps meet `D` are those whose steps meet `C`,
when `P` makes it so for one step, and these steps keep `P`. -/
theorem allSteps_iff_of_states {B : σ → ι → Prop} (h₀ : P s)
    (hiff : ∀ s i, P s → B s i → (D s i ↔ C s i))
    (hnext : ∀ s i, P s → B s i → C s i → P (step s i)) (hB : AllSteps step B s is) :
    AllSteps step D s is ↔ AllSteps step C s is := by
  induction is generalizing s with
  | nil => exact Iff.rfl
  | cons i is ih =>
    obtain ⟨hi, hrest⟩ := hB
    constructor
    · rintro ⟨hD, h⟩
      have hC := (hiff s i h₀ hi).1 hD
      exact ⟨hC, (ih (hnext s i h₀ hi hC) hrest).1 h⟩
    · rintro ⟨hC, h⟩
      exact ⟨(hiff s i h₀ hi).2 hC, (ih (hnext s i h₀ hi hC) hrest).2 h⟩

/-! ## Runs seen through a function -/

/-- A condition on what `f` makes of the states is one on the run that `f` maps to. -/
theorem allSteps_map {τ : Type} {step' : τ → ι → τ} {f : σ → τ} {C : τ → ι → Prop}
    (hf : ∀ s i, f (step s i) = step' (f s) i) (s : σ) (is : List ι) :
    AllSteps step (fun s i => C (f s) i) s is ↔ AllSteps step' C (f s) is := by
  induction is generalizing s with
  | nil => exact Iff.rfl
  | cons i is ih => rw [AllSteps, AllSteps, ih, hf]

/-! ## Observations -/

variable {β : Type} {obs : σ → ι → Option β}

theorem observe_append (s : σ) (is js : List ι) :
    observe step obs s (is ++ js) =
      observe step obs s is ++ observe step obs (final step s is) js := by
  induction is generalizing s with
  | nil => rfl
  | cons i is ih =>
    rw [List.cons_append, observe, observe, ih, List.append_assoc, final_cons]

theorem observe_snoc (s : σ) (is : List ι) (i : ι) :
    observe step obs s (is ++ [i]) =
      observe step obs s is ++ (obs (final step s is) i).toList := by
  rw [observe_append, observe, observe, List.append_nil]

/-- Induction on a run whose property speaks of the inputs so far and the state they lead to. -/
theorem history_induction {H : List ι → σ → Prop} (h₀ : H [] s)
    (hstep : ∀ is i, H is (final step s is) → H (is ++ [i]) (step (final step s is) i))
    (is : List ι) : H is (final step s is) := by
  have h : ∀ js is, H is (final step s is) → H (is ++ js) (final step s (is ++ js)) := by
    intro js
    induction js with
    | nil => intro is h; rwa [List.append_nil]
    | cons j js ih =>
      intro is h
      have := ih (is ++ [j]) (by rw [final_append]; exact hstep is j h)
      rwa [List.append_assoc] at this
  exact h is [] h₀

/-! ## Runs that remember their inputs -/

variable (step) in
/-- The system that keeps the inputs it took beside its state. -/
def recording (s : List ι × σ) (i : ι) : List ι × σ := (s.1 ++ [i], step s.2 i)

theorem final_recording (js : List ι) (s : σ) (is : List ι) :
    final (recording step) (js, s) is = (js ++ is, final step s is) := by
  induction is generalizing js s with
  | nil => rw [List.append_nil]; rfl
  | cons i is ih =>
    rw [final_cons, recording, ih, List.append_assoc]
    rfl

/-- Every state of a remembering run is a prefix of the inputs with the state it leads to. -/
theorem allStates_recording_iff {P : List ι × σ → Prop} :
    AllStates (recording step) P ([], s) is ↔
      ∀ pre post, is = pre ++ post → P (pre, final step s pre) := by
  rw [allStates_iff]
  simp only [final_recording, List.nil_append]

end Run
