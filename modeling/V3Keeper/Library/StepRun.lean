import Mathlib.Data.List.Induction

/-!
Runs of a deterministic service that is called with one input at a time. A run is
the list of its transitions, so that a property of a whole run can speak about
what every call read, returned and left behind.
-/

namespace StepRun

variable {σ ι κ ο : Type*}

structure Transition (σ ι ο : Type*) where
  before : σ
  input : ι
  output : ο
  after : σ

def transition (step : σ → ι → ο × σ) (state : σ) (input : ι) : Transition σ ι ο :=
  ⟨state, input, (step state input).1, (step state input).2⟩

@[simp] theorem transition_before (step : σ → ι → ο × σ) (state : σ) (input : ι) :
    (transition step state input).before = state := rfl

@[simp] theorem transition_input (step : σ → ι → ο × σ) (state : σ) (input : ι) :
    (transition step state input).input = input := rfl

@[simp] theorem transition_output (step : σ → ι → ο × σ) (state : σ) (input : ι) :
    (transition step state input).output = (step state input).1 := rfl

@[simp] theorem transition_after (step : σ → ι → ο × σ) (state : σ) (input : ι) :
    (transition step state input).after = (step state input).2 := rfl

theorem mem_concat_self (past : List (Transition σ ι ο)) (next : Transition σ ι ο) :
    next ∈ past ++ [next] := by simp

def final (step : σ → ι → ο × σ) : σ → List ι → σ
  | state, [] => state
  | state, input :: rest => final step (step state input).2 rest

def history (step : σ → ι → ο × σ) : σ → List ι → List (Transition σ ι ο)
  | _, [] => []
  | state, input :: rest =>
      transition step state input :: history step (step state input).2 rest

theorem final_append (step : σ → ι → ο × σ) (state : σ) (first second : List ι) :
    final step state (first ++ second) = final step (final step state first) second := by
  induction first generalizing state with
  | nil => rfl
  | cons input rest ih => exact ih _

theorem history_append (step : σ → ι → ο × σ) (state : σ) (first second : List ι) :
    history step state (first ++ second) =
      history step state first ++ history step (final step state first) second := by
  induction first generalizing state with
  | nil => rfl
  | cons input rest ih =>
      simp only [List.cons_append, history, final]
      rw [ih]

theorem history_inputs (step : σ → ι → ο × σ) (state : σ) (inputs : List ι) :
    (history step state inputs).map Transition.input = inputs := by
  induction inputs generalizing state with
  | nil => rfl
  | cons input rest ih => simp [history, ih]

theorem input_mem (step : σ → ι → ο × σ) {start : σ} {inputs : List ι} {call : Transition σ ι ο}
    (member : call ∈ history step start inputs) : call.input ∈ inputs := by
  rw [← history_inputs step start inputs]
  exact List.mem_map_of_mem member

/-- The run rule. A relation between the past transitions and the present state
that every further call of an admissible run extends holds of the whole run.
Admissibility is any property of histories that prefixes inherit. -/
theorem history_invariant (step : σ → ι → ο × σ) (admissible : List (Transition σ ι ο) → Prop)
    (invariant : List (Transition σ ι ο) → σ → Prop) {start : σ}
    (inherited : ∀ past next, admissible (past ++ [next]) → admissible past)
    (initial : invariant [] start)
    (preserved : ∀ past state input, invariant past state →
      admissible (past ++ [transition step state input]) →
        invariant (past ++ [transition step state input]) (step state input).2)
    (inputs : List ι) (admitted : admissible (history step start inputs)) :
    invariant (history step start inputs) (final step start inputs) := by
  induction inputs using List.reverseRecOn with
  | nil => exact initial
  | append_singleton earlier input ih =>
      rw [history_append, final_append] at *
      exact preserved _ _ _ (ih (inherited _ _ admitted)) admitted

/-- A state invariant that every transition satisfying `guard` keeps holds before
and after every transition of a run whose transitions all satisfy `guard`. -/
theorem invariant_of_guarded (step : σ → ι → ο × σ) (guard : Transition σ ι ο → Prop)
    (invariant : σ → Prop) {start : σ} (initial : invariant start)
    (preserved : ∀ state input, invariant state → guard (transition step state input) →
      invariant (step state input).2)
    (inputs : List ι) (guarded : ∀ call ∈ history step start inputs, guard call) :
    (∀ call ∈ history step start inputs, invariant call.before ∧ invariant call.after) ∧
      invariant (final step start inputs) := by
  induction inputs generalizing start with
  | nil => exact ⟨by simp [history], initial⟩
  | cons input rest ih =>
      simp only [history, List.forall_mem_cons] at guarded ⊢
      have next : invariant (step start input).2 := preserved start input initial guarded.1
      obtain ⟨later, last⟩ := ih next guarded.2
      exact ⟨⟨⟨initial, next⟩, later⟩, last⟩

/-- The simulation rule. Where every step keeps the states related and returns what the other
service returns, whole runs return the same. -/
theorem outputs_eq_of_simulates {σ' : Type*} {step : σ → ι → ο × σ} {other : σ' → ι → ο × σ'}
    {related : σ → σ' → Prop}
    (simulates : ∀ state state' input, related state state' →
      (step state input).1 = (other state' input).1 ∧
        related (step state input).2 (other state' input).2)
    {start : σ} {start' : σ'} (initial : related start start') (inputs : List ι) :
    (history step start inputs).map Transition.output =
        (history other start' inputs).map Transition.output ∧
      related (final step start inputs) (final other start' inputs) := by
  induction inputs generalizing start start' with
  | nil => exact ⟨rfl, initial⟩
  | cons input rest ih =>
      obtain ⟨output, next⟩ := simulates start start' input initial
      obtain ⟨outputs, last⟩ := ih next
      refine ⟨?_, last⟩
      simp only [history, List.map_cons, transition_output, output, outputs]

theorem mem_history_eq (step : σ → ι → ο × σ) {start : σ} {inputs : List ι}
    {call : Transition σ ι ο} (member : call ∈ history step start inputs) :
    call = transition step call.before call.input := by
  induction inputs generalizing start with
  | nil => simp [history] at member
  | cons input rest ih =>
      rcases List.mem_cons.mp member with same | later
      · subst same; rfl
      · exact ih later

theorem history_split (step : σ → ι → ο × σ) {start : σ} {inputs : List ι}
    {past later : List (Transition σ ι ο)} {call : Transition σ ι ο}
    (split : history step start inputs = past ++ call :: later) :
    ∃ earlier rest, inputs = earlier ++ call.input :: rest ∧ past = history step start earlier ∧
      call = transition step (final step start earlier) call.input := by
  induction past generalizing start inputs with
  | nil =>
      cases inputs with
      | nil => simp [history] at split
      | cons input rest =>
          obtain ⟨same, -⟩ := List.cons.inj split
          exact ⟨[], rest, by rw [← same]; rfl, rfl, by rw [← same]; rfl⟩
  | cons first past ih =>
      cases inputs with
      | nil => simp [history] at split
      | cons input tail =>
          obtain ⟨same, remaining⟩ := List.cons.inj split
          obtain ⟨earlier, rest, inputsEq, pastEq, callEq⟩ := ih remaining
          exact ⟨input :: earlier, rest, by rw [inputsEq]; rfl,
            by rw [pastEq, ← same]; rfl, callEq⟩

def Transition.mapInput (translate : κ → ι) (call : Transition σ κ ο) : Transition σ ι ο :=
  ⟨call.before, translate call.input, call.output, call.after⟩

theorem history_map (step : σ → ι → ο × σ) (translate : κ → ι) (start : σ) (inputs : List κ) :
    (history (fun state input => step state (translate input)) start inputs).map
        (Transition.mapInput translate) =
      history step start (inputs.map translate) := by
  induction inputs generalizing start with
  | nil => rfl
  | cons input rest ih =>
      simp only [history, List.map_cons, ih]
      rfl

theorem final_map (step : σ → ι → ο × σ) (translate : κ → ι) (start : σ) (inputs : List κ) :
    final (fun state input => step state (translate input)) start inputs =
      final step start (inputs.map translate) := by
  induction inputs generalizing start with
  | nil => rfl
  | cons input rest ih => exact ih _

end StepRun
