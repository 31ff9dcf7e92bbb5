import Mathlib.Data.List.Induction

/-!
Runs of a system whose actions are not always enabled, and traces in which every event is
allowed by the events before it.
-/

namespace Lts

section Run

variable {σ α : Type*}

def run (step : σ → α → Option σ) : σ → List α → Option σ
  | state, [] => some state
  | state, action :: rest =>
      match step state action with
      | none => none
      | some next => run step next rest

/-- What every enabled action keeps holds after every run. -/
theorem run_invariant {step : σ → α → Option σ} {invariant : σ → Prop}
    (preserved : ∀ state action next, invariant state → step state action = some next →
      invariant next)
    {start final : σ} {actions : List α} (initial : invariant start)
    (reached : run step start actions = some final) : invariant final := by
  induction actions generalizing start with
  | nil =>
      cases reached
      exact initial
  | cons action rest ih =>
      rw [run] at reached
      split at reached
      case h_1 => cases reached
      case h_2 next enabled => exact ih (preserved start action next initial enabled) reached

theorem run_append (step : σ → α → Option σ) (start : σ) (first second : List α) :
    run step start (first ++ second) =
      (run step start first).bind fun state => run step state second := by
  induction first generalizing start with
  | nil => rfl
  | cons action rest ih =>
      rw [List.cons_append, run, run]
      cases step start action with
      | none => rfl
      | some next => exact ih next

theorem run_concat {step : σ → α → Option σ} {start final : σ} {actions : List α} {action : α}
    (reached : run step start (actions ++ [action]) = some final) :
    ∃ state, run step start actions = some state ∧ step state action = some final := by
  rw [run_append, Option.bind_eq_some_iff] at reached
  obtain ⟨state, before, last⟩ := reached
  refine ⟨state, before, ?_⟩
  rw [run] at last
  split at last
  case h_1 => cases last
  case h_2 next enabled =>
    cases last
    exact enabled

/-- The run rule for a relation between the actions taken and the state they lead to. -/
theorem run_history {step : σ → α → Option σ} {start : σ} {holds : List α → σ → Prop}
    (initial : holds [] start)
    (preserved : ∀ past state action next, run step start past = some state → holds past state →
      step state action = some next → holds (past ++ [action]) next)
    {actions : List α} {final : σ} (reached : run step start actions = some final) :
    holds actions final := by
  induction actions using List.reverseRecOn generalizing final with
  | nil =>
      cases reached
      exact initial
  | append_singleton past action ih =>
      obtain ⟨state, before, enabled⟩ := run_concat reached
      exact preserved past state action final before (ih before) enabled

theorem length_le_of_rising {step : σ → α → Option σ} {invariant : σ → Prop} {measure : σ → Nat}
    {allowed : α → Prop}
    (preserved : ∀ state action next, invariant state → step state action = some next →
      invariant next)
    (rises : ∀ state action next, invariant state → allowed action →
      step state action = some next → measure state < measure next)
    {start final : σ} {actions : List α} (initial : invariant start)
    (allAllowed : ∀ action ∈ actions, allowed action)
    (reached : run step start actions = some final) :
    measure start + actions.length ≤ measure final := by
  induction actions generalizing start with
  | nil =>
      cases reached
      exact Nat.le_refl _
  | cons action rest ih =>
      rw [List.forall_mem_cons] at allAllowed
      rw [run] at reached
      split at reached
      case h_1 => cases reached
      case h_2 next enabled =>
        have later := ih (preserved start action next initial enabled) allAllowed.2 reached
        have first := rises start action next initial allAllowed.1 enabled
        rw [List.length_cons]
        omega

end Run

section Observe

variable {σ α β : Type*} (step : σ → α → Option σ) (out : σ → α → List β)

def observe : σ → List α → List β
  | _, [] => []
  | state, action :: rest =>
      match step state action with
      | none => []
      | some next => out state action ++ observe next rest

theorem observe_concat {start state : σ} {past : List α}
    (reached : run step start past = some state) {action : α} {next : σ}
    (enabled : step state action = some next) :
    observe step out start (past ++ [action]) =
      observe step out start past ++ out state action := by
  induction past generalizing start with
  | nil =>
      cases reached
      simp [observe, enabled]
  | cons first rest ih =>
      rw [run] at reached
      rw [List.cons_append, observe, observe]
      split at reached
      case h_1 => cases reached
      case h_2 middle stepped =>
        rw [ih reached, List.append_assoc]

theorem observe_filterMap {γ : Type*} (select : β → Option γ) (start : σ) (actions : List α) :
    (observe step out start actions).filterMap select =
      observe step (fun state action => (out state action).filterMap select) start actions := by
  induction actions generalizing start with
  | nil => rfl
  | cons action rest ih =>
      rw [observe, observe]
      cases step start action with
      | none => rfl
      | some next => simp only [List.filterMap_append, ih]

end Observe

section Along

variable {σ α : Type*} (step : σ → α → Option σ) (good : σ → α → Prop)

def Along : σ → List α → Prop
  | _, [] => True
  | state, action :: rest =>
      good state action ∧ ∀ next, step state action = some next → Along next rest

variable {step good}

theorem along_concat {start state : σ} {past : List α} {action : α}
    (reached : run step start past = some state) :
    Along step good start (past ++ [action]) ↔
      Along step good start past ∧ good state action := by
  induction past generalizing start with
  | nil =>
      cases reached
      simp [Along]
  | cons first rest ih =>
      rw [run] at reached
      rw [List.cons_append, Along, Along]
      split at reached
      case h_1 => cases reached
      case h_2 middle stepped =>
        simp only [stepped, Option.some.injEq, forall_eq', ih reached, and_assoc]

end Along

section Trace

variable {ε : Type*} (allowed : List ε → ε → Prop)

def AllowedBy (trace : List ε) : Prop :=
  ∀ before event after, trace = before ++ event :: after → allowed before event

variable {allowed}

theorem allowedBy_nil : AllowedBy allowed [] := by
  intro before event after split
  simp at split

theorem AllowedBy.concat {trace : List ε} (lawful : AllowedBy allowed trace) {event : ε}
    (next : allowed trace event) : AllowedBy allowed (trace ++ [event]) := by
  intro before other after split
  rcases List.eq_nil_or_concat after with rfl | ⟨earlier, last, rfl⟩
  · obtain ⟨same, only⟩ := List.append_inj' split rfl
    rw [← same, ← (List.cons.inj only).1]
    exact next
  · rw [List.concat_eq_append, ← List.cons_append, ← List.append_assoc] at split
    exact lawful before other earlier (List.append_inj' split rfl).1

theorem AllowedBy.append {trace more : List ε} (lawful : AllowedBy allowed trace)
    (always : ∀ event ∈ more, ∀ before, allowed before event) :
    AllowedBy allowed (trace ++ more) := by
  induction more using List.reverseRecOn with
  | nil => simpa using lawful
  | append_singleton earlier event ih =>
      rw [List.forall_mem_append, List.forall_mem_singleton] at always
      rw [← List.append_assoc]
      exact (ih always.1).concat (always.2 _)

theorem AllowedBy.of_concat {trace : List ε} {event : ε}
    (lawful : AllowedBy allowed (trace ++ [event])) :
    AllowedBy allowed trace ∧ allowed trace event := by
  refine ⟨fun before other after split => ?_, lawful trace event [] rfl⟩
  exact lawful before other (after ++ [event]) (by rw [split]; simp)

theorem AllowedBy.pairwise {related : ε → ε → Prop} {trace : List ε}
    (lawful : AllowedBy allowed trace)
    (relates : ∀ past event, allowed past event → ∀ earlier ∈ past, related earlier event) :
    trace.Pairwise related := by
  induction trace using List.reverseRecOn with
  | nil => exact List.Pairwise.nil
  | append_singleton past event ih =>
      obtain ⟨before, next⟩ := lawful.of_concat
      refine List.pairwise_append.mpr ⟨ih before, List.pairwise_singleton _ _, ?_⟩
      intro earlier member later last
      rw [List.mem_singleton.mp last]
      exact relates past event next earlier member

end Trace

end Lts
