import V3Keeper.Library.Lts
import V3Keeper.Library.StepRun

/-!
A service as a part of a system. A call of it may stop halfway, and other parts of the system
move before it goes on.
-/

namespace Component

open Lts StepRun

variable {σ ι μ ο τ α β : Type*}

/-- The calls of a service in two halves, of which the first may end the call. -/
structure Halves (service : σ → ι → ο × σ) (μ : Type*) where
  first : σ → ι → (ο ⊕ μ) × σ
  second : σ → ι → μ → ο × σ
  whole : ∀ state input, service state input =
    match first state input with
    | (.inl output, next) => (output, next)
    | (.inr middle, next) => second next input middle

def Halves.undivided (service : σ → ι → ο × σ) : Halves service μ where
  first state input := (.inl (service state input).1, (service state input).2)
  second state input _ := service state input
  whole _ _ := rfl

structure Slice (σ ι μ : Type*) where
  state : σ
  underway : Option (ι × μ)

section Run

variable {service : σ → ι → ο × σ} {halves : Halves service μ}

inductive Moves (halves : Halves service μ) : Slice σ ι μ → List (ι × ο) → Slice σ ι μ → Prop
  | idle (slice : Slice σ ι μ) : Moves halves slice [] slice
  | ends (state : σ) (input : ι) (output : ο) (next : σ)
      (only : halves.first state input = (.inl output, next)) :
      Moves halves ⟨state, none⟩ [(input, output)] ⟨next, none⟩
  | begins (state : σ) (input : ι) (middle : μ) (next : σ)
      (halfway : halves.first state input = (.inr middle, next)) :
      Moves halves ⟨state, none⟩ [] ⟨next, some (input, middle)⟩
  | finishes (state : σ) (input : ι) (middle : μ) :
      Moves halves ⟨state, some (input, middle)⟩
        [(input, (halves.second state input middle).1)]
        ⟨(halves.second state input middle).2, none⟩

theorem Moves.unmoved {before after : Slice σ ι μ} {calls : List (ι × ο)}
    (none : calls = []) (same : after = before) : Moves halves before calls after := by
  rw [none, same]
  exact .idle before

def Slice.After (halves : Halves service μ) (slice : Slice σ ι μ) (state : σ) : Prop :=
  match slice.underway with
  | none => slice.state = state
  | some (input, middle) => halves.first state input = (.inr middle, slice.state)

/-- The finished calls are those of the service running by itself. -/
structure RunsAlone (halves : Halves service μ) (start : σ) (calls : List (ι × ο))
    (slice : Slice σ ι μ) : Prop where
  outputs : calls.map Prod.snd =
    (history service start (calls.map Prod.fst)).map Transition.output
  state : slice.After halves (final service start (calls.map Prod.fst))

theorem RunsAlone.ends {start : σ} {calls : List (ι × ο)} {before after : Slice σ ι μ}
    (alone : RunsAlone halves start calls before) {input : ι} {output : ο}
    (returned : service (final service start (calls.map Prod.fst)) input = (output, after.state))
    (ended : after.underway = none) :
    RunsAlone halves start (calls ++ [(input, output)]) after := by
  constructor
  · simp only [List.map_append, history_append, alone.outputs, List.map_cons, List.map_nil,
      history, transition_output, returned]
  · simp only [Slice.After, ended, List.map_append, List.map_cons, List.map_nil, final_append,
      final, returned]

theorem RunsAlone.next {start : σ} {calls emitted : List (ι × ο)} {before after : Slice σ ι μ}
    (alone : RunsAlone halves start calls before) (moves : Moves halves before emitted after) :
    RunsAlone halves start (calls ++ emitted) after := by
  have state := alone.state
  cases moves with
  | idle =>
      rw [List.append_nil]
      exact alone
  | ends left input output next only =>
      have same : left = _ := state
      refine alone.ends ?_ rfl
      rw [← same, halves.whole, only]
  | begins left input middle next halfway =>
      have same : left = _ := state
      rw [List.append_nil]
      refine ⟨alone.outputs, ?_⟩
      rw [← same]
      exact halfway
  | finishes left input middle =>
      have halfway : halves.first _ input = (.inr middle, left) := state
      refine alone.ends ?_ rfl
      rw [halves.whole, halfway]

theorem RunsAlone.calls {start : σ} {calls : List (ι × ο)} {slice : Slice σ ι μ}
    (alone : RunsAlone halves start calls slice) :
    calls = (history service start (calls.map Prod.fst)).map fun call =>
      (call.input, call.output) := by
  have inputs := history_inputs service start (calls.map Prod.fst)
  rw [← List.zip_map', inputs, ← alone.outputs, List.zip_map']
  exact (List.map_id calls).symm

/-- Where every action of the system moves the service, whole runs of the system run it as if it
were alone. -/
theorem runsAlone {step : τ → α → Option τ} {slice : τ → Slice σ ι μ}
    {calls : τ → α → List (ι × ο)}
    (moves : ∀ state action next, step state action = some next →
      Moves halves (slice state) (calls state action) (slice next))
    {start last : τ} (idle : (slice start).underway = none) {actions : List α}
    (reached : run step start actions = some last) :
    RunsAlone halves (slice start).state (observe step calls start actions) (slice last) := by
  refine @run_history _ _ step start (fun actions state => RunsAlone halves (slice start).state
    (observe step calls start actions) (slice state)) ?_ ?_ actions last reached
  · exact ⟨rfl, by simp [Slice.After, idle, observe, final]⟩
  · intro past state action next before alone stepped
    rw [observe_concat step calls before stepped]
    exact alone.next (moves state action next stepped)

end Run

inductive Status (ι μ : Type*) where
  | ready
  | underway (input : ι) (middle : μ)
  | ended

def Status.call : Status ι μ → Option (ι × μ)
  | .underway input middle => some (input, middle)
  | _ => none

def Status.isEnded : Status ι μ → Bool
  | .ended => true
  | _ => false

theorem Status.call_of_isEnded {status : Status ι μ} (ended : status.isEnded = true) :
    status.call = none := by
  cases status with
  | ended => rfl
  | _ => cases ended

def Status.pending : Status ι μ → Nat
  | .ended => 0
  | _ => 1

theorem Status.pending_of_isEnded {status : Status ι μ} (ended : status.isEnded = true) :
    status.pending = 0 := by
  cases status with
  | ended => rfl
  | _ => cases ended

structure Moved (σ ι μ ο : Type*) where
  status : Status ι μ
  state : σ
  calls : List (ι × ο)

section Status

variable {service : σ → ι → ο × σ} {halves : Halves service μ}

def Halves.start (halves : Halves service μ) (status : Status ι μ) (state : σ) (input : ι) :
    Option (Moved σ ι μ ο) :=
  match status with
  | .ready =>
      match halves.first state input with
      | (.inl output, next) => some ⟨.ended, next, [(input, output)]⟩
      | (.inr middle, next) => some ⟨.underway input middle, next, []⟩
  | _ => none

def Halves.finish (halves : Halves service μ) (status : Status ι μ) (state : σ) :
    Option (Moved σ ι μ ο) :=
  match status with
  | .underway input middle =>
      some ⟨.ended, (halves.second state input middle).2,
        [(input, (halves.second state input middle).1)]⟩
  | _ => none

theorem Halves.start_cases {status : Status ι μ} {state : σ} {input : ι} {moved : Moved σ ι μ ο}
    (started : halves.start status state input = some moved) :
    status = .ready ∧
      ((∃ output next, halves.first state input = (.inl output, next) ∧
          moved = ⟨.ended, next, [(input, output)]⟩) ∨
        ∃ middle next, halves.first state input = (.inr middle, next) ∧
          moved = ⟨.underway input middle, next, []⟩) := by
  unfold Halves.start at started
  split at started
  case h_2 => cases started
  case h_1 =>
    refine ⟨rfl, ?_⟩
    split at started
    case h_1 output next only =>
      exact Or.inl ⟨output, next, only, (Option.some.inj started).symm⟩
    case h_2 middle next halfway =>
      exact Or.inr ⟨middle, next, halfway, (Option.some.inj started).symm⟩

theorem Halves.finish_cases {status : Status ι μ} {state : σ} {moved : Moved σ ι μ ο}
    (finished : halves.finish status state = some moved) :
    ∃ input middle, status = .underway input middle ∧
      moved = ⟨.ended, (halves.second state input middle).2,
        [(input, (halves.second state input middle).1)]⟩ := by
  unfold Halves.finish at finished
  split at finished
  case h_2 => cases finished
  case h_1 input middle => exact ⟨input, middle, rfl, (Option.some.inj finished).symm⟩

theorem Halves.start_moves {status : Status ι μ} {state : σ} {input : ι} {moved : Moved σ ι μ ο}
    (started : halves.start status state input = some moved) :
    Moves halves ⟨state, status.call⟩ moved.calls ⟨moved.state, moved.status.call⟩ := by
  obtain ⟨rfl, ⟨output, next, only, rfl⟩ | ⟨middle, next, halfway, rfl⟩⟩ := start_cases started
  · exact .ends state input output next only
  · exact .begins state input middle next halfway

theorem start_undivided {status : Status ι μ} {state : σ} {input : ι} {moved : Moved σ ι μ ο}
    (started : (Halves.undivided service).start status state input = some moved) :
    moved = ⟨.ended, (service state input).2, [(input, (service state input).1)]⟩ := by
  obtain ⟨-, ⟨output, next, only, rfl⟩ | ⟨middle, next, halfway, -⟩⟩ := Halves.start_cases started
  · cases only
    rfl
  · cases halfway

def Halves.Turns (halves : Halves service μ) (status : Status ι μ) (state : σ) (asked : ι → Prop)
    (moved : Moved σ ι μ ο) : Prop :=
  (∃ input, asked input ∧ halves.start status state input = some moved) ∨
    halves.finish status state = some moved

theorem Halves.Turns.moves {status : Status ι μ} {state : σ} {asked : ι → Prop}
    {moved : Moved σ ι μ ο} (turns : halves.Turns status state asked moved) :
    Moves halves ⟨state, status.call⟩ moved.calls ⟨moved.state, moved.status.call⟩ := by
  rcases turns with ⟨input, -, started⟩ | finished
  · exact Halves.start_moves started
  · obtain ⟨input, middle, rfl, rfl⟩ := Halves.finish_cases finished
    exact .finishes state input middle

theorem Halves.start_pending {status : Status ι μ} {state : σ} {input : ι} {moved : Moved σ ι μ ο}
    (started : halves.start status state input = some moved) :
    moved.calls.length + moved.status.pending = status.pending := by
  obtain ⟨rfl, ⟨output, next, -, rfl⟩ | ⟨middle, next, -, rfl⟩⟩ := start_cases started
  · rfl
  · rfl

theorem Halves.Turns.pending {status : Status ι μ} {state : σ} {asked : ι → Prop}
    {moved : Moved σ ι μ ο} (turns : halves.Turns status state asked moved) :
    moved.calls.length + moved.status.pending = status.pending := by
  rcases turns with ⟨input, -, started⟩ | finished
  · exact Halves.start_pending started
  · obtain ⟨input, middle, rfl, rfl⟩ := Halves.finish_cases finished
    rfl

end Status

section Frame

variable {service : σ → ι → ο × σ} {halves : Halves service μ}

/-- The service sees of its state no more than the view. -/
structure Halves.Respects (halves : Halves service μ) (view : σ → σ) : Prop where
  first : ∀ state input, halves.first (view state) input =
    ((halves.first state input).1, view (halves.first state input).2)
  second : ∀ state input middle, halves.second (view state) input middle =
    ((halves.second state input middle).1, view (halves.second state input middle).2)

/-- The service changes nothing of what the view shows. -/
structure Halves.Leaves (halves : Halves service μ) (view : σ → β) : Prop where
  first : ∀ state input, view (halves.first state input).2 = view state
  second : ∀ state input middle, view (halves.second state input middle).2 = view state

theorem Moves.view {view : σ → σ} (respects : halves.Respects view) {before after : Slice σ ι μ}
    {calls : List (ι × ο)} (moves : Moves halves before calls after) :
    Moves halves ⟨view before.state, before.underway⟩ calls ⟨view after.state, after.underway⟩ := by
  cases moves with
  | idle => exact .idle _
  | ends state input output next only =>
      exact .ends _ input output _ (by rw [respects.first, only])
  | begins state input middle next halfway =>
      exact .begins _ input middle _ (by rw [respects.first, halfway])
  | finishes state input middle =>
      have moved : Moves halves ⟨view state, some (input, middle)⟩ _ _ :=
        .finishes (view state) input middle
      rw [respects.second] at moved
      exact moved

theorem Moves.leaves {view : σ → β} (leaves : halves.Leaves view) {before after : Slice σ ι μ}
    {calls : List (ι × ο)} (moves : Moves halves before calls after) :
    view after.state = view before.state := by
  cases moves with
  | idle => rfl
  | ends state input output next only =>
      have left := leaves.first state input
      rw [only] at left
      exact left
  | begins state input middle next halfway =>
      have left := leaves.first state input
      rw [halfway] at left
      exact left
  | finishes state input middle => exact leaves.second state input middle

end Frame

end Component
