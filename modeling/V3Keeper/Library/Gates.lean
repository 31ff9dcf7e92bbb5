import V3Keeper.Library.Lts

/-!
A process that goes through gates one after the other. A gate is settled by itself, or it asks
again and again until an answer satisfies it; either can end the process with an error.
-/

namespace Gates

open Lts

variable {α ε : Type*}

inductive Verdict (ε : Type*) where
  | passes
  | again
  | raises (error : ε)

inductive Gate (α ε : Type*) where
  | settled (result : Except ε Unit)
  /-- The judge has no verdict on what is no answer to its question. -/
  | asks (judge : α → Option (Verdict ε))

def settle : List (Gate α ε) → Except ε (List (Gate α ε))
  | .settled (.error error) :: _ => .error error
  | .settled (.ok ()) :: rest => settle rest
  | .asks judge :: rest => .ok (.asks judge :: rest)
  | [] => .ok []

def step (state : Except ε (List (Gate α ε))) (answer : α) : Option (Except ε (List (Gate α ε))) :=
  match state with
  | .ok (.asks judge :: rest) =>
      (judge answer).map fun verdict =>
        match verdict with
        | .passes => settle rest
        | .again => .ok (.asks judge :: rest)
        | .raises error => .error error
  | _ => none

def Polled (judge : α → Option (Verdict ε)) (answers : List α) : Prop :=
  ∃ waits last, answers = waits ++ [last] ∧ (∀ answer ∈ waits, judge answer = some .again) ∧
    judge last = some .passes

def Passed : Gate α ε → List α → Prop
  | .settled result, answers => result = .ok () ∧ answers = []
  | .asks judge, answers => Polled judge answers

inductive Through : List (Gate α ε) → List α → Prop
  | nil : Through [] []
  | cons {gate : Gate α ε} {rest : List (Gate α ε)} {own later : List α} (passed : Passed gate own)
      (through : Through rest later) : Through (gate :: rest) (own ++ later)

theorem through_nil {answers : List α} :
    Through ([] : List (Gate α ε)) answers ↔ answers = [] := by
  constructor
  · intro through
    cases through
    rfl
  · rintro rfl
    exact .nil

theorem through_cons {gate : Gate α ε} {rest : List (Gate α ε)} {answers : List α} :
    Through (gate :: rest) answers ↔
      ∃ own later, answers = own ++ later ∧ Passed gate own ∧ Through rest later := by
  constructor
  · intro through
    cases through with
    | cons passed later => exact ⟨_, _, rfl, passed, later⟩
  · rintro ⟨own, later, rfl, passed, through⟩
    exact .cons passed through

theorem through_append {first second : List (Gate α ε)} {answers : List α} :
    Through (first ++ second) answers ↔
      ∃ own later, answers = own ++ later ∧ Through first own ∧ Through second later := by
  induction first generalizing answers with
  | nil => simp [through_nil]
  | cons gate rest ih =>
      simp only [List.cons_append, through_cons, ih]
      constructor
      · rintro ⟨own, _, rfl, passed, middle, later, rfl, through, last⟩
        exact ⟨own ++ middle, later, (List.append_assoc _ _ _).symm,
          ⟨own, middle, rfl, passed, through⟩, last⟩
      · rintro ⟨_, later, rfl, ⟨own, middle, rfl, passed, through⟩, last⟩
        exact ⟨own, middle ++ later, List.append_assoc _ _ _, passed, middle, later, rfl, through,
          last⟩

theorem through_singleton {gate : Gate α ε} {answers : List α} :
    Through [gate] answers ↔ Passed gate answers := by
  rw [through_cons]
  constructor
  · rintro ⟨own, later, rfl, passed, through⟩
    rw [through_nil.mp through, List.append_nil]
    exact passed
  · intro passed
    exact ⟨answers, [], (List.append_nil _).symm, passed, .nil⟩

theorem polled_nil {judge : α → Option (Verdict ε)} : ¬Polled judge [] := by
  rintro ⟨waits, last, split, -⟩
  simp at split

theorem polled_cons {judge : α → Option (Verdict ε)} {answer : α} {answers : List α} :
    Polled judge (answer :: answers) ↔
      (judge answer = some .passes ∧ answers = []) ∨
        (judge answer = some .again ∧ Polled judge answers) := by
  constructor
  · rintro ⟨waits, last, split, unready, ready⟩
    cases waits with
    | nil =>
        cases split
        exact Or.inl ⟨ready, rfl⟩
    | cons first waits =>
        rw [List.cons_append, List.cons.injEq] at split
        obtain ⟨rfl, rfl⟩ := split
        rw [List.forall_mem_cons] at unready
        exact Or.inr ⟨unready.1, waits, last, rfl, unready.2, ready⟩
  · rintro (⟨ready, rfl⟩ | ⟨again, waits, last, rfl, unready, ready⟩)
    · exact ⟨[], answer, rfl, by simp, ready⟩
    · exact ⟨answer :: waits, last, rfl, List.forall_mem_cons.mpr ⟨again, unready⟩, ready⟩

theorem polled_wrapped {β : Type*} {wrap : β → α} {judge : α → Option (Verdict ε)}
    {unready ready : β → Prop}
    (again : ∀ answer, judge answer = some .again ↔ ∃ value, answer = wrap value ∧ unready value)
    (passes : ∀ answer, judge answer = some .passes ↔ ∃ value, answer = wrap value ∧ ready value)
    {answers : List α} :
    Polled judge answers ↔ ∃ waits last, answers = (waits ++ [last]).map wrap ∧
      (∀ value ∈ waits, unready value) ∧ ready last := by
  constructor
  · rintro ⟨waits, last, rfl, waiting, passing⟩
    obtain ⟨lastValue, rfl, isReady⟩ := (passes last).mp passing
    have values : ∃ values : List β, waits = values.map wrap ∧ ∀ value ∈ values, unready value := by
      induction waits with
      | nil => exact ⟨[], rfl, by simp⟩
      | cons answer waits ih =>
          rw [List.forall_mem_cons] at waiting
          obtain ⟨value, rfl, isUnready⟩ := (again answer).mp waiting.1
          obtain ⟨values, rfl, others⟩ := ih waiting.2
          exact ⟨value :: values, rfl, List.forall_mem_cons.mpr ⟨isUnready, others⟩⟩
    obtain ⟨values, rfl, isUnready⟩ := values
    exact ⟨values, lastValue, by simp, isUnready, isReady⟩
  · rintro ⟨waits, last, rfl, isUnready, isReady⟩
    refine ⟨waits.map wrap, wrap last, by simp, fun answer member => ?_,
      (passes _).mpr ⟨last, rfl, isReady⟩⟩
    obtain ⟨value, listed, rfl⟩ := List.mem_map.mp member
    exact (again _).mpr ⟨value, rfl, isUnready value listed⟩

theorem run_failed {error : ε} {answers : List α} {left : List (Gate α ε)}
    (reached : run step (.error error) answers = some (.ok left)) : False := by
  cases answers <;> cases reached

theorem run_asks_iff {judge : α → Option (Verdict ε)} {rest : List (Gate α ε)}
    {answers : List α} :
    run step (.ok (.asks judge :: rest)) answers = some (.ok []) ↔
      ∃ own later, answers = own ++ later ∧ Polled judge own ∧
        run step (settle rest) later = some (.ok []) := by
  induction answers with
  | nil =>
      constructor
      · intro reached
        cases reached
      · rintro ⟨own, later, split, polled, -⟩
        rw [(List.append_eq_nil_iff.mp split.symm).1] at polled
        exact (polled_nil polled).elim
  | cons answer answers ih =>
      have split : (∃ own later, answer :: answers = own ++ later ∧ Polled judge own ∧
          run step (settle rest) later = some (.ok [])) ↔
          (judge answer = some .passes ∧ run step (settle rest) answers = some (.ok [])) ∨
            (judge answer = some .again ∧
              run step (.ok (.asks judge :: rest)) answers = some (.ok [])) := by
        rw [ih]
        constructor
        · rintro ⟨own, later, split, polled, reached⟩
          cases own with
          | nil => exact (polled_nil polled).elim
          | cons first own =>
              rw [List.cons_append, List.cons.injEq] at split
              obtain ⟨rfl, rfl⟩ := split
              rcases polled_cons.mp polled with ⟨ready, rfl⟩ | ⟨again, polled⟩
              · exact Or.inl ⟨ready, reached⟩
              · exact Or.inr ⟨again, own, later, rfl, polled, reached⟩
        · rintro (⟨ready, reached⟩ | ⟨again, own, later, rfl, polled, reached⟩)
          · exact ⟨[answer], answers, rfl, polled_cons.mpr (Or.inl ⟨ready, rfl⟩), reached⟩
          · exact ⟨answer :: own, later, rfl, polled_cons.mpr (Or.inr ⟨again, polled⟩), reached⟩
      rw [split]
      cases judged : judge answer with
      | none => simp [run, step, judged]
      | some verdict =>
          cases verdict with
          | passes => simp [run, step, judged]
          | again => simp [run, step, judged]
          | raises error =>
              simp only [run, step, judged, Option.map_some, reduceCtorEq, Option.some.injEq,
                false_and, or_self, iff_false]
              exact run_failed

/-- A run comes through exactly with the answers that get it through gate by gate. -/
theorem run_through_iff {gates : List (Gate α ε)} {answers : List α} :
    run step (settle gates) answers = some (.ok []) ↔ Through gates answers := by
  induction gates generalizing answers with
  | nil =>
      rw [through_nil]
      cases answers <;> simp [settle, run, step]
  | cons gate rest ih =>
      rw [through_cons]
      cases gate with
      | settled result =>
          cases result with
          | error error =>
              constructor
              · exact fun reached => (run_failed reached).elim
              · rintro ⟨own, later, -, ⟨same, -⟩, -⟩
                cases same
          | ok value =>
              rw [settle, ih]
              constructor
              · exact fun through => ⟨[], answers, rfl, ⟨rfl, rfl⟩, through⟩
              · rintro ⟨own, later, rfl, ⟨-, rfl⟩, through⟩
                exact through
      | asks judge =>
          rw [settle, run_asks_iff]
          refine exists_congr fun own => exists_congr fun later => ?_
          rw [ih, Passed]

def Gate.Opens : Gate α ε → Prop
  | .settled result => result = .ok ()
  | .asks judge => ∃ answer, judge answer = some .passes

theorem Gate.opens_iff {gate : Gate α ε} : gate.Opens ↔ ∃ answers, Passed gate answers := by
  cases gate with
  | settled result => simp [Gate.Opens, Passed]
  | asks judge =>
      constructor
      · rintro ⟨answer, ready⟩
        exact ⟨[answer], [], answer, rfl, by simp, ready⟩
      · rintro ⟨answers, waits, last, -, -, ready⟩
        exact ⟨last, ready⟩

theorem exists_through_iff {gates : List (Gate α ε)} :
    (∃ answers, Through gates answers) ↔ ∀ gate ∈ gates, gate.Opens := by
  induction gates with
  | nil => simp [through_nil]
  | cons gate rest ih =>
      rw [List.forall_mem_cons, ← ih, Gate.opens_iff]
      constructor
      · rintro ⟨answers, through⟩
        obtain ⟨own, later, -, passed, rest⟩ := through_cons.mp through
        exact ⟨⟨own, passed⟩, later, rest⟩
      · rintro ⟨⟨own, passed⟩, later, through⟩
        exact ⟨own ++ later, .cons passed through⟩

theorem settle_suffix {gates left : List (Gate α ε)} (settled : settle gates = .ok left) :
    left <:+ gates ∧ settle left = .ok left := by
  induction gates with
  | nil =>
      cases settled
      exact ⟨List.suffix_rfl, rfl⟩
  | cons gate rest ih =>
      cases gate with
      | settled result =>
          cases result with
          | error error => cases settled
          | ok value =>
              obtain ⟨suffix, same⟩ := ih settled
              exact ⟨suffix.trans (List.suffix_cons _ _), same⟩
      | asks judge =>
          cases settled
          exact ⟨List.suffix_rfl, rfl⟩

theorem reached_suffix {gates left : List (Gate α ε)} {answers : List α}
    (reached : run step (settle gates) answers = some (.ok left)) :
    left <:+ gates ∧ settle left = .ok left := by
  refine @run_invariant _ _ step (fun state => ∀ left, state = .ok left →
    left <:+ gates ∧ settle left = .ok left) ?_ (settle gates) (.ok left) answers
    (fun left settled => settle_suffix settled) reached left rfl
  intro state answer next inside stepped left same
  unfold step at stepped
  split at stepped
  case h_2 => cases stepped
  case h_1 judge rest =>
    obtain ⟨suffix, settled⟩ := inside _ rfl
    obtain ⟨verdict, -, rfl⟩ := Option.map_eq_some_iff.mp stepped
    cases verdict with
    | passes =>
        obtain ⟨later, again⟩ := settle_suffix same
        exact ⟨later.trans ((List.suffix_cons _ _).trans suffix), again⟩
    | again =>
        cases same
        exact ⟨suffix, settled⟩
    | raises error => cases same

/-- A run that has not failed can still come through exactly where every gate opens to some
answer. -/
theorem comes_through_iff {gates left : List (Gate α ε)} {answers : List α}
    (reached : run step (settle gates) answers = some (.ok left)) :
    (∃ more, run step (settle gates) (answers ++ more) = some (.ok [])) ↔
      ∀ gate ∈ gates, gate.Opens := by
  constructor
  · rintro ⟨more, through⟩
    exact exists_through_iff.mp ⟨_, run_through_iff.mp through⟩
  · intro opens
    obtain ⟨suffix, settled⟩ := reached_suffix reached
    obtain ⟨more, through⟩ := exists_through_iff.mpr fun gate listed =>
      opens gate (suffix.subset listed)
    refine ⟨more, ?_⟩
    rw [run_append, reached, Option.bind_some, ← settled]
    exact run_through_iff.mpr through

end Gates
