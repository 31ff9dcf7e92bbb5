import Mathlib.Data.List.Basic
import V3Keeper.Library.Python

/-!
Computations of the source language that leave events behind and may raise. What was done
before an exception stays done, and a loop ends with the first item whose body raises.
-/

namespace Python

structure Traced (ε α : Type) where
  events : List ε
  result : Except PyError α

namespace Traced

variable {ε α β ι : Type}

def bind (first : Traced ε α) (next : α → Traced ε β) : Traced ε β :=
  match first.result with
  | .error error => ⟨first.events, .error error⟩
  | .ok value => ⟨first.events ++ (next value).events, (next value).result⟩

instance : Monad (Traced ε) where
  pure value := ⟨[], .ok value⟩
  bind := bind

def lift (result : Except PyError α) : Traced ε α := ⟨[], result⟩

def emit (event : ε) : Traced ε Unit := ⟨[event], .ok ()⟩

def label {τ : Type} (tag : τ) (run : Traced ε α) : Traced (τ × ε) α :=
  ⟨run.events.map (Prod.mk tag), run.result⟩

def forEach (items : List ι) (body : ι → Traced ε Unit) : Traced ε Unit :=
  match items with
  | [] => pure ()
  | item :: rest => do
      body item
      forEach rest body

def succeeds (run : Traced ε α) : Bool :=
  match run.result with
  | .ok _ => true
  | .error _ => false

theorem succeeds_iff {run : Traced ε α} :
    run.succeeds = true ↔ ∃ value, run.result = .ok value := by
  unfold succeeds
  split <;> simp [*]

theorem bind_ok {first : Traced ε α} {value : α} (result : first.result = .ok value)
    (next : α → Traced ε β) :
    first >>= next = ⟨first.events ++ (next value).events, (next value).result⟩ := by
  change bind first next = _
  simp only [bind, result]

theorem bind_error {first : Traced ε α} {error : PyError} (result : first.result = .error error)
    (next : α → Traced ε β) : first >>= next = ⟨first.events, .error error⟩ := by
  change bind first next = _
  simp only [bind, result]

@[simp] theorem pure_events (value : α) : (pure value : Traced ε α).events = [] := rfl

@[simp] theorem pure_bind (value : α) (next : α → Traced ε β) :
    (pure value : Traced ε α) >>= next = next value := rfl

@[simp] theorem lift_ok_bind (value : α) (next : α → Traced ε β) :
    (lift (.ok value) : Traced ε α) >>= next = next value := rfl

@[simp] theorem lift_error_bind (error : PyError) (next : α → Traced ε β) :
    (lift (.error error) : Traced ε α) >>= next = ⟨[], .error error⟩ := rfl

@[simp] theorem label_succeeds {τ : Type} (tag : τ) (run : Traced ε α) :
    (run.label tag).succeeds = run.succeeds := rfl

theorem mem_bind_events {first : Traced ε α} {next : α → Traced ε β} {event : ε} :
    event ∈ (first >>= next).events ↔ event ∈ first.events ∨
      ∃ value, first.result = .ok value ∧ event ∈ (next value).events := by
  cases result : first.result with
  | error error => simp [bind_error result]
  | ok value => simp [bind_ok result]

theorem bind_succeeds {first : Traced ε α} {next : α → Traced ε β} :
    (first >>= next).succeeds = true ↔
      ∃ value, first.result = .ok value ∧ (next value).succeeds = true := by
  cases result : first.result with
  | error error => simp [bind_error result, succeeds]
  | ok value => simp [bind_ok result, succeeds]

theorem unit_result {run : Traced ε Unit} (succeeded : run.succeeds = true) :
    run.result = .ok () := by
  obtain ⟨value, result⟩ := succeeds_iff.mp succeeded
  exact result

section Loop

variable (body : ι → Traced ε Unit)

@[simp] theorem forEach_nil : forEach [] body = pure () := rfl

theorem forEach_cons_succeeds {item : ι} (succeeded : (body item).succeeds = true)
    (rest : List ι) :
    forEach (item :: rest) body =
      ⟨(body item).events ++ (forEach rest body).events, (forEach rest body).result⟩ :=
  bind_ok (unit_result succeeded) _

theorem forEach_cons_raises {item : ι} (raised : (body item).succeeds = false) (rest : List ι) :
    (forEach (item :: rest) body).events = (body item).events ∧
      (forEach (item :: rest) body).succeeds = false := by
  cases result : (body item).result with
  | ok value => simp [succeeds, result] at raised
  | error error => simp [forEach, bind_error result, succeeds]

theorem forEach_succeeds (items : List ι) :
    (forEach items body).succeeds = items.all fun item => (body item).succeeds := by
  induction items with
  | nil => rfl
  | cons item rest ih =>
      cases succeeded : (body item).succeeds with
      | true =>
          rw [forEach_cons_succeeds body succeeded, List.all_cons, succeeded, ← ih]
          rfl
      | false =>
          rw [(forEach_cons_raises body succeeded rest).2, List.all_cons, succeeded]
          rfl

theorem mem_forEach_events {items : List ι} {event : ε} :
    event ∈ (forEach items body).events ↔
      ∃ before item after, items = before ++ item :: after ∧
        (∀ earlier ∈ before, (body earlier).succeeds = true) ∧ event ∈ (body item).events := by
  induction items with
  | nil => simp
  | cons first rest ih =>
      constructor
      · intro member
        cases succeeded : (body first).succeeds with
        | true =>
            rw [forEach_cons_succeeds body succeeded, List.mem_append] at member
            rcases member with own | later
            · exact ⟨[], first, rest, rfl, by simp, own⟩
            · obtain ⟨before, item, after, rfl, clean, found⟩ := ih.mp later
              exact ⟨first :: before, item, after, rfl,
                List.forall_mem_cons.mpr ⟨succeeded, clean⟩, found⟩
        | false =>
            rw [(forEach_cons_raises body succeeded rest).1] at member
            exact ⟨[], first, rest, rfl, by simp, member⟩
      · rintro ⟨before, item, after, split, clean, found⟩
        cases before with
        | nil =>
            obtain ⟨rfl, rfl⟩ := List.cons.inj split
            exact mem_bind_events.mpr (Or.inl found)
        | cons earlier others =>
            obtain ⟨rfl, restEq⟩ := List.cons.inj split
            rw [List.forall_mem_cons] at clean
            rw [forEach_cons_succeeds body clean.1, List.mem_append]
            exact Or.inr (ih.mpr ⟨others, item, after, restEq, clean.2, found⟩)

theorem forEach_append (first second : List ι) :
    forEach (first ++ second) body = forEach first body >>= fun _ => forEach second body := by
  induction first with
  | nil => rfl
  | cons item rest ih =>
      rw [List.cons_append]
      cases succeeded : (body item).succeeds with
      | true =>
          rw [forEach_cons_succeeds body succeeded, forEach_cons_succeeds body succeeded, ih]
          cases result : (forEach rest body).result with
          | ok value => simp [bind_ok result, bind_ok, List.append_assoc]
          | error error => simp [bind_error result, bind_error]
      | false =>
          cases result : (body item).result with
          | ok value => simp [succeeds, result] at succeeded
          | error error => simp [forEach, bind_error result, bind_error]

theorem forEach_events {items : List ι}
    (succeeded : ∀ item ∈ items, (body item).succeeds = true) :
    (forEach items body).events = items.flatMap fun item => (body item).events := by
  induction items with
  | nil => rfl
  | cons item rest ih =>
      rw [List.forall_mem_cons] at succeeded
      rw [forEach_cons_succeeds body succeeded.1, List.flatMap_cons, ← ih succeeded.2]

/-- A loop whose body leaves one event or raises leaves the events of the items before the first
one that raises. -/
theorem forEach_singles {leaves : ι → ε → Prop}
    (each : ∀ item, (∃ event, leaves item event ∧ body item = ⟨[event], .ok ()⟩) ∨
      (∀ event, ¬leaves item event) ∧ ∃ error, body item = ⟨[], .error error⟩)
    (items : List ι) :
    ((forEach items body).succeeds = true ↔ ∀ item ∈ items, ∃ event, leaves item event) ∧
      ∃ done rest, items = done ++ rest ∧ (∀ item ∈ rest.head?, ∀ event, ¬leaves item event) ∧
        List.Forall₂ leaves done (forEach items body).events := by
  induction items with
  | nil => exact ⟨by simp [succeeds, pure], [], [], rfl, by simp, List.Forall₂.nil⟩
  | cons item items ih =>
      obtain ⟨returns, done, rest, split, stops, sent⟩ := ih
      rcases each item with ⟨event, left, run⟩ | ⟨never, error, run⟩
      · have succeeded : (body item).succeeds = true := by rw [run]; rfl
        rw [forEach_cons_succeeds body succeeded, List.forall_mem_cons, run]
        refine ⟨returns.trans (and_iff_right ⟨event, left⟩).symm, item :: done, rest, ?_, stops,
          .cons left sent⟩
        rw [split, List.cons_append]
      · have raised : (body item).succeeds = false := by rw [run]; rfl
        obtain ⟨events, fails⟩ := forEach_cons_raises body raised items
        rw [fails, events, run]
        refine ⟨iff_of_false (by simp) fun all => ?_, [], item :: items, rfl, ?_,
          List.Forall₂.nil⟩
        · obtain ⟨event, left⟩ := all item List.mem_cons_self
          exact never event left
        · rintro first ⟨⟩
          exact never

theorem forEach_map {κ : Type} (item : κ → ι) (items : List κ) :
    forEach (items.map item) body = forEach items fun key => body (item key) := by
  induction items with
  | nil => rfl
  | cons key rest ih =>
      rw [List.map_cons, forEach, forEach, ih]

theorem forEach_filterMap {κ : Type} {item : κ → Option ι} {each : κ → Traced ε Unit}
    (skips : ∀ key, item key = none → each key = pure ())
    (runs : ∀ key found, item key = some found → each key = body found) (keys : List κ) :
    forEach (keys.filterMap item) body = forEach keys each := by
  induction keys with
  | nil => rfl
  | cons key rest ih =>
      cases found : item key with
      | none => rw [List.filterMap_cons_none found, ih, forEach, skips key found, pure_bind]
      | some value =>
          rw [List.filterMap_cons_some found, forEach, forEach, ih, runs key value found]

/-- Among the events that stem from succeeding items only, the loop leaves the same ones
as without the failing items exactly where no failing item stands before a succeeding one
that has such an event. -/
theorem forEach_isolated_iff (select : ε → Bool) {items : List ι}
    (selects : ∀ item ∈ items, (body item).succeeds = false →
      ∀ event ∈ (body item).events, select event = false) :
    (forEach items body).events.filter select =
        (forEach (items.filter fun item => (body item).succeeds) body).events.filter select ↔
      ∀ before item after, items = before ++ item :: after → (body item).succeeds = false →
        ∀ later ∈ after, (body later).succeeds = true →
          (body later).events.filter select = [] := by
  induction items with
  | nil => simp
  | cons first rest ih =>
      rw [List.forall_mem_cons] at selects
      have alone : (forEach (rest.filter fun item => (body item).succeeds) body).events =
          (rest.filter fun item => (body item).succeeds).flatMap fun item => (body item).events :=
        forEach_events body fun item member => by simpa using (List.mem_filter.mp member).2
      cases succeeded : (body first).succeeds with
      | true =>
          rw [List.filter_cons, if_pos succeeded, forEach_cons_succeeds body succeeded,
            forEach_cons_succeeds body succeeded]
          simp only [List.filter_append, List.append_cancel_left_eq]
          rw [ih selects.2]
          constructor
          · intro isolated before item after split raised
            cases before with
            | nil =>
                obtain ⟨rfl, rfl⟩ := List.cons.inj split
                rw [succeeded] at raised
                cases raised
            | cons earlier others =>
                exact isolated others item after (List.cons.inj split).2 raised
          · intro isolated before item after split raised
            exact isolated (first :: before) item after (by rw [split]; rfl) raised
      | false =>
          have nothing : (body first).events.filter select = [] :=
            List.filter_eq_nil_iff.mpr fun event member =>
              Bool.eq_false_iff.mp (selects.1 succeeded event member)
          rw [List.filter_cons, if_neg (by simp [succeeded]),
            (forEach_cons_raises body succeeded rest).1, nothing, alone, eq_comm,
            List.filter_flatMap, List.flatMap_eq_nil_iff]
          constructor
          · intro silent before item after split raised later member laterSucceeds
            have inRest : later ∈ rest := by
              cases before with
              | nil =>
                  obtain ⟨-, rfl⟩ := List.cons.inj split
                  exact member
              | cons earlier others =>
                  rw [(List.cons.inj split).2]
                  exact List.mem_append_right _ (List.mem_cons_of_mem _ member)
            exact silent later (List.mem_filter.mpr ⟨inRest, laterSucceeds⟩)
          · intro isolated later member
            obtain ⟨inRest, laterSucceeds⟩ := List.mem_filter.mp member
            exact isolated [] first rest rfl succeeded later inRest (by simpa using laterSucceeds)

end Loop

end Traced

end Python
