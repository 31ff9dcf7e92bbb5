import Mathlib.Data.List.Basic

/-! `itertools.batched` for a positive batch size. -/

namespace Batched

variable {α : Type*}

/-- The batch under construction is kept in reverse and has `room` free places. -/
def fill (size : Nat) : (room : Nat) → (batch : List α) → List α → List (List α)
  | _, batch, [] => [batch.reverse]
  | 0, batch, item :: rest => batch.reverse :: fill size (size - 1) [item] rest
  | room + 1, batch, item :: rest => fill size room (item :: batch) rest

def batched (size : Nat) : List α → List (List α)
  | [] => []
  | item :: rest => fill size (size - 1) [item] rest

theorem fill_flatten (size room : Nat) (batch items : List α) :
    (fill size room batch items).flatten = batch.reverse ++ items := by
  induction items generalizing room batch with
  | nil => simp [fill]
  | cons item rest ih => cases room <;> simp [fill, ih]

@[simp] theorem batched_flatten (size : Nat) (items : List α) :
    (batched size items).flatten = items := by
  cases items <;> simp [batched, fill_flatten]

end Batched
