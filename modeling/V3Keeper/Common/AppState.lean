/-! `AppState` of `src/common/app_state.py`, the state of one process that its tasks keep
between two runs. -/

namespace V3Keeper

structure AppState where
  lastPriceUpdatedTimestamp : Option Nat := none
  forceExitsUpdatedTimestamp : Option Nat := none
  ltvUpdatedTimestamp : Option Nat := none
  deriving DecidableEq, Repr

/-- `timestamp and timestamp + interval > current_time`, where a timestamp of 0 is falsy. -/
def withinInterval (timestamp : Option Nat) (interval : Int) (currentTime : Nat) : Bool :=
  match timestamp with
  | none => false
  | some updated => updated != 0 && decide ((currentTime : Int) < updated + interval)

theorem withinInterval_later {timestamp : Option Nat} {interval : Int} {currentTime later : Nat}
    (outside : withinInterval timestamp interval currentTime = false)
    (order : currentTime ≤ later) : withinInterval timestamp interval later = false := by
  cases timestamp with
  | none => rfl
  | some updated =>
      simp only [withinInterval, Bool.and_eq_false_iff, decide_eq_false_iff_not, Int.not_lt]
        at outside ⊢
      exact outside.imp_right fun expired => by omega

end V3Keeper
