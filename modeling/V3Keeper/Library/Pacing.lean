import V3Keeper.Library.Component

/-!
A service that rests after some of its calls. Such a call records a time, and as long as the
interval since then has not passed the service answers without doing anything.
-/

namespace Pacing

open StepRun Component

variable {σ ι ο : Type*}

section History

variable {step : σ → ι → ο × σ} {recorded : σ → Option Nat} {interval : Int} {time : ι → Nat}
  {records : Transition σ ι ο → Option Nat} {idle : Transition σ ι ο → Prop}

end History

end Pacing
