import V3Keeper.Library.Pacing
import V3Keeper.Main.Services

/-!
How long the tasks of `AppState` rest. The loop comes round with every block, and the timestamps
that the tasks leave behind hold back what is not due.
-/

namespace V3Keeper

open Python StepRun Lts Component Pacing

variable {κ τ ρ G : Type}

def PriceAsked.currentTime (asked : PriceAsked) : Nat := asked.2.currentTime

section Turns

variable [BEq τ] [BEq ρ] [PyOrder τ] [PyText ρ]

end Turns

end V3Keeper
