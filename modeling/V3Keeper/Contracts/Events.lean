import V3Keeper.Library.Batched
import V3Keeper.Library.EventLog
import V3Keeper.Library.Python

/-!
`ContractWrapper._get_last_event` of `src/common/contracts.py`: the range is cut into
chunks from its end, the chunks are queried in batches, and the last event of the
first chunk that has one is returned.
-/

namespace V3Keeper

open Python Batched EventLog

structure EventSettings where
  eventsRangeSec : Int
  secondsPerBlock : Int
  eventsConcurrency : Int
  deriving DecidableEq, Repr

/-- `max(EVENTS_RANGE_SEC // SECONDS_PER_BLOCK, 1)`. -/
def EventSettings.blocksRange (settings : EventSettings) : Nat :=
  (max (settings.eventsRangeSec.fdiv settings.secondsPerBlock) 1).toNat

def eventRanges (blocksRange : Nat) (fromBlock chunkTo : Int) : List (Int × Int) :=
  if fromBlock ≤ chunkTo then
    (max (chunkTo - blocksRange) fromBlock, chunkTo) ::
      eventRanges blocksRange fromBlock (chunkTo - blocksRange - 1)
  else []
termination_by (chunkTo + 1 - fromBlock).toNat
decreasing_by omega

section

variable {ε : Type}

abbrev GetLogs (ε : Type) := Int → Int → Except PyError (List ε)

def scanBatches (getLogs : GetLogs ε) : List (List (Int × Int)) → Except PyError (Option ε)
  | [] => .ok none
  | batch :: rest =>
      match gather (batch.map fun range => getLogs range.1 range.2) with
      | .error error => .error error
      | .ok batchResults =>
          match batchResults.findSome? List.getLast? with
          | some event => .ok (some event)
          | none => scanBatches getLogs rest

def getLastEvent (settings : EventSettings) (getLogs : GetLogs ε) (fromBlock toBlock : Int) :
    Except PyError (Option ε) :=
  if settings.eventsConcurrency < 1 then .error (.valueError "n must be at least one")
  else scanBatches getLogs (batched settings.eventsConcurrency.toNat
    (eventRanges settings.blocksRange fromBlock toBlock))

/-- Every answer of a log query is the queried range of one chain. -/
def AnswersFrom (block : ε → Int) (chain : List ε) (getLogs : GetLogs ε) : Prop :=
  ∀ fromBlock toBlock events, getLogs fromBlock toBlock = .ok events →
    events = between block fromBlock toBlock chain

variable {block : ε → Int} {chain : List ε} {getLogs : GetLogs ε}

theorem scanBatches_ok (answers : AnswersFrom block chain getLogs)
    {batches : List (List (Int × Int))} {event : Option ε}
    (scanned : scanBatches getLogs batches = .ok event) :
    event = (batches.flatten.map fun range =>
      between block range.1 range.2 chain).findSome? List.getLast? := by
  induction batches with
  | nil => cases scanned; rfl
  | cons batch rest ih =>
      simp only [scanBatches] at scanned
      split at scanned
      case h_1 => cases scanned
      case h_2 batchResults gathered =>
        have results := gather_map_ok (fun range : Int × Int => between block range.1 range.2 chain)
          (fun range events => answers range.1 range.2 events) gathered
        rw [List.flatten_cons, List.map_append, List.findSome?_append, ← results]
        split at scanned
        case h_1 found foundEq => cases scanned; simp [foundEq]
        case h_2 missing => rw [missing, Option.none_or]; exact ih scanned

theorem eventRanges_findSome (ordered : InChainOrder block chain) (blocksRange : Nat)
    (fromBlock chunkTo : Int) :
    ((eventRanges blocksRange fromBlock chunkTo).map fun range =>
        between block range.1 range.2 chain).findSome? List.getLast? =
      (between block fromBlock chunkTo chain).getLast? := by
  induction chunkTo using eventRanges.induct blocksRange fromBlock with
  | case1 chunkTo inside ih =>
      rw [eventRanges, if_pos inside, List.map_cons, List.findSome?_cons, ih]
      by_cases lastChunk : chunkTo - blocksRange ≤ fromBlock
      · have empty : between block fromBlock (chunkTo - blocksRange - 1) chain = [] := by
          rw [between, List.filter_eq_nil_iff]
          intro event _
          simp only [Bool.and_eq_true, decide_eq_true_eq]
          omega
        rw [max_eq_right lastChunk, empty]
        cases (between block fromBlock chunkTo chain).getLast? <;> rfl
      · rw [max_eq_left (by omega)]
        have cut : between block fromBlock chunkTo chain = _ :=
          between_append ordered (show fromBlock ≤ chunkTo - blocksRange - 1 + 1 by omega)
            (by omega)
        rw [cut, List.getLast?_append, Int.sub_add_cancel]
        cases (between block (chunkTo - blocksRange) chunkTo chain).getLast? <;> rfl
  | case2 chunkTo outside =>
      have empty : between block fromBlock chunkTo chain = [] := by
        rw [between, List.filter_eq_nil_iff]
        intro event _
        simp only [Bool.and_eq_true, decide_eq_true_eq]
        omega
      rw [eventRanges, if_neg outside, empty]
      rfl

theorem getLastEvent_ok (answers : AnswersFrom block chain getLogs)
    (ordered : InChainOrder block chain) {settings : EventSettings} {fromBlock toBlock : Int}
    {event : Option ε}
    (found : getLastEvent settings getLogs fromBlock toBlock = .ok event) :
    event = (between block fromBlock toBlock chain).getLast? := by
  unfold getLastEvent at found
  split at found
  · cases found
  · rw [scanBatches_ok answers found, batched_flatten, eventRanges_findSome ordered]

theorem scanBatches_answered (answered : ∀ fromBlock toBlock, ∃ events,
    getLogs fromBlock toBlock = .ok events) (batches : List (List (Int × Int))) :
    ∃ event, scanBatches getLogs batches = .ok event := by
  induction batches with
  | nil => exact ⟨none, rfl⟩
  | cons batch rest ih =>
      have succeed : ∀ call ∈ batch.map fun range => getLogs range.1 range.2,
          ∃ events, call = .ok events := by
        intro call member
        obtain ⟨range, -, rfl⟩ := List.mem_map.mp member
        exact answered range.1 range.2
      obtain ⟨results, gathered⟩ := gather_ok succeed
      simp only [scanBatches, gathered]
      split
      case h_1 event _ => exact ⟨some event, rfl⟩
      case h_2 => exact ih

theorem getLastEvent_answered (answers : AnswersFrom block chain getLogs)
    (ordered : InChainOrder block chain)
    (answered : ∀ fromBlock toBlock, ∃ events, getLogs fromBlock toBlock = .ok events)
    {settings : EventSettings} (positive : 1 ≤ settings.eventsConcurrency)
    (fromBlock toBlock : Int) :
    getLastEvent settings getLogs fromBlock toBlock =
      .ok (between block fromBlock toBlock chain).getLast? := by
  obtain ⟨event, scanned⟩ := scanBatches_answered answered
    (batched settings.eventsConcurrency.toNat
      (eventRanges settings.blocksRange fromBlock toBlock))
  have found : getLastEvent settings getLogs fromBlock toBlock = .ok event := by
    rw [getLastEvent, if_neg (by omega), scanned]
  rw [found, getLastEvent_ok answers ordered found]

end

end V3Keeper
