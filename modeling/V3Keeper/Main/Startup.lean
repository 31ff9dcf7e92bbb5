import V3Keeper.Library.Gates
import V3Keeper.Library.Json
import V3Keeper.Main.Rounds

/-!
`startup_checks` of `src/common/startup_check.py` up to its `get_protocol_config`. The loops over
the nodes ask all of them again until one is ready, and what is still missing after that config
are log lines.
-/

namespace V3Keeper

open Python Lts Gates Component

inductive SyncStatus where
  | flag (syncing : Bool)
  | progress

structure ConsensusNode where
  syncing : Except PyError Json
  finalityCheckpoint : Except PyError Json

structure ExecutionNode where
  syncing : Except PyError SyncStatus
  blockNumber : Except PyError Nat

def ConsensusNode.isSyncing (node : ConsensusNode) : Except PyError Json := do
  let syncing ← node.syncing
  let data ← syncing.item "data"
  data.item "is_syncing"

def ConsensusNode.finalizedEpoch (node : ConsensusNode) : Except PyError Json := do
  let checkpoint ← node.finalityCheckpoint
  let data ← checkpoint.item "data"
  let finalized ← data.item "finalized"
  finalized.item "epoch"

/-- An exception means that the node is not ready, and so does the distance of a syncing node,
read or not. -/
def checkConsensusNode (node : ConsensusNode) : Bool :=
  match node.isSyncing with
  | .error _ => false
  | .ok (.bool true) => false
  | .ok _ => node.finalizedEpoch.isOk

/-- Of what `eth_syncing` answers only the flag is refused. -/
def checkExecutionNode (node : ExecutionNode) : Bool :=
  match node.syncing with
  | .error _ => false
  | .ok (.flag true) => false
  | .ok _ =>
      match node.blockNumber with
      | .error _ => false
      | .ok blockNumber => decide (0 < blockNumber)

abbrev NodeAnswers (ν : Type) := (index : Nat) → (endpoint : String) → ν

inductive StartupAnswer where
  | keeperBalance (balance : Except PyError Nat)
  | consensusNodes (nodes : NodeAnswers ConsensusNode)
  | executionNodes (nodes : NodeAnswers ExecutionNode)
  | l2ExecutionNodes (nodes : NodeAnswers ExecutionNode)
  | graphNode (latestBlock : Except String Nat) (finalizedBlock : Except PyError Nat)
  | ipfsNodes (nodes : NodeAnswers (Except PyError Unit))

structure StartupSettings where
  keeperMinBalance : Int
  consensusEndpoints : List String
  executionEndpoints : List String
  l2ExecutionEndpoints : List String
  graphEndpoint : String
  ipfsFetchEndpoints : List String

abbrev StartupGate := Gate StartupAnswer PyError

def anyReady (endpoints : List String) (ready : NodeAnswers Bool) : Bool :=
  endpoints.zipIdx.any fun entry => ready entry.2 entry.1

def judgeReady (endpoints : List String) (readiness : StartupAnswer → Option (NodeAnswers Bool))
    (answer : StartupAnswer) : Option (Verdict PyError) :=
  (readiness answer).map fun ready => if anyReady endpoints ready then .passes else .again

def retried (endpoints : List String) (readiness : StartupAnswer → Option (NodeAnswers Bool)) :
    StartupGate := .asks (judgeReady endpoints readiness)

def checkedOnce (result : StartupAnswer → Option (Except PyError Unit)) : StartupGate :=
  .asks fun answer => (result answer).map fun checked =>
    match checked with
    | .ok () => .passes
    | .error error => .raises error

section Checks

variable (startup : StartupSettings)

/-- A balance that is too low is only logged. -/
def checkKeeperBalance : List StartupGate :=
  if startup.keeperMinBalance ≤ 0 then []
  else
    [checkedOnce fun answer =>
      match answer with
      | .keeperBalance balance => some (balance.map fun _ => ())
      | _ => none]

def checkConsensusNodes : StartupGate :=
  retried startup.consensusEndpoints fun answer =>
    match answer with
    | .consensusNodes nodes => some fun index endpoint => checkConsensusNode (nodes index endpoint)
    | _ => none

def checkExecutionNodes : StartupGate :=
  retried startup.executionEndpoints fun answer =>
    match answer with
    | .executionNodes nodes => some fun index endpoint => checkExecutionNode (nodes index endpoint)
    | _ => none

def checkL2ExecutionNodes : List StartupGate :=
  if startup.l2ExecutionEndpoints.isEmpty then []
  else
    [retried startup.l2ExecutionEndpoints fun answer =>
      match answer with
      | .l2ExecutionNodes nodes =>
          some fun index endpoint => checkExecutionNode (nodes index endpoint)
      | _ => none]

def checkPriceIntervals (price : PriceSettings) : StartupGate :=
  .settled
    (if price.priceUpdateInterval ≤ price.priceMaxWaitingTime then
      .error (.valueError ("PRICE_MAX_WAITING_TIME (" ++ toString price.priceMaxWaitingTime ++
        ") should be less than PRICE_UPDATE_INTERVAL (" ++ toString price.priceUpdateInterval ++
        ")"))
    else .ok ())

/-- `check_for_graph_node_sync_to_block('finalized')`: the block is read once the graph node has
answered. -/
def checkForGraphNodeSyncToFinalized (endpoint : String) (latestBlock : Except String Nat)
    (finalizedBlock : Except PyError Nat) : Except PyError Unit :=
  match latestBlock, finalizedBlock with
  | .ok _, .error error => .error error
  | .error text, .error _ => checkForGraphNodeSyncToBlock endpoint (.error text) 0
  | _, .ok blockNumber => checkForGraphNodeSyncToBlock endpoint latestBlock blockNumber

def checkGraphNode : StartupGate :=
  checkedOnce fun answer =>
    match answer with
    | .graphNode latestBlock finalizedBlock =>
        some (checkForGraphNodeSyncToFinalized startup.graphEndpoint latestBlock finalizedBlock)
    | _ => none

def checkIpfsFetchNodes : List StartupGate :=
  [.settled
      (if startup.ipfsFetchEndpoints.isEmpty then
        .error (.valueError
          "IPFS_FETCH_ENDPOINTS is empty, at least one endpoint is required.")
      else .ok ()),
    retried startup.ipfsFetchEndpoints fun answer =>
      match answer with
      | .ipfsNodes nodes => some fun index endpoint => (nodes index endpoint).isOk
      | _ => none]

end Checks

def LoopSettings.isGraphUsed (settings : LoopSettings) : Bool :=
  settings.forcesExits || !settings.skipUpdateLtv

def startupChecks (settings : MainSettings) (startup : StartupSettings) : List StartupGate :=
  checkKeeperBalance startup ++
    ([checkConsensusNodes startup, checkExecutionNodes startup] ++
      ((if settings.loop.updatesPrice then
          checkL2ExecutionNodes startup ++ [checkPriceIntervals settings.price]
        else []) ++
        ((if settings.loop.isGraphUsed then [checkGraphNode startup] else []) ++
          checkIpfsFetchNodes startup)))

def ReadyAtLast {ν : Type} (endpoints : List String) (check : ν → Bool)
    (rounds : List (NodeAnswers ν)) : Prop :=
  ∃ waits last, rounds = waits ++ [last] ∧
    (∀ nodes ∈ waits, ∀ entry ∈ endpoints.zipIdx, check (nodes entry.2 entry.1) = false) ∧
    ∃ entry ∈ endpoints.zipIdx, check (last entry.2 entry.1) = true

structure StartupRounds where
  balance : Option Nat
  consensus : List (NodeAnswers ConsensusNode)
  execution : List (NodeAnswers ExecutionNode)
  l2Execution : List (NodeAnswers ExecutionNode)
  graph : Option (Nat × Nat)
  ipfs : List (NodeAnswers (Except PyError Unit))

def StartupRounds.answers (rounds : StartupRounds) : List StartupAnswer :=
  (rounds.balance.toList.map fun balance => .keeperBalance (.ok balance)) ++
    (rounds.consensus.map .consensusNodes ++ (rounds.execution.map .executionNodes ++
      (rounds.l2Execution.map .l2ExecutionNodes ++
        ((rounds.graph.toList.map fun blocks => .graphNode (.ok blocks.1) (.ok blocks.2)) ++
          rounds.ipfs.map .ipfsNodes))))

structure StartupRounds.Pass (settings : MainSettings) (startup : StartupSettings)
    (rounds : StartupRounds) : Prop where
  balance : rounds.balance.isSome = true ↔ 0 < startup.keeperMinBalance
  consensus : ReadyAtLast startup.consensusEndpoints checkConsensusNode rounds.consensus
  execution : ReadyAtLast startup.executionEndpoints checkExecutionNode rounds.execution
  l2Execution : if settings.loop.updatesPrice = true ∧ startup.l2ExecutionEndpoints ≠ [] then
    ReadyAtLast startup.l2ExecutionEndpoints checkExecutionNode rounds.l2Execution
    else rounds.l2Execution = []
  intervals : settings.loop.updatesPrice = true →
    settings.price.priceMaxWaitingTime < settings.price.priceUpdateInterval
  graph : if settings.loop.isGraphUsed = true then
    ∃ latest finalized, rounds.graph = some (latest, finalized) ∧ finalized ≤ latest
    else rounds.graph = none
  ipfs : ReadyAtLast startup.ipfsFetchEndpoints Except.isOk rounds.ipfs

section Gates

variable {ν : Type} {endpoints : List String} {check : ν → Bool}
  {wrap : NodeAnswers ν → StartupAnswer} {readiness : StartupAnswer → Option (NodeAnswers Bool)}

theorem anyReady_eq_true {nodes : NodeAnswers ν} :
    anyReady endpoints (fun index endpoint => check (nodes index endpoint)) = true ↔
      ∃ entry ∈ endpoints.zipIdx, check (nodes entry.2 entry.1) = true :=
  List.any_eq_true

theorem anyReady_eq_false {nodes : NodeAnswers ν} :
    anyReady endpoints (fun index endpoint => check (nodes index endpoint)) = false ↔
      ∀ entry ∈ endpoints.zipIdx, check (nodes entry.2 entry.1) = false := by
  simp [anyReady]

structure ReadsNodes (wrap : NodeAnswers ν → StartupAnswer) (check : ν → Bool)
    (readiness : StartupAnswer → Option (NodeAnswers Bool)) : Prop where
  reads : ∀ nodes, readiness (wrap nodes) = some fun index endpoint => check (nodes index endpoint)
  only : ∀ answer, (readiness answer).isSome = true → ∃ nodes, answer = wrap nodes

theorem ReadsNodes.judged (own : ReadsNodes wrap check readiness) {verdict : Verdict PyError}
    {answer : StartupAnswer} :
    judgeReady endpoints readiness answer = some verdict ↔
      ∃ nodes, answer = wrap nodes ∧
        (if anyReady endpoints fun index endpoint => check (nodes index endpoint)
          then Verdict.passes else .again) = verdict := by
  constructor
  · intro judged
    obtain ⟨ready, read, given⟩ := Option.map_eq_some_iff.mp judged
    obtain ⟨nodes, rfl⟩ := own.only answer (by simp [read])
    rw [own.reads, Option.some.injEq] at read
    exact ⟨nodes, rfl, read ▸ given⟩
  · rintro ⟨nodes, rfl, given⟩
    rw [judgeReady, own.reads, Option.map_some, given]

theorem ReadsNodes.again (own : ReadsNodes wrap check readiness) (answer : StartupAnswer) :
    judgeReady endpoints readiness answer = some .again ↔ ∃ nodes, answer = wrap nodes ∧
      ∀ entry ∈ endpoints.zipIdx, check (nodes entry.2 entry.1) = false := by
  rw [own.judged]
  refine exists_congr fun nodes => and_congr_right fun _ => ?_
  rw [← anyReady_eq_false]
  cases anyReady endpoints fun index endpoint => check (nodes index endpoint) <;> simp

theorem ReadsNodes.passes (own : ReadsNodes wrap check readiness) (answer : StartupAnswer) :
    judgeReady endpoints readiness answer = some .passes ↔ ∃ nodes, answer = wrap nodes ∧
      ∃ entry ∈ endpoints.zipIdx, check (nodes entry.2 entry.1) = true := by
  rw [own.judged]
  refine exists_congr fun nodes => and_congr_right fun _ => ?_
  rw [← anyReady_eq_true]
  cases anyReady endpoints fun index endpoint => check (nodes index endpoint) <;> simp

theorem retried_passed (own : ReadsNodes wrap check readiness) {answers : List StartupAnswer} :
    Passed (retried endpoints readiness) answers ↔
      ∃ rounds, answers = rounds.map wrap ∧ ReadyAtLast endpoints check rounds := by
  rw [retried, Passed, polled_wrapped own.again own.passes]
  constructor
  · rintro ⟨waits, last, rfl, unready, ready⟩
    exact ⟨waits ++ [last], rfl, waits, last, rfl, unready, ready⟩
  · rintro ⟨rounds, rfl, waits, last, rfl, unready, ready⟩
    exact ⟨waits, last, rfl, unready, ready⟩

theorem checkedOnce_passed {result : StartupAnswer → Option (Except PyError Unit)}
    {answers : List StartupAnswer} :
    Passed (checkedOnce result) answers ↔ ∃ answer, answers = [answer] ∧
      result answer = some (.ok ()) := by
  have never : ∀ answer, ((result answer).map fun checked =>
      match checked with
      | .ok () => Verdict.passes
      | .error error => .raises error) ≠ some .again := by
    intro answer
    rcases result answer with _ | ⟨error | ⟨⟨⟩⟩⟩ <;> simp
  rw [checkedOnce, Passed]
  constructor
  · rintro ⟨waits, last, rfl, unready, ready⟩
    cases waits with
    | nil =>
        refine ⟨last, rfl, ?_⟩
        rcases checked : result last with _ | ⟨error | ⟨⟨⟩⟩⟩
        · simp [checked] at ready
        · simp [checked] at ready
        · rfl
    | cons first waits => exact (never first (unready first List.mem_cons_self)).elim
  · rintro ⟨answer, rfl, checked⟩
    exact ⟨[], answer, rfl, by simp, by simp [checked]⟩

end Gates

section Checks

variable {settings : MainSettings} {startup : StartupSettings} {answers : List StartupAnswer}

theorem checkKeeperBalance_through :
    Through (checkKeeperBalance startup) answers ↔ ∃ balance : Option Nat,
      answers = balance.toList.map (fun balance => .keeperBalance (.ok balance)) ∧
        (balance.isSome = true ↔ 0 < startup.keeperMinBalance) := by
  unfold checkKeeperBalance
  split
  case isTrue free =>
    rw [through_nil]
    constructor
    · rintro rfl
      exact ⟨none, rfl, by simpa using free⟩
    · rintro ⟨balance, rfl, asked⟩
      cases balance with
      | none => rfl
      | some balance => exact absurd (asked.mp rfl) (by omega)
  case isFalse asked =>
    rw [through_singleton, checkedOnce_passed]
    constructor
    · rintro ⟨answer, rfl, checked⟩
      cases answer with
      | keeperBalance balance =>
          cases balance with
          | error error => cases checked
          | ok balance => exact ⟨some balance, rfl, by simpa using asked⟩
      | _ => cases checked
    · rintro ⟨balance, rfl, known⟩
      cases balance with
      | none => simp at known; omega
      | some balance => exact ⟨_, rfl, rfl⟩

theorem checkConsensusNodes_passed :
    Passed (checkConsensusNodes startup) answers ↔ ∃ rounds,
      answers = rounds.map .consensusNodes ∧
        ReadyAtLast startup.consensusEndpoints checkConsensusNode rounds :=
  retried_passed ⟨fun _ => rfl, fun answer read => by cases answer <;> simp at read ⊢⟩

theorem checkExecutionNodes_passed :
    Passed (checkExecutionNodes startup) answers ↔ ∃ rounds,
      answers = rounds.map .executionNodes ∧
        ReadyAtLast startup.executionEndpoints checkExecutionNode rounds :=
  retried_passed ⟨fun _ => rfl, fun answer read => by cases answer <;> simp at read ⊢⟩

theorem checkL2ExecutionNodes_through :
    Through (checkL2ExecutionNodes startup) answers ↔ ∃ rounds,
      answers = rounds.map .l2ExecutionNodes ∧
        if startup.l2ExecutionEndpoints ≠ [] then
          ReadyAtLast startup.l2ExecutionEndpoints checkExecutionNode rounds
        else rounds = [] := by
  unfold checkL2ExecutionNodes
  split
  case isTrue empty =>
    have none : startup.l2ExecutionEndpoints = [] := by simpa using empty
    simp [through_nil, none]
  case isFalse nonempty =>
    have some : startup.l2ExecutionEndpoints ≠ [] := by simpa using nonempty
    simp only [through_singleton, if_pos some]
    exact retried_passed ⟨fun _ => rfl, fun answer read => by cases answer <;> simp at read ⊢⟩

theorem checkPriceIntervals_passed {price : PriceSettings} :
    Passed (checkPriceIntervals price) answers ↔
      price.priceMaxWaitingTime < price.priceUpdateInterval ∧ answers = [] := by
  rw [checkPriceIntervals, Passed]
  refine and_congr_left fun _ => ?_
  split
  case isTrue wrong => simpa using wrong
  case isFalse right => simpa using right

theorem checkGraphNode_passed :
    Passed (checkGraphNode startup) answers ↔ ∃ latest finalized,
      answers = [.graphNode (.ok latest) (.ok finalized)] ∧ finalized ≤ latest := by
  rw [checkGraphNode, checkedOnce_passed]
  constructor
  · rintro ⟨answer, rfl, checked⟩
    cases answer with
    | graphNode latestBlock finalizedBlock =>
        rcases latestBlock with text | latest <;> rcases finalizedBlock with error | finalized <;>
          simp [checkForGraphNodeSyncToFinalized, checkForGraphNodeSyncToBlock] at checked
        exact ⟨latest, finalized, rfl, checked⟩
    | _ => cases checked
  · rintro ⟨latest, finalized, rfl, synced⟩
    exact ⟨_, rfl, by simp [checkForGraphNodeSyncToFinalized, checkForGraphNodeSyncToBlock, synced]⟩

theorem ReadyAtLast.endpoints {ν : Type} {endpoints : List String} {check : ν → Bool}
    {rounds : List (NodeAnswers ν)} (ready : ReadyAtLast endpoints check rounds) :
    endpoints ≠ [] := by
  rintro rfl
  obtain ⟨waits, last, -, -, entry, listed, -⟩ := ready
  cases listed

theorem checkIpfsFetchNodes_through :
    Through (checkIpfsFetchNodes startup) answers ↔ ∃ rounds, answers = rounds.map .ipfsNodes ∧
      ReadyAtLast startup.ipfsFetchEndpoints Except.isOk rounds := by
  rw [checkIpfsFetchNodes, through_cons]
  constructor
  · rintro ⟨own, later, rfl, ⟨-, rfl⟩, through⟩
    exact (retried_passed ⟨fun _ => rfl, fun answer read => by cases answer <;> simp at read ⊢⟩).mp
      (through_singleton.mp through)
  · rintro ⟨rounds, rfl, ready⟩
    have some : ¬startup.ipfsFetchEndpoints.isEmpty = true := by simpa using ready.endpoints
    refine ⟨[], _, rfl, ⟨if_neg some, rfl⟩, through_singleton.mpr ?_⟩
    exact (retried_passed ⟨fun _ => rfl, fun answer read => by cases answer <;> simp at read ⊢⟩).mpr
      ⟨rounds, rfl, ready⟩

theorem priceChecks_through :
    Through (if settings.loop.updatesPrice = true then
      checkL2ExecutionNodes startup ++ [checkPriceIntervals settings.price] else []) answers ↔
      ∃ rounds, answers = rounds.map .l2ExecutionNodes ∧
        (if settings.loop.updatesPrice = true ∧ startup.l2ExecutionEndpoints ≠ [] then
          ReadyAtLast startup.l2ExecutionEndpoints checkExecutionNode rounds
        else rounds = []) ∧
        (settings.loop.updatesPrice = true →
          settings.price.priceMaxWaitingTime < settings.price.priceUpdateInterval) := by
  cases settings.loop.updatesPrice with
  | false => simp [through_nil]
  | true =>
      simp only [if_true, true_and, true_implies, through_append, through_singleton,
        checkL2ExecutionNodes_through, checkPriceIntervals_passed]
      constructor
      · rintro ⟨_, _, rfl, ⟨rounds, rfl, ready⟩, intervals, rfl⟩
        exact ⟨rounds, List.append_nil _, ready, intervals⟩
      · rintro ⟨rounds, rfl, ready, intervals⟩
        exact ⟨_, [], (List.append_nil _).symm, ⟨rounds, rfl, ready⟩, intervals, rfl⟩

theorem graphChecks_through :
    Through (if settings.loop.isGraphUsed = true then [checkGraphNode startup] else []) answers ↔
      ∃ blocks : Option (Nat × Nat),
        answers = blocks.toList.map (fun blocks => .graphNode (.ok blocks.1) (.ok blocks.2)) ∧
          if settings.loop.isGraphUsed = true then
            ∃ latest finalized, blocks = some (latest, finalized) ∧ finalized ≤ latest
          else blocks = none := by
  cases settings.loop.isGraphUsed with
  | false => simp [through_nil]
  | true =>
      simp only [if_true, through_singleton, checkGraphNode_passed]
      constructor
      · rintro ⟨latest, finalized, rfl, synced⟩
        exact ⟨_, rfl, latest, finalized, rfl, synced⟩
      · rintro ⟨_, rfl, latest, finalized, rfl, synced⟩
        exact ⟨latest, finalized, rfl, synced⟩

theorem startupChecks_through :
    Through (startupChecks settings startup) answers ↔
      ∃ rounds : StartupRounds, rounds.answers = answers ∧ rounds.Pass settings startup := by
  simp only [startupChecks, through_append, through_cons, through_nil, checkKeeperBalance_through,
    checkConsensusNodes_passed, checkExecutionNodes_passed, priceChecks_through,
    graphChecks_through, checkIpfsFetchNodes_through]
  constructor
  · rintro ⟨_, _, rfl, ⟨balance, rfl, asked⟩, _, _, rfl,
      ⟨_, _, rfl, ⟨consensus, rfl, consensusReady⟩, _, _, rfl, ⟨execution, rfl, executionReady⟩,
        rfl⟩, _, _, rfl, ⟨l2Execution, rfl, l2Ready, intervals⟩, _, _, rfl, ⟨blocks, rfl, synced⟩,
      ipfs, rfl, fetched⟩
    refine ⟨⟨balance, consensus, execution, l2Execution, blocks, ipfs⟩, ?_, asked, consensusReady,
      executionReady, l2Ready, intervals, synced, fetched⟩
    simp [StartupRounds.answers]
  · rintro ⟨rounds, rfl, pass⟩
    refine ⟨_, _, rfl, ⟨rounds.balance, rfl, pass.balance⟩, _, _, ?_,
      ⟨_, _, rfl, ⟨rounds.consensus, rfl, pass.consensus⟩, _, [], rfl,
        ⟨rounds.execution, rfl, pass.execution⟩, rfl⟩, _, _, rfl,
      ⟨rounds.l2Execution, rfl, pass.l2Execution, pass.intervals⟩, _, _, rfl,
      ⟨rounds.graph, rfl, pass.graph⟩, rounds.ipfs, rfl, pass.ipfs⟩
    simp [List.append_assoc]

end Checks

def readyConsensusNode : ConsensusNode where
  syncing := .ok (.obj [("data", .obj [("is_syncing", .bool false)])])
  finalityCheckpoint := .ok (.obj [("data", .obj [("finalized", .obj [("epoch", .str "1")])])])

def readyExecutionNode : ExecutionNode where
  syncing := .ok (.flag false)
  blockNumber := .ok 1

structure Startable (settings : MainSettings) (startup : StartupSettings) : Prop where
  consensus : startup.consensusEndpoints ≠ []
  execution : startup.executionEndpoints ≠ []
  intervals : settings.loop.updatesPrice = true →
    settings.price.priceMaxWaitingTime < settings.price.priceUpdateInterval
  ipfs : startup.ipfsFetchEndpoints ≠ []

theorem readyAtLast_single {ν : Type} {endpoints : List String} {check : ν → Bool} {node : ν}
    (some : endpoints ≠ []) (ready : check node = true) :
    ReadyAtLast endpoints check [fun _ _ => node] := by
  obtain ⟨first, rest, rfl⟩ := List.exists_cons_of_ne_nil some
  exact ⟨[], fun _ _ => node, rfl, by simp, (first, 0), by simp, ready⟩

theorem exists_pass_iff {settings : MainSettings} {startup : StartupSettings} :
    (∃ rounds : StartupRounds, rounds.Pass settings startup) ↔ Startable settings startup := by
  constructor
  · rintro ⟨rounds, pass⟩
    exact ⟨pass.consensus.endpoints, pass.execution.endpoints, pass.intervals, pass.ipfs.endpoints⟩
  · intro startable
    refine ⟨⟨if 0 < startup.keeperMinBalance then some 0 else none,
      [fun _ _ => readyConsensusNode], [fun _ _ => readyExecutionNode],
      if settings.loop.updatesPrice = true ∧ startup.l2ExecutionEndpoints ≠ [] then
        [fun _ _ => readyExecutionNode] else [],
      if settings.loop.isGraphUsed = true then some (1, 1) else none, [fun _ _ => .ok ()]⟩,
      ?_, readyAtLast_single startable.consensus rfl, readyAtLast_single startable.execution rfl,
      ?_, startable.intervals, ?_, readyAtLast_single startable.ipfs rfl⟩
    · split <;> simp [*]
    · split
      case isTrue asked => exact readyAtLast_single asked.2 rfl
      case isFalse => rfl
    · split
      case isTrue => exact ⟨1, 1, rfl, Nat.le_refl 1⟩
      case isFalse => rfl

/-- As long as no check has failed, the startup can still succeed exactly with settings that leave
no loop without an endpoint and no check without its answer; with others no answers bring it
through. -/
theorem startup_can_succeed_iff (settings : MainSettings) (startup : StartupSettings)
    (answers : List StartupAnswer) (left : List StartupGate)
    (reached : run step (settle (startupChecks settings startup)) answers = some (.ok left)) :
    (∃ more, run step (settle (startupChecks settings startup)) (answers ++ more) =
      some (.ok [])) ↔ Startable settings startup := by
  rw [comes_through_iff reached, ← exists_through_iff, ← exists_pass_iff]
  simp only [startupChecks_through]
  constructor
  · rintro ⟨answers, rounds, -, pass⟩
    exact ⟨rounds, pass⟩
  · rintro ⟨rounds, pass⟩
    exact ⟨rounds.answers, rounds, rfl, pass⟩

def singleNodes : StartupSettings where
  keeperMinBalance := 0
  consensusEndpoints := ["https://consensus"]
  executionEndpoints := ["https://execution"]
  l2ExecutionEndpoints := []
  graphEndpoint := "https://graph"
  ipfsFetchEndpoints := ["https://ipfs"]

def syncingConsensusNode : ConsensusNode where
  syncing := .ok (.obj [("data", .obj [("is_syncing", .bool true)])])
  finalityCheckpoint := .error .requestError

/-- The consensus node is still syncing when it is asked first. -/
theorem startup_can_succeed_iff_syncing :
    (∃ more, run step (settle (startupChecks forceExitsSettings singleNodes))
      ([.consensusNodes fun _ _ => syncingConsensusNode] ++ more) = some (.ok [])) ↔
      Startable forceExitsSettings singleNodes :=
  startup_can_succeed_iff forceExitsSettings singleNodes _ _ rfl

section Keeper

variable {κ τ ρ G : Type} [BEq τ] [BEq ρ] [PyOrder τ] [PyText ρ] {settings : MainSettings}
  {build : κ → Nat → Except PyError ProtocolConfig} {curve : Curve G} {keeper : Keeper κ τ ρ}

end Keeper

end V3Keeper
