import V3Keeper.Transaction.Progress

/-!
The wallet together with its account on the chain. A node accepts a transaction for a nonce that
is not mined yet, and any transaction accepted for the next nonce may be the one that is mined.
-/

namespace V3Keeper

open Python Lts

/-- Accepted transactions by nonce and the mined ones, each with the call that sent it. Those of
an earlier process have none. -/
structure Account where
  accepted : List (Nat × Option CallId)
  mined : List (Option CallId)

/-- A transaction whose answer is lost may have reached the node. -/
def NodeAnswer.lands (answer : NodeAnswer) (landed : Bool) : Bool :=
  match answer with
  | .accepted _ => true
  | .rejected _ => false
  | .raised _ => landed

def landsAt : Phase → Answer → Option Nat
  | .defaultGas nonce _, .transacted answer landed =>
      if answer.lands landed then some nonce else none
  | .highPriority nonce _, .transacted answer landed =>
      if answer.lands landed then some nonce else none
  | _, _ => none

/-- The answers are those of a node, possibly one that lags behind: a count is of mined
transactions, a mined nonce takes no transaction, and a receipt is for a mined transaction. -/
def Account.allows (account : Account) (call : CallId) (phase : Phase) (answer : Answer) : Bool :=
  (landsAt phase answer).all (fun nonce => decide (account.mined.length ≤ nonce)) &&
    match phase, answer with
    | .latestCount, .count (.ok latestNonce) => decide (latestNonce ≤ account.mined.length)
    | .receipt nonce _, .waited (.receipt _) => decide (account.mined[nonce]? = some (some call))
    | _, _ => true

def Account.accept (account : Account) (call : CallId) (phase : Phase) (answer : Answer) :
    Account :=
  match landsAt phase answer with
  | none => account
  | some nonce => { account with accepted := (nonce, some call) :: account.accepted }

structure WalletChain where
  wallet : Wallet
  account : Account

inductive WalletChainAction where
  | mine (sender : Option CallId)
  | call (action : WalletAction)

def walletChainStep (settings : Settings) (requests : CallId → TransactRequest)
    (chain : WalletChain) : WalletChainAction → Option WalletChain
  | .mine sender =>
      if (chain.account.mined.length, sender) ∈ chain.account.accepted then
        some { chain with
          account := { chain.account with mined := chain.account.mined ++ [sender] } }
      else none
  | .call (.resume call answer) =>
      if chain.account.allows call (chain.wallet.phases call) answer then
        (walletStep settings requests chain.wallet (.resume call answer)).map fun wallet =>
          ⟨wallet, chain.account.accept call (chain.wallet.phases call) answer⟩
      else none
  | .call action =>
      (walletStep settings requests chain.wallet action).map fun wallet => ⟨wallet, chain.account⟩

/-- What an earlier process leaves: nothing waits behind the next nonce. -/
structure Account.Inherited (account : Account) : Prop where
  unqueued : ∀ nonce sender, (nonce, sender) ∈ account.accepted →
    nonce ≤ account.mined.length ∧ sender = none
  mined : ∀ sender ∈ account.mined, sender = none

section Events

variable {settings : Settings} {request : TransactRequest} {manager : TransactionManager}
  {call : CallId} {phase : Phase} {answer : Answer} {resumed : Resumed}

theorem landsAt_nonce {nonce : Nat} (lands : landsAt phase answer = some nonce) :
    phase.nonce = some nonce := by
  unfold landsAt at lands
  split at lands
  case h_1 own _ node landed => exact (Option.some_eq_ite_none_right.mp lands.symm).2 ▸ rfl
  case h_2 own _ node landed => exact (Option.some_eq_ite_none_right.mp lands.symm).2 ▸ rfl
  case h_3 => cases lands

theorem failTransaction_lands (manager : TransactionManager) (call : CallId) (nonce : Nat)
    (error : PyError) :
    .accepted call nonce ∈ (failTransaction manager call nonce error true).events :=
  List.mem_cons_self

theorem resumeDefaultGas_lands (nonce attempt : Nat) {node : NodeAnswer} {landed : Bool}
    (lands : node.lands landed = true) :
    .accepted call nonce ∈
      (resumeDefaultGas settings manager call nonce attempt node landed).events := by
  cases node with
  | accepted txHash => exact List.mem_singleton.mpr rfl
  | rejected error => cases lands
  | raised error =>
      have sent : landed = true := lands
      rw [sent]
      exact failTransaction_lands manager call nonce error

theorem resumeHighPriority_lands (nonce : Nat) (txParams : TxParams) {node : NodeAnswer}
    {landed : Bool} (lands : node.lands landed = true) :
    .accepted call nonce ∈
      (resumeHighPriority manager call nonce txParams node landed).events := by
  cases node with
  | accepted txHash => exact List.mem_singleton.mpr rfl
  | rejected error => cases lands
  | raised error =>
      have sent : landed = true := lands
      rw [sent]
      exact failTransaction_lands manager call nonce error

theorem resume_lands (result : resume settings request manager call phase answer = some resumed)
    {nonce : Nat} (lands : landsAt phase answer = some nonce) :
    .accepted call nonce ∈ resumed.events := by
  unfold landsAt at lands
  split at lands
  case h_1 own attempt node landed =>
    obtain ⟨landed, same⟩ := Option.some_eq_ite_none_right.mp lands.symm
    cases same
    cases result
    exact resumeDefaultGas_lands _ attempt landed
  case h_2 own txParams node landed =>
    obtain ⟨landed, same⟩ := Option.some_eq_ite_none_right.mp lands.symm
    cases same
    cases result
    exact resumeHighPriority_lands _ txParams landed
  case h_3 => cases lands

theorem resume_received
    (result : resume settings request manager call phase answer = some resumed)
    {other : CallId} {nonce : Nat} (received : .received other nonce ∈ resumed.events) :
    other = call ∧ (∃ txHash, phase = .receipt nonce txHash) ∧
      ∃ receipt, answer = .waited (.receipt receipt) := by
  have waits : ∃ own txHash, phase = .receipt own txHash := by
    have advance := resume_advance result
    generalize resumed.events = events at advance received
    generalize resumed.phase = next at advance
    cases advance with
    | receives own txHash outcome phaseEq => exact ⟨own, txHash, phaseEq⟩
    | _ => simp at received
  obtain ⟨own, txHash, rfl⟩ := waits
  cases answer with
  | waited wait =>
      cases result
      cases wait with
      | receipt receipt =>
          have same : other = call ∧ nonce = own := by
            simpa [resumeReceipt] using received
          obtain ⟨rfl, rfl⟩ := same
          exact ⟨rfl, ⟨txHash, rfl⟩, receipt, rfl⟩
      | _ => simp [resumeReceipt] at received
  | _ => cases result

theorem resume_ends_received
    (result : resume settings request manager call phase answer = some resumed)
    {outcome : Except PyError (Option TxReceipt)} (ends : resumed.phase = .ended outcome)
    (received : ¬NoReceipt outcome) : ∃ nonce, .received call nonce ∈ resumed.events := by
  have advance := resume_advance result
  generalize resumed.events = events at advance ⊢
  generalize resumed.phase = next at advance ends
  cases advance with
  | receives nonce txHash => exact ⟨nonce, List.mem_cons_self⟩
  | ends result none =>
      cases ends
      exact absurd none received
  | loses nonce error =>
      cases ends
      exact absurd (noReceipt_error error) received
  | accepts => cases ends
  | moves next holds =>
      rw [ends] at holds
      cases holds
  | sends nonce next _ _ _ holds =>
      rw [ends] at holds
      cases holds

end Events

structure OnChain (chain : WalletChain) : Prop where
  serialized : Serialized chain.wallet
  unqueued : ∀ nonce sender, (nonce, sender) ∈ chain.account.accepted →
    nonce ≤ chain.account.mined.length
  reached : ∀ call nonce, (chain.wallet.phases call).nonce = some nonce →
    nonce ≤ chain.account.mined.length
  sent : ∀ nonce call, (nonce, some call) ∈ chain.account.accepted →
    .accepted call nonce ∈ chain.wallet.trace
  mined : ∀ nonce call, chain.account.mined[nonce]? = some (some call) →
    (nonce, some call) ∈ chain.account.accepted
  received : ∀ call nonce, .received call nonce ∈ chain.wallet.trace →
    chain.account.mined[nonce]? = some (some call)
  told : ∀ call outcome, chain.wallet.phases call = .ended outcome → ¬NoReceipt outcome →
    ∃ nonce, .received call nonce ∈ chain.wallet.trace

theorem OnChain.initial (manager : TransactionManager) {account : Account}
    (inherited : account.Inherited) : OnChain ⟨Wallet.initial manager, account⟩ where
  serialized := Serialized.initial manager
  unqueued nonce sender member := (inherited.unqueued nonce sender member).1
  reached call nonce found := by cases found
  sent nonce call member := by
    have impossible := (inherited.unqueued nonce _ member).2
    cases impossible
  mined nonce call found := by
    have impossible := inherited.mined _ (List.mem_of_getElem? found)
    cases impossible
  received call nonce member := by cases member
  told call outcome ended := by cases ended

theorem OnChain.mine {chain : WalletChain} (onChain : OnChain chain) {sender : Option CallId}
    (accepted : (chain.account.mined.length, sender) ∈ chain.account.accepted) :
    OnChain { chain with
      account := { chain.account with mined := chain.account.mined ++ [sender] } } := by
  have longer : chain.account.mined.length ≤ (chain.account.mined ++ [sender]).length := by simp
  refine ⟨onChain.serialized, ?_, ?_, onChain.sent, ?_, ?_, onChain.told⟩
  · exact fun nonce other member => (onChain.unqueued nonce other member).trans longer
  · exact fun call nonce found => (onChain.reached call nonce found).trans longer
  · intro nonce call found
    rcases lt_or_ge nonce chain.account.mined.length with old | new
    · rw [List.getElem?_append_left old] at found
      exact onChain.mined nonce call found
    · rw [List.getElem?_append_right new] at found
      obtain ⟨last, same⟩ := List.getElem?_eq_some_iff.mp found
      have next : nonce = chain.account.mined.length := by
        simp only [List.length_singleton] at last
        omega
      simp only [List.getElem_singleton] at same
      rw [next, ← same]
      exact accepted
  · intro call nonce member
    have found := onChain.received call nonce member
    obtain ⟨bound, -⟩ := List.getElem?_eq_some_iff.mp found
    rw [List.getElem?_append_left bound]
    exact found

theorem OnChain.quiet {chain : WalletChain} (onChain : OnChain chain) {next : Wallet}
    {call : CallId} {phase : Phase} (serialized : Serialized next)
    (phases : next.phases = setPhase chain.wallet.phases call phase) (atNone : phase.nonce = none)
    (failed : ∀ outcome, phase = .ended outcome → NoReceipt outcome) {events : List TransactEvent}
    (trace : next.trace = chain.wallet.trace ++ events)
    (silent : ∀ other nonce, .received other nonce ∉ events) :
    OnChain ⟨next, chain.account⟩ := by
  refine ⟨serialized, onChain.unqueued, ?_, ?_, onChain.mined, ?_, ?_⟩
  · intro other nonce found
    dsimp only at found
    rw [phases, setPhase] at found
    split at found
    · rw [atNone] at found
      cases found
    · exact onChain.reached other nonce found
  · intro nonce other member
    dsimp only
    rw [trace]
    exact List.mem_append_left _ (onChain.sent nonce other member)
  · intro other nonce member
    dsimp only at member
    rw [trace, List.mem_append] at member
    exact onChain.received other nonce (member.resolve_right (silent other nonce))
  · intro other outcome ended received
    dsimp only at ended ⊢
    rw [phases, setPhase] at ended
    rw [trace]
    split at ended
    · exact absurd (failed outcome ended) received
    · obtain ⟨nonce, member⟩ := onChain.told other outcome ended received
      exact ⟨nonce, List.mem_append_left _ member⟩

theorem mem_accept {account : Account} {call : CallId} {phase : Phase} {answer : Answer}
    {entry : Nat × Option CallId} :
    entry ∈ (account.accept call phase answer).accepted ↔
      (∃ nonce, landsAt phase answer = some nonce ∧ entry = (nonce, some call)) ∨
        entry ∈ account.accepted := by
  unfold Account.accept
  split
  case h_1 nothing => simp [nothing]
  case h_2 nonce lands => simp [lands]

@[simp] theorem accept_mined (account : Account) (call : CallId) (phase : Phase)
    (answer : Answer) : (account.accept call phase answer).mined = account.mined := by
  unfold Account.accept
  split <;> rfl

theorem OnChain.resumed {settings : Settings} {request : TransactRequest} {chain : WalletChain}
    (onChain : OnChain chain) {call : CallId} {answer : Answer} {resumed : Resumed}
    (allowed : chain.account.allows call (chain.wallet.phases call) answer = true)
    (result : resume settings request chain.wallet.manager call (chain.wallet.phases call) answer =
      some resumed)
    (serialized : Serialized (chain.wallet.resumed call resumed)) :
    OnChain ⟨chain.wallet.resumed call resumed,
      chain.account.accept call (chain.wallet.phases call) answer⟩ := by
  have advance := resume_advance result
  have answered := (Bool.and_eq_true_iff.mp allowed).2
  refine ⟨serialized, ?_, ?_, ?_, ?_, ?_, ?_⟩
  · intro nonce sender member
    rw [accept_mined]
    rcases mem_accept.mp member with ⟨landed, lands, same⟩ | old
    · cases same
      exact onChain.reached call nonce (landsAt_nonce lands)
    · exact onChain.unqueued nonce sender old
  · intro other nonce found
    rw [accept_mined]
    by_cases same : other = call
    · subst same
      simp only [Wallet.resumed, setPhase, if_true] at found
      rcases advance.nonce_kept found with kept | latest
      · exact onChain.reached other nonce kept
      · rw [latest] at result answered
        rw [resume_latestCount result found] at answered
        exact of_decide_eq_true answered
    · simp only [Wallet.resumed, setPhase, if_neg same] at found
      exact onChain.reached other nonce found
  · intro nonce sender member
    change _ ∈ chain.wallet.trace ++ resumed.events
    rcases mem_accept.mp member with ⟨landed, lands, same⟩ | old
    · cases same
      exact List.mem_append_right _ (resume_lands result lands)
    · exact List.mem_append_left _ (onChain.sent nonce sender old)
  · intro nonce sender found
    rw [accept_mined] at found
    exact mem_accept.mpr (Or.inr (onChain.mined nonce sender found))
  · intro other nonce member
    rw [accept_mined]
    rcases List.mem_append.mp (show _ ∈ chain.wallet.trace ++ resumed.events from member) with
      old | new
    · exact onChain.received other nonce old
    · obtain ⟨rfl, ⟨txHash, waits⟩, receipt, waited⟩ := resume_received result new
      rw [waits, waited] at answered
      exact of_decide_eq_true answered
  · intro other outcome ended received
    by_cases same : other = call
    · subst same
      simp only [Wallet.resumed, setPhase, if_true] at ended
      obtain ⟨nonce, member⟩ := resume_ends_received result ended received
      exact ⟨nonce, List.mem_append_right _ member⟩
    · simp only [Wallet.resumed, setPhase, if_neg same] at ended
      obtain ⟨nonce, member⟩ := onChain.told other outcome ended received
      exact ⟨nonce, List.mem_append_left _ member⟩

section Run

variable {settings : Settings} {requests : CallId → TransactRequest}

theorem OnChain.step {chain next : WalletChain} {action : WalletChainAction}
    (onChain : OnChain chain)
    (stepped : walletChainStep settings requests chain action = some next) : OnChain next := by
  cases action with
  | mine sender =>
      simp only [walletChainStep] at stepped
      split at stepped
      case isTrue accepted =>
        cases stepped
        exact onChain.mine accepted
      case isFalse => cases stepped
  | call action =>
      cases action with
      | acquire call =>
          obtain ⟨wallet, walletStepped, rfl⟩ := Option.map_eq_some_iff.mp stepped
          have serialized := onChain.serialized.step walletStepped
          obtain ⟨-, -, rfl⟩ := walletStep_acquire walletStepped
          refine onChain.quiet serialized rfl ?_ ?_ (List.append_nil _).symm (by simp)
          · split <;> rfl
          · intro outcome ended
            split at ended <;> cases ended
      | abandon call error =>
          obtain ⟨wallet, walletStepped, rfl⟩ := Option.map_eq_some_iff.mp stepped
          have serialized := onChain.serialized.step walletStepped
          obtain ⟨-, rfl⟩ := walletStep_abandon walletStepped
          refine onChain.quiet serialized rfl rfl ?_ rfl (by simp)
          rintro outcome ⟨⟩
          exact noReceipt_error error
      | resume call answer =>
          simp only [walletChainStep] at stepped
          split at stepped
          case isFalse => cases stepped
          case isTrue allowed =>
            obtain ⟨wallet, walletStepped, rfl⟩ := Option.map_eq_some_iff.mp stepped
            have serialized := onChain.serialized.step walletStepped
            obtain ⟨resumed, result, rfl⟩ := walletStep_resume walletStepped
            exact onChain.resumed allowed result serialized

def OtherCall (earlier later : TransactEvent) : Prop :=
  ∀ call first second, earlier = .accepted call first → later ≠ .accepted call second

instance : Std.Symm OtherCall where
  symm _ _ other call nonce earlier same clash := other call earlier nonce clash same

theorem permitted_otherCall {past : List TransactEvent} {event : TransactEvent}
    (permitted : Permitted past event) : ∀ earlier ∈ past, OtherCall earlier event := by
  rintro earlier member call first second rfl rfl
  exact permitted first member

theorem OnChain.accepted_unique {chain : WalletChain} (onChain : OnChain chain) {call : CallId}
    {first second : Nat} (firstSent : (first, some call) ∈ chain.account.accepted)
    (secondSent : (second, some call) ∈ chain.account.accepted) : first = second := by
  have apart : chain.wallet.trace.Pairwise OtherCall :=
    onChain.serialized.lawful.pairwise fun _ _ => permitted_otherCall
  by_contra different
  have events : TransactEvent.accepted call first ≠ .accepted call second := by
    simpa using different
  exact apart.forall (onChain.sent first call firstSent) (onChain.sent second call secondSent)
    events call first second rfl rfl

structure ExactlyOnce (chain : WalletChain) : Prop where
  unqueued : ∀ nonce sender, (nonce, sender) ∈ chain.account.accepted →
    nonce ≤ chain.account.mined.length
  once : ∀ (call : CallId) (first second : Nat), chain.account.mined[first]? = some (some call) →
    chain.account.mined[second]? = some (some call) → first = second
  sent : ∀ (call : CallId) (nonce : Nat), chain.account.mined[nonce]? = some (some call) →
    .accepted call nonce ∈ chain.wallet.trace
  told : ∀ (call : CallId) (receipt : TxReceipt),
    chain.wallet.phases call = .ended (.ok (some receipt)) →
    ∃ nonce : Nat, chain.account.mined[nonce]? = some (some call)

/-- However the calls interleave, whatever the node answers and whichever of the accepted
transactions are mined. -/
theorem chain_exactly_once (settings : Settings) (requests : CallId → TransactRequest)
    (manager : TransactionManager) (account : Account) (actions : List WalletChainAction)
    (chain : WalletChain) (inherited : account.Inherited)
    (reached : run (walletChainStep settings requests) ⟨Wallet.initial manager, account⟩ actions =
      some chain) : ExactlyOnce chain := by
  have onChain : OnChain chain :=
    run_invariant (fun _ _ _ onChain stepped => OnChain.step onChain stepped)
      (OnChain.initial manager inherited) reached
  refine ⟨onChain.unqueued, ?_, ?_, ?_⟩
  · intro call first second firstMined secondMined
    exact onChain.accepted_unique (onChain.mined first call firstMined)
      (onChain.mined second call secondMined)
  · intro call nonce mined
    exact onChain.sent nonce call (onChain.mined nonce call mined)
  · intro call receipt ended
    obtain ⟨nonce, member⟩ := onChain.told call _ ended fun none => none receipt rfl
    exact ⟨nonce, onChain.received call nonce member⟩

/-- Call 1 replaces the transaction of call 0 at nonce 5, and the replacement is mined. -/
theorem chain_exactly_once_replaced :
    let account : Account := ⟨[], List.replicate 5 none⟩
    let actions : List WalletChainAction := replacedRun.map .call ++
      [.mine (some 1), .call (.resume 1 (.waited (.receipt ⟨2, 1⟩)))]
    ∃ chain, run (walletChainStep ⟨100, 5⟩ fun _ => {}) ⟨Wallet.initial {}, account⟩ actions =
        some chain ∧ chain.account.mined[5]? = some (some 1) ∧ ExactlyOnce chain := by
  intro account actions
  have inherited : account.Inherited := ⟨by simp [account], by simp [account]⟩
  exact ⟨_, rfl, rfl, chain_exactly_once ⟨100, 5⟩ (fun _ => {}) {} account actions _ inherited rfl⟩

end Run

end V3Keeper
