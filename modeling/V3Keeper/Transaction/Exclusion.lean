import V3Keeper.Library.Lts
import V3Keeper.Transaction.Interleaving

/-!
What the lock of `TransactionManager` guarantees over every interleaving: a call has at most one
transaction accepted, and no other call sends while it is in flight or after its receipt.
-/

namespace V3Keeper

open Python Lts

def Permitted (past : List TransactEvent) : TransactEvent → Prop
  | .sent call nonce =>
      (∀ other earlier, .sent other earlier ∈ past → other ≠ call →
        ∃ result, .ended other result ∈ past) ∧
      (∀ other, .accepted other nonce ∈ past → ∃ result, .ended other result ∈ past ∧
        ∀ receipt, result ≠ .ok (some receipt)) ∧
      ∀ other, .received other nonce ∉ past
  | .accepted call _ => ∀ earlier, .accepted call earlier ∉ past
  | .received _ _ => True
  | .ended _ _ => True

def Phase.nonce : Phase → Option Nat
  | .pendingCount nonce | .defaultGas nonce _ | .sleep nonce _ | .quote nonce
  | .highPriority nonce _ | .receipt nonce _ => some nonce
  | .lock | .estimateGas | .latestCount | .ended _ => none

def Phase.holdsLock : Phase → Bool
  | .lock | .ended _ => false
  | _ => true

def Phase.hasAccepted : Phase → Bool
  | .receipt _ _ => true
  | _ => false

def NoReceipt (result : Except PyError (Option TxReceipt)) : Prop :=
  ∀ receipt, result ≠ .ok (some receipt)

inductive Advance (call : CallId) (phase : Phase) : List TransactEvent → Phase → Prop where
  | moves (next : Phase) : next.holdsLock = true → next.hasAccepted = false →
      (next.nonce = phase.nonce ∨ phase = .latestCount) → phase.hasAccepted = false →
      Advance call phase [] next
  | sends (nonce : Nat) (next : Phase) : phase.nonce = some nonce → phase.hasAccepted = false →
      next.nonce = some nonce → next.holdsLock = true → next.hasAccepted = false →
      Advance call phase [.sent call nonce] next
  | accepts (nonce : Nat) (txHash : TxHash) : phase.nonce = some nonce →
      phase.hasAccepted = false →
      Advance call phase [.accepted call nonce] (.receipt nonce txHash)
  | loses (nonce : Nat) (error : PyError) : phase.nonce = some nonce →
      phase.hasAccepted = false →
      Advance call phase [.accepted call nonce, .ended call (.error error)]
        (.ended (.error error))
  | receives (nonce : Nat) (txHash : TxHash) (result : Except PyError (Option TxReceipt)) :
      phase = .receipt nonce txHash →
      Advance call phase [.received call nonce, .ended call result] (.ended result)
  | ends (result : Except PyError (Option TxReceipt)) : NoReceipt result →
      Advance call phase [.ended call result] (.ended result)

theorem noReceipt_error (error : PyError) : NoReceipt (.error error) := by
  intro receipt same
  cases same

theorem noReceipt_none : NoReceipt (.ok none) := by
  intro receipt same
  cases same

theorem attemptDefaultGas_advance {settings : Settings} {manager : TransactionManager}
    {call : CallId} {phase : Phase} {nonce attempt : Nat} (at_nonce : phase.nonce = some nonce)
    (unsent : phase.hasAccepted = false) :
    Advance call phase (attemptDefaultGas settings manager call nonce attempt).events
      (attemptDefaultGas settings manager call nonce attempt).phase := by
  unfold attemptDefaultGas
  split
  · exact .sends nonce _ at_nonce unsent rfl rfl rfl
  · exact .moves _ rfl rfl (Or.inl at_nonce.symm) unsent

theorem failTransaction_advance {manager : TransactionManager} {call : CallId} {phase : Phase}
    {nonce : Nat} {error : PyError} {landed : Bool} (at_nonce : phase.nonce = some nonce)
    (unsent : phase.hasAccepted = false) :
    Advance call phase (failTransaction manager call nonce error landed).events
      (failTransaction manager call nonce error landed).phase := by
  cases landed with
  | true => exact .loses nonce error at_nonce unsent
  | false => exact .ends _ (noReceipt_error error)

theorem resumeDefaultGas_advance (settings : Settings) (manager : TransactionManager)
    (call : CallId) (nonce attempt : Nat) (answer : NodeAnswer) (landed : Bool) :
    Advance call (.defaultGas nonce attempt)
      (resumeDefaultGas settings manager call nonce attempt answer landed).events
      (resumeDefaultGas settings manager call nonce attempt answer landed).phase := by
  cases answer with
  | accepted txHash => exact .accepts nonce txHash rfl rfl
  | raised error => exact failTransaction_advance rfl rfl
  | rejected error =>
      simp only [resumeDefaultGas]
      split
      · split
        · exact .moves _ rfl rfl (Or.inl rfl) rfl
        · exact .moves _ rfl rfl (Or.inl rfl) rfl
      · exact .ends _ (noReceipt_error _)

theorem resumeQuote_advance (settings : Settings) (request : TransactRequest)
    (manager : TransactionManager) (call : CallId) (nonce : Nat)
    (quote : Except PyError TxParams) :
    Advance call (.quote nonce) (resumeQuote settings request manager call nonce quote).events
      (resumeQuote settings request manager call nonce quote).phase := by
  unfold resumeQuote
  split
  · exact .ends _ (noReceipt_error _)
  · exact .ends _ noReceipt_none
  · exact .sends nonce _ rfl rfl rfl rfl rfl

theorem resumeHighPriority_advance (manager : TransactionManager) (call : CallId) (nonce : Nat)
    (txParams : TxParams) (answer : NodeAnswer) (landed : Bool) :
    Advance call (.highPriority nonce txParams)
      (resumeHighPriority manager call nonce txParams answer landed).events
      (resumeHighPriority manager call nonce txParams answer landed).phase := by
  cases answer with
  | accepted txHash => exact .accepts nonce txHash rfl rfl
  | raised error => exact failTransaction_advance rfl rfl
  | rejected error =>
      simp only [resumeHighPriority]
      split
      · exact .ends _ noReceipt_none
      · exact .ends _ (noReceipt_error _)

theorem resumeReceipt_advance (manager : TransactionManager) (call : CallId) (nonce : Nat)
    (txHash : TxHash) (wait : ReceiptWait) :
    Advance call (.receipt nonce txHash) (resumeReceipt manager call nonce wait).events
      (resumeReceipt manager call nonce wait).phase := by
  cases wait with
  | receipt receipt => exact .receives nonce txHash _ rfl
  | timeExhausted => exact .ends _ noReceipt_none
  | raised error => exact .ends _ (noReceipt_error error)

theorem resume_advance {settings : Settings} {request : TransactRequest}
    {manager : TransactionManager} {call : CallId} {phase : Phase} {answer : Answer}
    {resumed : Resumed}
    (result : resume settings request manager call phase answer = some resumed) :
    Advance call phase resumed.events resumed.phase := by
  unfold resume at result
  split at result
  case h_1 =>
    cases result
    exact .moves _ rfl rfl (Or.inl rfl) rfl
  case h_3 =>
    cases result
    exact .moves _ rfl rfl (Or.inr rfl) rfl
  case h_5 latestNonce pendingNonce =>
    dsimp only at result
    split at result
    · cases result
      exact .moves _ rfl rfl (Or.inl rfl) rfl
    · split at result
      · cases result
        exact .moves _ rfl rfl (Or.inl rfl) rfl
      · cases result
        exact attemptDefaultGas_advance rfl rfl
  case h_7 nonce attempt answer landed =>
    cases result
    exact resumeDefaultGas_advance settings manager call nonce attempt answer landed
  case h_8 nonce attempt =>
    cases result
    exact attemptDefaultGas_advance rfl rfl
  case h_10 nonce quote =>
    cases result
    exact resumeQuote_advance settings request manager call nonce quote
  case h_11 nonce txParams answer landed =>
    cases result
    exact resumeHighPriority_advance manager call nonce txParams answer landed
  case h_12 nonce txHash wait =>
    cases result
    exact resumeReceipt_advance manager call nonce txHash wait
  case h_13 => cases result
  all_goals
    cases result
    exact .ends _ (noReceipt_error _)

theorem resume_holdsLock {settings : Settings} {request : TransactRequest}
    {manager : TransactionManager} {call : CallId} {phase : Phase} {answer : Answer}
    {resumed : Resumed}
    (result : resume settings request manager call phase answer = some resumed) :
    phase.holdsLock = true := by
  cases phase with
  | lock => cases answer <;> cases result
  | ended outcome => cases answer <;> cases result
  | _ => rfl

theorem resume_latestCount {settings : Settings} {request : TransactRequest}
    {manager : TransactionManager} {call : CallId} {answer : Answer} {resumed : Resumed}
    (result : resume settings request manager call .latestCount answer = some resumed)
    {nonce : Nat} (reached : resumed.phase.nonce = some nonce) : answer = .count (.ok nonce) := by
  unfold resume at result
  split at result
  case h_3 =>
    cases result
    cases reached
    rfl
  case h_4 =>
    cases result
    cases reached
  all_goals contradiction

theorem mem_receivedNonces {trace : List TransactEvent} {call : CallId} {nonce : Nat}
    (received : .received call nonce ∈ trace) : nonce ∈ receivedNonces trace :=
  List.mem_filterMap.mpr ⟨_, received, rfl⟩

/-- Only the call that holds the lock is on its way; its events are at its nonce, which is
above every nonce with a receipt. -/
structure Serialized (wallet : Wallet) : Prop where
  owner : ∀ call, (wallet.phases call).holdsLock = true ↔ wallet.lock = some call
  own : ∀ call, (wallet.phases call).isEnded = false → ∀ event ∈ wallet.trace,
    event.call = call → ∃ nonce, (wallet.phases call).nonce = some nonce ∧
      (event = .sent call nonce ∨
        event = .accepted call nonce ∧ (wallet.phases call).hasAccepted = true)
  ended : ∀ call result, wallet.phases call = .ended result →
    .ended call result ∈ wallet.trace ∧ (¬NoReceipt result → ∀ nonce,
      .accepted call nonce ∈ wallet.trace → .received call nonce ∈ wallet.trace)
  above : ∀ call nonce, (wallet.phases call).nonce = some nonce → ∀ other received,
    .received other received ∈ wallet.trace → received < nonce
  lawful : AllowedBy Permitted wallet.trace

theorem Phase.notEnded_of_holdsLock {phase : Phase} (holds : phase.holdsLock = true) :
    phase.isEnded = false := by
  cases phase <;> first | rfl | cases holds

theorem Phase.nonce_holdsLock {phase : Phase} {nonce : Nat} (found : phase.nonce = some nonce) :
    phase.holdsLock = true := by
  cases phase <;> first | rfl | cases found

theorem Serialized.initial (manager : TransactionManager) :
    Serialized (Wallet.initial manager) where
  owner call := by simp [Wallet.initial, Phase.holdsLock]
  own call _ event member := by cases member
  ended call result ended := by cases ended
  above call nonce found := by cases found
  lawful := allowedBy_nil

section Owner

variable {wallet : Wallet} (serialized : Serialized wallet) {call : CallId}
  (holds : (wallet.phases call).holdsLock = true)

include serialized holds

theorem Serialized.other_ended {other : CallId} (different : other ≠ call)
    {event : TransactEvent} (member : event ∈ wallet.trace) (own : event.call = other) :
    ∃ result, wallet.phases other = .ended result := by
  cases phase : wallet.phases other with
  | ended result => exact ⟨result, rfl⟩
  | _ =>
      have active : (wallet.phases other).isEnded = false := by rw [phase]; rfl
      obtain ⟨nonce, found, -⟩ := serialized.own other active event member own
      have locked := (serialized.owner other).mp (Phase.nonce_holdsLock found)
      rw [(serialized.owner call).mp holds] at locked
      exact absurd (Option.some.inj locked).symm different

theorem Serialized.sent_permitted {nonce : Nat}
    (found : (wallet.phases call).nonce = some nonce)
    (unsent : (wallet.phases call).hasAccepted = false) :
    Permitted wallet.trace (.sent call nonce) := by
  have active := Phase.notEnded_of_holdsLock holds
  refine ⟨?_, ?_, ?_⟩
  · intro other earlier sent different
    obtain ⟨result, phase⟩ := serialized.other_ended holds different sent rfl
    exact ⟨result, (serialized.ended other result phase).1⟩
  · intro other accepted
    by_cases same : other = call
    · subst same
      obtain ⟨own, -, wrong | ⟨-, impossible⟩⟩ :=
        serialized.own other active _ accepted rfl
      · cases wrong
      · rw [unsent] at impossible
        cases impossible
    · obtain ⟨result, phase⟩ := serialized.other_ended holds same accepted rfl
      obtain ⟨ended, receipts⟩ := serialized.ended other result phase
      refine ⟨result, ended, ?_⟩
      by_contra received
      exact absurd
        (serialized.above call nonce found other nonce (receipts received nonce accepted))
        (lt_irrefl nonce)
  · intro other received
    exact absurd (serialized.above call nonce found other nonce received) (lt_irrefl nonce)

theorem Serialized.accepted_permitted {nonce : Nat}
    (unsent : (wallet.phases call).hasAccepted = false) :
    Permitted wallet.trace (.accepted call nonce) := by
  intro earlier accepted
  obtain ⟨own, -, wrong | ⟨-, impossible⟩⟩ :=
    serialized.own call (Phase.notEnded_of_holdsLock holds) _ accepted rfl
  · cases wrong
  · rw [unsent] at impossible
    cases impossible

end Owner

section Step

variable {call : CallId} {phase next : Phase} {events : List TransactEvent}

theorem Advance.call_eq (advance : Advance call phase events next) :
    ∀ event ∈ events, event.call = call := by
  cases advance <;> simp [TransactEvent.call]

theorem Advance.holdsLock (advance : Advance call phase events next) :
    next.holdsLock = !next.isEnded := by
  cases advance with
  | moves next holds => rw [Phase.notEnded_of_holdsLock holds, holds]; rfl
  | sends nonce next _ _ _ holds => rw [Phase.notEnded_of_holdsLock holds, holds]; rfl
  | accepts => rfl
  | loses => rfl
  | receives => rfl
  | ends => rfl

theorem Advance.nonce_kept (advance : Advance call phase events next) {nonce : Nat}
    (found : next.nonce = some nonce) : phase.nonce = some nonce ∨ phase = .latestCount := by
  cases advance with
  | moves next holds unsent kept =>
      rcases kept with kept | latest
      · exact Or.inl (kept ▸ found)
      · exact Or.inr latest
  | sends own next at_nonce _ same =>
      rw [same] at found
      exact Or.inl (found ▸ at_nonce)
  | accepts own txHash at_nonce =>
      cases found
      exact Or.inl at_nonce
  | loses => cases found
  | receives => cases found
  | ends => cases found

theorem Advance.received_ends (advance : Advance call phase events next) {other nonce : Nat}
    (received : .received other nonce ∈ events) : next.nonce = none := by
  cases advance <;> first | rfl | simp at received

variable {wallet : Wallet}

theorem permitted_ended (past : List TransactEvent) (call : CallId)
    (result : Except PyError (Option TxReceipt)) : Permitted past (.ended call result) := trivial

theorem Serialized.lawful_step (serialized : Serialized wallet)
    (holds : (wallet.phases call).holdsLock = true)
    (advance : Advance call (wallet.phases call) events next) :
    AllowedBy Permitted (wallet.trace ++ events) := by
  cases advance with
  | moves next => simpa using serialized.lawful
  | sends nonce next found unsent =>
      exact serialized.lawful.concat (serialized.sent_permitted holds found unsent)
  | accepts nonce txHash found unsent =>
      exact serialized.lawful.concat (serialized.accepted_permitted holds unsent)
  | loses nonce error found unsent =>
      rw [List.append_cons]
      exact (serialized.lawful.concat (serialized.accepted_permitted holds unsent)).concat
        (permitted_ended _ _ _)
  | receives nonce txHash result found =>
      rw [List.append_cons]
      have received : Permitted wallet.trace (.received call nonce) := trivial
      exact (serialized.lawful.concat received).concat (permitted_ended _ _ _)
  | ends result => exact serialized.lawful.concat (permitted_ended _ _ _)

theorem Serialized.own_step (serialized : Serialized wallet)
    (holds : (wallet.phases call).holdsLock = true)
    (advance : Advance call (wallet.phases call) events next) (goesOn : next.isEnded = false) :
    ∀ event ∈ wallet.trace ++ events, event.call = call → ∃ nonce, next.nonce = some nonce ∧
      (event = .sent call nonce ∨ event = .accepted call nonce ∧ next.hasAccepted = true) := by
  have old := serialized.own call (Phase.notEnded_of_holdsLock holds)
  have sentOnly : (wallet.phases call).hasAccepted = false → ∀ event ∈ wallet.trace,
      event.call = call → ∃ nonce, (wallet.phases call).nonce = some nonce ∧
        event = .sent call nonce := by
    intro unsent event member own
    obtain ⟨nonce, found, sent | ⟨-, accepted⟩⟩ := old event member own
    · exact ⟨nonce, found, sent⟩
    · rw [unsent] at accepted
      cases accepted
  intro event member own
  cases advance with
  | moves next _ _ kept unsent =>
      rw [List.append_nil] at member
      obtain ⟨nonce, found, sent⟩ := sentOnly unsent event member own
      rcases kept with kept | latest
      · exact ⟨nonce, kept.trans found, Or.inl sent⟩
      · rw [latest] at found
        cases found
  | sends nonce next found unsent same =>
      refine ⟨nonce, same, Or.inl ?_⟩
      rcases List.mem_append.mp member with earlier | new
      · obtain ⟨other, otherFound, sent⟩ := sentOnly unsent event earlier own
        rw [found] at otherFound
        cases otherFound
        exact sent
      · exact List.mem_singleton.mp new
  | accepts nonce txHash found unsent =>
      refine ⟨nonce, rfl, ?_⟩
      rcases List.mem_append.mp member with earlier | new
      · obtain ⟨other, otherFound, sent⟩ := sentOnly unsent event earlier own
        rw [found] at otherFound
        cases otherFound
        exact Or.inl sent
      · exact Or.inr ⟨List.mem_singleton.mp new, rfl⟩
  | loses => cases goesOn
  | receives => cases goesOn
  | ends => cases goesOn

theorem Serialized.ended_step (serialized : Serialized wallet)
    (holds : (wallet.phases call).holdsLock = true)
    (advance : Advance call (wallet.phases call) events next)
    {result : Except PyError (Option TxReceipt)} (ends : next = .ended result) :
    .ended call result ∈ wallet.trace ++ events ∧ (¬NoReceipt result → ∀ nonce,
      .accepted call nonce ∈ wallet.trace ++ events →
        .received call nonce ∈ wallet.trace ++ events) := by
  cases advance with
  | moves next holdsNext =>
      rw [ends] at holdsNext
      cases holdsNext
  | sends nonce next _ _ _ holdsNext =>
      rw [ends] at holdsNext
      cases holdsNext
  | accepts => cases ends
  | loses nonce error =>
      cases ends
      exact ⟨by simp, fun received => absurd (noReceipt_error error) received⟩
  | ends result none =>
      cases ends
      exact ⟨by simp, fun received => absurd none received⟩
  | receives nonce txHash result phase =>
      cases ends
      refine ⟨by simp, fun _ other accepted => ?_⟩
      have earlier : .accepted call other ∈ wallet.trace := by simpa using accepted
      obtain ⟨own, found, wrong | ⟨same, -⟩⟩ :=
        serialized.own call (Phase.notEnded_of_holdsLock holds) _ earlier rfl
      · cases wrong
      · cases same
        rw [phase] at found
        cases found
        simp

theorem Serialized.advance (serialized : Serialized wallet) {manager : TransactionManager}
    (holds : (wallet.phases call).holdsLock = true)
    (advance : Advance call (wallet.phases call) events next)
    (covers : wallet.phases call = .latestCount → ∀ nonce, next.nonce = some nonce →
      ∀ other received, .received other received ∈ wallet.trace → received < nonce) :
    Serialized (wallet.resumed call ⟨next, manager, events⟩) := by
  have locked := (serialized.owner call).mp holds
  have foreign : ∀ other event, other ≠ call → event ∈ wallet.trace ++ events →
      event.call = other → event ∈ wallet.trace := by
    intro other event different member own
    rcases List.mem_append.mp member with earlier | new
    · exact earlier
    · exact absurd (own.symm.trans (advance.call_eq event new)) different
  constructor
  · intro other
    by_cases same : other = call
    · subst same
      simp only [Wallet.resumed, setPhase, if_true, advance.holdsLock]
      cases next.isEnded <;> simp [locked]
    · have idle : (wallet.phases other).holdsLock = false := by
        rw [← Bool.not_eq_true, serialized.owner other, locked]
        exact fun owner => same (Option.some.inj owner).symm
      simp only [Wallet.resumed, setPhase, if_neg same, idle, locked]
      cases next.isEnded <;> simp [Ne.symm same]
  · intro other goesOn event member own
    by_cases same : other = call
    · subst same
      simp only [Wallet.resumed, setPhase, if_true] at goesOn member ⊢
      exact serialized.own_step holds advance goesOn event member own
    · simp only [Wallet.resumed, setPhase, if_neg same] at goesOn member ⊢
      exact serialized.own other goesOn event (foreign other event same member own) own
  · intro other result ended
    by_cases same : other = call
    · subst same
      simp only [Wallet.resumed, setPhase, if_true] at ended ⊢
      exact serialized.ended_step holds advance ended
    · simp only [Wallet.resumed, setPhase, if_neg same] at ended ⊢
      obtain ⟨member, receipts⟩ := serialized.ended other result ended
      refine ⟨List.mem_append_left _ member, fun received nonce accepted => ?_⟩
      exact List.mem_append_left _
        (receipts received nonce (foreign other _ same accepted rfl))
  · intro other nonce found earlier received member
    by_cases same : other = call
    · subst same
      simp only [Wallet.resumed, setPhase, if_true] at found member
      rcases List.mem_append.mp member with old | new
      · rcases advance.nonce_kept found with kept | latest
        · exact serialized.above other nonce kept earlier received old
        · exact covers latest nonce found earlier received old
      · rw [advance.received_ends new] at found
        cases found
    · simp only [Wallet.resumed, setPhase, if_neg same] at found
      have owner := (serialized.owner other).mp (Phase.nonce_holdsLock found)
      rw [locked] at owner
      exact absurd (Option.some.inj owner).symm same
  · exact serialized.lawful_step holds advance

theorem Serialized.acquire (serialized : Serialized wallet) (free : wallet.lock = none)
    (waits : wallet.phases call = .lock) (estimates : Bool) :
    Serialized { wallet with
      lock := some call
      phases := setPhase wallet.phases call
        (if estimates then .estimateGas else .latestCount) } := by
  have silent : ∀ event ∈ wallet.trace, event.call ≠ call := by
    intro event member own
    obtain ⟨nonce, found, -⟩ := serialized.own call (by rw [waits]; rfl) event member own
    rw [waits] at found
    cases found
  constructor
  · intro other
    by_cases same : other = call
    · simp only [setPhase, same, if_true]
      cases estimates <;> simp [Phase.holdsLock]
    · have idle := serialized.owner other
      rw [free] at idle
      simp only [setPhase, if_neg same]
      simpa [Ne.symm same] using idle
  · intro other goesOn event member own
    by_cases same : other = call
    · exact absurd (own.trans same) (silent event member)
    · simp only [setPhase, if_neg same] at goesOn ⊢
      exact serialized.own other goesOn event member own
  · intro other result ended
    by_cases same : other = call
    · simp only [setPhase, if_pos same] at ended
      cases estimates <;> cases ended
    · simp only [setPhase, if_neg same] at ended
      exact serialized.ended other result ended
  · intro other nonce found
    by_cases same : other = call
    · simp only [setPhase, if_pos same] at found
      cases estimates <;> cases found
    · simp only [setPhase, if_neg same] at found
      exact serialized.above other nonce found
  · exact serialized.lawful

theorem Serialized.abandon (serialized : Serialized wallet)
    (waits : wallet.phases call = .lock) (error : PyError) :
    Serialized { wallet with
      phases := setPhase wallet.phases call (.ended (.error error))
      trace := wallet.trace ++ [.ended call (.error error)] } := by
  have foreign : ∀ other event, other ≠ call → event ∈ wallet.trace ++
      [.ended call (.error error)] → event.call = other → event ∈ wallet.trace := by
    intro other event different member own
    rcases List.mem_append.mp member with earlier | new
    · exact earlier
    · rw [List.mem_singleton.mp new] at own
      exact absurd own.symm different
  constructor
  · intro other
    by_cases same : other = call
    · have owner := serialized.owner call
      rw [waits] at owner
      simpa [setPhase, same, Phase.holdsLock] using owner
    · simpa [setPhase, same] using serialized.owner other
  · intro other goesOn event member own
    by_cases same : other = call
    · simp [setPhase, same, Phase.isEnded] at goesOn
    · simp only [setPhase, if_neg same] at goesOn ⊢
      exact serialized.own other goesOn event (foreign other event same member own) own
  · intro other result ended
    by_cases same : other = call
    · simp only [setPhase, if_pos same] at ended
      cases ended
      exact ⟨by simp [same], fun received => absurd (noReceipt_error error) received⟩
    · simp only [setPhase, if_neg same] at ended
      obtain ⟨member, receipts⟩ := serialized.ended other result ended
      refine ⟨List.mem_append_left _ member, fun received nonce accepted => ?_⟩
      exact List.mem_append_left _
        (receipts received nonce (foreign other _ same accepted rfl))
  · intro other nonce found earlier received member
    by_cases same : other = call
    · simp only [setPhase, if_pos same] at found
      cases found
    · simp only [setPhase, if_neg same] at found
      exact serialized.above other nonce found earlier received (by simpa using member)
  · exact serialized.lawful.concat (permitted_ended _ _ _)

end Step

theorem Serialized.step {settings : Settings} {requests : CallId → TransactRequest}
    {wallet next : Wallet} {action : WalletAction} (serialized : Serialized wallet)
    (stepped : walletStep settings requests wallet action = some next) : Serialized next := by
  cases action with
  | acquire call =>
      simp only [walletStep] at stepped
      split at stepped
      case h_1 free waits =>
        cases stepped
        exact serialized.acquire free waits (requests call).estimateGas
      case h_2 => cases stepped
  | abandon call error =>
      simp only [walletStep] at stepped
      split at stepped
      case h_1 waits =>
        cases stepped
        exact serialized.abandon waits error
      case h_2 => cases stepped
  | resume call answer =>
      simp only [walletStep] at stepped
      split at stepped
      case isFalse => cases stepped
      case isTrue covers =>
        obtain ⟨resumed, result, rfl⟩ := Option.map_eq_some_iff.mp stepped
        refine serialized.advance (resume_holdsLock result) (resume_advance result) ?_
        intro latest nonce found other received member
        rw [latest] at result covers
        rw [resume_latestCount result found] at covers
        simpa using List.all_eq_true.mp covers received (mem_receivedNonces member)

/-- Over every interleaving of any number of calls, every event is permitted by those before
it: one accepted transaction for each call, none sent while another call has one in flight, and
none at a nonce whose receipt was returned. -/
theorem wallet_serialized (settings : Settings) (requests : CallId → TransactRequest)
    (manager : TransactionManager) (actions : List WalletAction) (wallet : Wallet)
    (reached : run (walletStep settings requests) (Wallet.initial manager) actions = some wallet) :
    AllowedBy Permitted wallet.trace :=
  (run_invariant (fun _ _ _ serialized stepped => serialized.step stepped)
    (Serialized.initial manager) reached).lawful

/-- A transaction times out at nonce 5, and another call replaces it there. -/
theorem wallet_serialized_replaced :
    let quote : TxParams := { maxFeePerGas := some 20, maxPriorityFeePerGas := some 2 }
    let actions : List WalletAction :=
      [.acquire 0, .resume 0 (.count (.ok 5)), .resume 0 (.count (.ok 5)),
        .resume 0 (.transacted (.accepted 1) true), .resume 0 (.waited .timeExhausted),
        .acquire 1, .resume 1 (.count (.ok 5)), .resume 1 (.count (.ok 6)),
        .resume 1 (.quoted (.ok quote)), .resume 1 (.transacted (.accepted 2) true)]
    ∃ wallet, run (walletStep ⟨100, 5⟩ fun _ => {}) (Wallet.initial {}) actions = some wallet ∧
      wallet.trace.length = 5 ∧ AllowedBy Permitted wallet.trace := by
  intro quote actions
  exact ⟨_, rfl, rfl, wallet_serialized ⟨100, 5⟩ (fun _ => {}) {} actions _ rfl⟩

end V3Keeper
