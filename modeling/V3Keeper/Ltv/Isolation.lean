import V3Keeper.Library.StepRun
import V3Keeper.Ltv.Service

/-!
Whether every vault whose user has changed gets its update. The reads of all vaults come before
the first update, and an update that fails ends the call.
-/

namespace V3Keeper

open Python StepRun

structure LtvContext where
  blockNumber : Nat
  vaults : List LtvVault
  graphVaults : PyDict ChecksumAddress Vault

structure LtvReads (settings : LtvSettings) (state : AppState) (call : LtvCall)
    (context : LtvContext) : Prop where
  due : withinInterval state.ltvUpdatedTimestamp settings.ltvUpdateInterval call.currentTime = false
  finalized : call.finalizedBlock = .ok context.blockNumber
  synced : checkForGraphNodeSyncToBlock settings.graphEndpoint call.latestGraphBlock
    context.blockNumber = .ok ()
  vaults : call.ostokenVaults context.blockNumber = .ok context.vaults
  graphVaults : context.vaults ≠ [] → ∃ reply, call.graphVaults context.blockNumber = .ok reply ∧
    graphVaultsMap reply = context.graphVaults

section Vault

variable (graphVaults : PyDict ChecksumAddress Vault) (vault : LtvVault)

structure NeedsUpdate (user : VaultMaxLtvUser) : Prop where
  same : user.vault = vault
  allocator : vault.maxLtvAllocator = .ok (some user.address)
  harvestParams : vaultHarvestParams graphVaults vault.vault = .ok user.harvestParams
  ltv : vault.vaultMaxLtv user.harvestParams = .ok user.ltv
  tracked : vault.maxLtvUser = .ok user.prevAddress
  differs : user.address ≠ user.prevAddress

inductive VaultReadsFail : Prop where
  | allocator (error : PyError) : vault.maxLtvAllocator = .error error → VaultReadsFail
  | missing (address : ChecksumAddress) (error : PyError) :
      vault.maxLtvAllocator = .ok (some address) →
      vaultHarvestParams graphVaults vault.vault = .error error → VaultReadsFail
  | ltv (address : ChecksumAddress) (harvestParams : HarvestParams) (error : PyError) :
      vault.maxLtvAllocator = .ok (some address) →
      vaultHarvestParams graphVaults vault.vault = .ok harvestParams →
      vault.vaultMaxLtv harvestParams = .error error → VaultReadsFail
  | tracked (address : ChecksumAddress) (harvestParams : HarvestParams) (ltv : Nat)
      (error : PyError) : vault.maxLtvAllocator = .ok (some address) →
      vaultHarvestParams graphVaults vault.vault = .ok harvestParams →
      vault.vaultMaxLtv harvestParams = .ok ltv →
      vault.maxLtvUser = .error error → VaultReadsFail

def UpdateFails (user : VaultMaxLtvUser) : Prop :=
  ¬∃ receipt ltv,
    user.vault.updateVaultMaxLtvUser user.address user.harvestParams = .ok (some receipt) ∧
      user.vault.updatedMaxLtv user.harvestParams = .ok ltv

theorem vaultMaxLtvUser_cases :
    (∃ error, vaultMaxLtvUser graphVaults vault = .error error ∧
      VaultReadsFail graphVaults vault) ∨
    (vault.maxLtvAllocator = .ok none ∧ vaultMaxLtvUser graphVaults vault = .ok none) ∨
    ∃ address harvestParams ltv prevAddress, vault.maxLtvAllocator = .ok (some address) ∧
      vaultHarvestParams graphVaults vault.vault = .ok harvestParams ∧
      vault.vaultMaxLtv harvestParams = .ok ltv ∧ vault.maxLtvUser = .ok prevAddress ∧
      vaultMaxLtvUser graphVaults vault =
        .ok (some { vault, address, prevAddress, ltv, harvestParams }) := by
  unfold vaultMaxLtvUser
  cases allocator : vault.maxLtvAllocator with
  | error error => exact Or.inl ⟨error, rfl, .allocator error allocator⟩
  | ok found =>
      cases found with
      | none => exact Or.inr (Or.inl ⟨rfl, rfl⟩)
      | some address =>
          rw [ok_bind]
          cases params : vaultHarvestParams graphVaults vault.vault with
          | error error => exact Or.inl ⟨error, rfl, .missing address error allocator params⟩
          | ok harvestParams =>
              simp only [ok_bind]
              cases ltv : vault.vaultMaxLtv harvestParams with
              | error error =>
                  exact Or.inl ⟨error, rfl, .ltv address harvestParams error allocator params ltv⟩
              | ok value =>
                  simp only [ok_bind]
                  cases tracked : vault.maxLtvUser with
                  | error error =>
                      exact Or.inl ⟨error, rfl,
                        .tracked address harvestParams value error allocator params ltv tracked⟩
                  | ok prevAddress =>
                      exact Or.inr (Or.inr
                        ⟨address, harvestParams, value, prevAddress, rfl, rfl, ltv, rfl, rfl⟩)

variable {graphVaults vault}

theorem vaultReadsFail_iff : VaultReadsFail graphVaults vault ↔
    ∃ error, vaultMaxLtvUser graphVaults vault = .error error := by
  constructor
  · intro fails
    unfold vaultMaxLtvUser
    cases fails with
    | allocator error allocator => exact ⟨error, by rw [allocator]; rfl⟩
    | missing address error allocator params =>
        exact ⟨error, by simp only [allocator, ok_bind, params]; rfl⟩
    | ltv address harvestParams error allocator params ltv =>
        exact ⟨error, by simp only [allocator, ok_bind, params, ltv]; rfl⟩
    | tracked address harvestParams value error allocator params ltv tracked =>
        exact ⟨error, by simp only [allocator, ok_bind, params, ltv, tracked]; rfl⟩
  · rintro ⟨error, raised⟩
    rcases vaultMaxLtvUser_cases graphVaults vault with
      ⟨_, -, fails⟩ | ⟨-, found⟩ | ⟨_, _, _, _, -, -, -, -, found⟩
    · exact fails
    · rw [found] at raised
      cases raised
    · rw [found] at raised
      cases raised

theorem needsUpdate_iff {user : VaultMaxLtvUser} : NeedsUpdate graphVaults vault user ↔
    vaultMaxLtvUser graphVaults vault = .ok (some user) ∧ user.address ≠ user.prevAddress := by
  constructor
  · rintro ⟨rfl, allocator, params, ltv, tracked, differs⟩
    refine ⟨?_, differs⟩
    simp only [vaultMaxLtvUser, allocator, ok_bind, params, ltv, tracked]
    rfl
  · rintro ⟨result, differs⟩
    rcases vaultMaxLtvUser_cases graphVaults vault with
      ⟨_, raised, -⟩ | ⟨-, found⟩ | ⟨_, _, _, _, allocator, params, ltv, tracked, found⟩
    · rw [raised] at result
      cases result
    · rw [found] at result
      cases result
    · rw [found] at result
      cases result
      exact ⟨rfl, allocator, params, ltv, tracked, differs⟩

theorem updateFails_iff {user : VaultMaxLtvUser} :
    UpdateFails user ↔ (handleMaxLtvUser user).succeeds = false := by
  have handled : (handleMaxLtvUser user).succeeds = true ↔ ∃ receipt ltv,
      user.vault.updateVaultMaxLtvUser user.address user.harvestParams = .ok (some receipt) ∧
        user.vault.updatedMaxLtv user.harvestParams = .ok ltv := by
    rw [Traced.succeeds_iff]
    change (∃ value, confirmUpdate _ = .ok value) ↔ _
    unfold confirmUpdate
    cases user.vault.updateVaultMaxLtvUser user.address user.harvestParams with
    | error error => simp
    | ok receipt =>
        cases receipt with
        | none => simp
        | some receipt =>
            cases user.vault.updatedMaxLtv user.harvestParams <;> simp [Except.map]
  rw [UpdateFails, ← handled, Bool.not_eq_true]

end Vault

section Vaults

variable (graphVaults : PyDict ChecksumAddress Vault)

def foundUser (vault : LtvVault) : Option VaultMaxLtvUser :=
  match vaultMaxLtvUser graphVaults vault with
  | .error _ => none
  | .ok found => found

theorem collectMaxLtvUsers_raises {vaults : List LtvVault}
    (fails : ∃ vault ∈ vaults, VaultReadsFail graphVaults vault) :
    ∃ error, collectMaxLtvUsers graphVaults vaults = .error error := by
  obtain ⟨vault, member, fails⟩ := fails
  induction vaults with
  | nil => cases member
  | cons first rest ih =>
      rw [collectMaxLtvUsers]
      cases found : vaultMaxLtvUser graphVaults first with
      | error error => exact ⟨error, rfl⟩
      | ok user =>
          have later : vault ∈ rest := by
            rcases List.mem_cons.mp member with rfl | later
            · obtain ⟨error, raised⟩ := vaultReadsFail_iff.mp fails
              rw [found] at raised
              cases raised
            · exact later
          obtain ⟨error, raised⟩ := ih later
          exact ⟨error, by rw [ok_bind, raised]; rfl⟩

theorem collectMaxLtvUsers_ok {vaults : List LtvVault}
    (succeed : ∀ vault ∈ vaults, ¬VaultReadsFail graphVaults vault) :
    collectMaxLtvUsers graphVaults vaults = .ok (vaults.filterMap (foundUser graphVaults)) := by
  induction vaults with
  | nil => rfl
  | cons first rest ih =>
      rw [List.forall_mem_cons] at succeed
      rw [collectMaxLtvUsers, ih succeed.2]
      cases found : vaultMaxLtvUser graphVaults first with
      | error error => exact absurd (vaultReadsFail_iff.mpr ⟨error, found⟩) succeed.1
      | ok user =>
          have same : foundUser graphVaults first = user := by rw [foundUser, found]
          cases user with
          | none => rw [List.filterMap_cons_none same]; rfl
          | some user => rw [List.filterMap_cons_some same]; rfl

def updateVault (vault : LtvVault) : Traced LtvUpdate Unit :=
  match foundUser graphVaults vault with
  | none => pure ()
  | some user => updateMaxLtvUser user

variable {graphVaults}

theorem needsUpdate_of_foundUser {vault : LtvVault} {user : VaultMaxLtvUser}
    (found : foundUser graphVaults vault = some user) (differs : user.address ≠ user.prevAddress) :
    NeedsUpdate graphVaults vault user := by
  refine needsUpdate_iff.mpr ⟨?_, differs⟩
  unfold foundUser at found
  split at found
  case h_1 => cases found
  case h_2 result => rw [result, found]

theorem updateVault_eq {vault : LtvVault} {user : VaultMaxLtvUser}
    (needs : NeedsUpdate graphVaults vault user) :
    updateVault graphVaults vault = handleMaxLtvUser user := by
  obtain ⟨found, differs⟩ := needsUpdate_iff.mp needs
  simp only [updateVault, foundUser, found, updateMaxLtvUser, if_neg differs]

theorem updateVault_idle {vault : LtvVault}
    (idle : ¬∃ user, NeedsUpdate graphVaults vault user) :
    updateVault graphVaults vault = pure () := by
  unfold updateVault
  split
  · rfl
  · rename_i user found
    unfold updateMaxLtvUser
    split
    · rfl
    · rename_i differs
      exact absurd ⟨user, needsUpdate_of_foundUser found differs⟩ idle

theorem updateVault_fails {vault : LtvVault} :
    (updateVault graphVaults vault).succeeds = false ↔
      ∃ user, NeedsUpdate graphVaults vault user ∧ UpdateFails user := by
  constructor
  · intro raised
    by_cases needed : ∃ user, NeedsUpdate graphVaults vault user
    · obtain ⟨user, needs⟩ := needed
      rw [updateVault_eq needs] at raised
      exact ⟨user, needs, updateFails_iff.mpr raised⟩
    · rw [updateVault_idle needed] at raised
      cases raised
  · rintro ⟨user, needs, fails⟩
    rw [updateVault_eq needs]
    exact updateFails_iff.mp fails

theorem NeedsUpdate.unique {vault : LtvVault} {user other : VaultMaxLtvUser}
    (needs : NeedsUpdate graphVaults vault user) (needsToo : NeedsUpdate graphVaults vault other) :
    user = other := by
  have same := (needsUpdate_iff.mp needs).1.symm.trans (needsUpdate_iff.mp needsToo).1
  exact Option.some.inj (Except.ok.inj same)

theorem mem_updateVault {vault : LtvVault} {update : LtvUpdate}
    (member : update ∈ (updateVault graphVaults vault).events) :
    NeedsUpdate graphVaults vault update.user := by
  by_cases needed : ∃ user, NeedsUpdate graphVaults vault user
  · obtain ⟨user, needs⟩ := needed
    rw [updateVault_eq needs] at member
    have same : update.user = user := by
      have only : update ∈ [(⟨user, _⟩ : LtvUpdate)] := member
      rw [List.mem_singleton.mp only]
    rw [same]
    exact needs
  · rw [updateVault_idle needed] at member
    cases member

end Vaults

/-- An update is needed and not reached: some vault's reads fail, or every place where the vault
is listed comes after a vault whose own update fails. -/
def Starves (context : LtvContext) : Prop :=
  ∃ vault ∈ context.vaults, ∃ user, NeedsUpdate context.graphVaults vault user ∧
    ((∃ failing ∈ context.vaults, VaultReadsFail context.graphVaults failing) ∨
      ∀ before after, context.vaults = before ++ vault :: after →
        ∃ earlier ∈ before, ∃ other, NeedsUpdate context.graphVaults earlier other ∧
          UpdateFails other)

section Call

variable {settings : LtvSettings} {state : AppState} {call : LtvCall} {context : LtvContext}

theorem LtvReads.maxLtvUsers (reads : LtvReads settings state call context) :
    getMaxLtvUsers call context.blockNumber =
      collectMaxLtvUsers context.graphVaults context.vaults := by
  rw [getMaxLtvUsers, reads.vaults, ok_bind]
  cases vaults : context.vaults with
  | nil => rfl
  | cons vault rest =>
      obtain ⟨reply, replied, same⟩ := reads.graphVaults (by simp [vaults])
      simp only [List.isEmpty_cons, Bool.false_eq_true, if_false]
      rw [replied, ok_bind, same]

theorem processVaultMaxLtvUser_updates (reads : LtvReads settings state call context) :
    (processVaultMaxLtvUser settings state call).1.updates =
      (updateMaxLtvUsers settings call).events := by
  unfold processVaultMaxLtvUser
  rw [reads.due, if_neg (by simp)]
  dsimp only
  split <;> rfl

theorem LtvReads.updates_none (reads : LtvReads settings state call context)
    (fails : ∃ vault ∈ context.vaults, VaultReadsFail context.graphVaults vault) :
    (processVaultMaxLtvUser settings state call).1.updates = [] := by
  obtain ⟨error, raised⟩ := collectMaxLtvUsers_raises context.graphVaults fails
  rw [processVaultMaxLtvUser_updates reads, updateMaxLtvUsers, reads.finalized,
    Traced.lift_ok_bind, reads.synced, Traced.lift_ok_bind, reads.maxLtvUsers, raised,
    Traced.lift_error_bind]

theorem LtvReads.updates (reads : LtvReads settings state call context)
    (succeed : ∀ vault ∈ context.vaults, ¬VaultReadsFail context.graphVaults vault) :
    (processVaultMaxLtvUser settings state call).1.updates =
      (Traced.forEach context.vaults (updateVault context.graphVaults)).events := by
  have looped : Traced.forEach context.vaults (updateVault context.graphVaults) =
      Traced.forEach (context.vaults.filterMap (foundUser context.graphVaults))
        updateMaxLtvUser :=
    (Traced.forEach_filterMap updateMaxLtvUser (fun vault found => by rw [updateVault, found])
      (fun vault user found => by rw [updateVault, found]) context.vaults).symm
  rw [processVaultMaxLtvUser_updates reads, updateMaxLtvUsers, reads.finalized,
    Traced.lift_ok_bind, reads.synced, Traced.lift_ok_bind, reads.maxLtvUsers,
    collectMaxLtvUsers_ok context.graphVaults succeed, Traced.lift_ok_bind, looped]
  cases context.vaults.filterMap (foundUser context.graphVaults) with
  | nil => rfl
  | cons user users =>
      simp only [List.isEmpty_cons, Bool.false_eq_true, if_false]
      cases result : (Traced.forEach (user :: users) updateMaxLtvUser).result with
      | error error => rw [Traced.bind_error result]
      | ok value => rw [Traced.bind_ok result, Traced.pure_events, List.append_nil]

theorem updatesAll_iff (reads : LtvReads settings state call context) :
    (∀ vault ∈ context.vaults, ∀ user, NeedsUpdate context.graphVaults vault user →
      ∃ update ∈ (processVaultMaxLtvUser settings state call).1.updates, update.user = user) ↔
    ¬Starves context := by
  by_cases fails : ∃ vault ∈ context.vaults, VaultReadsFail context.graphVaults vault
  · rw [reads.updates_none fails]
    constructor
    · rintro updated ⟨vault, member, user, needs, -⟩
      obtain ⟨update, none, -⟩ := updated vault member user needs
      cases none
    · intro clean vault member user needs
      exact absurd ⟨vault, member, user, needs, Or.inl fails⟩ clean
  · rw [reads.updates fun vault member failing => fails ⟨vault, member, failing⟩]
    constructor
    · rintro updated ⟨vault, member, user, needs, starved⟩
      obtain ⟨update, submitted, rfl⟩ := updated vault member user needs
      obtain ⟨before, reached, after, split, clean, own⟩ :=
        (Traced.mem_forEach_events _).mp submitted
      have same : reached = vault := (mem_updateVault own).same.symm.trans needs.same
      rw [same] at split
      rcases starved with failing | late
      · exact fails failing
      · obtain ⟨earlier, place, other, needsToo, failsToo⟩ := late before after split
        have raised := updateVault_fails.mpr ⟨other, needsToo, failsToo⟩
        rw [clean earlier place] at raised
        cases raised
    · intro clean vault member user needs
      by_contra missing
      refine clean ⟨vault, member, user, needs, Or.inr fun before after split => ?_⟩
      by_contra early
      refine missing ⟨⟨user, vault.updateVaultMaxLtvUser user.address user.harvestParams⟩, ?_, rfl⟩
      refine (Traced.mem_forEach_events _).mpr ⟨before, vault, after, split, ?_, ?_⟩
      · intro earlier place
        rw [← Bool.not_eq_false]
        intro raised
        exact early ⟨earlier, place, updateVault_fails.mp raised⟩
      · rw [updateVault_eq needs, ← needs.same]
        exact List.mem_singleton_self _

end Call

/-- In every call of the run, every vault whose reads succeed and whose allocator differs from
the tracked user gets its update. -/
def UpdatesIsolated (settings : LtvSettings) (state : AppState) (calls : List LtvCall) : Prop :=
  ∀ run ∈ history (processVaultMaxLtvUser settings) state calls, ∀ context,
    LtvReads settings run.before run.input context →
      ∀ vault ∈ context.vaults, ∀ user, NeedsUpdate context.graphVaults vault user →
        ∃ update ∈ run.output.updates, update.user = user

theorem updatesIsolated_iff (settings : LtvSettings) (state : AppState) (calls : List LtvCall) :
    UpdatesIsolated settings state calls ↔
      ∀ run ∈ history (processVaultMaxLtvUser settings) state calls, ∀ context,
        LtvReads settings run.before run.input context → ¬Starves context := by
  unfold UpdatesIsolated
  refine forall₂_congr fun run member => forall₂_congr fun context reads => ?_
  have output : run.output = (processVaultMaxLtvUser settings run.before run.input).1 :=
    congrArg Transition.output (mem_history_eq _ member)
  rw [output]
  exact updatesAll_iff reads

/-- Over any number of runs, a vault whose update is never confirmed keeps the one listed after
it from its update. -/
theorem vault_starved_by_failing_update :
    let settings : LtvSettings := ⟨86400, "https://graph"⟩
    let first := ChecksumAddress.ofDigit '1' rfl
    let second := ChecksumAddress.ofDigit '2' rfl
    let vault (vault : ChecksumAddress) (receipt : Option TxReceipt) : LtvVault :=
      { vault := vault
        maxLtvAllocator := .ok (some (.ofDigit '3' rfl))
        vaultMaxLtv := fun _ => .ok 900000000000000000
        maxLtvUser := .ok (.ofDigit '4' rfl)
        updateVaultMaxLtvUser := fun _ _ => .ok receipt
        updatedMaxLtv := fun _ => .ok 900000000000000000 }
    let call (currentTime : Nat) : LtvCall :=
      { currentTime := currentTime
        finalizedBlock := .ok 1000
        latestGraphBlock := .ok 1000
        ostokenVaults := fun _ => .ok [vault first none, vault second (some ⟨7, 1⟩)]
        graphVaults := fun _ => .ok [⟨first, [], 0, 0, []⟩, ⟨second, [], 0, 0, []⟩] }
    (∀ time, ∀ times : List Nat, ¬UpdatesIsolated settings {} ((time :: times).map call)) ∧
      ∀ times : List Nat, ∀ run ∈ history (processVaultMaxLtvUser settings) {} (times.map call),
        run.output.updates.map (fun update => update.user.vault.vault) = [first] := by
  intro settings first second vault call
  let context : LtvContext :=
    { blockNumber := 1000
      vaults := [vault first none, vault second (some ⟨7, 1⟩)]
      graphVaults := graphVaultsMap [⟨first, [], 0, 0, []⟩, ⟨second, [], 0, 0, []⟩] }
  have submitted (time : Nat) : (processVaultMaxLtvUser settings {} (call time)).1.updates.map
      (fun update => update.user.vault.vault) = [first] := rfl
  have unchanged (time : Nat) : (processVaultMaxLtvUser settings {} (call time)).2 = {} := rfl
  have always (times : List Nat) :
      ∀ run ∈ history (processVaultMaxLtvUser settings) {} (times.map call),
        run.output.updates.map (fun update => update.user.vault.vault) = [first] := by
    induction times with
    | nil => simp [history]
    | cons time rest ih =>
        rw [List.map_cons, history, unchanged time, List.forall_mem_cons]
        exact ⟨submitted time, ih⟩
  refine ⟨fun time times isolated => ?_, always⟩
  have called : transition (processVaultMaxLtvUser settings) {} (call time) ∈
      history (processVaultMaxLtvUser settings) {} ((time :: times).map call) :=
    List.mem_cons_self
  have reads : LtvReads settings {} (call time) context :=
    ⟨rfl, rfl, rfl, rfl, fun _ => ⟨_, rfl, rfl⟩⟩
  obtain ⟨update, member, same⟩ := isolated _ called context reads
    (vault second (some ⟨7, 1⟩)) (by simp [context])
    ⟨vault second (some ⟨7, 1⟩), .ofDigit '3' rfl, .ofDigit '4' rfl, 900000000000000000,
      ⟨[], 0, 0, []⟩⟩
    ⟨rfl, rfl, rfl, rfl, rfl, by decide⟩
  have listed : second ∈ [first] := by
    rw [← always (time :: times) _ called]
    exact List.mem_map.mpr ⟨update, member, by rw [same]⟩
  exact absurd listed (by decide)

end V3Keeper
