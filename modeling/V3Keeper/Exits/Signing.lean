import V3Keeper.Exits.Quorums
import V3Keeper.Exits.Reconstruction

/-!
`process_exits` from the answers of the oracles to the signatures it sends, where the keys of the
validators are shared among the oracles.
-/

namespace V3Keeper

open Python Polynomial

section Shares

theorem readExitShare_index {reader : Json.TextReader} {url : String} {oracleIndex : Nat}
    {exitData : Json} {share : ValidatorExitShare}
    (read : readExitShare reader url oracleIndex exitData = .ok share) :
    share.shareIndex = oracleIndex := by
  unfold readExitShare at read
  split at read
  case h_1 =>
    split at read
    case h_1 =>
      split at read
      case h_1 => cases read
      case h_2 =>
        cases read
        rfl
    case h_2 => cases read
  case h_2 => cases read

theorem fetchExitSharesFromEndpoint_index {reader : Json.TextReader} {oracleIndex : Nat}
    {endpoint : Endpoint} {shares : List ValidatorExitShare}
    (fetched : fetchExitSharesFromEndpoint reader oracleIndex endpoint = .ok shares) :
    ∀ share ∈ shares, share.shareIndex = oracleIndex := by
  unfold fetchExitSharesFromEndpoint at fetched
  split at fetched
  case h_1 => cases fetched
  case h_2 data _ =>
    split at fetched
    case isFalse =>
      cases fetched
      simp
    case isTrue =>
      split at fetched
      case h_1 => cases fetched
      case h_2 items _ =>
        intro share member
        obtain ⟨item, -, read⟩ := mem_of_mapM_ok fetched share member
        exact readExitShare_index read

theorem fetchExitSharesFromOracle_index (reader : Json.TextReader) (oracleIndex : Nat)
    (endpoints : List Endpoint) : ∀ share ∈ fetchExitSharesFromOracle reader oracleIndex endpoints,
      share.shareIndex = oracleIndex := by
  induction endpoints with
  | nil => simp [fetchExitSharesFromOracle]
  | cons endpoint rest ih =>
      rw [fetchExitSharesFromOracle]
      split
      case h_1 share shares fetched => exact fetchExitSharesFromEndpoint_index fetched
      case h_2 => exact ih

theorem callShares_index_lt {settings : ExitSettings} {call : ExitsCall}
    {share : ValidatorExitShare} (member : share ∈ callShares settings call) :
    share.shareIndex < call.answers.length := by
  obtain ⟨⟨answer, oracleIndex⟩, listed, own⟩ := List.mem_flatMap.mp member
  rw [fetchExitSharesFromOracle_index _ _ _ share own]
  exact (List.mem_zipIdx' listed).1

theorem sharesByIndex_entry {shares : List ValidatorExitShare} {entry : Nat × Bytes}
    (member : entry ∈ (sharesByIndex shares).entries) :
    ∃ share ∈ shares, entry = (share.shareIndex, share.exitSignatureShare) := by
  induction shares using List.reverseRecOn with
  | nil => cases member
  | append_singleton shares share ih =>
      rw [sharesByIndex_concat, PyDict.mem_set] at member
      rcases member with ⟨old, -⟩ | new
      · obtain ⟨other, otherMember, same⟩ := ih old
        exact ⟨other, List.mem_append_left _ otherMember, same⟩
      · exact ⟨share, by simp, new⟩

theorem StatusesSettled.unique {settings : ExitSettings} {call : ExitsCall} {slot other : Nat}
    {replies others : List (List ConsensusValidator)} {exited gone : List Int}
    (settled : StatusesSettled settings call slot replies exited)
    (alsoSettled : StatusesSettled settings call other others gone) : exited = gone := by
  have injective {α : Type} : Function.Injective (Except.ok : α → Except PyError α) :=
    fun _ _ same => Except.ok.inj same
  have sameSlot := settled.chainHead.symm.trans alsoSettled.chainHead
  cases sameSlot
  have sameReplies : replies = others :=
    injective.list_map (settled.fetched.symm.trans alsoSettled.fetched)
  subst sameReplies
  exact injective.list_map (settled.indexed.symm.trans alsoSettled.indexed)

theorem mem_nameIndex {named : List Json} (ints : ∀ index ∈ named, ∃ m, index = .int m) {n : Int}
    {share : ValidatorExitShare} (names : share.validatorIndex = .int n) {index : Json} :
    index ∈ nameIndex named share ↔ index ∈ named ∨ index = .int n := by
  rw [nameIndex, names]
  split
  case isTrue known =>
    obtain ⟨other, listed, same⟩ := List.any_eq_true.mp known
    obtain ⟨m, rfl⟩ := ints other listed
    rw [Json.beq_int_int, decide_eq_true_eq] at same
    subst same
    constructor
    · exact Or.inl
    · rintro (old | rfl)
      · exact old
      · exact listed
  case isFalse => rw [List.mem_append, List.mem_singleton]

theorem mem_foldl_nameIndex {shares : List ValidatorExitShare} {named : List Json}
    (ints : ∀ index ∈ named, ∃ m, index = .int m)
    (sharesInts : ∀ share ∈ shares, ∃ n, share.validatorIndex = .int n) {index : Json} :
    index ∈ shares.foldl nameIndex named ↔
      index ∈ named ∨ ∃ share ∈ shares, share.validatorIndex = index := by
  induction shares generalizing named with
  | nil => simp
  | cons share rest ih =>
      obtain ⟨⟨n, names⟩, restInts⟩ := List.forall_mem_cons.mp sharesInts
      have next : ∀ index ∈ nameIndex named share, ∃ m, index = .int m := by
        intro other member
        rcases (mem_nameIndex ints names).mp member with old | rfl
        · exact ints other old
        · exact ⟨n, rfl⟩
      rw [List.foldl_cons, ih next restInts, mem_nameIndex ints names, ← names, or_assoc,
        List.exists_mem_cons_iff, @eq_comm _ index]

end Shares

section Keys

variable {G A : Type*} [AddCommGroup A] {curve : Curve G} {p : Nat}

/-- The key of validator `n` is `(key n).eval 0`, and the oracle at place `i` signs the exit
message of the validator with `(key n).eval (i + 1)`. -/
structure KeyShares (ecc : PyEcc curve A p) (threshold : Nat) where
  key : Int → (ZMod p)[X]
  message : Int → A
  degree : ∀ n, (key n).degree < threshold
  primeOrder : ∀ n, p • message n = 0

namespace KeyShares

variable {ecc : PyEcc curve A p} {threshold : Nat}

def share (keys : KeyShares ecc threshold) (n : Int) (i : Nat) : Bytes :=
  ecc.signature (((keys.key n).eval ((i : ZMod p) + 1)).val • keys.message n)

def exitSignature (keys : KeyShares ecc threshold) (n : Int) : Bytes :=
  ecc.signature (((keys.key n).eval 0).val • keys.message n)

end KeyShares

/-- The oracles that answer name validators by integers, no validator twice, and send their own
shares. -/
structure OwnShares (settings : ExitSettings) (call : ExitsCall) {ecc : PyEcc curve A p}
    {threshold : Nat} (keys : KeyShares ecc threshold) : Prop where
  few : call.answers.length < p
  genuine : ∀ share ∈ callShares settings call, ∃ n, share.validatorIndex = .int n ∧
    share.exitSignatureShare = keys.share n share.shareIndex
  once : ((callShares settings call).map fun share =>
    (share.validatorIndex, share.shareIndex)).Nodup

variable {settings : ExitSettings} {call : ExitsCall} {ecc : PyEcc curve A p} {threshold : Nat}
  {keys : KeyShares ecc threshold}

theorem OwnShares.mem_entriesFor (own : OwnShares settings call keys) {n : Int}
    {share : ValidatorExitShare} : share ∈ entriesFor settings call (.int n) ↔
      share ∈ callShares settings call ∧ share.validatorIndex = .int n := by
  rw [entriesFor, listedShares, List.mem_filter]
  refine and_congr_right fun member => ?_
  obtain ⟨m, named, -⟩ := own.genuine share member
  rw [named, Json.beq_int_int, decide_eq_true_eq, Json.int.injEq]
  exact eq_comm

theorem OwnShares.oracles_nodup (own : OwnShares settings call keys) (n : Int) :
    ((entriesFor settings call (.int n)).map ValidatorExitShare.shareIndex).Nodup := by
  have pairs : (entriesFor settings call (.int n)).map
      (fun share => (share.validatorIndex, share.shareIndex)) =
        ((entriesFor settings call (.int n)).map ValidatorExitShare.shareIndex).map
          (Prod.mk (.int n)) := by
    rw [List.map_map]
    refine List.map_congr_left fun share member => ?_
    rw [(own.mem_entriesFor.mp member).2]
    rfl
  refine List.Nodup.of_map (Prod.mk (Json.int n)) ?_
  rw [← pairs]
  exact (List.filter_sublist.map _).nodup own.once

theorem OwnShares.sharing (own : OwnShares settings call keys) {n : Int}
    (enough : threshold ≤ (entriesFor settings call (.int n)).length) :
    Sharing ecc (keys.key n) (keys.message n) threshold
      (sharesByIndex (entriesFor settings call (.int n))) where
  enough := by
    rw [sharesByIndex_size, (own.oracles_nodup n).dedup, List.length_map]
    exact enough
  indexes := by
    intro i member
    obtain ⟨share, listed, rfl⟩ := List.mem_map.mp (mem_sharesByIndex_keys.mp member)
    have place := callShares_index_lt (own.mem_entriesFor.mp listed).1
    have few := own.few
    omega
  values := by
    intro entry member
    obtain ⟨share, listed, rfl⟩ := sharesByIndex_entry member
    obtain ⟨inCall, named⟩ := own.mem_entriesFor.mp listed
    obtain ⟨m, alsoNamed, genuine⟩ := own.genuine share inCall
    rw [named, Json.int.injEq] at alsoNamed
    rw [genuine, ← alsoNamed]
    rfl

theorem OwnShares.mem_remaining (own : OwnShares settings call keys) {exited : List Int}
    {index : Json} : index ∈ remainingValidators settings call exited ↔
      ∃ n, index = .int n ∧ n ∉ exited ∧ entriesFor settings call index ≠ [] := by
  have ints : ∀ share ∈ callShares settings call, ∃ n, share.validatorIndex = .int n :=
    fun share member => (own.genuine share member).imp fun _ both => both.1
  rw [remainingValidators, listedValidators, List.mem_filter, mem_foldl_nameIndex (by simp) ints]
  constructor
  · rintro ⟨impossible | ⟨share, member, rfl⟩, kept⟩
    · cases impossible
    · obtain ⟨n, names⟩ := ints share member
      refine ⟨n, names, fun gone => ?_, ?_⟩
      · have apart := List.all_eq_true.mp kept n gone
        rw [names, Json.beq_int_int] at apart
        simp at apart
      · rw [names]
        exact List.ne_nil_of_mem (own.mem_entriesFor.mpr ⟨member, names⟩)
  · rintro ⟨n, rfl, kept, listed⟩
    obtain ⟨share, member⟩ := List.exists_mem_of_ne_nil _ listed
    refine ⟨Or.inr ⟨share, own.mem_entriesFor.mp member⟩, List.all_eq_true.mpr fun m gone => ?_⟩
    rw [Json.beq_int_int, Bool.not_eq_true', decide_eq_false_iff_not]
    rintro rfl
    exact kept gone

variable [Fact p.Prime]

theorem OwnShares.reconstruct (own : OwnShares settings call keys) {n : Int}
    (enough : threshold ≤ (entriesFor settings call (.int n)).length) :
    reconstructSharedBlsSignature curve (sharesByIndex (entriesFor settings call (.int n))) =
      .ok (keys.exitSignature n) :=
  reconstruct_element ecc (keys.primeOrder n) (keys.degree n) (own.sharing enough)

end Keys

/-- Every exit that is submitted carries the signature of the validator's key, built from
the shares of enough oracles. Unless submitting raises, an exit is submitted for exactly the
validators that are not reported as exiting and that enough oracles name. -/
structure SignsExits {G A : Type*} [AddCommGroup A] {curve : Curve G} {p : Nat}
    {ecc : PyEcc curve A p} (settings : ExitSettings) (call : ExitsCall)
    (keys : KeyShares ecc call.exitSignatureRecoverThreshold) (exited : List Int) : Prop where
  signed : ∀ exit ∈ (processExits settings curve call).submitted, ∃ n,
    exit.validatorIndex = .int n ∧ exit.exitSignature = keys.exitSignature n ∧
      call.exitSignatureRecoverThreshold ≤ exit.signatures.size
  complete : (∀ n error, call.submitVoluntaryExit (.int n) (keys.exitSignature n) ≠
      .raised error) → ∀ n,
    (∃ exit ∈ (processExits settings curve call).submitted, exit.validatorIndex = .int n) ↔
      n ∉ exited ∧ entriesFor settings call (.int n) ≠ [] ∧
        call.exitSignatureRecoverThreshold ≤ (entriesFor settings call (.int n)).length

theorem processExits_signs {G A : Type*} [AddCommGroup A] {curve : Curve G} {p : Nat}
    [Fact p.Prime] {ecc : PyEcc curve A p} {settings : ExitSettings} {call : ExitsCall}
    {keys : KeyShares ecc call.exitSignatureRecoverThreshold}
    (own : OwnShares settings call keys) (chunk : 1 ≤ settings.validatorsFetchChunkSize)
    {slot : Nat} {replies : List (List ConsensusValidator)} {exited : List Int}
    (settled : StatusesSettled settings call slot replies exited) :
    SignsExits settings call keys exited where
  signed := by
    intro exit submitted
    obtain ⟨turn, enough, signatures, rebuilt⟩ := mem_processExits.mp submitted
    obtain ⟨-, ownSlot, ownReplies, ownExited, -, remains, -⟩ := turn
    obtain ⟨n, index, -⟩ := own.mem_remaining.mp remains
    rw [index] at enough signatures
    rw [signatures, own.reconstruct enough, Except.ok.injEq] at rebuilt
    exact ⟨n, index, rebuilt.symm, signatures ▸ (own.sharing enough).enough⟩
  complete := by
    intro accepted n
    have clean : ∀ index ∈ remainingValidators settings call exited,
        ¬Aborts settings curve call index := by
      rintro index remains ⟨enough, raises⟩
      obtain ⟨m, rfl, -⟩ := own.mem_remaining.mp remains
      obtain ⟨error, raised⟩ := raises _ (own.reconstruct enough)
      exact accepted m error raised
    constructor
    · rintro ⟨exit, submitted, named⟩
      obtain ⟨turn, enough, -⟩ := mem_processExits.mp submitted
      obtain ⟨-, ownSlot, ownReplies, ownExited, ownSettled, remains, -⟩ := turn
      rw [named] at enough remains
      obtain ⟨m, same, kept, listed⟩ := own.mem_remaining.mp remains
      cases same
      exact ⟨settled.unique ownSettled ▸ kept, listed, enough⟩
    · rintro ⟨kept, listed, enough⟩
      refine ⟨⟨.int n, sharesByIndex (entriesFor settings call (.int n)),
        keys.exitSignature n⟩, ?_, rfl⟩
      refine mem_processExits.mpr ⟨⟨chunk, slot, replies, exited, settled, ?_, ?_⟩, enough, rfl,
        own.reconstruct enough⟩
      · exact own.mem_remaining.mpr ⟨n, rfl, kept, listed⟩
      · intro earlier member
        exact clean earlier ((List.takeWhile_sublist _).subset member)

noncomputable def linearKeys : KeyShares scalarEcc 2 where
  key _ := X + C 5
  message _ := 1
  degree _ := by
    rw [degree_X_add_C]
    decide
  primeOrder _ := by rw [nsmul_one, ZMod.natCast_self]

theorem linearKeys_exitSignature (n : Int) : linearKeys.exitSignature n = [5] := by
  have value : (X + C 5 : (ZMod scalarOrder)[X]).eval 0 = ((5 : Nat) : ZMod scalarOrder) := by
    rw [eval_add, eval_X, eval_C, zero_add]
    rfl
  rw [KeyShares.exitSignature, linearKeys, value, nsmul_one, ZMod.natCast_zmod_val]
  exact scalarEcc_signature (by decide) (by decide)

theorem linearKeys_share (n : Int) {i : Nat} (small : i < 250) :
    linearKeys.share n i = [UInt8.ofNat (i + 6)] := by
  have value : (X + C 5 : (ZMod scalarOrder)[X]).eval ((i : ZMod scalarOrder) + 1) =
      ((i + 6 : Nat) : ZMod scalarOrder) := by
    rw [eval_add, eval_X, eval_C]
    push_cast
    ring
  rw [KeyShares.share, linearKeys, value, nsmul_one, ZMod.natCast_zmod_val]
  exact scalarEcc_signature (by omega) (by omega)

/-- The second of three oracles is down, and validator 8 is exiting already. -/
theorem processExits_signs_two_of_three :
    let settings : ExitSettings :=
      { exitedStatuses := ["active_exiting"], validatorsFetchChunkSize := 100
        reader :=
          { isFloat := fun _ => false
            toBytes := fun text => .ok (if text = "0x06" then [6] else [8]) } }
    let entry (index : Int) (share : String) : Json :=
      .obj [("index", .int index), ("exit_signature_share", .str share)]
    let oracle : Oracle := ⟨"0x01", .ofDigit '1' rfl⟩
    let call : ExitsCall :=
      { chainHead := .ok 1000, exitSignatureRecoverThreshold := 2
        answers := [⟨oracle, [⟨"https://a", .ok (.arr [entry 7 "0x06", entry 8 "0x06"])⟩]⟩,
          ⟨oracle, [⟨"https://b", .error .requestError⟩]⟩,
          ⟨oracle, [⟨"https://c", .ok (.arr [entry 8 "0x08", entry 7 "0x08"])⟩]⟩]
        validatorsByIds := fun _ _ => .ok [⟨"active_ongoing", .ok 7⟩, ⟨"active_exiting", .ok 8⟩]
        submitVoluntaryExit := fun _ _ => .submitted }
    ∃ exit ∈ (processExits settings scalarCurve call).submitted,
      exit.validatorIndex = .int 7 ∧ exit.exitSignature = [5] := by
  intro settings entry oracle call
  have shares : callShares settings call = [⟨.int 7, [6], 0⟩, ⟨.int 8, [6], 0⟩,
      ⟨.int 8, [8], 2⟩, ⟨.int 7, [8], 2⟩] := rfl
  have own : OwnShares settings call linearKeys := by
    refine ⟨by norm_num [call], ?_, ?_⟩
    · rw [shares]
      simp [linearKeys_share]
    · rw [shares]
      simp
  have settled : StatusesSettled settings call 1000
      [[⟨"active_ongoing", .ok 7⟩, ⟨"active_exiting", .ok 8⟩]] [8] := by
    refine ⟨rfl, ?_, rfl, rfl, by simp, ?_⟩
    · rw [shares]
      simp [Json.hashable]
    · have listed : listedValidators settings call = [.int 7, .int 8] := rfl
      rw [listed]
      simp [Json.beq_int_int]
  have entries : entriesFor settings call (.int 7) = [⟨.int 7, [6], 0⟩, ⟨.int 7, [8], 2⟩] := rfl
  have signs := processExits_signs own (by decide) settled
  obtain ⟨exit, submitted, named⟩ := (signs.complete (by simp [call]) 7).mpr
    ⟨by decide, by simp [entries], by simp [entries, call]⟩
  obtain ⟨n, -, signature, -⟩ := signs.signed exit submitted
  exact ⟨exit, submitted, named, signature.trans (linearKeys_exitSignature n)⟩

end V3Keeper
