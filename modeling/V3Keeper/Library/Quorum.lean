import Mathlib.Data.Finset.Card

/-!
Quorums of parties of whom some are faulty. Two quorums that are large enough together share a
correct party, so that they vote for the same value where correct parties vote for one only.
-/

namespace Quorum

/-- Who votes for what. A party that is not faulty votes for at most one value. -/
structure Assembly (Party Value : Type*) where
  parties : Finset Party
  faulty : Finset Party
  votesFor : Party → Value → Prop
  single : ∀ party ∈ parties, party ∉ faulty → ∀ first second,
    votesFor party first → votesFor party second → first = second

variable {Party Value : Type*} {assembly : Assembly Party Value}

def Assembly.Backed (assembly : Assembly Party Value) (size : Nat) (value : Value) : Prop :=
  ∃ signers ⊆ assembly.parties, size ≤ signers.card ∧
    ∀ party ∈ signers, assembly.votesFor party value

theorem Assembly.Backed.correct {size : Nat} {value : Value} (backed : assembly.Backed size value)
    (outnumbered : assembly.faulty.card < size) :
    ∃ party ∈ assembly.parties, party ∉ assembly.faulty ∧ assembly.votesFor party value := by
  obtain ⟨signers, known, enough, voted⟩ := backed
  obtain ⟨party, signer, correct⟩ :=
    Finset.exists_mem_notMem_of_card_lt_card (outnumbered.trans_le enough)
  exact ⟨party, known signer, correct, voted party signer⟩

variable [DecidableEq Party]

theorem Assembly.backed_of_signers {signers : List Party} (apart : signers.Nodup)
    (known : ∀ party ∈ signers, party ∈ assembly.parties) {value : Value}
    (voted : ∀ party ∈ signers, assembly.votesFor party value) :
    assembly.Backed signers.length value := by
  refine ⟨signers.toFinset, fun party signer => ?_, ?_, fun party signer => ?_⟩
  · exact known party (List.mem_toFinset.mp signer)
  · exact (List.toFinset_card_of_nodup apart).ge
  · exact voted party (List.mem_toFinset.mp signer)

theorem exists_correct_common {parties first second : Finset Party} (faulty : Finset Party)
    (firstKnown : first ⊆ parties) (secondKnown : second ⊆ parties)
    (overlap : parties.card + faulty.card < first.card + second.card) :
    ∃ party ∈ first ∩ second, party ∉ faulty := by
  have together := Finset.card_le_card (Finset.union_subset firstKnown secondKnown)
  have counted := Finset.card_union_add_card_inter first second
  exact Finset.exists_mem_notMem_of_card_lt_card (by omega)

theorem Assembly.Backed.agree {firstSize secondSize : Nat} {first second : Value}
    (firstBacked : assembly.Backed firstSize first)
    (secondBacked : assembly.Backed secondSize second)
    (overlap : assembly.parties.card + assembly.faulty.card < firstSize + secondSize) :
    first = second := by
  obtain ⟨signers, known, enough, voted⟩ := firstBacked
  obtain ⟨others, othersKnown, othersEnough, othersVoted⟩ := secondBacked
  obtain ⟨party, shared, correct⟩ :=
    exists_correct_common assembly.faulty known othersKnown (by omega)
  obtain ⟨signer, other⟩ := Finset.mem_inter.mp shared
  exact assembly.single party (known signer) correct first second (voted party signer)
    (othersVoted party other)

end Quorum
