import Mathlib.Data.Prod.Lex
import Mathlib.Data.String.Basic
import LoadCoach.Foundations.Digits
import LoadCoach.Foundations.Selection
import LoadCoach.Values

/-! # One row for every capability and profile

`collapse_evidence` selects, among the rows of one model, one for every capability and runtime
profile: of this machine before any other, of the highest policy version, measured last, and of the
largest row ID.  A policy version is free text, and `policy_version_key` reads as numbers whatever
`str.isdigit` accepts: a superscript is a digit that `int` refuses, and so is a number of more than
a few thousand digits.  On these the selection raises; on everything else it is what it should be
(`collapses_iff`). -/

namespace LoadCoach.Registry

open Foundations

/-! ### The selection -/

/-- The sort key of a policy version; `none` where `int` raises. -/
def policyVersionKey (policyVersion : String) : Option (List ℕ × String) :=
  let parts := split '.' policyVersion
  if !parts.isEmpty && parts.all isDigits then
    (parts.mapM intOfDigits).map fun numbers => (numbers, policyVersion)
  else
    some ([], policyVersion)

/-- One stored row of evidence.  Its suite versions and its calibration are carried and not read. -/
structure EvidenceCandidate where
  rowId : String
  capabilityId : String
  runtimeProfileHash : String
  machineFingerprint : String
  policyVersion : String
  measuredAt : Instant
  score : ℚ
  confidence : ℚ
  sampleCount : ℕ
deriving DecidableEq, Repr

/-- What rows are compared by. -/
abbrev SelectionKey := ℕ ×ₗ ((List ℕ ×ₗ String) ×ₗ (Instant ×ₗ String))

namespace EvidenceCandidate

/-- What a row is kept for. -/
def groupKey (c : EvidenceCandidate) : String ×ₗ String :=
  toLex (c.capabilityId, c.runtimeProfileHash)

/-- The row was measured on this machine, as far as that is known. -/
def isLocal (localMachineFingerprint : Option String) (c : EvidenceCandidate) : Bool :=
  localMachineFingerprint.isNone || localMachineFingerprint == some c.machineFingerprint

/-- The key of a row whose policy version has a key. -/
def keyWith (localMachineFingerprint : Option String) (c : EvidenceCandidate)
    (version : List ℕ × String) : SelectionKey :=
  toLex (if c.isLocal localMachineFingerprint then 1 else 0,
    toLex (toLex version, toLex (c.measuredAt, c.rowId)))

/-- `_selection_key`: the key that is maximized. -/
def selectionKey (localMachineFingerprint : Option String) (c : EvidenceCandidate) :
    Option SelectionKey :=
  (policyVersionKey c.policyVersion).map (c.keyWith localMachineFingerprint)

end EvidenceCandidate

/-- Reduce many rows to at most one for every capability and runtime profile; `none` where it
raises. -/
def collapseEvidence (candidates : List EvidenceCandidate)
    (localMachineFingerprint : Option String) : Option (List EvidenceCandidate) :=
  selectBy EvidenceCandidate.groupKey (EvidenceCandidate.selectionKey localMachineFingerprint)
    candidates

/-! ### Policy versions -/

/-- The numbers of a version that is dotted integers; no numbers for any other. -/
def versionNumbers (policyVersion : String) : List ℕ :=
  let parts := split '.' policyVersion
  if parts.all fun part => !part.toList.isEmpty && (decimal? part).isSome then
    parts.filterMap decimal?
  else
    []

/-- A version whose parts are all digits has no part that is not a number. -/
def Readable (policyVersion : String) : Prop :=
  (∀ part ∈ split '.' policyVersion, isDigits part = true) →
    ∀ part ∈ split '.' policyVersion, part.toList.length ≤ maxStrDigits ∧
      ∀ c ∈ part.toList, (decimalValue? c).isSome = true

variable {policyVersion : String}

theorem split_ne_nil : split '.' policyVersion ≠ [] := by
  simp [split, List.splitOn_ne_nil]

/-- **A version has a key** exactly when it is readable. -/
theorem policyVersionKey_isSome_iff :
    (policyVersionKey policyVersion).isSome = true ↔ Readable policyVersion := by
  unfold policyVersionKey Readable
  dsimp only
  split_ifs with hdigits
  · simp only [Bool.and_eq_true, List.all_eq_true] at hdigits
    rw [Option.isSome_map, mapM_isSome_iff]
    simp only [intOfDigits_isSome_iff]
    exact ⟨fun h _ => h, fun h => h hdigits.2⟩
  · have hother : ¬ ∀ part ∈ split '.' policyVersion, isDigits part = true := by
      intro hall
      refine hdigits ?_
      simp [split_ne_nil, List.all_eq_true.2 hall]
    exact ⟨fun _ hall => absurd hall hother, fun _ => rfl⟩

/-- **The key of a readable version**: its numbers, and the version itself. -/
theorem policyVersionKey_eq (h : Readable policyVersion) :
    policyVersionKey policyVersion = some (versionNumbers policyVersion, policyVersion) := by
  unfold policyVersionKey versionNumbers
  dsimp only
  split_ifs with hdigits hnumbers hnumbers
  · simp only [Bool.and_eq_true, List.all_eq_true] at hdigits hnumbers
    have hint : ∀ part ∈ split '.' policyVersion, intOfDigits part = decimal? part :=
      fun part hpart => intOfDigits_eq (intOfDigits_isSome_iff.2 (h hdigits.2 part hpart))
    have hmap : (split '.' policyVersion).mapM intOfDigits =
        some ((split '.' policyVersion).filterMap decimal?) := by
      rw [mapM_eq_some, List.map_congr_left hint, List.map_filterMap_some_eq_filter_map_isSome]
      refine (List.filter_eq_self.2 fun number hnumber => ?_).symm
      obtain ⟨part, hpart, rfl⟩ := List.mem_map.1 hnumber
      exact (hnumbers part hpart).2
    rw [hmap]
    rfl
  · simp only [Bool.and_eq_true, List.all_eq_true] at hdigits
    refine absurd (List.all_eq_true.2 fun part hpart => ?_) hnumbers
    have hdecimal : (decimal? part).isSome = true :=
      decimalFrom_isSome_iff.2 (h hdigits.2 part hpart).2
    have hne := hdigits.2 part hpart
    simp only [isDigits, Bool.and_eq_true] at hne
    rw [hne.1, hdecimal, Bool.and_self]
  · simp only [Bool.and_eq_true, List.all_eq_true, Bool.not_eq_true',
      List.isEmpty_eq_false_iff] at hnumbers
    refine absurd ?_ hdigits
    have hall : (split '.' policyVersion).all isDigits = true := List.all_eq_true.2
      fun part hpart => isDigits_of_decimal (hnumbers part hpart).1 (hnumbers part hpart).2
    simp [split_ne_nil, hall]
  · rfl

/-! ### The preference -/

namespace EvidenceCandidate

/-- What makes one row preferred to another: this machine, the policy version by its numbers where
it has them, the time of the measurement, and the row ID. -/
def preference (localMachineFingerprint : Option String) (c : EvidenceCandidate) : SelectionKey :=
  c.keyWith localMachineFingerprint (versionNumbers c.policyVersion, c.policyVersion)

end EvidenceCandidate

variable {here : Option String} {candidates : List EvidenceCandidate} {c : EvidenceCandidate}

theorem selectionKey_isSome_iff :
    (c.selectionKey here).isSome = true ↔ Readable c.policyVersion := by
  rw [EvidenceCandidate.selectionKey, Option.isSome_map, policyVersionKey_isSome_iff]

theorem rank_selectionKey (h : Readable c.policyVersion) :
    rank (EvidenceCandidate.selectionKey here) c = (c.preference here : WithBot SelectionKey) := by
  rw [rank, EvidenceCandidate.selectionKey, policyVersionKey_eq h]
  rfl

/-- What a selection should be: one and the same for every order of the rows, with at most one row
for a capability and profile, and none that is preferred to it. -/
def Collapses (here : Option String) (candidates : List EvidenceCandidate) : Prop :=
  ∃ selected, (∀ rows, rows.Perm candidates → collapseEvidence rows here = some selected) ∧
    (∀ c ∈ selected, c ∈ candidates) ∧ (selected.map EvidenceCandidate.groupKey).Nodup ∧
    ∀ c ∈ candidates, ∃ best ∈ selected, best.groupKey = c.groupKey ∧
      c.preference here ≤ best.preference here

/-- A row that no other of its capability and profile is preferred to. -/
def Preferred (here : Option String) (candidates : List EvidenceCandidate)
    (c : EvidenceCandidate) : Prop :=
  ∀ other ∈ candidates, other.groupKey = c.groupKey → other.preference here ≤ c.preference here

/-- No capability and profile has two rows that are preferred. -/
def Decided (here : Option String) (candidates : List EvidenceCandidate) : Prop :=
  ∀ a ∈ candidates, ∀ b ∈ candidates, a.groupKey = b.groupKey →
    Preferred here candidates a → Preferred here candidates b → a = b

theorem largest_iff (hreadable : ∀ c ∈ candidates, Readable c.policyVersion)
    (hc : c ∈ candidates) :
    Largest (EvidenceCandidate.selectionKey here)
      (groupOf EvidenceCandidate.groupKey candidates c.groupKey) c ↔
        Preferred here candidates c := by
  simp only [Largest, Preferred, mem_groupOf, and_imp]
  refine forall₃_congr fun other hother _ => ?_
  rw [rank_selectionKey (hreadable _ hother), rank_selectionKey (hreadable c hc),
    WithBot.coe_le_coe]

theorem hasKeys_iff : HasKeys (EvidenceCandidate.selectionKey here) candidates ↔
    ∀ c ∈ candidates, Readable c.policyVersion :=
  forall₂_congr fun _ _ => selectionKey_isSome_iff

/-- The order of the rows is of no matter when every group is decided. -/
theorem perm_iff_decided (hreadable : ∀ c ∈ candidates, Readable c.policyVersion) :
    (∀ rows, rows.Perm candidates → collapseEvidence rows here = collapseEvidence candidates here) ↔
      Decided here candidates := by
  refine (selectBy_perm_iff (hasKeys_iff.2 hreadable)).trans ⟨fun h a ha b hb hgroup hla hlb => ?_,
    fun h g a ha b hb hla hlb => ?_⟩
  · refine h a.groupKey a (mem_groupOf.2 ⟨ha, rfl⟩) b (mem_groupOf.2 ⟨hb, hgroup.symm⟩)
      ((largest_iff hreadable ha).2 hla) ?_
    rw [hgroup]
    exact (largest_iff hreadable hb).2 hlb
  · obtain ⟨hamem, rfl⟩ := mem_groupOf.1 ha
    obtain ⟨hbmem, hgroup⟩ := mem_groupOf.1 hb
    refine h a hamem b hbmem hgroup.symm ((largest_iff hreadable hamem).1 hla) ?_
    rw [← hgroup] at hlb
    exact (largest_iff hreadable hbmem).1 hlb

theorem decided_of_nodup (h : (candidates.map EvidenceCandidate.rowId).Nodup) :
    Decided here candidates := by
  intro a ha b hb hgroup hpa hpb
  have hkey : a.preference here = b.preference here :=
    le_antisymm (hpb a ha hgroup) (hpa b hb hgroup.symm)
  have hid : a.rowId = b.rowId :=
    congrArg (fun k : SelectionKey => (ofLex (ofLex (ofLex k).2).2).2) hkey
  exact List.inj_on_of_nodup_map h ha hb hid

/-- **When the selection is what it should be.**  Exactly when every policy version is readable
and no capability and profile has two preferred rows; and rows with IDs of their own, as the rows of
a table are, have no two. -/
theorem collapses_iff (here : Option String) (candidates : List EvidenceCandidate) :
    (Collapses here candidates ↔
      (∀ c ∈ candidates, Readable c.policyVersion) ∧ Decided here candidates) ∧
    ((candidates.map EvidenceCandidate.rowId).Nodup → Decided here candidates) := by
  refine ⟨⟨?_, ?_⟩, decided_of_nodup⟩
  · rintro ⟨selected, hselected, -⟩
    have hself := hselected candidates (List.Perm.refl _)
    have hsome : (collapseEvidence candidates here).isSome = true := by
      rw [hself]
      rfl
    have hreadable := hasKeys_iff.1 (selectBy_isSome_iff.1 hsome)
    exact ⟨hreadable, (perm_iff_decided hreadable).1 fun rows hrows =>
      (hselected rows hrows).trans hself.symm⟩
  · rintro ⟨hreadable, hdecided⟩
    have hsome : (collapseEvidence candidates here).isSome = true :=
      selectBy_isSome_iff.2 (hasKeys_iff.2 hreadable)
    obtain ⟨selected, hselected⟩ := Option.isSome_iff_exists.1 hsome
    obtain ⟨hmem, hnodup, hcovers⟩ := selectBy_spec hselected
    refine ⟨selected, fun rows hrows =>
      ((perm_iff_decided hreadable).2 hdecided rows hrows).trans hselected, hmem, hnodup,
      fun c hc => ?_⟩
    obtain ⟨best, hbest, hgroup, hle⟩ := hcovers c hc
    rw [rank_selectionKey (hreadable c hc), rank_selectionKey (hreadable best (hmem best hbest)),
      WithBot.coe_le_coe] at hle
    exact ⟨best, hbest, hgroup, hle⟩

/-- A row whose policy is called by a square. -/
def squared : EvidenceCandidate where
  rowId := "01"
  capabilityId := "coding"
  runtimeProfileHash := "here"
  machineFingerprint := "this"
  policyVersion := "1.²"
  measuredAt := 0
  score := 1 / 2
  confidence := 1 / 2
  sampleCount := 5

/-- **A superscript raises.** -/
theorem squared_not_collapses : ¬ Collapses none [squared] := by
  rintro ⟨selected, hselected, -⟩
  have hraises : collapseEvidence [squared] none = none := by decide +kernel
  have hsome := hselected [squared] (List.Perm.refl _)
  rw [hraises] at hsome
  cases hsome

end LoadCoach.Registry
