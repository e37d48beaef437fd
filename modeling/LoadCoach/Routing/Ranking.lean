import LoadCoach.Foundations.Sorting
import LoadCoach.Routing.Route

/-! # What the ranking depends on

`rank_candidates` sorts by a key that ends in the canonical ID and the row ID of the model, and a
sort is stable.  The subjects of one model, the bare base and its adapters, share both, so where
their scores, confidences, residency and footprints are equal too (`Tied`) the key does not tell
them apart and they stay in the order they came in.  The ranking is the same for every order of the
candidates exactly when no two of them tie (`rankCandidates_perm_iff`). -/

namespace LoadCoach.Routing

open Foundations

namespace RankedCandidate

/-- The candidate without its rank. -/
def unranked (candidate : RankedCandidate) : RankedCandidate := { candidate with rank := 0 }

/-- Equal in everything the order looks at. -/
structure Tied (a b : RankedCandidate) : Prop where
  finalScore : a.finalScore = b.finalScore
  meanConfidence : a.fit.meanConfidence = b.fit.meanConfidence
  resident : a.resident = b.resident
  estimatedVramBytes : a.estimatedVramBytes = b.estimatedVramBytes
  canonicalId : a.subject.facts.canonicalId = b.subject.facts.canonicalId
  modelId : a.subject.facts.modelId = b.subject.facts.modelId

variable {a b : RankedCandidate}

theorem orderKey_eq_iff : a.orderKey = b.orderKey ↔ a.Tied b := by
  have hresident : (if a.resident then 0 else 1) = (if b.resident then 0 else 1) ↔
      a.resident = b.resident := by
    cases a.resident <;> cases b.resident <;> simp
  have hvram : a.estimatedVramBytes.elim ⊤ (fun bytes => (bytes : WithTop ℕ)) =
      b.estimatedVramBytes.elim ⊤ (fun bytes => (bytes : WithTop ℕ)) ↔
        a.estimatedVramBytes = b.estimatedVramBytes := by
    cases a.estimatedVramBytes <;> cases b.estimatedVramBytes <;> simp
  unfold orderKey
  simp only [toLex_inj, Prod.mk.injEq, neg_inj, hresident, hvram]
  constructor
  · rintro ⟨hscore, hconfidence, hres, hbytes, hcanonical, hmodel⟩
    exact ⟨hscore, hconfidence, hres, hbytes, hcanonical, hmodel⟩
  · rintro ⟨hscore, hconfidence, hres, hbytes, hcanonical, hmodel⟩
    exact ⟨hscore, hconfidence, hres, hbytes, hcanonical, hmodel⟩

end RankedCandidate

open RankedCandidate

variable {candidates l : List RankedCandidate} {fallbackDepth : ℕ} {disallowFallback : Bool}

theorem ordered_rankCandidates :
    (rankCandidates candidates fallbackDepth disallowFallback).ordered.map unranked =
      (sortBy orderKey candidates).map unranked := by
  unfold rankCandidates
  dsimp only
  rw [List.map_map]
  have hunranked : (unranked ∘ fun e : RankedCandidate × ℕ => { e.1 with rank := e.2 }) =
      unranked ∘ Prod.fst := rfl
  rw [hunranked, ← List.map_map, List.zipIdx_map_fst]
  rfl

theorem rankCandidates_eq_iff :
    rankCandidates l fallbackDepth disallowFallback =
        rankCandidates candidates fallbackDepth disallowFallback ↔
      (sortBy orderKey l).map unranked = (sortBy orderKey candidates).map unranked := by
  constructor
  · intro h
    rw [← ordered_rankCandidates, h, ordered_rankCandidates]
  · intro h
    have hordered : ∀ l : List RankedCandidate,
        ((l.insertionSort fun a b => a.orderKey ≤ b.orderKey).zipIdx 1).map
            (fun e => { e.1 with rank := e.2 }) =
          (((sortBy orderKey l).map unranked).zipIdx 1).map fun e => { e.1 with rank := e.2 } := by
      intro l
      rw [List.zipIdx_map, List.map_map]
      rfl
    unfold rankCandidates
    dsimp only
    rw [hordered, hordered, h]

/-- **The ranking does not depend on the order of the candidates** exactly when no two of them
tie. -/
theorem rankCandidates_perm_iff (hdistinct : (candidates.map RankedCandidate.subject).Nodup)
    (fallbackDepth : ℕ) (disallowFallback : Bool) :
    (∀ l, l.Perm candidates → rankCandidates l fallbackDepth disallowFallback =
        rankCandidates candidates fallbackDepth disallowFallback) ↔
      candidates.Pairwise fun a b => ¬ a.Tied b := by
  have hunranked : (candidates.map unranked).Nodup := by
    apply List.Nodup.of_map RankedCandidate.subject
    rw [List.map_map]
    exact hdistinct
  have hkeys : (candidates.map orderKey).Nodup ↔ candidates.Pairwise fun a b => ¬ a.Tied b := by
    rw [List.Nodup, List.pairwise_map]
    simp only [ne_eq, orderKey_eq_iff]
  rw [← hkeys, ← map_sortBy_perm_iff (f := unranked) (fun _ => rfl) hunranked]
  simp only [rankCandidates_eq_iff]

/-! ### Two adapters of one base -/

/-- The subject of an adapter on a model, with everything else unstated. -/
def adapted (adapter : Option AdapterFacts) : ExecutionSubject where
  facts := { modelId := "01", canonicalId := "llamacpp:qwen3", providerKind := "llamacpp",
             providerModelName := "qwen3" }
  provider := { adapterHotSwap := true }
  runtimeProfile := {}
  servedContext := ⟨8192, .configured⟩
  adapter

/-- A candidate for it, scored like any other. -/
def evenly (taskFit : ℚ) (adapter : Option AdapterFacts) : RankedCandidate where
  subject := adapted adapter
  fit := { taskFit, capabilities := [], presentWeight := 1, measuredWeight := 1 }
  factors := {}

/-- An adapter of that base. -/
def adapterNamed (name : String) : AdapterFacts where
  adapterId := name
  name
  artifactDigest := "sha256:4f"
  baseModelName := "qwen3"

theorem rankCandidates_scored :
    rankCandidates [evenly (3 / 4) (some (adapterNamed "legal")), evenly (1 / 2) none] 1 false =
      rankCandidates [evenly (1 / 2) none, evenly (3 / 4) (some (adapterNamed "legal"))] 1
        false := by
  refine (rankCandidates_perm_iff ?_ 1 false).2 ?_ _ (List.Perm.swap _ _ _)
  · have hne : adapted none ≠ adapted (some (adapterNamed "legal")) := fun h => by
      cases congrArg ExecutionSubject.adapter h
    simpa [evenly] using hne
  · refine List.pairwise_pair.2 fun htied => ?_
    exact absurd htied.finalScore (by decide +kernel)

/-- Two adapters of one base with equal scores are ranked in the order they come in. -/
theorem adapters_ranked_by_arrival :
    ∃ candidates l : List RankedCandidate, (candidates.map RankedCandidate.subject).Nodup ∧
      l.Perm candidates ∧ rankCandidates l 1 false ≠ rankCandidates candidates 1 false := by
  let legal := evenly (1 / 2) (some (adapterNamed "legal"))
  let medical := evenly (1 / 2) (some (adapterNamed "medical"))
  refine ⟨[legal, medical], [medical, legal], ?_, List.Perm.swap _ _ _, fun hsame => ?_⟩
  · have hne : adapted (some (adapterNamed "legal")) ≠ adapted (some (adapterNamed "medical")) := by
      intro h
      have hname := congrArg (fun s => s.adapter.map AdapterFacts.name) h
      exact absurd hname (by decide)
    simpa [legal, medical, evenly] using hne
  · have hprimary := congrArg (fun r : Ranking =>
      r.primary.map fun c => c.subject.adapter.map AdapterFacts.name) hsame
    exact absurd hprimary (by decide +kernel)

end LoadCoach.Routing
