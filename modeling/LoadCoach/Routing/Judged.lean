import LoadCoach.Routing.Admission

/-! # What a ranked candidate went through

A request that is posed has its profile loaded, its constraints merged and the candidates of the
registry read (`Posed`), and a candidate that is ranked was built from one of them, left in the pool
by the pins and passed by the hard constraints (`Judged`).  `judged_of_ordered` says so of every
candidate of a decision. -/

namespace LoadCoach.Routing

open Foundations

variable {s : RouterState} {request : RouteRequest} {cs : List Candidate} {r : Requirements}
  {c : Candidate} {ranked : RankedCandidate} {d : Decision}

/-- The requirements of a posed request. -/
def requirementsOf (s : RouterState) (request : RouteRequest) (profile : StoredTaskProfile)
    (constraints : TaskProfileConstraints) (cs : List Candidate) (maxOutputTokens : Number) :
    Requirements where
  profile
  constraints
  maxOutputTokens
  requiresThinkingControl :=
    if request.think.isSome then some "request"
    else if profile.execution.think.isSome then some "task_profile"
    else none
  scoring :=
    { weights := profile.weights
      minConfidence := s.policy.minConfidence
      parameterPriors := parameterBandPriors
        (cs.map fun c => (c.facts.canonicalId, c.facts.parameterCount))
      requireEvidence := request.overrides.requireEvidence
      machineFingerprint := s.policy.machineFingerprint }

/-- What a posed request is made of. -/
structure Posed (s : RouterState) (request : RouteRequest) (cs : List Candidate)
    (r : Requirements) : Prop where
  profile : loadTaskProfile s request.task = .ok r.profile
  merged : ∃ merged,
    mergedConstraints r.profile.constraints request.constraints = .ok merged ∧
      r.constraints = requiring merged request.requireCapabilities
  candidates : cs = readCandidates s r.profile.weights
  requirements : r = requirementsOf s request r.profile r.constraints cs r.maxOutputTokens
  maxOutputTokens : reachesBudget s request r.constraints cs = true →
    outputAllowance request.maxOutputTokens r.profile.execution.maxOutputTokens =
      .ok r.maxOutputTokens

theorem posed_eq_ok (h : posed s request = .ok (cs, r)) : Posed s request cs r := by
  unfold posed at h
  simp only [bind_eq_ok] at h
  obtain ⟨profile, hprofile, merged, hmerged, h⟩ := h
  split at h
  on_goal 1 =>
    simp only [bind_eq_ok] at h
    obtain ⟨-, -, h⟩ := h
  all_goals
    split at h
    · obtain ⟨maxOutputTokens, houtput, h⟩ := bind_eq_ok.1 h
      cases h
      exact ⟨hprofile, ⟨merged, hmerged, rfl⟩, rfl, rfl, fun _ => houtput⟩
    · rename_i hunreached
      cases h
      exact ⟨hprofile, ⟨merged, hmerged, rfl⟩, rfl, rfl, fun h => absurd h hunreached⟩

/-- What a ranked candidate was judged by. -/
structure Judged (s : RouterState) (request : RouteRequest) (r : Requirements) (c : Candidate)
    (ranked : RankedCandidate) : Prop where
  /-- The pins leave it in the pool. -/
  selected : selectedBy request.overrides c = true
  /-- A context could be established, and the subject is built with it. -/
  subject : buildSubject s request.overrides r.constraints c =
    (some ranked.subject.servedContext, ranked.subject)
  fit : ranked.fit = scoreSubject s.profileHash ranked.subject r.scoring
  estimate : ranked.estimatedVramBytes = (subjectEstimate ranked.subject).totalBytes
  /-- The hard constraints let it pass. -/
  passed : ∃ fits, evaluateConstraints s.profileHash ranked.subject
    (subjectEstimate ranked.subject) (constraintInputs s request r ranked.subject) =
      .ok (fits, ranked.targetGpuIndex)

theorem judged_of_ranked (h : judgeCandidate s request r c = .ranked ranked) :
    Judged s request r c ranked := by
  unfold judgeCandidate at h
  dsimp only at h
  split at h
  · cases h
  rename_i hserved
  split at h
  · cases h
  rename_i hselected
  split at h
  · cases h
  rename_i fits target hpassed
  cases h
  refine ⟨by simpa using hselected, ?_, rfl, rfl, fits, hpassed⟩
  refine Prod.ext ?_ rfl
  rw [Option.isNone_iff_eq_none] at hserved
  obtain ⟨served, hserved⟩ := Option.ne_none_iff_exists'.1 hserved
  have hcontext : (buildSubject s request.overrides r.constraints c).2.servedContext =
      ((buildSubject s request.overrides r.constraints c).1).getD ⟨0, .assumed⟩ := rfl
  rw [hcontext, hserved]
  rfl

/-- **Every candidate of a decision** was judged, whatever its rank. -/
theorem judged_of_ordered (h : decision s request = .ok d) (hranked : ranked ∈ d.ranking.ordered) :
    ∃ cs r c, posed s request = .ok (cs, r) ∧ d.taskProfile = r.profile ∧ c ∈ cs ∧
      Judged s request r c ranked := by
  rw [decision_eq] at h
  obtain ⟨⟨cs, r⟩, hposed, rfl⟩ := map_eq_ok.1 h
  obtain ⟨⟨ranked', rank⟩, hmem, rfl⟩ := List.mem_map.1 hranked
  have hsorted := List.fst_mem_of_mem_zipIdx hmem
  rw [List.mem_insertionSort] at hsorted
  obtain ⟨verdict, hverdict, hranked'⟩ := List.mem_filterMap.1 hsorted
  obtain ⟨c, hc, rfl⟩ := List.mem_map.1 hverdict
  cases hjudged : judgeCandidate s request r c with
  | ranked ranked'' =>
      rw [hjudged] at hranked'
      cases hranked'
      obtain ⟨hselected, hsubject, hfit, hestimate, hpassed⟩ := judged_of_ranked hjudged
      exact ⟨cs, r, c, hposed, rfl, hc, hselected, hsubject, hfit, hestimate, hpassed⟩
  | skipped | rejected =>
      rw [hjudged] at hranked'
      cases hranked'

end LoadCoach.Routing
