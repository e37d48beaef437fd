import Mathlib.Algebra.Order.BigOperators.Group.List
import LoadCoach.Routing.Translations

/-! # Explained and taken decisions

`POST /route` makes a decision and returns it (`web/routes/routing.py`); `POST /generate` makes one
and executes it (`web/routes/generate.py`, `execute`).  Both call `route`, and each gathers its
inputs itself.  The registry, the evidence, the telemetry, the residency, the breakers and the
policy are gathered alike.  The facts of the providers by registration name are not: the route
handler leaves them out, and every candidate is judged by the facts of the default provider.

The two bodies have different fields.  A route body describes a generate body (`Describes`) when it
says what the other asks the router: the task, the overrides, the size `execute` estimates and the
output allowance.  A body that offers tools, or states a thinking control or a data
classification, is described by none.

A decision is made of its pool, the candidates the pins of a request leave to be judged.  The two
decisions are the same exactly when the pools are (`explained_iff`). -/

namespace LoadCoach

open Foundations Routing

/-! ### The two handlers -/

/-- `POST /route`'s body. -/
structure RouteBody where
  task : String
  estimatedInputTokens : Option ℕ := none
  maxOutputTokens : Option ℕ := none
  constraints : Option TaskProfileConstraints := none
  overrides : Option OverridesBody := none
  maxOutputTokens_pos : ∀ n ∈ maxOutputTokens, 0 < n

/-- `_to_request` of the route handler. -/
def RouteBody.toRequest (body : RouteBody) : RouteRequest where
  task := body.task
  estimatedInputTokens := body.estimatedInputTokens
  maxOutputTokens := body.maxOutputTokens.map fun n : ℕ => .int n
  constraints := body.constraints
  overrides := overridesOf (body.overrides.getD {})

/-- `post_route`: it passes no facts by registration name. -/
def postRoute (s : RouterState) (body : RouteBody) : Except RouteError Decision :=
  route { s with providerFactsByName := [] } body.toRequest

/-- The routing request `POST /generate` comes to. -/
def generateRequest (rack : ModelRack) (body : GenerateBody) (source : String) (stream : Bool) :
    Except Raised RouteRequest := do
  let request ← toRequest rack body source stream
  request.routeRequest rack

/-- A route body says what a generate body asks the router. -/
structure Describes (rack : ModelRack) (b : RouteBody) (g : GenerateBody) : Prop where
  task : b.task = g.task
  overrides : b.overrides = g.overrides
  constraints : b.constraints = none
  size : ∃ messages turns, messagesOf rack g = .ok messages ∧
    transcriptOf rack g.system g.prompt messages = .ok turns ∧
    b.estimatedInputTokens = some (estimateInputTokens (callerText turns))
  allowance : b.maxOutputTokens.map (fun n : ℕ => Json.int n) =
    samplingValue "max_output_tokens" g.sampling
  tools : g.tools.getD [] = []
  think : samplingThink g.sampling = none
  dataClassification : g.dataClassification = none

/-- **Two bodies, one routing request.** -/
theorem Describes.generateRequest_eq {rack : ModelRack} {b : RouteBody} {g : GenerateBody}
    (h : Describes rack b g) (source : String) (stream : Bool) :
    generateRequest rack g source stream = .ok b.toRequest := by
  obtain ⟨messages, turns, hmessages, hturns, hsize⟩ := h.size
  have hcapabilities := (requireCapabilities_eq_nil_iff g).2 h.tools
  have hoverrides : bodyOverrides g = overridesOf (b.overrides.getD {}) := by
    rw [h.overrides, bodyOverrides]
    cases g.overrides <;> rfl
  refine (@synchronousRequest_eq_ok rack { toGenerateBody := g } source stream _).2
    ⟨messages, turns, hmessages, hturns, ?_⟩
  dsimp only
  rw [hcapabilities, h.think, h.dataClassification, hoverrides, ← h.allowance, ← h.task, ← hsize,
    RouteBody.toRequest, h.constraints]

/-! ### What a decision shows -/

/-- The eligible candidates in their order, and the rejections. -/
def shown (result : Except RouteError Decision) :
    Except RouteError (List Routing.RankedCandidate × List RejectedCandidate) :=
  result.map fun d => (d.ranking.ordered, d.rejected)

namespace Routing

/-- The facts a model is judged by. -/
def servedBy (s : RouterState) (model : ModelFacts) : ProviderFacts :=
  (s.providerFactsByName.lookup model.providerName).getD s.provider

/-- The candidates of one model under the facts of a provider. -/
def candidatesOf (s : RouterState) (weights : Weights) (model : ModelFacts)
    (provider : ProviderFacts) : List Candidate :=
  let facts := factsFor model s.provider.isRemote
  let rows := s.registry.capabilities.filter fun row => row.modelId == model.modelId
  let signals := signalsFor rows ++ s.registry.evidence weights (model.modelId, "")
  let base : Candidate := { facts, provider, signals, adapter := none }
  if provider.adapterHotSwap then
    base :: (s.registry.adapters facts.providerModelName).map fun adapter =>
      { facts, provider, adapter := some adapter
        signals := adapterSignals adapter ++
          s.registry.evidence weights (model.modelId, adapter.adapterId) }
  else
    [base]

theorem readCandidates_eq (s : RouterState) (weights : Weights) :
    readCandidates s weights =
      s.registry.models.flatMap fun m => candidatesOf s weights m (servedBy s m) := rfl

/-- The request is to judge a candidate: no context can be established for it, or no pin takes it
out. -/
def inPool (s : RouterState) (overrides : RuntimeOverrides) (constraints : TaskProfileConstraints)
    (c : Candidate) : Bool :=
  (buildSubject s overrides constraints c).1.isNone || selectedBy overrides c

/-- What a pinned adapter is refused with. -/
def adapterRefusal (s : RouterState) (overrides : RuntimeOverrides) (weights : Weights) :
    Except Raised Unit :=
  match overrides.adapter with
  | some pinned => refuseUnknownAdapter pinned (readCandidates s weights)
  | none => .ok ()

/-- The request judges no candidate of a model under the facts of a provider. -/
def PinnedOut (s : RouterState) (overrides : RuntimeOverrides) (profile : StoredTaskProfile)
    (model : ModelFacts) (provider : ProviderFacts) : Prop :=
  ∀ c ∈ candidatesOf s profile.weights model provider,
    inPool s overrides profile.constraints c = false

/-- No model that the pins leave in the pool is judged by other facts than the default
provider's. -/
def PooledByDefault (s : RouterState) (overrides : RuntimeOverrides)
    (profile : StoredTaskProfile) : Prop :=
  ∀ m ∈ s.registry.models, servedBy s m = s.provider ∨
    PinnedOut s overrides profile m (servedBy s m) ∧ PinnedOut s overrides profile m s.provider

/-- The state without the facts of the registrations. -/
def unnamed (s : RouterState) : RouterState := { s with providerFactsByName := [] }

/-- The facts of the registrations make no difference to a request: a pinned adapter is known, or
refused, alike without them; and unless it is refused, every model in the pool is judged by the
facts of the default provider. -/
def JudgedByDefault (s : RouterState) (request : RouteRequest) : Prop :=
  ∀ profile, loadTaskProfile s request.task = .ok profile →
    adapterRefusal (unnamed s) request.overrides profile.weights =
        adapterRefusal s request.overrides profile.weights ∧
      (adapterRefusal s request.overrides profile.weights = .ok () →
        PooledByDefault s request.overrides profile)

/-! ### A plain request -/

/-- A request that states neither constraints nor capabilities, and an allowance that can be
read. -/
structure Plain (request : RouteRequest) : Prop where
  constraints : request.constraints = none
  requireCapabilities : request.requireCapabilities = []
  allowance : ∀ default, ∃ n, outputAllowance request.maxOutputTokens default = .ok n

/-- The output allowance of a request under a task profile. -/
def allowance (s : RouterState) (request : RouteRequest) (profile : StoredTaskProfile) :
    Except Raised Number :=
  if reachesBudget s request profile.constraints (readCandidates s profile.weights) then
    outputAllowance request.maxOutputTokens profile.execution.maxOutputTokens
  else
    pure (.int profile.execution.maxOutputTokens)

/-- What a plain request asks of every candidate. -/
def asked (s : RouterState) (request : RouteRequest) (profile : StoredTaskProfile) (n : Number) :
    Requirements where
  profile
  constraints := profile.constraints
  maxOutputTokens := n
  requiresThinkingControl :=
    if request.think.isSome then some "request"
    else if profile.execution.think.isSome then some "task_profile"
    else none
  scoring :=
    { weights := profile.weights
      minConfidence := s.policy.minConfidence
      parameterPriors := parameterBandPriors ((readCandidates s profile.weights).map fun c =>
        (c.facts.canonicalId, c.facts.parameterCount))
      requireEvidence := request.overrides.requireEvidence
      machineFingerprint := s.policy.machineFingerprint }

variable {s : RouterState} {request : RouteRequest} {profile : StoredTaskProfile}

theorem Plain.allowance_eq_ok (h : Plain request) (s : RouterState) (profile : StoredTaskProfile) :
    ∃ n, Routing.allowance s request profile = .ok n := by
  unfold Routing.allowance
  split_ifs
  · exact h.allowance _
  · exact ⟨_, rfl⟩

theorem posed_unknown {x : Raised} (hload : loadTaskProfile s request.task = .error x) :
    posed s request = .error x := by
  rw [posed, hload]
  rfl

theorem posed_plain (h : Plain request) (hload : loadTaskProfile s request.task = .ok profile) :
    posed s request =
      (adapterRefusal s request.overrides profile.weights).bind fun _ =>
        (Routing.allowance s request profile).map fun n =>
          (readCandidates s profile.weights, asked s request profile n) := by
  have hmerged : mergedConstraints profile.constraints request.constraints =
      .ok profile.constraints := by
    rw [h.constraints]
    rfl
  have hrequired : requiring profile.constraints request.requireCapabilities =
      profile.constraints := by
    rw [h.requireCapabilities]
    rfl
  unfold posed
  rw [hload, ok_bind, hmerged, ok_bind, hrequired]
  have hallowance : (if reachesBudget s request profile.constraints
        (readCandidates s profile.weights) then
      (do
        let n ← outputAllowance request.maxOutputTokens profile.execution.maxOutputTokens
        pure (readCandidates s profile.weights, asked s request profile n))
      else
        pure (readCandidates s profile.weights,
          asked s request profile (.int profile.execution.maxOutputTokens))) =
      (Routing.allowance s request profile).map fun n =>
        (readCandidates s profile.weights, asked s request profile n) := by
    unfold Routing.allowance
    split_ifs
    · cases outputAllowance request.maxOutputTokens profile.execution.maxOutputTokens <;> rfl
    · rfl
  unfold adapterRefusal
  cases request.overrides.adapter with
  | none => exact hallowance
  | some pinned =>
      cases hrefusal : refuseUnknownAdapter pinned (readCandidates s profile.weights) with
      | error x =>
          simp only [hrefusal]
          rfl
      | ok u =>
          simp only [hrefusal]
          exact hallowance

/-! ### What a decision is made of -/

/-- The subject a verdict names. -/
def Verdict.subject? : Verdict → Option ExecutionSubject
  | .skipped => none
  | .rejected candidate => some candidate.subject
  | .ranked candidate => some candidate.subject

theorem judgeCandidate_subject? (s : RouterState) (request : RouteRequest) (r : Requirements)
    (c : Candidate) :
    (judgeCandidate s request r c).subject? =
      if inPool s request.overrides r.constraints c then
        some (buildSubject s request.overrides r.constraints c).2
      else none := by
  unfold judgeCandidate inPool
  cases hserved : (buildSubject s request.overrides r.constraints c).1 with
  | none => simp [hserved, Verdict.subject?]
  | some served =>
      cases hselected : selectedBy request.overrides c with
      | false => simp [hserved, Verdict.subject?]
      | true =>
          simp only [hserved, Option.isNone_some, Bool.false_or, Bool.false_eq_true, reduceIte,
            Bool.true_eq_false]
          split <;> rfl

theorem subjects_perm (vs : List Verdict) :
    ((vs.filterMap Verdict.ranked?).map Routing.RankedCandidate.subject ++
      (vs.filterMap Verdict.rejected?).map RejectedCandidate.subject).Perm
        (vs.filterMap Verdict.subject?) := by
  induction vs with
  | nil => exact .refl _
  | cons v vs ih =>
      cases v with
      | skipped => exact ih
      | ranked candidate => exact ih.cons _
      | rejected candidate => exact List.perm_middle.trans (ih.cons _)

theorem rankCandidates_subjects (cs : List Routing.RankedCandidate) (depth : ℕ)
    (disallow : Bool) :
    ((rankCandidates cs depth disallow).ordered.map Routing.RankedCandidate.subject).Perm
      (cs.map Routing.RankedCandidate.subject) := by
  have hnumbered : ∀ (sorted : List Routing.RankedCandidate) (k : ℕ),
      ((sorted.zipIdx k).map fun e => { e.1 with rank := e.2 }).map
        Routing.RankedCandidate.subject = sorted.map Routing.RankedCandidate.subject := by
    intro sorted
    induction sorted with
    | nil => exact fun _ => rfl
    | cons c sorted ih =>
        intro k
        rw [List.zipIdx_cons, List.map_cons, List.map_cons, ih]
        rfl
  rw [rankCandidates, hnumbered]
  exact (List.perm_insertionSort _ cs).map _

/-- The pool of a posed request. -/
def pool (s : RouterState) (request : RouteRequest) (profile : StoredTaskProfile) :
    List ExecutionSubject :=
  ((readCandidates s profile.weights).filter (inPool s request.overrides profile.constraints)).map
    fun c => (buildSubject s request.overrides profile.constraints c).2

/-- **A decision shows its pool**: every subject of it is eligible or rejected, once. -/
theorem shown_pool (s : RouterState) (request : RouteRequest) (profile : StoredTaskProfile)
    (n : Number) :
    ((ranked s request (readCandidates s profile.weights)
        (asked s request profile n)).ordered.map Routing.RankedCandidate.subject ++
      ((verdicts s request (readCandidates s profile.weights)
        (asked s request profile n)).filterMap Verdict.rejected?).map
          RejectedCandidate.subject).Perm (pool s request profile) := by
  refine ((rankCandidates_subjects _ _ _).append_right _).trans ?_
  refine (subjects_perm _).trans (.of_eq ?_)
  rw [verdicts, List.filterMap_map, pool, ← List.filterMap_eq_map', List.filterMap_filter]
  refine List.filterMap_congr fun c _ => ?_
  rw [Function.comp_apply, judgeCandidate_subject?]
  rfl

/-! ### Equal decisions -/

theorem ranked_primary_isNone (s : RouterState) (request : RouteRequest) (cs : List Candidate)
    (r : Requirements) :
    (ranked s request cs r).primary.isNone = (ranked s request cs r).ordered.isEmpty := by
  have hprimary : (ranked s request cs r).primary = (ranked s request cs r).ordered.head? := rfl
  rw [hprimary]
  cases (ranked s request cs r).ordered <;> rfl

theorem shown_route {cs : List Candidate} {r : Requirements}
    (hposed : posed s request = .ok (cs, r)) :
    shown (route s request) =
      if (ranked s request cs r).ordered.isEmpty then
        .error (.noEligibleModel r.profile.profileId
          ((verdicts s request cs r).filterMap Verdict.rejected?))
      else
        .ok ((ranked s request cs r).ordered,
          (verdicts s request cs r).filterMap Verdict.rejected?) := by
  rw [route, decision_eq, hposed]
  dsimp only [Except.map]
  rw [ranked_primary_isNone]
  cases (ranked s request cs r).ordered.isEmpty <;> rfl

theorem shown_route_eq_iff {s' : RouterState} {cs cs' : List Candidate} {r r' : Requirements}
    (hposed : posed s request = .ok (cs, r)) (hposed' : posed s' request = .ok (cs', r'))
    (hprofile : r.profile = r'.profile) :
    shown (route s request) = shown (route s' request) ↔
      (ranked s request cs r).ordered = (ranked s' request cs' r').ordered ∧
        (verdicts s request cs r).filterMap Verdict.rejected? =
          (verdicts s' request cs' r').filterMap Verdict.rejected? := by
  rw [shown_route hposed, shown_route hposed', hprofile]
  cases (ranked s request cs r).ordered <;> cases (ranked s' request cs' r').ordered <;> simp

theorem mem_candidatesOf {weights : Weights} {m : ModelFacts} {provider : ProviderFacts}
    {c : Candidate} (hc : c ∈ candidatesOf s weights m provider) : c.provider = provider := by
  unfold candidatesOf at hc
  dsimp only at hc
  split_ifs at hc
  · rcases List.mem_cons.1 hc with rfl | hc
    · rfl
    · obtain ⟨adapter, -, rfl⟩ := List.mem_map.1 hc
      rfl
  · rw [List.mem_singleton.1 hc]

theorem candidatesOf_facts (weights : Weights) (m : ModelFacts) (provider : ProviderFacts) :
    ∃ n, (candidatesOf s weights m provider).map (fun c =>
      (c.facts.canonicalId, c.facts.parameterCount)) =
        List.replicate (n + 1) (m.canonicalId, m.parameterCount) := by
  unfold candidatesOf
  dsimp only
  split_ifs
  · refine ⟨(s.registry.adapters (factsFor m s.provider.isRemote).providerModelName).length, ?_⟩
    simp [Function.comp_def, factsFor, List.replicate_succ]
  · exact ⟨0, rfl⟩

theorem parameterPriors_unnamed (s : RouterState) (weights : Weights) :
    parameterBandPriors ((readCandidates (unnamed s) weights).map fun c =>
        (c.facts.canonicalId, c.facts.parameterCount)) =
      parameterBandPriors ((readCandidates s weights).map fun c =>
        (c.facts.canonicalId, c.facts.parameterCount)) := by
  have hdict : ∀ s' : RouterState, dict ((readCandidates s' weights).map fun c =>
      (c.facts.canonicalId, c.facts.parameterCount)) =
        dict (s'.registry.models.map fun m => (m.canonicalId, m.parameterCount)) := by
    intro s'
    rw [readCandidates_eq, List.map_flatMap]
    exact dict_flatMap _ _ _ fun m _ => candidatesOf_facts _ _ _
  unfold parameterBandPriors knownCounts
  rw [hdict, hdict]
  rfl

/-! ### Equal pools -/

/-- The candidates a request judges. -/
def pooled (s : RouterState) (overrides : RuntimeOverrides) (profile : StoredTaskProfile) :
    List Candidate :=
  (readCandidates s profile.weights).filter (inPool s overrides profile.constraints)

theorem pinnedOut_iff {overrides : RuntimeOverrides} {m : ModelFacts} {provider : ProviderFacts} :
    PinnedOut s overrides profile m provider ↔
      (candidatesOf s profile.weights m provider).filter
        (inPool s overrides profile.constraints) = [] := by
  rw [List.filter_eq_nil_iff]
  exact forall₂_congr fun c _ => by simp

theorem pooled_eq (s : RouterState) (overrides : RuntimeOverrides) (profile : StoredTaskProfile) :
    pooled s overrides profile = s.registry.models.flatMap fun m =>
      (candidatesOf s profile.weights m (servedBy s m)).filter
        (inPool s overrides profile.constraints) := by
  rw [pooled, readCandidates_eq, List.filter_flatMap]

theorem pooled_unnamed (s : RouterState) (overrides : RuntimeOverrides)
    (profile : StoredTaskProfile) :
    pooled (unnamed s) overrides profile = s.registry.models.flatMap fun m =>
      (candidatesOf s profile.weights m s.provider).filter
        (inPool s overrides profile.constraints) :=
  pooled_eq (unnamed s) overrides profile

theorem PooledByDefault.pooled_eq (h : PooledByDefault s request.overrides profile) :
    pooled s request.overrides profile = pooled (unnamed s) request.overrides profile := by
  rw [Routing.pooled_eq, pooled_unnamed]
  refine List.flatMap_congr fun m hm => ?_
  rcases h m hm with hsame | ⟨hout, hout'⟩
  · rw [hsame]
  · rw [pinnedOut_iff.1 hout, pinnedOut_iff.1 hout']

theorem pooledByDefault_of_perm
    (hperm : (pool s request profile).Perm (pool (unnamed s) request profile)) :
    PooledByDefault s request.overrides profile := by
  -- a subject of the pool carries the facts it is judged by
  have hserved : ∀ m ∈ s.registry.models, servedBy s m = s.provider ∨
      PinnedOut s request.overrides profile m (servedBy s m) := by
    intro m hm
    by_cases hout : PinnedOut s request.overrides profile m (servedBy s m)
    · exact .inr hout
    · left
      simp only [PinnedOut, not_forall] at hout
      obtain ⟨c, hc, hin⟩ := hout
      have hmem : c ∈ pooled s request.overrides profile := by
        rw [pooled_eq]
        exact List.mem_flatMap.2 ⟨m, hm, List.mem_filter.2 ⟨hc, by simpa using hin⟩⟩
      obtain ⟨c', hc', hsubject⟩ :=
        List.mem_map.1 (hperm.subset (List.mem_map.2 ⟨c, hmem, rfl⟩))
      obtain ⟨m', -, hc'⟩ := List.mem_flatMap.1 (List.mem_filter.1 hc').1
      have hdefault : c'.provider = s.provider := mem_candidatesOf hc'
      have hprovider : c'.provider = c.provider := congrArg ExecutionSubject.provider hsubject
      rw [← mem_candidatesOf hc, ← hprovider, hdefault]
  intro m hm
  refine (hserved m hm).imp_right fun hout => ⟨hout, ?_⟩
  by_contra hin
  have hlength := hperm.length_eq
  simp only [pool, List.length_map] at hlength
  change (pooled s request.overrides profile).length =
    (pooled (unnamed s) request.overrides profile).length at hlength
  rw [pooled_eq, pooled_unnamed, List.length_flatMap, List.length_flatMap] at hlength
  refine absurd hlength (ne_of_lt (List.sum_lt_sum _ _ ?_ ⟨m, hm, ?_⟩))
  · intro m' hm'
    rcases hserved m' hm' with hsame | hout'
    · rw [hsame]
    · rw [pinnedOut_iff.1 hout']
      exact Nat.zero_le _
  · rw [pinnedOut_iff.1 hout, List.length_nil, List.length_pos_iff]
    exact fun hnil => hin (pinnedOut_iff.2 hnil)
/-! ### The two decisions -/

theorem filterMap_pooled {β : Type} (f : Candidate → Option β)
    (hf : ∀ c, inPool s request.overrides profile.constraints c = false → f c = none) :
    (readCandidates s profile.weights).filterMap f =
      (pooled s request.overrides profile).filterMap f := by
  rw [pooled, List.filterMap_filter]
  refine List.filterMap_congr fun c _ => ?_
  cases hin : inPool s request.overrides profile.constraints c with
  | false => exact hf c hin
  | true => rfl

theorem judgeCandidate_skipped {r : Requirements} {c : Candidate}
    (hout : inPool s request.overrides r.constraints c = false) :
    judgeCandidate s request r c = .skipped := by
  have hsubject := judgeCandidate_subject? s request r c
  rw [hout] at hsubject
  cases hverdict : judgeCandidate s request r c with
  | skipped => rfl
  | rejected | ranked =>
      rw [hverdict] at hsubject
      cases hsubject

theorem reachesBudget_pooled :
    reachesBudget s request profile.constraints (readCandidates s profile.weights) =
      reachesBudget s request profile.constraints (pooled s request.overrides profile) := by
  unfold reachesBudget pooled
  rw [List.any_filter]
  congr 2
  funext c
  unfold inPool
  cases (buildSubject s request.overrides profile.constraints c).1 <;>
    cases selectedBy request.overrides c <;> rfl

theorem allowance_unnamed (h : PooledByDefault s request.overrides profile) :
    Routing.allowance (unnamed s) request profile = Routing.allowance s request profile := by
  have hreaches : reachesBudget (unnamed s) request profile.constraints
      (readCandidates (unnamed s) profile.weights) =
        reachesBudget s request profile.constraints (readCandidates s profile.weights) := by
    rw [reachesBudget_pooled, reachesBudget_pooled, h.pooled_eq]
    rfl
  unfold Routing.allowance
  rw [hreaches]

theorem asked_unnamed (n : Number) :
    asked (unnamed s) request profile n = asked s request profile n := by
  unfold asked
  rw [parameterPriors_unnamed]
  rfl

theorem verdicts_unnamed {β : Type} (f : Verdict → Option β) (hf : f .skipped = none)
    (h : PooledByDefault s request.overrides profile) (n : Number) :
    (verdicts (unnamed s) request (readCandidates (unnamed s) profile.weights)
        (asked (unnamed s) request profile n)).filterMap f =
      (verdicts s request (readCandidates s profile.weights)
        (asked s request profile n)).filterMap f := by
  have hpool : ∀ s' n, (verdicts s' request (readCandidates s' profile.weights)
      (asked s' request profile n)).filterMap f =
        (pooled s' request.overrides profile).filterMap
          (f ∘ judgeCandidate s' request (asked s' request profile n)) := by
    intro s' n
    rw [verdicts, List.filterMap_map]
    refine filterMap_pooled _ fun c hout => ?_
    have hskipped : judgeCandidate s' request (asked s' request profile n) c = .skipped :=
      judgeCandidate_skipped (r := asked s' request profile n) hout
    exact (congrArg f hskipped).trans hf
  rw [hpool, hpool, asked_unnamed, h.pooled_eq]
  rfl

theorem judgedByDefault_iff (hload : loadTaskProfile s request.task = .ok profile) :
    JudgedByDefault s request ↔
      adapterRefusal (unnamed s) request.overrides profile.weights =
          adapterRefusal s request.overrides profile.weights ∧
        (adapterRefusal s request.overrides profile.weights = .ok () →
          PooledByDefault s request.overrides profile) := by
  constructor
  · intro h
    exact h profile hload
  · intro h profile' hload'
    cases hload.symm.trans hload'
    exact h

theorem shown_route_ne_raised {cs : List Candidate} {r : Requirements} {x : Raised}
    (hposed : posed s request = .ok (cs, r)) :
    shown (route s request) ≠ .error (.raised x) := by
  rw [shown_route hposed]
  split_ifs <;> nofun

theorem shown_route_raised {x : Raised} (hposed : posed s request = .error x) :
    shown (route s request) = .error (.raised x) := by
  rw [route, decision_eq, hposed]
  rfl

/-- **When the facts of the registrations make no difference.**  A plain request is decided alike
without them exactly when it is judged by the facts of the default provider. -/
theorem shown_unnamed_iff (h : Plain request) :
    shown (route (unnamed s) request) = shown (route s request) ↔ JudgedByDefault s request := by
  cases hload : loadTaskProfile s request.task with
  | error x =>
      have hload' : loadTaskProfile (unnamed s) request.task = .error x := hload
      rw [shown_route_raised (posed_unknown hload), shown_route_raised (posed_unknown hload')]
      refine ⟨fun _ profile hknown => ?_, fun _ => rfl⟩
      cases hload.symm.trans hknown
  | ok profile =>
      have hload' : loadTaskProfile (unnamed s) request.task = .ok profile := hload
      have hposed := posed_plain h hload
      have hposed' := posed_plain h hload'
      obtain ⟨n, hn⟩ := h.allowance_eq_ok s profile
      obtain ⟨n', hn'⟩ := h.allowance_eq_ok (unnamed s) profile
      rw [judgedByDefault_iff hload]
      rw [hn] at hposed
      rw [hn'] at hposed'
      cases href : adapterRefusal s request.overrides profile.weights with
      | error x =>
          rw [href] at hposed
          rw [shown_route_raised hposed]
          cases href' : adapterRefusal (unnamed s) request.overrides profile.weights with
          | error x' =>
              rw [href'] at hposed'
              rw [shown_route_raised hposed']
              simp
          | ok _ =>
              rw [href'] at hposed'
              simp [shown_route_ne_raised hposed']
      | ok u =>
          rw [href] at hposed
          cases href' : adapterRefusal (unnamed s) request.overrides profile.weights with
          | error x' =>
              rw [href'] at hposed'
              rw [shown_route_raised hposed']
              simp [(shown_route_ne_raised hposed).symm]
          | ok _ =>
              rw [href'] at hposed'
              simp only [true_and, forall_const]
              rw [shown_route_eq_iff hposed' hposed rfl]
              constructor
              · rintro ⟨hordered, hrejected⟩
                refine pooledByDefault_of_perm ?_
                refine (shown_pool s request profile n).symm.trans ?_
                rw [← hordered, ← hrejected]
                exact shown_pool (unnamed s) request profile n'
              · intro hpooled
                have hsame : n' = n := by
                  rw [allowance_unnamed hpooled, hn] at hn'
                  exact (Except.ok.inj hn').symm
                subst hsame
                refine ⟨?_, verdicts_unnamed _ rfl hpooled n'⟩
                unfold ranked
                rw [verdicts_unnamed _ rfl hpooled n']
                rfl

end Routing

/-! ### Explained route and taken route -/

theorem RouteBody.toRequest_plain {b : RouteBody} (hconstraints : b.constraints = none) :
    Plain b.toRequest where
  constraints := hconstraints
  requireCapabilities := rfl
  allowance default := by
    rw [RouteBody.toRequest]
    cases hmax : b.maxOutputTokens with
    | none => exact ⟨_, rfl⟩
    | some n =>
        refine ⟨.int n, ?_⟩
        have hpos : (n : ℤ) ≠ 0 := by
          have := b.maxOutputTokens_pos n hmax
          omega
        have htruthy : Json.truthy (.int n) = true := by simpa [Json.truthy] using hpos
        simp only [outputAllowance, Option.map_some, Option.filter_some, htruthy, if_true]

/-- **When the explained route is the taken route.**  For a route body that describes a generate
body, and in any state, `POST /route` shows the decision that `POST /generate` takes if and only
if the facts of the registrations make no difference to the request. -/
theorem explained_iff {rack : ModelRack} {b : RouteBody} {g : GenerateBody}
    (hdescribes : Describes rack b g) (source : String) (stream : Bool) (s : RouterState) :
    ∃ request, generateRequest rack g source stream = .ok request ∧
      (shown (postRoute s b) = shown (route s request) ↔ JudgedByDefault s request) :=
  ⟨b.toRequest, hdescribes.generateRequest_eq source stream,
    shown_unnamed_iff (RouteBody.toRequest_plain hdescribes.constraints)⟩

/-! ### A registration that is down -/

theorem pos_of_mem_none : ∀ n ∈ (none : Option ℕ), 0 < n := by
  simp

/-- A route body for a prompt of five characters. -/
def promptRoute : RouteBody where
  task := "chat"
  estimatedInputTokens := some 2
  maxOutputTokens_pos := pos_of_mem_none

theorem promptRoute_describes : Describes documentedRack promptRoute promptBody.toGenerateBody where
  task := rfl
  overrides := rfl
  constraints := rfl
  size := ⟨_, _, rfl, rfl, rfl⟩
  allowance := rfl
  tools := rfl
  think := rfl
  dataClassification := rfl

/-- The default provider is well, and the one that serves the only model is not. -/
def registrationDown : RouterState where
  taskProfiles := [{ profileId := "chat", weights := [("chat", 1)] }]
  registry :=
    { models :=
        [{ modelId := "m", canonicalId := "m", providerKind := "llamacpp"
           providerModelName := "m", providerName := "second" }] }
  provider := { reportedServedContext := some 4096 }
  providerFactsByName := [("second", { healthy := false, reportedServedContext := some 4096 })]
  profileHash := fun _ => ""

/-- The names of the candidates that are shown as eligible. -/
def shownNames (result : Except RouteError Decision) : Option (List String) :=
  (shown result).toOption.map fun d => d.1.map fun c => c.subject.facts.canonicalId

/-- `POST /route` shows the model of the broken registration as eligible, and `POST /generate`
refuses the request. -/
theorem explained_differs : ¬ ∀ rack b g source stream s request, Describes rack b g →
    generateRequest rack g source stream = .ok request →
      shown (postRoute s b) = shown (route s request) := by
  intro hclaim
  have hshown := hclaim documentedRack promptRoute promptBody.toGenerateBody "anonymous" false
    registrationDown promptRoute.toRequest promptRoute_describes
    (promptRoute_describes.generateRequest_eq _ _)
  have hnames : shownNames (postRoute registrationDown promptRoute) =
      shownNames (route registrationDown promptRoute.toRequest) := by
    rw [shownNames, hshown]
    rfl
  exact absurd hnames (by decide)

/-- The equivalence at that body and that state. -/
theorem explained_iff_registrationDown :
    ∃ request, generateRequest documentedRack promptBody.toGenerateBody "anonymous" false =
        .ok request ∧
      (shown (postRoute registrationDown promptRoute) = shown (route registrationDown request) ↔
        JudgedByDefault registrationDown request) :=
  explained_iff promptRoute_describes "anonymous" false registrationDown

end LoadCoach
