import Mathlib.Algebra.Order.Ring.Rat
import LoadCoach.Submission

/-! # Execution subjects

What a routing decision scores is never a bare model (`domain/routing/subject.py`): it is a model,
possibly with an adapter on it, together with the runtime profile it would run under and the
context it would be served.  This file models the facts a subject is made of, the layering of
runtime profiles (`resolveRuntimeProfile`) and the derivation of the served context
(`resolveServedContext`).

Scores, confidences and weights are rational numbers. -/

namespace LoadCoach.Routing

open Foundations

/-- A dictionary built from pairs: a later pair overwrites an earlier one in place. -/
def dict {κ ν : Type} [BEq κ] (pairs : List (κ × ν)) : List (κ × ν) :=
  pairs.foldl (fun d e =>
    if d.any fun m => m.1 == e.1 then d.map fun m => if m.1 == e.1 then e else m
    else d ++ [e]) []

theorem mem_of_mem_dict {κ ν : Type} [BEq κ] {pairs : List (κ × ν)} {e : κ × ν}
    (h : e ∈ dict pairs) : e ∈ pairs := by
  suffices hfold : ∀ (pairs d : List (κ × ν)),
      e ∈ pairs.foldl (fun d e =>
        if d.any fun m => m.1 == e.1 then d.map fun m => if m.1 == e.1 then e else m
        else d ++ [e]) d → e ∈ d ∨ e ∈ pairs by
    exact (hfold pairs [] h).resolve_left List.not_mem_nil
  intro pairs
  induction pairs with
  | nil => exact fun d hd => .inl hd
  | cons first pairs ih =>
      intro d hd
      rcases ih _ hd with hstep | hrest
      · dsimp only at hstep
        split at hstep
        · obtain ⟨m, hm, hme⟩ := List.mem_map.1 hstep
          split at hme
          · exact .inr (hme ▸ List.mem_cons_self)
          · exact .inl (hme ▸ hm)
        · rcases List.mem_append.1 hstep with hd | hfirst
          · exact .inl hd
          · exact .inr (List.mem_singleton.1 hfirst ▸ List.mem_cons_self)
      · exact .inr (List.mem_cons_of_mem _ hrest)

/-- Reading a dictionary built from pairs finds the last pair of the key. -/
theorem find?_dict {κ ν : Type} [BEq κ] [LawfulBEq κ] (pairs : List (κ × ν)) (k : κ) :
    (dict pairs).find? (fun e => e.1 == k) = pairs.reverse.find? fun e => e.1 == k := by
  -- one round: the pair that is written, or what stood under the key before
  have hround : ∀ (d : List (κ × ν)) (e : κ × ν),
      (if d.any fun m => m.1 == e.1 then d.map fun m => if m.1 == e.1 then e else m
        else d ++ [e]).find? (fun m => m.1 == k) =
      if e.1 == k then some e else d.find? fun m => m.1 == k := by
    intro d e
    split
    · rename_i hknown
      have hkeys : ((fun m : κ × ν => m.1 == k) ∘ fun m => if m.1 == e.1 then e else m) =
          fun m => m.1 == k := by
        funext m
        by_cases hm : m.1 = e.1 <;> simp [hm]
      rw [List.find?_map, hkeys]
      by_cases hk : e.1 = k
      · subst hk
        obtain ⟨m, hm⟩ := Option.isSome_iff_exists.1 (List.find?_isSome.2 (List.any_eq_true.1 hknown))
        have hkey := List.find?_some hm
        simp only [hm, Option.map_some, hkey, if_true, beq_self_eq_true]
      · cases hfound : d.find? fun m => m.1 == k with
        | none => simp [hk]
        | some m =>
            have hkey : m.1 = k := by simpa using List.find?_some hfound
            simp [hk, hkey, Ne.symm hk]
    · rename_i hnew
      by_cases hk : e.1 = k
      · have hnone : d.find? (fun m => m.1 == k) = none := by
          rw [List.find?_eq_none]
          intro m hm hmk
          exact hnew (List.any_eq_true.2 ⟨m, hm, by rwa [hk]⟩)
        simp [List.find?_append, hnone, hk]
      · simp [List.find?_append, hk]
  suffices hfold : ∀ (pairs d : List (κ × ν)),
      (pairs.foldl (fun d e =>
        if d.any fun m => m.1 == e.1 then d.map fun m => if m.1 == e.1 then e else m
        else d ++ [e]) d).find? (fun e => e.1 == k) =
      (pairs.reverse.find? fun e => e.1 == k).or (d.find? fun e => e.1 == k) by
    exact (hfold pairs []).trans (Option.or_none ..)
  intro pairs
  induction pairs with
  | nil => exact fun d => (Option.none_or ..).symm
  | cons e pairs ih =>
      intro d
      rw [List.foldl_cons, ih, hround, List.reverse_cons, List.find?_append]
      by_cases hk : e.1 = k <;> simp [hk]

/-- A pair that is repeated at once leaves a dictionary as it is. -/
theorem dict_flatMap {α κ ν : Type} [BEq κ] [ReflBEq κ] (l : List α) (f : α → List (κ × ν))
    (g : α → κ × ν) (h : ∀ x ∈ l, ∃ n, f x = List.replicate (n + 1) (g x)) :
    dict (l.flatMap f) = dict (l.map g) := by
  unfold dict
  generalize hstep : (fun (d : List (κ × ν)) (e : κ × ν) =>
    if d.any fun m => m.1 == e.1 then d.map fun m => if m.1 == e.1 then e else m
    else d ++ [e]) = step
  -- the second of two equal pairs overwrites the first with itself
  have htwice : ∀ d e, step (step d e) e = step d e := by
    intro d e
    subst hstep
    dsimp only
    by_cases hknown : (d.any fun m => m.1 == e.1) = true
    · have hagain : ((d.map fun m => if m.1 == e.1 then e else m).any fun m => m.1 == e.1) =
          true := by
        obtain ⟨m, hm, hkey⟩ := List.any_eq_true.1 hknown
        exact List.any_eq_true.2 ⟨e, List.mem_map.2 ⟨m, hm, if_pos hkey⟩, by simp⟩
      rw [if_pos hknown, if_pos hagain, List.map_map]
      refine List.map_congr_left fun m _ => ?_
      by_cases hkey : (m.1 == e.1) = true <;> simp [hkey]
    · rw [if_neg hknown, if_pos (by simp), List.map_append]
      refine congrArg₂ (· ++ ·) ?_ (by simp)
      refine (List.map_congr_left fun m hm => ?_).trans (List.map_id _)
      have hother : (m.1 == e.1) = false := by
        simpa using fun hkey => hknown (List.any_eq_true.2 ⟨m, hm, hkey⟩)
      simp [hother]
  have hrepeat : ∀ n d e, (List.replicate (n + 1) e).foldl step d = step d e := by
    intro n d e
    induction n generalizing d with
    | zero => rfl
    | succ n ih =>
        rw [List.replicate_succ, List.foldl_cons, ih, htwice]
  generalize ([] : List (κ × ν)) = d
  induction l generalizing d with
  | nil => rfl
  | cons x l ih =>
      rw [List.forall_mem_cons] at h
      obtain ⟨⟨n, hx⟩, hrest⟩ := h
      rw [List.flatMap_cons, List.foldl_append, hx, hrepeat, List.map_cons, List.foldl_cons,
        ih hrest]

/-! ### Facts -/

/-- What the registry knows about one model. -/
structure ModelFacts where
  modelId : String
  canonicalId : String
  providerKind : String
  providerModelName : String
  artifactDigest : Option String := none
  available : Bool := true
  unavailableReason : Option String := none
  enabled : Bool := true
  maxContext : Option ℕ := none
  sizeBytes : Option ℕ := none
  parameterCount : Option ℕ := none
  layers : Option ℕ := none
  kvHeads : Option ℕ := none
  headDim : Option ℕ := none
  isRemote : Bool := false
  providerName : String := ""

/-- The provider-level facts routing needs. -/
structure ProviderFacts where
  healthy : Bool := true
  contextConfigurable : Bool := false
  reportedServedContext : Option ℕ := none
  supportsToolUse : Bool := false
  supportsStructuredOutput : Bool := false
  supportsStreaming : Bool := false
  supportsThinkingControl : Bool := false
  isRemote : Bool := false
  adapterHotSwap : Bool := false
  adaptersRegistered : Option Bool := none

/-- One reviewed adapter. -/
structure AdapterFacts where
  adapterId : String
  name : String
  artifactDigest : String
  baseModelName : String
  baseArtifactDigest : Option String := none
  baseConfidence : String := "name_only"
  declaredCapabilities : List String := []
  dataClassification : String := "confidential"

/-- `+name@sha256:` and twelve digits, the suffix an adapter adds to a subject's name. -/
def AdapterFacts.canonicalSuffix (adapter : AdapterFacts) : String :=
  "+" ++ adapter.name ++ "@" ++
    String.ofList (adapter.artifactDigest.toList.take ("sha256:".length + 12))

/-- Where a piece of knowledge about a model comes from. -/
inductive SignalSource where
  | benchmark
  | production
  | manual
  | declared
  | prior
deriving DecidableEq, Repr

/-- What an imported record was matched with. -/
inductive MatchState where
  | bound
  | unmatched
  | ambiguousNameOnly
deriving DecidableEq, Repr

/-- One piece of knowledge about one model's ability at one capability. -/
structure CapabilitySignal where
  capabilityId : String
  source : SignalSource
  score : ℚ
  confidence : ℚ
  runtimeProfileHash : Option String := none
  machineFingerprint : Option String := none
  sampleCount : Option ℕ := none
  matchState : Option MatchState := none
  ageDays : Option ℕ := none
  stale : Bool := false
  staleReason : Option String := none

/-- The signals for one capability, in the order given. -/
def signalsByCapability (signals : List CapabilitySignal) (capabilityId : String) :
    List CapabilitySignal :=
  signals.filter fun signal => signal.capabilityId == capabilityId

/-- Where a served context comes from. -/
inductive ServedContextSource where
  | configured
  | reported
  | assumed
deriving DecidableEq, Repr

/-- The context a candidate will be served. -/
structure ServedContext where
  tokens : ℕ
  source : ServedContextSource
deriving DecidableEq, Repr

/-- One candidate: a model, the profile it would run under, and the context it would be served. -/
structure ExecutionSubject where
  facts : ModelFacts
  provider : ProviderFacts
  runtimeProfile : RuntimeProfile
  servedContext : ServedContext
  signals : List CapabilitySignal := []
  adapter : Option AdapterFacts := none

/-- The name of the weights and of the adapter applied to them. -/
def ExecutionSubject.subjectCanonicalId (subject : ExecutionSubject) : String :=
  match subject.adapter with
  | none => subject.facts.canonicalId
  | some adapter => subject.facts.canonicalId ++ adapter.canonicalSuffix

/-! ### Runtime profiles -/

/-- `_first`: the preferred value if it is stated. -/
def first {α : Type} (preferred fallback : Option α) : Option α := preferred <|> fallback

/-- `{**base, **layer}`. -/
def mergeOptions (base layer : Members) : Members :=
  base.map (fun m => (m.1, (Json.member? m.1 layer).getD m.2)) ++
    layer.filter fun m => (Json.member? m.1 base).isNone

/-- `_merge`: every field the layer states wins.  The merged profile says nothing about adapters. -/
def merge (base : RuntimeProfile) : Option RuntimeProfile → RuntimeProfile
  | none => base
  | some layer =>
      { contextSize := first layer.contextSize base.contextSize
        kvCachePrecision := first layer.kvCachePrecision base.kvCachePrecision
        gpuLayers := first layer.gpuLayers base.gpuLayers
        flashAttention := first layer.flashAttention base.flashAttention
        threads := first layer.threads base.threads
        batchSize := first layer.batchSize base.batchSize
        keepAlive := first layer.keepAlive base.keepAlive
        providerOptions := mergeOptions base.providerOptions layer.providerOptions }

/-- `_apply_task_profile_context`: where the context is configurable and nothing has stated one,
the task profile's minimum is set. -/
def applyTaskProfileContext (profile : RuntimeProfile) (minContextTokens : ℕ)
    (contextConfigurable : Bool) : RuntimeProfile :=
  if minContextTokens = 0 ∨ contextConfigurable = false ∨ profile.contextSize.isSome then
    profile
  else
    { contextSize := some minContextTokens
      kvCachePrecision := profile.kvCachePrecision
      gpuLayers := profile.gpuLayers
      flashAttention := profile.flashAttention
      threads := profile.threads
      batchSize := profile.batchSize
      keepAlive := profile.keepAlive
      providerOptions := profile.providerOptions }

/-- Resolve the runtime profile one execution runs under. -/
def resolveRuntimeProfile (defaults : RuntimeProfile) (perModel : Option RuntimeProfile)
    (minContextTokens : ℕ) (contextConfigurable : Bool) (override : Option RuntimeProfile)
    (adaptersRegistered : Option Bool) : RuntimeProfile :=
  let resolved := merge defaults perModel
  let resolved := applyTaskProfileContext resolved minContextTokens contextConfigurable
  let resolved := merge resolved override
  match adaptersRegistered with
  | none => resolved
  | some registered => { resolved with adaptersRegistered := some registered }

/-- Derive the context a candidate will be served; `none` where not even a maximum is known. -/
def resolveServedContext (profile : RuntimeProfile) (provider : ProviderFacts)
    (maxContext : Option ℕ) : Option ServedContext :=
  match profile.contextSize, provider.contextConfigurable with
  | some tokens, true => some ⟨tokens, .configured⟩
  | _, _ =>
      match provider.reportedServedContext with
      | some tokens => some ⟨tokens, .reported⟩
      | none => maxContext.map fun tokens => ⟨tokens, .assumed⟩

end LoadCoach.Routing
