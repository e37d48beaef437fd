import LoadCoach.Foundations.Claims
import LoadCoach.Registry.Import

/-! # The registry as a directory

Binding asks the registry for the row of a name and a digest, and falls back on the row that knows
the name only; the upgrade gives that row the digest.  So the registry is a directory whose
untagged entries are the name-only rows (`Models.directory`): a base is bound to what the directory
answers (`bindBase_eq`), and binding a record whose adapter is known is a claim
(`directory_applied`).  A record whose adapter is not known resolves to nothing and claims
nothing. -/

namespace LoadCoach.Registry

open Foundations
open Routing (MatchState)

/-- The rows of the registry, by name and digest. -/
def Models.directory (models : Models) : Directory (String × String) String ModelId :=
  fun name digest => (models.find ⟨name.1, name.2, digest⟩).map Prod.fst

theorem Models.directory_eq (models : Models) (i : ModelIdentity) :
    models.directory i.name i.artifactDigest = (models.find i).map Prod.fst := rfl

theorem Models.directory_none (models : Models) (i : ModelIdentity) :
    models.directory i.name none = (models.find i.nameOnly).map Prod.fst := rfl

/-- What the directory answers for an identity. -/
abbrev Models.answer (models : Models) (i : ModelIdentity) : Option ModelId :=
  models.directory.answer i.name i.artifactDigest

theorem Models.names_iff {models : Models} {i : ModelIdentity} :
    models.Names i ↔ ∃ digest, models.directory i.name digest ≠ none := by
  constructor
  · rintro ⟨m, row, hrow, hname⟩
    refine ⟨row.identity.artifactDigest, ?_⟩
    rw [← hname, Models.directory_eq, Indexed.find_eq_some_iff.2 ⟨hrow, rfl⟩]
    simp
  · rintro ⟨digest, hentry⟩
    rw [Models.directory, Ne, Option.map_eq_none_iff] at hentry
    obtain ⟨⟨m, row⟩, hfind⟩ := Option.ne_none_iff_exists'.1 hentry
    obtain ⟨hrow, hidentity⟩ := Indexed.find_eq_some_iff.1 hfind
    exact ⟨m, row, hrow, by rw [hidentity]; rfl⟩

/-! ### What a base resolves to -/

open Classical in
/-- **The base of a subject** is what the directory answers. -/
theorem bindBase_eq (models : Models) (i : ModelIdentity) :
    (bindBase i (registryOf models)).modelId = models.answer i ∧
      (bindBase i (registryOf models)).matchState =
        if models.answer i ≠ none then .bound
        else if i.artifactDigest = none ∧ models.Names i then .ambiguousNameOnly
        else .unmatched := by
  have hanswer : models.answer i =
      ((models.find i).map Prod.fst).or ((models.find i.nameOnly).map Prod.fst) := rfl
  have hbase := bases_bindBase models i
  generalize bindBase i (registryOf models) = base at hbase
  cases hbase with
  | exact h => simp [hanswer, h]
  | upgrade hexact hdigest h => simp [hanswer, hexact, h]
  | unmatched hexact hname h => simpa [hanswer, hexact, hname] using h
  | ambiguous hexact hdigest h =>
      have hsame : i.nameOnly = i := ModelIdentity.eq_iff.2 ⟨rfl, hdigest.symm⟩
      simp [hanswer, hexact, hsame, hdigest, h]

theorem matchState_bindBase_iff {models : Models} {i : ModelIdentity} :
    (bindBase i (registryOf models)).matchState = .bound ↔ models.answer i ≠ none := by
  rw [(bindBase_eq models i).2]
  split
  · simp [*]
  · split <;> simp [*]

theorem adapterId_bindBase (models : Models) (i : ModelIdentity) :
    (bindBase i (registryOf models)).adapterId = none := by
  have hbase := bases_bindBase models i
  generalize bindBase i (registryOf models) = base at hbase
  cases hbase <;> rfl

/-- The upgrade a base asks for: the name-only row, where the digest has no row of its own. -/
theorem upgrade_bindBase_iff {models : Models} {i : ModelIdentity} {m : ModelId}
    {digest : String} :
    (bindBase i (registryOf models)).upgrade = some (m, digest) ↔
      models.find i = none ∧ i.artifactDigest = some digest ∧
        (models.find i.nameOnly).map Prod.fst = some m := by
  have hbase := bases_bindBase models i
  generalize bindBase i (registryOf models) = base at hbase
  cases hbase with
  | exact h => simp [h]
  | upgrade hexact hdigest h => simp [hexact, hdigest, h, and_comm]
  | unmatched hexact hname h => simp [hname]
  | ambiguous hexact hdigest h => simp [hdigest]

/-! ### What a subject resolves to -/

/-- The three columns a binding fills. -/
def Binding.resolution (binding : Binding) : MatchState × Option ModelId × Option AdapterId :=
  (binding.matchState, binding.modelId, binding.adapterId)

/-- What a subject resolves to. -/
def resolution (adapters : Adapters) (models : Models) (x : EvidenceIdentity) :
    MatchState × Option ModelId × Option AdapterId :=
  (bindIdentity x (registryOf models) adapters).resolution

/-- A subject without an adapter, or with one that is known. -/
def EvidenceIdentity.Resolvable (adapters : Adapters) (x : EvidenceIdentity) : Prop :=
  ∀ digest, x.adapterArtifactDigest = some digest → digest ∈ adapters

instance (adapters : Adapters) (x : EvidenceIdentity) : Decidable (x.Resolvable adapters) :=
  decidable_of_iff (x.adapterArtifactDigest.all fun digest => decide (digest ∈ adapters))
    (by cases h : x.adapterArtifactDigest <;> simp [EvidenceIdentity.Resolvable, h])

section Resolution

variable {adapters : Adapters} {models models' : Models} {x y : EvidenceIdentity}

theorem bindIdentity_of_not_resolvable (h : ¬ x.Resolvable adapters) :
    bindIdentity x (registryOf models) adapters = { matchState := .unmatched } := by
  simp only [EvidenceIdentity.Resolvable, not_forall] at h
  obtain ⟨digest, hdigest, hmissing⟩ := h
  simp only [bindIdentity, hdigest, AList.lookup_eq_none.2 hmissing]

theorem resolution_of_not_resolvable (h : ¬ x.Resolvable adapters) :
    resolution adapters models x = (.unmatched, none, none) := by
  rw [resolution, bindIdentity_of_not_resolvable h]
  rfl

theorem resolution_of_resolvable (h : x.Resolvable adapters) :
    resolution adapters models x =
      ((bindBase x.model (registryOf models)).matchState, models.answer x.model,
        if models.answer x.model = none then none
        else x.adapterArtifactDigest.bind fun digest =>
          (adapters.lookup digest).map AdapterRow.adapterId) := by
  have hid := (bindBase_eq models x.model).1
  have hstate := @matchState_bindBase_iff models x.model
  rw [resolution, bindIdentity]
  cases hdigest : x.adapterArtifactDigest with
  | none => simp [Binding.resolution, hid, adapterId_bindBase]
  | some digest =>
      obtain ⟨adapter, hadapter⟩ := Option.isSome_iff_exists.1 (AList.lookup_isSome.2 (h _ hdigest))
      by_cases hbound : models.answer x.model = none
      · have hnot := mt hstate.1 (not_not.2 hbound)
        simp [hadapter, Binding.resolution, hnot, hbound]
      · simp [hadapter, Binding.resolution, hstate.2 hbound, hid, hbound]

theorem resolution_congr (hanswer : models'.answer x.model = models.answer x.model)
    (hnames : models'.Names x.model ↔ models.Names x.model) :
    resolution adapters models' x = resolution adapters models x := by
  by_cases hres : x.Resolvable adapters
  · have hstate : (bindBase x.model (registryOf models')).matchState =
        (bindBase x.model (registryOf models)).matchState := by
      rw [(bindBase_eq models' _).2, (bindBase_eq models _).2, hanswer, hnames]
    rw [resolution_of_resolvable hres, resolution_of_resolvable hres, hstate, hanswer]
  · rw [resolution_of_not_resolvable hres, resolution_of_not_resolvable hres]

theorem answer_of_resolution (h : x.Resolvable adapters)
    (hsame : resolution adapters models' x = resolution adapters models x) :
    models'.answer x.model = models.answer x.model := by
  rw [resolution_of_resolvable h, resolution_of_resolvable h] at hsame
  exact congrArg (fun r => r.2.1) hsame

/-! ### Binding as a claim -/

theorem upgrade_bindIdentity (h : x.Resolvable adapters) :
    (bindIdentity x (registryOf models) adapters).upgrade =
      (bindBase x.model (registryOf models)).upgrade := by
  rw [bindIdentity]
  cases hdigest : x.adapterArtifactDigest with
  | none => rfl
  | some digest =>
      obtain ⟨adapter, hadapter⟩ := Option.isSome_iff_exists.1 (AList.lookup_isSome.2 (h _ hdigest))
      have hbase := bases_bindBase models x.model
      generalize bindBase x.model (registryOf models) = base at hbase
      cases hbase <;> simp [hadapter]

theorem directory_upgrade {m : ModelId} {digest canonicalId : String}
    (hexact : models.find x.model = none) (hdigest : x.model.artifactDigest = some digest)
    (hname : (models.find x.model.nameOnly).map Prod.fst = some m) :
    (models.upgrade m digest canonicalId).directory =
      models.directory.claim (x.model.name, x.model.artifactDigest) := by
  rw [Option.map_eq_some_iff] at hname
  obtain ⟨⟨m, row⟩, hfind, rfl⟩ := hname
  obtain ⟨hrow, hidentity⟩ := Indexed.find_eq_some_iff.1 hfind
  have hupgraded : { row.identity with artifactDigest := some digest } = x.model := by
    rw [hidentity, ModelIdentity.nameOnly_withDigest hdigest]
  have hnone : row.identity.artifactDigest = none := by rw [hidentity]; rfl
  funext name tag
  have hsame : ∀ i : ModelIdentity, i = ⟨name.1, name.2, tag⟩ ↔
      i.name = name ∧ i.artifactDigest = tag := fun i => ModelIdentity.eq_iff
  simp only [Models.upgrade, hrow, hnone, hupgraded, hexact, if_true, dite_true, Models.directory,
    Indexed.find_put, hsame]
  -- the row that was given the digest is found under no other identity
  have hkept : ¬ (x.model.name = name ∧ tag = none) →
      (models.find ⟨name.1, name.2, tag⟩).filter (fun e => decide (e.1 ≠ m)) =
        models.find ⟨name.1, name.2, tag⟩ := by
    intro hother
    cases hfound : models.find ⟨name.1, name.2, tag⟩ with
    | none => rfl
    | some e =>
        obtain ⟨hrow', hi⟩ := Indexed.find_eq_some_iff.1 hfound
        refine Option.filter_eq_some_iff.2 ⟨rfl, decide_eq_true ?_⟩
        rintro rfl
        rw [hrow, Option.some.injEq] at hrow'
        rw [← hrow', hidentity] at hi
        exact hother (by simpa [eq_comm] using (hsame _).1 hi)
  by_cases hnames : x.model.name = name
  · have htakes : models.directory.Takes name (x.model.name, x.model.artifactDigest) := by
      refine ⟨hnames, by simp [hdigest], ?_⟩
      rw [← hnames, Models.directory_eq, hexact]
      rfl
    rw [Directory.claim_of_takes htakes, Directory.handed]
    by_cases htag : tag = x.model.artifactDigest
    · rw [if_pos ⟨hnames, htag.symm⟩, if_pos htag, ← hnames, Models.directory_none, hfind]
      rfl
    · rw [if_neg fun h => htag h.2.symm, if_neg htag]
      by_cases hbare : tag = none
      · have hfound : models.find ⟨name.1, name.2, tag⟩ = some (m, row) := by
          rw [← hfind, ← hnames, hbare]
          rfl
        rw [if_pos hbare, hfound]
        simp
      · rw [if_neg hbare, hkept fun h => hbare h.2]
        rfl
  · rw [if_neg fun h => hnames h.1, hkept fun h => hnames h.1,
      Directory.claim_of_not_takes fun h => hnames h.1]
    rfl

/-- **Binding a subject claims its base** for the digest, if the adapter is known. -/
theorem directory_applied (canonicalId : String) :
    ((bindIdentity x (registryOf models) adapters).applied canonicalId models).directory =
      if x.Resolvable adapters then
        models.directory.claim (x.model.name, x.model.artifactDigest)
      else models.directory := by
  by_cases hres : x.Resolvable adapters
  · rw [if_pos hres, Binding.applied, upgrade_bindIdentity hres]
    cases hupgrade : (bindBase x.model (registryOf models)).upgrade with
    | some e =>
        obtain ⟨hexact, hdigest, hname⟩ := upgrade_bindBase_iff.1 hupgrade
        exact directory_upgrade hexact hdigest hname
    | none =>
        -- no name-only row is there for the digest, or the digest has its own
        funext name tag
        by_cases htakes : models.directory.Takes name (x.model.name, x.model.artifactDigest)
        · obtain ⟨rfl, hdigest, hentry⟩ := htakes
          have hbare : models.directory x.model.name none = none := by
            by_contra hbare
            obtain ⟨digest, hdigest⟩ := Option.ne_none_iff_exists'.1 hdigest
            obtain ⟨m, hm⟩ := Option.ne_none_iff_exists'.1 hbare
            rw [Models.directory_eq, Option.map_eq_none_iff] at hentry
            rw [upgrade_bindBase_iff.2 ⟨hentry, hdigest, hm⟩] at hupgrade
            cases hupgrade
          rw [Directory.claim_of_takes ⟨rfl, hdigest, hentry⟩,
            Directory.handed_of_none hentry hbare]
        · rw [Directory.claim_of_not_takes htakes]
  · rw [if_neg hres, bindIdentity_of_not_resolvable hres]
    rfl

/-! ### What a list of bindings leaves -/

/-- What a subject claims of the registry. -/
def EvidenceIdentity.claim (x : EvidenceIdentity) : (String × String) × Option String :=
  (x.model.name, x.model.artifactDigest)

/-- What some subjects claim, in order. -/
def claimsOf (adapters : Adapters) (l : List EvidenceIdentity) :
    List ((String × String) × Option String) :=
  (l.filter fun x => decide (x.Resolvable adapters)).map EvidenceIdentity.claim

theorem claimsOf_append (l₁ l₂ : List EvidenceIdentity) :
    claimsOf adapters (l₁ ++ l₂) = claimsOf adapters l₁ ++ claimsOf adapters l₂ := by
  simp [claimsOf]

theorem claimsOf_cons (h : x.Resolvable adapters) (l : List EvidenceIdentity) :
    claimsOf adapters (x :: l) = x.claim :: claimsOf adapters l := by
  simp [claimsOf, h]

/-- A registry in which some subjects were bound one after the other. -/
def Bound (adapters : Adapters) (models : Models) (l : List EvidenceIdentity) (models' : Models) :
    Prop :=
  models'.directory = models.directory.claims (claimsOf adapters l)

theorem Bound.snoc {l : List EvidenceIdentity} (h : Bound adapters models l models')
    (canonicalId : String) :
    Bound adapters models (l ++ [x])
      ((bindIdentity x (registryOf models') adapters).applied canonicalId models') := by
  rw [Bound, directory_applied, claimsOf_append, Directory.claims_append, ← h]
  by_cases hres : x.Resolvable adapters
  · rw [if_pos hres, claimsOf_cons hres]
    rfl
  · rw [if_neg hres]
    simp [claimsOf, hres, Directory.claims]

theorem Bound.names_iff {l : List EvidenceIdentity} (h : Bound adapters models l models')
    (i : ModelIdentity) : models'.Names i ↔ models.Names i := by
  rw [Models.names_iff, Models.names_iff, h]
  exact Directory.exists_claims_iff

/-- Binding `x` gives the name-only row that answers for `y` to another digest. -/
structure Disturbs (adapters : Adapters) (models : Models) (x y : EvidenceIdentity) : Prop where
  resolvable : x.Resolvable adapters
  affected : y.Resolvable adapters
  entry : models.directory y.model.name none ≠ none
  takes : models.directory.Takes y.model.name x.claim
  moved : ¬ Directory.Unmoved (models.directory y.model.name) x.model.artifactDigest
    y.model.artifactDigest

theorem Bound.resolution_eq {l : List EvidenceIdentity} (h : Bound adapters models l models')
    (hnone : ∀ x ∈ l, ¬ Disturbs adapters models x y) :
    resolution adapters models' y = resolution adapters models y := by
  by_cases hres : y.Resolvable adapters
  · refine resolution_congr ?_ (h.names_iff _)
    rw [Models.answer, h]
    refine Directory.answer_claims_iff.2 fun hentry c hfirst => ?_
    obtain ⟨hc, htakes⟩ := Directory.takes_of_firstClaim hfirst
    obtain ⟨x, hx, rfl⟩ := List.mem_map.1 hc
    obtain ⟨hx, hresx⟩ := List.mem_filter.1 hx
    by_contra hmoved
    exact hnone x hx ⟨of_decide_eq_true hresx, hres, hentry, htakes, hmoved⟩
  · rw [resolution_of_not_resolvable hres, resolution_of_not_resolvable hres]

/-- What the first binding disturbs resolves to something else. -/
theorem Bound.resolution_ne {l : List EvidenceIdentity}
    (h : Bound adapters models (x :: l) models') (hdisturbs : Disturbs adapters models x y) :
    resolution adapters models' y ≠ resolution adapters models y := by
  intro hsame
  have hanswer := answer_of_resolution hdisturbs.affected hsame
  rw [Models.answer, h, claimsOf_cons hdisturbs.resolvable, Directory.answer_claims_iff] at hanswer
  refine hdisturbs.moved (hanswer hdisturbs.entry x.claim ?_)
  simp [Directory.firstClaim, hdisturbs.takes]

theorem Bound.resolution_eq_iff {l l' : List EvidenceIdentity} {models'' : Models}
    (h : Bound adapters models l models') (h' : Bound adapters models l' models'')
    (hres : y.Resolvable adapters) :
    resolution adapters models'' y = resolution adapters models' y ↔
      models''.answer y.model = models'.answer y.model :=
  ⟨answer_of_resolution hres,
    fun hanswer => resolution_congr hanswer ((h'.names_iff _).trans (h.names_iff _).symm)⟩

theorem exists_disturbs_iff (hres : y.Resolvable adapters) (hdigest : y.model.artifactDigest = none)
    {l : List EvidenceIdentity} :
    (∃ x ∈ l, Disturbs adapters models x y) ↔
      models.directory y.model.name none ≠ none ∧
        models.directory.firstClaim (claimsOf adapters l) y.model.name ≠ none := by
  have hclaim : models.directory.firstClaim (claimsOf adapters l) y.model.name ≠ none ↔
      ∃ c ∈ claimsOf adapters l, models.directory.Takes y.model.name c := by
    rw [Ne, Directory.firstClaim_eq_none_iff]
    push Not
    rfl
  rw [hclaim]
  constructor
  · rintro ⟨x, hx, hdisturbs⟩
    refine ⟨hdisturbs.entry, x.claim, List.mem_map.2 ⟨x, ?_, rfl⟩, hdisturbs.takes⟩
    exact List.mem_filter.2 ⟨hx, decide_eq_true hdisturbs.resolvable⟩
  · rintro ⟨hentry, c, hc, htakes⟩
    obtain ⟨x, hx, rfl⟩ := List.mem_map.1 hc
    obtain ⟨hx, hresx⟩ := List.mem_filter.1 hx
    refine ⟨x, hx, of_decide_eq_true hresx, hres, hentry, htakes, ?_⟩
    rintro (hsame | hown)
    · exact htakes.2.1 (hsame.symm.trans hdigest)
    · exact hown.1 hdigest

/-- **What a subject resolves to at its own turn** is what it resolves to at the end, except where a
name-only subject is disturbed later and was not before. -/
theorem Bound.resolution_split_iff {p s : List EvidenceIdentity} {models'' : Models}
    (h : Bound adapters models p models') (h' : Bound adapters models (p ++ y :: s) models'') :
    resolution adapters models'' y = resolution adapters models' y ↔
      (y.model.artifactDigest = none → (∃ x ∈ s, Disturbs adapters models x y) →
        ∃ x ∈ p, Disturbs adapters models x y) := by
  by_cases hres : y.Resolvable adapters
  · rw [h.resolution_eq_iff h' hres, Models.answer, Models.answer, h, h', claimsOf_append,
      claimsOf_cons hres]
    refine Directory.answer_split_iff.trans (imp_congr_right fun hdigest => ?_)
    rw [exists_disturbs_iff hres hdigest, exists_disturbs_iff hres hdigest]
    tauto
  · refine iff_of_true ?_ ?_
    · rw [resolution_of_not_resolvable hres, resolution_of_not_resolvable hres]
    · rintro - ⟨x, -, hdisturbs⟩
      exact absurd hdisturbs.affected hres

theorem Bound.applied_eq {l : List EvidenceIdentity} (h : Bound adapters models l models')
    (hy : y ∈ l) (canonicalId : String) :
    (bindIdentity y (registryOf models') adapters).applied canonicalId models' = models' := by
  by_cases hres : y.Resolvable adapters
  · have hupgrade : (bindIdentity y (registryOf models') adapters).upgrade = none := by
      rw [upgrade_bindIdentity hres]
      refine Option.eq_none_iff_forall_ne_some.2 fun ⟨m, digest⟩ hsome => ?_
      obtain ⟨hexact, hdigest, hname⟩ := upgrade_bindBase_iff.1 hsome
      have hclaim : y.claim ∈ claimsOf adapters l :=
        List.mem_map.2 ⟨y, List.mem_filter.2 ⟨hy, decide_eq_true hres⟩, rfl⟩
      have htag : y.claim.2 ≠ none := by
        rw [EvidenceIdentity.claim, hdigest]
        exact Option.some_ne_none digest
      have hown : models.directory.claims (claimsOf adapters l) y.claim.1 y.claim.2 = none := by
        rw [← h]
        exact Option.map_eq_none_iff.2 hexact
      have hbare := Directory.claims_settled hclaim htag hown
      rw [← h, EvidenceIdentity.claim, Models.directory_none, hname] at hbare
      cases hbare
    rw [Binding.applied, hupgrade]
  · rw [bindIdentity_of_not_resolvable hres]
    rfl

end Resolution

end LoadCoach.Registry
