import LoadCoach.Configuration.Environment

/-! # Which layer wins

The file, the variables and the command line are layers, one over the other: a leaf of the settings
is promised the value of the highest layer that sets it, and `sources` the name of that layer.

Merging does this unless a layer above puts a value that is no table above the leaf, and
`_track_sources` unless a section that is no table answers `in` for a leaf that no layer sets, or
raises.  `loadsInLayers_iff` is the condition under which `load_settings` keeps the promise. -/

namespace LoadCoach.Configuration.Layering

open Foundations
open Foundations.Json

/-! ### The leaves -/

/-- A path below a table that is declared so is declared. -/
def declared : Shape → Path → Bool
  | _, [] => true
  | .value, _ :: _ => false
  | .model fields extra, key :: path =>
      match child fields extra key with
      | some shape => declared shape path
      | none => false

/-- A path of the settings, below a section. -/
def isSetting : Path → Bool
  | sectionName :: fieldName :: path =>
      match sectionOf sectionName with
      | some (fields, extra) => declared (.model fields extra) (fieldName :: path)
      | none => false
  | _ => false

/-! ### What is promised -/

section Promise

variable {σ : Type} (python : Python) (validation : Validation σ) (path : String)
  (environ : List (String × String))

/-- The layers of a configuration, the lowest first. -/
def layersOf (file cli : Members) : List (Origin × Json) :=
  (.file, .obj file) :: (envLayers python environ ++ [(.cli, .obj cli)])

/-- `ConfigurationError`, or its subclass. -/
def isConfigurationError : Raised → Bool
  | .suite code _ _ => code == "CONFIGURATION_ERROR" || code == "INSECURE_BINDING"
  | _ => false

/-- Every leaf of a mapping is that of the highest layer that sets it. -/
def LeavesOfHighest (file cli merged : Members) : Prop :=
  ∀ p, isSetting p = true →
    (reach p (.obj merged)).seen = (highest p (layersOf python environ file cli)).map Prod.snd

/-- The sources name of every leaf the highest layer that sets it. -/
def namedSources (file cli : Members) : List (String × String) :=
  leafKeys.map fun leaf => (leaf.dotted, sourceName leaf
    ((highest [leaf.sectionName, leaf.fieldName] (layersOf python environ file cli)).map Prod.fst))

/-- `load_settings` raises `ConfigurationError`, or returns what its layers say. -/
def LoadsInLayers (file : Option ByteArray) (cli : Mapping) : Prop :=
  match loadSettings python validation path file environ cli with
  | .error error => isConfigurationError error = true
  | .ok loaded => ∃ data env, readFile python path file = .ok data ∧
      readEnv python environ = .ok env ∧
      validation.validate (mergeLayers data.1 env cli.members) = some loaded.settings ∧
      LeavesOfHighest python environ data.1 cli.members (mergeLayers data.1 env cli.members) ∧
      loaded.sources = namedSources python environ data.1 cli.members

/-! ### When it is kept -/

/-- No leaf is hidden, and a section that is no table does not answer for a leaf that no layer
sets. -/
def ShapesAgree (file cli : Members) : Prop :=
  (∀ p, isSetting p = true → ¬ Hidden p (layersOf python environ file cli)) ∧
    ∀ leaf ∈ leafKeys,
      highest [leaf.sectionName, leaf.fieldName] (layersOf python environ file cli) = none →
      ∀ origin value,
        highest [leaf.sectionName] ((layersOf python environ file cli).filter fun layer =>
          decide (layer.1 = origin)) = some (origin, value) →
        contains leaf.fieldName value = .ok false

/-- Every error of a mapping that is refused, but an unknown key, has a value that can be
written. -/
def ErrorsWritten (merged : Members) : Prop :=
  refuseBothProviderForms merged path = .ok () → validation.validate merged = none →
    ∀ error ∈ validation.errors merged, validation.Words error

/-- The file is read or is no TOML, the environment can be read, the errors of the merged mapping
can be written, and where it is accepted the shapes agree. -/
def LayersAgree (file : Option ByteArray) (cli : Mapping) : Prop :=
  match readFile python path file with
  | .error error => isConfigurationError error = true
  | .ok data => EnvReadable python environ ∧
      ∀ env, readEnv python environ = .ok env →
        ErrorsWritten validation path (mergeLayers data.1 env cli.members) ∧
        ((∃ settings, validateMerged validation path (mergeLayers data.1 env cli.members) =
          .ok settings) →
        ShapesAgree python environ data.1 cli.members)

end Promise

/-! ### The values -/

section Values

variable {python : Python} {environ : List (String × String)} {env : Json} {file cli : Members}
  {p : Path}

theorem seen_reach_mergeLayers (henv : Nested (envLayers python environ) env)
    (hcli : Keyed (.obj cli)) (hp : p ≠ []) :
    (reach p (.obj (mergeLayers file env cli))).seen =
      (lastSpeaking p (layersOf python environ file cli)).seen := by
  obtain ⟨members, rfl⟩ := henv.table
  have hlower := seen_reach_layOver henv.keyed (.obj file) p
  have hupper := seen_reach_layOver hcli (.obj (deepMerge file members)) p
  rw [layOver] at hlower hupper
  rw [mergeLayers, membersOf, hupper, Reach.seen_under_congr hlower, henv.reach p hp, layersOf,
    lastSpeaking_cons, lastSpeaking_append, lastSpeaking_singleton, Reach.under_assoc]

theorem ne_nil_of_isSetting (h : isSetting p = true) : p ≠ [] := by
  rintro rfl
  cases h

/-- **Every leaf is that of the highest layer** where none is hidden. -/
theorem leavesOfHighest_iff (henv : Nested (envLayers python environ) env)
    (hcli : Keyed (.obj cli)) :
    LeavesOfHighest python environ file cli (mergeLayers file env cli) ↔
      ∀ p, isSetting p = true → ¬ Hidden p (layersOf python environ file cli) := by
  refine forall₂_congr fun p hp => ?_
  rw [seen_reach_mergeLayers henv hcli (ne_nil_of_isSetting hp), seen_lastSpeaking_iff]

end Values

/-! ### The sources -/

section Sources

variable {python : Python} {environ : List (String × String)} {env : Json} {file cli : Members}
  {leaf : Leaf} {nested : Json}

theorem contains_empty (name : String) : contains name (.obj []) = .ok false := rfl

/-- A mapping that does not hold a leaf says so, unless its section is no table and answers
otherwise. -/
theorem holds_eq_false_iff (htable : ∃ members, nested = .obj members)
    (h : (reach [leaf.sectionName, leaf.fieldName] nested).seen = none) :
    holds leaf nested = .ok false ↔ ∀ value, (reach [leaf.sectionName] nested).seen = some value →
      contains leaf.fieldName value = .ok false := by
  obtain ⟨members, rfl⟩ := htable
  cases hreach : reach [leaf.sectionName, leaf.fieldName] (.obj members) with
  | found value => simp [hreach, Reach.seen] at h
  | silent =>
      refine iff_of_true (holds_of_silent hreach) fun value hvalue => ?_
      cases hsection : reach [leaf.sectionName] (.obj members) with
      | found v =>
          have hfree : reach [leaf.sectionName, leaf.fieldName] (.obj members) ≠ .blocked := by
            simp [hreach]
          obtain rfl := table_of_not_blocked hfree (by simp) hsection
          rw [hsection] at hvalue
          obtain rfl := Option.some.inj hvalue
          exact contains_empty _
      | _ => simp [hsection, Reach.seen] at hvalue
  | blocked =>
      obtain ⟨value, hvalue, -, hholds⟩ := holds_of_blocked hreach
      rw [hholds, hvalue]
      simp [Reach.seen]

theorem sourceOf_eq_default_iff {file env cli : Json} :
    sourceOf file env cli leaf = .ok (sourceName leaf none) ↔
      holds leaf cli = .ok false ∧ holds leaf env = .ok false ∧ holds leaf file = .ok false := by
  have hcli : sourceName leaf (some .cli) ≠ sourceName leaf none := by simp [sourceName]
  have hfile : sourceName leaf (some .file) ≠ sourceName leaf none := by simp [sourceName]
  have henv : sourceName leaf (some .env) ≠ sourceName leaf none := by
    intro h
    have hletters := congrArg String.toList h
    simp [sourceName, ToString.toString] at hletters
  rw [sourceOf]
  cases holds leaf cli with
  | error error => simp [bind, Except.bind]
  | ok b =>
      cases b with
      | true => simp [pure, Except.pure, hcli]
      | false =>
          cases holds leaf env with
          | error error => simp [bind, Except.bind]
          | ok b =>
              cases b with
              | true => simp [pure, Except.pure, henv]
              | false =>
                  cases holds leaf file with
                  | error error => simp [bind, Except.bind]
                  | ok b => cases b <;> simp [pure, Except.pure, hfile]

/-- The layers of one origin. -/
def groupOf (python : Python) (environ : List (String × String)) (file cli : Members) :
    Origin → List (Origin × Json)
  | .file => [(.file, .obj file)]
  | .env => envLayers python environ
  | .cli => [(.cli, .obj cli)]

theorem filter_layersOf (origin : Origin) :
    ((layersOf python environ file cli).filter fun layer => decide (layer.1 = origin)) =
      groupOf python environ file cli origin := by
  have henv : ∀ layer ∈ envLayers python environ, layer.1 = .env := by
    intro layer hlayer
    obtain ⟨entry, -, rfl⟩ := List.mem_map.1 hlayer
    rfl
  cases origin with
  | env =>
      have hall : (envLayers python environ).filter (fun layer => decide (layer.1 = .env)) =
          envLayers python environ :=
        List.filter_eq_self.2 fun layer hlayer => decide_eq_true (henv layer hlayer)
      simp [layersOf, groupOf, hall]
  | _ =>
      have hnone : ∀ origin : Origin, origin ≠ .env →
          (envLayers python environ).filter (fun layer => decide (layer.1 = origin)) = [] :=
        fun origin hne => List.filter_eq_nil_iff.2 fun layer hlayer hsame =>
          hne ((of_decide_eq_true hsame).symm.trans (henv layer hlayer))
      simp [layersOf, groupOf, hnone]

/-- The mapping of one origin. -/
def mappingOf (file env cli : Json) : Origin → Json
  | .file => file
  | .env => env
  | .cli => cli

theorem lastSpeaking_groupOf (henv : Nested (envLayers python environ) env) (origin : Origin)
    {p : Path} (hp : p ≠ []) :
    lastSpeaking p (groupOf python environ file cli origin) =
      reach p (mappingOf (.obj file) env (.obj cli) origin) := by
  cases origin with
  | env => exact (henv.reach p hp).symm
  | _ => exact lastSpeaking_singleton _

theorem origin_of_highest_groupOf {p : Path} {origin : Origin} {layer : Origin × Json}
    (h : highest p (groupOf python environ file cli origin) = some layer) : layer.1 = origin := by
  rw [← filter_layersOf] at h
  obtain ⟨other, hother, hsame⟩ := exists_of_highest h
  exact hsame.symm.trans (of_decide_eq_true (List.mem_filter.1 hother).2)

theorem highest_groupOf_of_found (henv : Nested (envLayers python environ) env) {p : Path}
    (hp : p ≠ []) {origin : Origin} {value : Json}
    (h : reach p (mappingOf (.obj file) env (.obj cli) origin) = .found value) :
    highest p (groupOf python environ file cli origin) = some (origin, value) := by
  obtain ⟨⟨other, v⟩, -, hhighest⟩ :=
    highest_of_lastSpeaking_found ((lastSpeaking_groupOf henv origin hp).trans h)
  obtain rfl : other = origin := origin_of_highest_groupOf hhighest
  exact hhighest

theorem highest_groupOf_of_silent (henv : Nested (envLayers python environ) env) {p : Path}
    (hp : p ≠ []) {origin : Origin}
    (h : reach p (mappingOf (.obj file) env (.obj cli) origin) = .silent) :
    highest p (groupOf python environ file cli origin) = none :=
  highest_eq_none_of_lastSpeaking_silent ((lastSpeaking_groupOf henv origin hp).trans h)

theorem mem_envAssignments {entry : Path × Json} (h : entry ∈ envAssignments python environ) :
    entry.1 ≠ [] ∧ isTable (some entry.2) = false := by
  rw [envAssignments] at h
  split at h
  · exact of_mem_assignments h
  · split at h
    · exact of_mem_assignments h
    · obtain rfl | h := List.mem_cons.1 h
      · exact ⟨by simp, rfl⟩
      · exact of_mem_assignments h

theorem seen_section_groupOf (henv : Nested (envLayers python environ) env) (origin : Origin)
    (key : String) : (reach [key] (mappingOf (.obj file) env (.obj cli) origin)).seen =
      (highest [key] (groupOf python environ file cli origin)).map Prod.snd := by
  rw [← @lastSpeaking_groupOf _ _ _ file cli henv origin [key] (by simp)]
  cases origin with
  | env => exact seen_lastSpeaking_iff.2 (not_hidden_section (fun _ => mem_envAssignments) key)
  | _ =>
      rw [groupOf, lastSpeaking_singleton, highest_singleton]
      cases (reach [key] _).seen <;> rfl

theorem layersOf_eq : layersOf python environ file cli = groupOf python environ file cli .file ++
    (groupOf python environ file cli .env ++ groupOf python environ file cli .cli) := rfl

/-- A mapping whose layers do not set a leaf says that it does not hold it, unless what they set its
section to is no table and answers otherwise. -/
theorem holds_mappingOf_eq_false_iff (henv : Nested (envLayers python environ) env)
    {origin : Origin} (hunset : highest [leaf.sectionName, leaf.fieldName]
      (groupOf python environ file cli origin) = none) :
    holds leaf (mappingOf (.obj file) env (.obj cli) origin) = .ok false ↔
      ∀ value, highest [leaf.sectionName] (groupOf python environ file cli origin) =
        some (origin, value) → contains leaf.fieldName value = .ok false := by
  have htable : ∃ members, mappingOf (.obj file) env (.obj cli) origin = .obj members := by
    cases origin with
    | env => exact henv.table
    | _ => exact ⟨_, rfl⟩
  have hunseen : (reach [leaf.sectionName, leaf.fieldName]
      (mappingOf (.obj file) env (.obj cli) origin)).seen = none := by
    cases hreach : reach [leaf.sectionName, leaf.fieldName]
        (mappingOf (.obj file) env (.obj cli) origin) with
    | found value => cases hunset.symm.trans (highest_groupOf_of_found henv (by simp) hreach)
    | _ => rfl
  rw [holds_eq_false_iff htable hunseen]
  refine forall_congr' fun value => imp_congr_left ?_
  rw [seen_section_groupOf henv, Option.map_eq_some_iff]
  constructor
  · rintro ⟨⟨other, v⟩, hset, rfl⟩
    obtain rfl : other = origin := origin_of_highest_groupOf hset
    exact hset
  · exact fun hset => ⟨_, hset, rfl⟩

/-- A leaf that no layer sets is named for none where every section that is no table answers that it
does not hold it. -/
theorem sourceOf_of_unset_iff (henv : Nested (envLayers python environ) env)
    (hunset : highest [leaf.sectionName, leaf.fieldName] (layersOf python environ file cli) = none) :
    sourceOf (.obj file) env (.obj cli) leaf = .ok (sourceName leaf none) ↔
      ∀ origin value,
        highest [leaf.sectionName] ((layersOf python environ file cli).filter fun layer =>
          decide (layer.1 = origin)) = some (origin, value) →
        contains leaf.fieldName value = .ok false := by
  have hgroup : ∀ origin, holds leaf (mappingOf (.obj file) env (.obj cli) origin) = .ok false ↔
      ∀ value, highest [leaf.sectionName] (groupOf python environ file cli origin) =
        some (origin, value) → contains leaf.fieldName value = .ok false := by
    intro origin
    refine holds_mappingOf_eq_false_iff henv ?_
    rw [← filter_layersOf]
    refine highest_eq_none_iff.2 fun layer hlayer => ?_
    exact highest_eq_none_iff.1 hunset layer (List.mem_filter.1 hlayer).1
  have hcli : holds leaf (.obj cli) = .ok false ↔ _ := hgroup .cli
  have henv' : holds leaf env = .ok false ↔ _ := hgroup .env
  have hfile : holds leaf (.obj file) = .ok false ↔ _ := hgroup .file
  rw [sourceOf_eq_default_iff, hcli, henv', hfile]
  simp only [filter_layersOf]
  constructor
  · rintro ⟨hcli, henv, hfile⟩ origin
    cases origin with
    | cli => exact hcli
    | env => exact henv
    | file => exact hfile
  · exact fun h => ⟨h .cli, h .env, h .file⟩

/-- **A leaf that a layer sets is named for the highest**, where it is not hidden. -/
theorem sourceOf_of_set (henv : Nested (envLayers python environ) env) {layer : Origin × Json}
    (hset : highest [leaf.sectionName, leaf.fieldName] (layersOf python environ file cli) =
      some layer)
    (hfree : ¬ Hidden [leaf.sectionName, leaf.fieldName] (layersOf python environ file cli)) :
    sourceOf (.obj file) env (.obj cli) leaf = .ok (sourceName leaf (some layer.1)) := by
  have hp : [leaf.sectionName, leaf.fieldName] ≠ [] := by simp
  have hspeaks := seen_lastSpeaking_iff.2 hfree
  rw [hset, layersOf_eq, lastSpeaking_append, lastSpeaking_append, lastSpeaking_groupOf henv _ hp,
    lastSpeaking_groupOf henv _ hp, lastSpeaking_groupOf henv _ hp] at hspeaks
  rw [layersOf_eq, highest_append, highest_append] at hset
  rw [sourceOf]
  -- the mappings are asked from the top, and the first that is not silent is the one that is named
  cases hcli : reach [leaf.sectionName, leaf.fieldName]
      (mappingOf (.obj file) env (.obj cli) .cli) with
  | blocked => simp [hcli, Reach.seen] at hspeaks
  | found value =>
      rw [highest_groupOf_of_found henv hp hcli] at hset
      obtain rfl : (Origin.cli, value) = layer := by simpa using hset
      have hholds : holds leaf (.obj cli) = .ok true := holds_of_found hcli
      rw [hholds]
      rfl
  | silent =>
      rw [highest_groupOf_of_silent henv hp hcli] at hset
      have hholds : holds leaf (.obj cli) = .ok false := holds_of_silent hcli
      rw [hholds]
      cases henvReach : reach [leaf.sectionName, leaf.fieldName]
          (mappingOf (.obj file) env (.obj cli) .env) with
      | blocked => simp [hcli, henvReach, Reach.seen] at hspeaks
      | found value =>
          rw [highest_groupOf_of_found henv hp henvReach] at hset
          obtain rfl : (Origin.env, value) = layer := by simpa using hset
          have hholds : holds leaf env = .ok true := holds_of_found henvReach
          rw [hholds]
          rfl
      | silent =>
          rw [highest_groupOf_of_silent henv hp henvReach] at hset
          have hholds : holds leaf env = .ok false := holds_of_silent henvReach
          rw [hholds]
          cases hfile : reach [leaf.sectionName, leaf.fieldName]
              (mappingOf (.obj file) env (.obj cli) .file) with
          | blocked => simp [hcli, henvReach, hfile, Reach.seen] at hspeaks
          | silent => simp [hcli, henvReach, hfile, Reach.seen] at hspeaks
          | found value =>
              rw [highest_groupOf_of_found henv hp hfile] at hset
              obtain rfl : (Origin.file, value) = layer := by simpa using hset
              have hholds : holds leaf (.obj file) = .ok true := holds_of_found hfile
              rw [hholds]
              rfl

end Sources

/-! ### The errors -/

section Errors

variable {σ : Type} {python : Python} {validation : Validation σ} {path : String}
  {environ : List (String × String)} {error : Raised}

theorem contains_error {name : String} {value : Json} (h : contains name value = .error error) :
    error = .typeError := by
  unfold contains at h
  split at h <;> cases h
  rfl

theorem holds_error {leaf : Leaf} {data : Json} (h : holds leaf data = .error error) :
    error = .typeError := by
  rw [holds] at h
  split at h
  · cases h
  · exact contains_error h

theorem sourceOf_error {file env cli : Json} {leaf : Leaf}
    (h : sourceOf file env cli leaf = .error error) : error = .typeError := by
  rw [sourceOf] at h
  obtain h | ⟨b, -, h⟩ := bind_eq_error.1 h
  · exact holds_error h
  · cases b with
    | true => cases h
    | false =>
        obtain h | ⟨b, -, h⟩ := bind_eq_error.1 h
        · exact holds_error h
        · cases b with
          | true => cases h
          | false =>
              obtain h | ⟨b, -, h⟩ := bind_eq_error.1 h
              · exact holds_error h
              · cases b <;> cases h

theorem trackSources_error {file env cli : Json}
    (h : trackSources file env cli = .error error) : error = .typeError := by
  obtain ⟨leaf, -, hleaf⟩ := mapM_eq_error_iff.1 h
  cases hsource : sourceOf file env cli leaf with
  | ok source => simp [hsource, Except.map] at hleaf
  | error other =>
      rw [hsource] at hleaf
      cases hleaf
      exact sourceOf_error hsource

theorem readEnv_error (h : readEnv python environ = .error error) :
    isConfigurationError error = false := by
  rw [readEnv_eq] at h
  split at h
  · rw [aliasLogLevel] at h
    split at h
    · cases h
    · obtain h | ⟨b, -, h⟩ := bind_eq_error.1 h
      · rw [contains_error h]
        rfl
      · cases b with
        | true => cases h
        | false =>
            change assignOrRaise _ _ _ = _ at h
            rw [assignOrRaise] at h
            split at h <;> cases h
            rfl
  · cases h
    rfl

theorem isConfigurationError_of_refuseBothProviderForms {merged : Members}
    (h : refuseBothProviderForms merged path = .error error) : isConfigurationError error = true := by
  unfold refuseBothProviderForms at h
  split at h
  · dsimp only at h
    split at h
    · cases h
    · cases h
      rfl
  · cases h

theorem isConfigurationError_of_validateSecurity {server : ServerBinding}
    (h : validateSecurity server = .error error) : isConfigurationError error = true := by
  unfold validateSecurity at h
  split at h
  · cases h
    rfl
  · split at h
    · cases h
      rfl
    · cases h

theorem isConfigurationError_of_validateMerged {merged : Members}
    (h : validateMerged validation path merged = .error error) :
    isConfigurationError error = true ↔ ErrorsWritten validation path merged := by
  rw [validateMerged] at h
  obtain h | ⟨checked, hforms, h⟩ := bind_eq_error.1 h
  · refine iff_of_true (isConfigurationError_of_refuseBothProviderForms h) fun hforms => ?_
    cases h.symm.trans hforms
  · cases hvalid : validation.validate merged with
    | some settings =>
        rw [hvalid] at h
        refine iff_of_true ?_ fun _ hnone => by cases hvalid.symm.trans hnone
        obtain h | ⟨-, -, h⟩ := bind_eq_error.1 h
        · exact isConfigurationError_of_validateSecurity h
        · cases h
    | none =>
        rw [hvalid] at h
        have hwritten : ErrorsWritten validation path merged ↔
            ∀ e ∈ validation.errors merged, validation.Words e :=
          ⟨fun hw => hw hforms hvalid, fun hw _ _ => hw⟩
        rw [hwritten, ← validation.exists_translate_iff]
        dsimp only [translateValidationError] at h
        cases htranslate : validation.translate path (validation.errors merged) with
        | error raised =>
            rw [htranslate] at h
            obtain rfl := Wording.translate_error htranslate
            cases h
            exact iff_of_false (by simp [isConfigurationError]) fun ⟨_, hok⟩ => nomatch hok
        | ok raised =>
            rw [htranslate] at h
            obtain ⟨message, details, rfl⟩ := Wording.translate_ok htranslate
            cases h
            exact iff_of_true rfl ⟨_, rfl⟩

theorem validate_of_validateMerged {merged : Members} {settings : σ}
    (h : validateMerged validation path merged = .ok settings) :
    validation.validate merged = some settings := by
  rw [validateMerged] at h
  obtain ⟨-, -, h⟩ := bind_eq_ok.1 h
  split at h
  · obtain ⟨raised, -, h⟩ := bind_eq_ok.1 h
    cases h
  · rename_i other hother
    obtain ⟨-, -, h⟩ := bind_eq_ok.1 h
    rw [hother, pure_eq_ok.1 h]

end Errors

/-! ### Loading -/

section Loading

variable {σ : Type} {python : Python} {validation : Validation σ} {path : String}
  {environ : List (String × String)} {env : Json} {file cli : Members}

theorem isSetting_of_mem_leafKeys :
    ∀ leaf ∈ leafKeys, isSetting [leaf.sectionName, leaf.fieldName] = true := by
  decide +kernel

theorem shapesAgree_iff (henv : Nested (envLayers python environ) env)
    (hcli : Keyed (.obj cli)) :
    (LeavesOfHighest python environ file cli (mergeLayers file env cli) ∧
      trackSources (.obj file) env (.obj cli) = .ok (namedSources python environ file cli)) ↔
      ShapesAgree python environ file cli := by
  rw [leavesOfHighest_iff henv hcli, ShapesAgree]
  refine and_congr_right fun hfree => ?_
  rw [trackSources, namedSources, mapM_eq_ok_map_iff]
  refine forall₂_congr fun leaf hleaf => ?_
  have hsetting := isSetting_of_mem_leafKeys leaf hleaf
  cases hset : highest [leaf.sectionName, leaf.fieldName] (layersOf python environ file cli) with
  | some layer =>
      rw [sourceOf_of_set henv hset (hfree _ hsetting)]
      exact iff_of_true rfl nofun
  | none =>
      rw [forall_prop_of_true rfl, ← sourceOf_of_unset_iff henv hset]
      cases hsource : sourceOf (.obj file) env (.obj cli) leaf <;> simp [Except.map]

/-- **`load_settings` loads in layers** exactly where the layers agree. -/
theorem loadsInLayers_iff {file : Option ByteArray} {cli : Mapping} :
    LoadsInLayers python validation path environ file cli ↔
      LayersAgree python validation path environ file cli := by
  rw [LoadsInLayers, LayersAgree, loadSettings]
  cases hread : readFile python path file with
  | error error => exact Iff.rfl
  | ok data =>
      dsimp only
      rw [ok_bind, loadMapping]
      cases hreadEnv : readEnv python environ with
      | error error =>
          have hunreadable : ¬ EnvReadable python environ := by
            rw [← exists_readEnv_iff, hreadEnv]
            rintro ⟨env, ⟨⟩⟩
          refine iff_of_false (fun h => ?_) fun h => hunreadable h.1
          cases (readEnv_error hreadEnv).symm.trans h
      | ok env =>
          have henv := nested_of_readEnv hreadEnv
          have hreadable : EnvReadable python environ := exists_readEnv_iff.1 ⟨env, hreadEnv⟩
          simp only [ok_bind, Except.ok.injEq, forall_eq', hreadable, true_and]
          cases hvalid : validateMerged validation path (mergeLayers data.1 env cli.members) with
          | error error =>
              change isConfigurationError error = true ↔ _
              rw [isConfigurationError_of_validateMerged hvalid]
              exact ⟨fun h => ⟨h, fun ⟨settings, hok⟩ => nomatch hok⟩, And.left⟩
          | ok settings =>
              have hvalidated := validate_of_validateMerged hvalid
              have hwritten : ErrorsWritten validation path
                  (mergeLayers data.1 env cli.members) :=
                fun _ hnone => by cases hvalidated.symm.trans hnone
              rw [forall_prop_of_true ⟨settings, rfl⟩, ← shapesAgree_iff henv cli.keyed, ok_bind,
                and_iff_right hwritten]
              cases hsources : trackSources (.obj data.1) env (.obj cli.members) with
              | error error =>
                  obtain rfl := trackSources_error hsources
                  exact iff_of_false nofun fun h => nomatch h.2
              | ok sources =>
                  constructor
                  · rintro ⟨_, _, rfl, rfl, -, hleaves, rfl⟩
                    exact ⟨hleaves, rfl⟩
                  · rintro ⟨hleaves, hnamed⟩
                    exact ⟨data, env, rfl, rfl, hvalidated, hleaves, Except.ok.inj hnamed⟩

end Loading

/-! ### The sections about providers -/

section Providers

variable {ρ : Type} (P : Pydantic) (rest : Members → Option ρ) (server : ρ → ServerBinding)
  (path : String)

/-- A validation that reads the sections about providers, and the others. -/
def validationOf : Validation (Settings × ρ) where
  validate merged := (validateSettings P merged).bind fun settings =>
    (rest merged).map (Prod.mk settings)
  toWording := P.toWording
  errors := P.errors
  server settings := server settings.2

/-- The other sections and the security check, for who reads the sections about providers alone. -/
def hostOf (env : Mapping) (host : Host) : Host where
  toPydantic := P
  environment := env.members
  distinct := env.keyed.distinct
  sectionDistinct := by
    unfold tableAt
    split
    · rename_i table htable
      exact (env.keyed.of_member? htable).distinct
    · exact List.nodup_nil
  sections merged :=
    match rest merged with
    | none => do throw (← translateValidationError (validationOf P rest server) path merged)
    | some others => validateSecurity (server others)
  dataDir := host.dataDir
  expanduser := host.expanduser
  mkdir := host.mkdir
  digest := host.digest
  isAlnum := host.isAlnum

/-- What is read of the providers by themselves is what is read of them with the other sections. -/
theorem loadSettings_hostOf (env : Mapping) (host : Host) (file : Members) :
    Configuration.loadSettings (hostOf P rest server path env host) path (some file) =
      (validateMerged (validationOf P rest server) path
        (mergeLayers file (.obj env.members) [])).map Prod.fst := by
  have hmerged : mergeLayers file (.obj env.members) [] = deepMerge file env.members := by
    simp [mergeLayers, membersOf, deepMerge]
  rw [Configuration.loadSettings, validateMerged, hmerged]
  dsimp only [Option.getD_some, hostOf]
  cases refuseBothProviderForms (deepMerge file env.members) path with
  | error error => rfl
  | ok checked =>
      rw [ok_bind, ok_bind]
      dsimp only [validationOf]
      dsimp only [translateValidationError]
      cases validateSettings P (deepMerge file env.members) with
      | none => cases P.translate path (P.errors (deepMerge file env.members)) <;> rfl
      | some settings =>
          cases rest (deepMerge file env.members) with
          | none => cases P.translate path (P.errors (deepMerge file env.members)) <;> rfl
          | some others =>
              dsimp only [Option.bind_some, Option.map_some]
              cases validateSecurity (server others) <;> rfl

end Providers

end LoadCoach.Configuration.Layering
