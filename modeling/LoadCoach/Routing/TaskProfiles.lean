import Mathlib.Data.List.Dedup
import LoadCoach.Foundations.Binary64
import LoadCoach.Foundations.Exceptions
import LoadCoach.Foundations.Sorting
import LoadCoach.Foundations.Table
import LoadCoach.Foundations.Transition
import LoadCoach.Routing.Route

/-! # Importing task profiles

`domain/task_profile.py` checks every profile of a file, `services/task_profiles.py` writes the
checked ones into the table `task_profiles`, and `load_task_profile` of `services/routing.py` is
what a decision reads of it.  A version of a profile has one row, which every import of it rewrites,
and no row is ever deleted.

A file is accepted exactly when every profile of it is well formed.  Else the first that is not
decides: the refusal names it and its first problem, unless the file system raises at the path of
its schema, which the check lets through (`loadTaskProfiles_exact`).  After any run of imports a
task is routed under the profile that was imported last, among those that are enabled and were not
replaced under their own version since (`loadTaskProfile_run`).  A version that is disabled
therefore gives way to the one before it, unless that was disabled as well.

What reads a profile from its table, what knows the capabilities and what the file system says of a
schema reference is outside (`ProfileEnv`).  Weights are finite numbers, as in routing; they are
summed as the language sums floats. -/

namespace LoadCoach.Routing

open Foundations

/-! ### Checking a profile -/

/-- What a result is checked against. -/
structure TaskProfileValidation where
  requireValidJson : Bool := false
  requireSchema : Bool := false
  requiredFields : List String := []
  maxOutputChars : ℕ := 1000000

/-- A task profile as its table is read. -/
structure TaskProfile extends StoredTaskProfile where
  version : String
  description : String := ""
  jsonSchemaRef : Option String := none
  maxAttempts : ℕ := 1
  validation : TaskProfileValidation := {}

/-- What the check of a profile asks of others.  What looks at the file system may raise. -/
structure ProfileEnv where
  /-- `TaskProfile.model_validate`. -/
  modelValidate : String → Json → Except String TaskProfile
  isKnownCapability : String → Bool
  vocabularyVersion : String
  file : String
  /-- The schemas directory, resolved. -/
  schemasRoot : Except Raised String
  schemaPath : String → String
  /-- The path of a reference, resolved, lies below a root. -/
  insideSchemas : String → String → Except Raised Bool
  isSchemaFile : String → Except Raised Bool
  repr : String → String
  reprFloat : Binary64.Double → String

/-- `_WEIGHT_SUM_TOLERANCE`. -/
def weightSumTolerance : ℚ := Binary64.toDouble (1 / 1000000)

namespace TaskProfile

/-- The key of its row. -/
def key (profile : TaskProfile) : String × String := (profile.profileId, profile.version)

def weightSum (profile : TaskProfile) : Binary64.Double := Binary64.sum (profile.weights.map Prod.snd)

/-- The sum is not one, by more than the tolerance. -/
def sumsAmiss (profile : TaskProfile) : Bool :=
  match profile.weightSum with
  | .finite total => weightSumTolerance < |Binary64.toDouble (total - 1)|
  | .infinite _ => true

/-- The capabilities it names, in order. -/
def capabilities (profile : TaskProfile) : List String :=
  (profile.weights.map Prod.fst ++ profile.constraints.requiresCapabilities ++
    profile.constraints.minCapabilityScores.map Prod.fst).dedup.insertionSort (· ≤ ·)

/-- A reference that is there and not empty. -/
def refersToSchema (profile : TaskProfile) : Bool := profile.jsonSchemaRef.any (· ≠ "")

end TaskProfile

section Check

variable (env : ProfileEnv)

/-- What is wrong with a schema reference. -/
def schemaProblem (ref : String) : Except Raised (Option String) := do
  let root ← env.schemasRoot
  if !(← env.insideSchemas root ref) then
    return some (s!"execution.json_schema_ref {env.repr ref} resolves " ++
      s!"outside the schemas directory {root}")
  if !(← env.isSchemaFile ref) then
    return some (s!"execution.json_schema_ref {env.repr ref} does not exist " ++
      s!"at {env.schemaPath ref}")
  return none

/-- What `_validate_one` looks for, in order. -/
def TaskProfile.problems (profile : TaskProfile) : List (Except Raised (Option String)) :=
  [.ok (if profile.weights = [] then
      some "weights is empty; a profile must weight at least one capability"
    else none),
   .ok (if profile.sumsAmiss then
      some s!"weights sum to {env.reprFloat profile.weightSum}, not 1.0"
    else none),
   .ok ((profile.capabilities.find? fun capability => !env.isKnownCapability capability).map
      fun capability => s!"capability {env.repr capability} is not in the SetSpec vocabulary " ++
        s!"(version {env.vocabularyVersion})"),
   match profile.jsonSchemaRef with
    | some ref => schemaProblem env ref
    | none => .ok none,
   .ok (if profile.execution.responseFormat = "json_schema" ∧ profile.jsonSchemaRef = none then
      some "execution.response_format is 'json_schema' but json_schema_ref is unset"
    else none),
   .ok ((profile.execution.minOutputTokens.filter fun least =>
      profile.execution.maxOutputTokens < least).map
      fun least => s!"execution.min_output_tokens ({least}) exceeds " ++
        s!"max_output_tokens ({profile.execution.maxOutputTokens})"),
   .ok (if profile.validation.requireSchema = true ∧ profile.refersToSchema = false then
      some "validation.require_schema is set but execution.json_schema_ref is unset"
    else none)]

/-- The first problem of a list of checks, or what the first that raises raises. -/
def firstProblem : List (Except Raised (Option String)) → Except Raised (Option String)
  | [] => .ok none
  | .ok none :: checks => firstProblem checks
  | found :: _ => found

/-- The first thing it finds. -/
def TaskProfile.problem (profile : TaskProfile) : Except Raised (Option String) :=
  firstProblem (profile.problems env)

/-- `_fail`. -/
def taskProfileInvalid (profileId problem : String) : Raised :=
  .suite "TASK_PROFILE_INVALID"
    s!"Task profile {env.repr profileId} in {env.file} is invalid: {problem}"
    [("file", .str env.file), ("profile_id", .str profileId), ("problem", .str problem)]

/-- `_validate_one`. -/
def validateOne (profileId : String) (raw : Json) : Except Raised TaskProfile :=
  match env.modelValidate profileId raw with
  | .error problem => .error (taskProfileInvalid env profileId problem)
  | .ok profile =>
      match profile.problem env with
      | .error x => .error x
      | .ok (some problem) => .error (taskProfileInvalid env profileId problem)
      | .ok none => .ok profile

/-- `load_task_profiles`. -/
def loadTaskProfiles (tables : Members) : Except Raised (List TaskProfile) :=
  tables.mapM fun e => validateOne env e.1 e.2

/-- A schema reference that stays below the schemas directory and names a file there. -/
def SchemaFound (ref : String) : Prop :=
  ∃ root, env.schemasRoot = .ok root ∧ env.insideSchemas root ref = .ok true ∧
    env.isSchemaFile ref = .ok true

/-- A profile the check finds nothing wrong with. -/
structure TaskProfile.WellFormed (profile : TaskProfile) : Prop where
  weighted : profile.weights ≠ []
  sum : ∃ total, profile.weightSum = .finite total ∧
    |Binary64.toDouble (total - 1)| ≤ weightSumTolerance
  known : ∀ capability, capability ∈ profile.weights.map Prod.fst ∨
    capability ∈ profile.constraints.requiresCapabilities ∨
    capability ∈ profile.constraints.minCapabilityScores.map Prod.fst →
      env.isKnownCapability capability = true
  schema : ∀ ref ∈ profile.jsonSchemaRef, SchemaFound env ref
  formatted : profile.execution.responseFormat = "json_schema" → profile.jsonSchemaRef ≠ none
  output : ∀ least ∈ profile.execution.minOutputTokens, least ≤ profile.execution.maxOutputTokens
  validated : profile.validation.requireSchema = true → profile.refersToSchema = true

/-- What one table raises: its first problem by name, or what the file system said of its schema. -/
def Refusal (profileId : String) (raw : Json) (x : Raised) : Prop :=
  (∃ problem, env.modelValidate profileId raw = .error problem ∧
      x = taskProfileInvalid env profileId problem) ∨
    ∃ profile, env.modelValidate profileId raw = .ok profile ∧ ¬ profile.WellFormed env ∧
      ((∃ problem, profile.problem env = .ok (some problem) ∧
          x = taskProfileInvalid env profileId problem) ∨
        profile.problem env = .error x ∧
          ∃ ref, profile.jsonSchemaRef = some ref ∧ schemaProblem env ref = .error x)

variable {env} {profile : TaskProfile}

theorem firstProblem_eq_none_iff {checks : List (Except Raised (Option String))} :
    firstProblem checks = .ok none ↔ ∀ check ∈ checks, check = .ok none := by
  induction checks with
  | nil => simp [firstProblem]
  | cons check checks ih =>
      rw [List.forall_mem_cons, ← ih]
      rcases check with x | _ | problem <;> simp [firstProblem]

theorem mem_of_firstProblem_eq_error {checks : List (Except Raised (Option String))} {x : Raised}
    (h : firstProblem checks = .error x) : .error x ∈ checks := by
  induction checks with
  | nil => cases h
  | cons check checks ih =>
      rcases check with y | _ | problem
      · cases h
        exact List.mem_cons_self
      · exact List.mem_cons_of_mem _ (ih h)
      · cases h

theorem schemaProblem_eq_none_iff {ref : String} :
    schemaProblem env ref = .ok none ↔ SchemaFound env ref := by
  rw [schemaProblem, SchemaFound, bind_eq_ok]
  refine exists_congr fun root => and_congr_right fun _ => ?_
  cases env.insideSchemas root ref with
  | error x => simp [error_bind]
  | ok inside =>
      cases inside with
      | false => simp [pure, Except.pure]
      | true =>
          cases env.isSchemaFile ref with
          | error x => simp [error_bind]
          | ok file => cases file <;> simp [pure, Except.pure]

theorem TaskProfile.sumsAmiss_eq_false_iff : profile.sumsAmiss = false ↔
    ∃ total, profile.weightSum = .finite total ∧
      |Binary64.toDouble (total - 1)| ≤ weightSumTolerance := by
  rw [TaskProfile.sumsAmiss]
  cases profile.weightSum <;> simp

theorem TaskProfile.mem_capabilities {capability : String} : capability ∈ profile.capabilities ↔
    capability ∈ profile.weights.map Prod.fst ∨
      capability ∈ profile.constraints.requiresCapabilities ∨
      capability ∈ profile.constraints.minCapabilityScores.map Prod.fst := by
  rw [TaskProfile.capabilities, List.mem_insertionSort, List.mem_dedup, List.mem_append,
    List.mem_append, or_assoc]

/-- **The check is complete**: it finds nothing exactly in a well-formed profile. -/
theorem TaskProfile.problem_eq_none_iff :
    profile.problem env = .ok none ↔ profile.WellFormed env := by
  have hknown : (profile.capabilities.find? fun capability => !env.isKnownCapability capability) =
      none ↔ ∀ capability, capability ∈ profile.weights.map Prod.fst ∨
        capability ∈ profile.constraints.requiresCapabilities ∨
        capability ∈ profile.constraints.minCapabilityScores.map Prod.fst →
          env.isKnownCapability capability = true := by
    rw [List.find?_eq_none]
    refine forall_congr' fun capability => ?_
    rw [TaskProfile.mem_capabilities]
    simp
  have hschema : (match profile.jsonSchemaRef with
      | some ref => schemaProblem env ref
      | none => .ok none) = .ok none ↔ ∀ ref ∈ profile.jsonSchemaRef, SchemaFound env ref := by
    cases profile.jsonSchemaRef with
    | none => simp
    | some ref => simp [schemaProblem_eq_none_iff]
  have houtput : (profile.execution.minOutputTokens.filter fun least =>
      profile.execution.maxOutputTokens < least) = none ↔
      ∀ least ∈ profile.execution.minOutputTokens, least ≤ profile.execution.maxOutputTokens := by
    rw [Option.filter_eq_none_iff]
    refine forall₂_congr fun least _ => ?_
    rw [decide_eq_true_eq, not_lt]
  have hvalidated : ¬(profile.validation.requireSchema = true ∧ profile.refersToSchema = false) ↔
      (profile.validation.requireSchema = true → profile.refersToSchema = true) := by
    rw [not_and, Bool.not_eq_false]
  rw [TaskProfile.problem, firstProblem_eq_none_iff]
  simp only [TaskProfile.problems, List.forall_mem_cons, List.not_mem_nil, false_imp_iff,
    implies_true, and_true, Except.ok.injEq, ite_eq_right_iff, reduceCtorEq, imp_false,
    Option.map_eq_none_iff, Bool.not_eq_true, TaskProfile.sumsAmiss_eq_false_iff, hknown, hschema,
    houtput, hvalidated]
  constructor
  · rintro ⟨hweights, hsum, hknown, hschema, hformat, houtput, hvalidated⟩
    exact ⟨hweights, hsum, hknown, hschema, fun hjson href => hformat ⟨hjson, href⟩, houtput,
      hvalidated⟩
  · rintro ⟨hweights, hsum, hknown, hschema, hformat, houtput, hvalidated⟩
    exact ⟨hweights, hsum, hknown, hschema, fun hboth => hformat hboth.1 hboth.2, houtput,
      hvalidated⟩

/-- **Only the file system raises** in the check: at the path of the schema. -/
theorem TaskProfile.schema_of_problem_eq_error {x : Raised} (h : profile.problem env = .error x) :
    ∃ ref, profile.jsonSchemaRef = some ref ∧ schemaProblem env ref = .error x := by
  have hmem := mem_of_firstProblem_eq_error h
  simp only [TaskProfile.problems, List.mem_cons, reduceCtorEq, List.not_mem_nil, or_false,
    false_or] at hmem
  cases href : profile.jsonSchemaRef with
  | none =>
      rw [href] at hmem
      cases hmem
  | some ref =>
      rw [href] at hmem
      exact ⟨ref, rfl, hmem.symm⟩

theorem validateOne_eq_ok_iff {profileId : String} {raw : Json} :
    validateOne env profileId raw = .ok profile ↔
      env.modelValidate profileId raw = .ok profile ∧ profile.WellFormed env := by
  rw [validateOne]
  cases hread : env.modelValidate profileId raw with
  | error problem => simp
  | ok read =>
      simp only [Except.ok.injEq, ← TaskProfile.problem_eq_none_iff]
      rcases hproblem : read.problem env with x | _ | problem
      · simp only [reduceCtorEq, false_iff, not_and]
        rintro rfl
        simp [hproblem]
      · simp only [Except.ok.injEq]
        exact ⟨fun hsame => ⟨hsame, hsame ▸ hproblem⟩, And.left⟩
      · simp only [reduceCtorEq, false_iff, not_and]
        rintro rfl
        simp [hproblem]

theorem validateOne_eq_error_iff {profileId : String} {raw : Json} {x : Raised} :
    validateOne env profileId raw = .error x ↔ Refusal env profileId raw x := by
  rw [validateOne, Refusal]
  cases hread : env.modelValidate profileId raw with
  | error problem => simp [eq_comm]
  | ok read =>
      simp only [← TaskProfile.problem_eq_none_iff]
      rcases hproblem : read.problem env with y | _ | problem
      · have hschema := TaskProfile.schema_of_problem_eq_error hproblem
        simp only [Except.error.injEq, reduceCtorEq, false_and, exists_false, false_or,
          Except.ok.injEq, exists_eq_left', hproblem, not_false_eq_true, true_and]
        exact ⟨fun hsame => ⟨hsame, hsame ▸ hschema⟩, And.left⟩
      · simp [hproblem]
      · simp [hproblem, eq_comm]

theorem loadTaskProfiles_eq_ok_iff {tables : Members} {profiles : List TaskProfile} :
    loadTaskProfiles env tables = .ok profiles ↔
      List.Forall₂ (fun e profile => env.modelValidate e.1 e.2 = .ok profile ∧
        profile.WellFormed env) tables profiles := by
  rw [loadTaskProfiles, mapM_eq_ok_iff]
  simp only [validateOne_eq_ok_iff]

variable (env)

end Check

/-! ### The table -/

/-- A row of `task_profiles`. -/
structure TaskProfileRow where
  profile : TaskProfile
  createdAt : Instant
  updatedAt : Instant

/-- `task_profiles`, by identifier and version. -/
abbrev TaskProfileTable := Table (String × String) TaskProfileRow

/-- The row `_import_one` writes: it keeps the instant it was created at. -/
def importedRow (now : Instant) (profile : TaskProfile) (old : Option TaskProfileRow) :
    TaskProfileRow where
  profile
  createdAt := (old.map TaskProfileRow.createdAt).getD now
  updatedAt := now

/-- `import_task_profiles`. -/
def importTaskProfiles (profiles : List TaskProfile) (now : Instant) (table : TaskProfileTable) :
    TaskProfileTable :=
  profiles.foldl (fun table profile => table.upsert profile.key (importedRow now profile)) table

/-- `list_stored_task_profiles`: the row that was updated last comes first. -/
def listStoredTaskProfiles (table : TaskProfileTable) : List TaskProfileRow :=
  sortBy (fun row => -row.updatedAt) ((table.select fun _ _ => true).map Prod.snd)

/-- What routing reads of the table. -/
def RouterState.withProfiles (table : TaskProfileTable) (s : RouterState) : RouterState :=
  { s with taskProfiles :=
      (listStoredTaskProfiles table).map fun row => row.profile.toStoredTaskProfile }

/-! ### Runs -/

/-- A file that is imported, and when. -/
structure ProfileImport where
  tables : Members
  now : Instant

section Runs

variable (env : ProfileEnv)

namespace ProfileImport

/-- The profiles of a file; where one is refused, none is imported. -/
def profiles (file : ProfileImport) : List TaskProfile :=
  (loadTaskProfiles env file.tables).toOption.getD []

/-- What a file leaves under a key. -/
def imported (file : ProfileImport) (k : String × String) : Option TaskProfile :=
  (file.profiles env).reverse.find? fun profile => profile.key == k

end ProfileImport

/-- The table, from an empty one on. -/
def profileSystem : System TaskProfileTable ProfileImport :=
  .guarded (fun _ _ => True)
    (fun table file => importTaskProfiles (file.profiles env) file.now table) ∅

/-- A profile was imported at an instant, and its version has not been imported since. -/
def StandsAt (h : List (Step TaskProfileTable ProfileImport)) (profile : TaskProfile)
    (t : Instant) : Prop :=
  ∃ h₁ e h₂, h = h₁ ++ e :: h₂ ∧ e.act.imported env profile.key = some profile ∧ e.act.now = t ∧
    ∀ e' ∈ h₁, e'.act.imported env profile.key = none

variable {env} {h : List (Step TaskProfileTable ProfileImport)} {table : TaskProfileTable}
  {profile : TaskProfile} {t : Instant}

theorem standsAt_cons {e : Step TaskProfileTable ProfileImport} :
    StandsAt env (e :: h) profile t ↔
      (e.act.imported env profile.key = some profile ∧ e.act.now = t) ∨
        e.act.imported env profile.key = none ∧ StandsAt env h profile t := by
  constructor
  · rintro ⟨h₁, e', h₂, hsplit, hleft, hat, hsince⟩
    cases h₁ with
    | nil =>
        cases hsplit
        exact .inl ⟨hleft, hat⟩
    | cons e₁ h₁ =>
        cases hsplit
        exact .inr ⟨hsince e List.mem_cons_self, h₁, e', h₂, rfl, hleft, hat,
          fun e₂ he₂ => hsince e₂ (List.mem_cons_of_mem _ he₂)⟩
  · rintro (⟨hleft, hat⟩ | ⟨hother, h₁, e', h₂, rfl, hleft, hat, hsince⟩)
    · exact ⟨[], e, h, rfl, hleft, hat, by simp⟩
    · refine ⟨e :: h₁, e', h₂, rfl, hleft, hat, fun e₂ he₂ => ?_⟩
      rcases List.mem_cons.1 he₂ with rfl | he₂
      · exact hother
      · exact hsince e₂ he₂

theorem StandsAt.wellFormed (hstands : StandsAt env h profile t) : profile.WellFormed env := by
  obtain ⟨h₁, e, h₂, -, hleft, -⟩ := hstands
  have hmem : profile ∈ e.act.profiles env :=
    List.mem_reverse.1 (List.mem_of_find?_eq_some hleft)
  rw [ProfileImport.profiles] at hmem
  cases hload : loadTaskProfiles env e.act.tables with
  | error x =>
      rw [hload] at hmem
      cases hmem
  | ok profiles =>
      rw [hload] at hmem
      have hall := (loadTaskProfiles_eq_ok_iff.1 hload).imp fun _ _ => And.symm
      exact ((List.forall₂_and_left _ _).1 hall.flip).1 profile hmem

theorem importedRow_importedRow (now : Instant) (profile other : TaskProfile)
    (old : Option TaskProfileRow) :
    importedRow now profile (some (importedRow now other old)) = importedRow now profile old := rfl

/-- **One import, row by row**: the last profile of a key is the one that is left. -/
theorem lookup_importTaskProfiles (profiles : List TaskProfile) (now : Instant)
    (table : TaskProfileTable) (k : String × String) :
    (importTaskProfiles profiles now table).lookup k =
      ((profiles.reverse.find? fun profile => profile.key == k).map fun profile =>
        importedRow now profile (table.lookup k)).or (table.lookup k) := by
  induction profiles using List.reverseRecOn with
  | nil => rfl
  | append_singleton profiles profile ih =>
      have hlast : importTaskProfiles (profiles ++ [profile]) now table =
          (importTaskProfiles profiles now table).upsert profile.key (importedRow now profile) := by
        rw [importTaskProfiles, List.foldl_append]
        rfl
      rw [hlast, List.reverse_append, List.reverse_singleton, List.singleton_append,
        List.find?_cons]
      by_cases hkey : profile.key = k
      · subst hkey
        rw [Table.lookup_upsert_self, ih, beq_self_eq_true]
        cases profiles.reverse.find? fun other => other.key == profile.key <;> rfl
      · rw [Table.lookup_upsert_ne (Ne.symm hkey), ih, beq_false_of_ne hkey]

/-- **The rows are the imports that stand.** -/
theorem stored_iff (hrun : Run (profileSystem env) h table) (k : String × String)
    (profile : TaskProfile) (t : Instant) :
    (∃ row, table.lookup k = some row ∧ row.profile = profile ∧ row.updatedAt = t) ↔
      profile.key = k ∧ StandsAt env h profile t := by
  induction hrun generalizing profile t with
  | start hstart =>
      rw [show _ = (∅ : TaskProfileTable) from hstart]
      constructor
      · rintro ⟨row, hrow, -⟩
        cases hrow
      · rintro ⟨-, h₁, e, h₂, hsplit, -⟩
        cases h₁ <;> cases hsplit
  | @step h pre post file hpast hnext ih =>
      obtain ⟨-, rfl⟩ := hnext
      rw [standsAt_cons]
      dsimp only
      rw [lookup_importTaskProfiles, ← ProfileImport.imported]
      cases hleft : file.imported env k with
      | none =>
          rw [Option.map_none, Option.none_or, ih]
          refine and_congr_right ?_
          rintro rfl
          simp [hleft]
      | some other =>
          have hother : other.key = k := by simpa using List.find?_some hleft
          rw [Option.map_some, Option.some_or]
          constructor
          · rintro ⟨row, hrow, rfl, rfl⟩
            cases hrow
            exact ⟨hother, .inl ⟨hother.symm ▸ hleft, rfl⟩⟩
          · rintro ⟨rfl, ⟨hleft', hat⟩ | ⟨hnone, -⟩⟩
            · rw [hleft] at hleft'
              cases hleft'
              exact ⟨_, rfl, rfl, hat⟩
            · rw [hleft] at hnone
              cases hnone

theorem loadTaskProfile_withProfiles (s : RouterState) (table : TaskProfileTable) (task : String) :
    loadTaskProfile (s.withProfiles table) task =
      match (listStoredTaskProfiles table).find? fun row =>
        row.profile.profileId == task && row.profile.enabled with
      | some row => .ok row.profile.toStoredTaskProfile
      | none => .error (.suite "TASK_PROFILE_NOT_FOUND"
          s!"No enabled task profile '{task}' is registered." [("task_profile_id", .str task)]) := by
  rw [loadTaskProfile, RouterState.withProfiles, List.find?_map]
  simp only [Function.comp_def]
  cases (listStoredTaskProfiles table).find? fun row =>
    row.profile.profileId == task && row.profile.enabled <;> rfl

theorem mem_stored {row : TaskProfileRow} :
    row ∈ (table.select fun _ _ => true).map Prod.snd ↔ ∃ k, table.lookup k = some row := by
  simp [Table.mem_select]

theorem standsAt_of_lookup (hrun : Run (profileSystem env) h table) {k : String × String}
    {row : TaskProfileRow} (hrow : table.lookup k = some row) :
    StandsAt env h row.profile row.updatedAt :=
  ((stored_iff hrun k row.profile row.updatedAt).1 ⟨row, hrow, rfl, rfl⟩).2

/-- **What a task is routed under**, after any imports: of the profiles of that name that stand and
are enabled, one that no other was imported after; and it was checked.  Where none is enabled, none
is found. -/
theorem loadTaskProfile_run (hrun : Run (profileSystem env) h table) (s : RouterState)
    (task : String) :
    (∃ profile t, StandsAt env h profile t ∧ profile.profileId = task ∧ profile.enabled = true ∧
      profile.WellFormed env ∧
      loadTaskProfile (s.withProfiles table) task = .ok profile.toStoredTaskProfile ∧
      ∀ other t', StandsAt env h other t' → other.profileId = task → other.enabled = true →
        t' ≤ t) ∨
    (loadTaskProfile (s.withProfiles table) task = .error (.suite "TASK_PROFILE_NOT_FOUND"
        s!"No enabled task profile '{task}' is registered." [("task_profile_id", .str task)]) ∧
      ∀ other t, StandsAt env h other t → other.profileId = task → other.enabled = false) := by
  have hrow : ∀ other t, StandsAt env h other t → ∃ row,
      row ∈ (table.select fun _ _ => true).map Prod.snd ∧ row.profile = other ∧
        row.updatedAt = t := by
    intro other t hstands
    obtain ⟨row, hrow, hprofile, hat⟩ := (stored_iff hrun other.key other t).2 ⟨rfl, hstands⟩
    exact ⟨row, mem_stored.2 ⟨_, hrow⟩, hprofile, hat⟩
  rw [loadTaskProfile_withProfiles]
  cases hfound : (listStoredTaskProfiles table).find? fun row =>
      row.profile.profileId == task && row.profile.enabled with
  | none =>
      refine .inr ⟨rfl, ?_⟩
      intro other t hstands htask
      obtain ⟨row, hmem, rfl, -⟩ := hrow other t hstands
      have hlisted : row ∈ listStoredTaskProfiles table :=
        (List.perm_insertionSort _ _).mem_iff.2 hmem
      have hnot := List.find?_eq_none.1 hfound row hlisted
      simpa [htask] using hnot
  | some row =>
      obtain ⟨hmem, hmatch⟩ := mem_of_find?_sortBy hfound
      obtain ⟨k, hlookup⟩ := mem_stored.1 hmem
      have hstands := standsAt_of_lookup hrun hlookup
      rw [Bool.and_eq_true, beq_iff_eq] at hmatch
      refine .inl ⟨row.profile, row.updatedAt, hstands, hmatch.1, hmatch.2, hstands.wellFormed, rfl,
        ?_⟩
      intro other t' hother htask henabled
      obtain ⟨row', hmem', rfl, rfl⟩ := hrow other t' hother
      have hleast := le_of_find?_sortBy hfound hmem' (by simp [htask, henabled])
      exact neg_le_neg_iff.1 hleast

/-- A reader of versions. -/
def versionEnv : ProfileEnv where
  modelValidate profileId raw :=
    match raw.get? "version", raw.get? "enabled" with
    | some (.str version), some (.bool enabled) =>
        .ok { profileId, version, weights := [("general_chat", 1)], enabled }
    | _, _ => .error "Field required"
  isKnownCapability capability := capability == "general_chat"
  vocabularyVersion := "1"
  file := "task_profiles.toml"
  schemasRoot := .ok "/schemas"
  schemaPath ref := "/schemas/" ++ ref
  insideSchemas _ _ := .ok true
  isSchemaFile _ := .ok false
  repr text := s!"'{text}'"
  reprFloat _ := "1.0"

/-- The file that holds one version of the profile of a task. -/
def versionFile (version : String) (enabled : Bool) (now : Instant) : ProfileImport where
  tables := [("chat", .obj [("version", .str version), ("enabled", .bool enabled)])]
  now

/-- A second version is imported after the first, and then disabled. -/
def disabledAgain : List ProfileImport :=
  [versionFile "1" true 10, versionFile "2" true 20, versionFile "2" false 30]

theorem loadTaskProfile_run_disabledAgain :
    let after := fun table file =>
      importTaskProfiles (file.profiles versionEnv) file.now table
    let s : RouterState :=
      { taskProfiles := [], registry := { models := [] }, provider := {}, profileHash := fun _ => "" }
    ∃ profile t, StandsAt versionEnv (trace after ∅ disabledAgain) profile t ∧
      profile.WellFormed versionEnv ∧
      loadTaskProfile (s.withProfiles (disabledAgain.foldl after ∅)) "chat" =
        .ok profile.toStoredTaskProfile := by
  intro after s
  have hrun : Run (profileSystem versionEnv) (trace after ∅ disabledAgain)
      (disabledAgain.foldl after ∅) := .replay ⟨trivial, trivial, trivial, trivial⟩
  rcases loadTaskProfile_run hrun s "chat" with
    ⟨profile, t, hstands, -, -, hwell, hload, -⟩ | ⟨hload, -⟩
  · exact ⟨profile, t, hstands, hwell, hload⟩
  · have hfound : (loadTaskProfile (s.withProfiles (disabledAgain.foldl after ∅)) "chat").isOk =
        true := by decide +kernel
    rw [hload] at hfound
    cases hfound

end Runs

end LoadCoach.Routing
