import LoadCoach.Foundations.Exceptions
import LoadCoach.Validation
import LoadCoach.Values

/-! # The checks of an answer

`domain/validation.py`: what a task profile wants of an answer is checked kind by kind, JSON, its
schema, the fields it must have and its length, and every check leaves its result with a detail
of what failed (`validateOutput`).  The details quote the answer or name what is wrong with it;
`TextTools.Alike` says when two answers of one length leave the same
(`validateOutput_checks_eq_iff`). -/

namespace LoadCoach

open Foundations

/-! ### Checking an answer -/

/-- What the writers call: the hash of a text, `json.loads` with the text of its exception, what
`_check_node` finds wrong with a value, and `assemble_tool_calls`.  Nothing here depends on what
they answer. -/
structure TextTools where
  sha256 : String → String
  loads : String → Except String Json
  checkNode : Json → Members → Except Raised (List (String × String))
  assembleToolCalls : List Json → List Json

/-- One check's result. -/
structure ValidationCheck where
  kind : String
  passed : Bool
  detail : Members := []

/-- The checks of one answer. -/
structure ValidationOutcome where
  performed : Bool
  passed : Option Bool
  checks : List ValidationCheck
  parsed : Json := .null

/-- What a task profile wants of an answer; the schema is there when it is to be checked. -/
structure ValidationPolicy where
  requireValidJson : Bool := false
  schema : Option Members := none
  requiredFields : List String := []
  maxOutputChars : Option ℤ := none

/-- Whether the answer has to be JSON. -/
def ValidationPolicy.needsJson (policy : ValidationPolicy) : Bool :=
  policy.requireValidJson || policy.schema.isSome || !policy.requiredFields.isEmpty

/-- `text[:200]`. -/
def outputPrefix (text : String) : String := String.ofList (text.toList.take 200)

section Checks

variable (tools : TextTools)

/-- `validate_json`. -/
def validateJson (text : String) : ValidationCheck × Json :=
  match tools.loads text with
  | .error problem =>
      ({ kind := "json", passed := false
         detail := [("problem", .str problem), ("output_prefix", .str (outputPrefix text))] },
        .null)
  | .ok parsed => ({ kind := "json", passed := true }, parsed)

/-- One entry of `detail["fields"]`. -/
def problemJson (problem : String × String) : Json :=
  .obj [("path", .str problem.1), ("problem", .str problem.2)]

/-- `validate_schema`; the refusal of a schema is an exception of its own. -/
def validateSchema (parsed : Json) (schema : Members) : Except Raised ValidationCheck :=
  if rejectsSchema (.obj schema) then .error .unexpected
  else (tools.checkNode parsed schema).map fun problems =>
    if problems.isEmpty then { kind := "json_schema", passed := true }
    else { kind := "json_schema", passed := false
           detail := [("fields", .arr (problems.map problemJson))] }

/-- The required fields an answer lacks, or its type when it is no object. -/
def missingFields (fields : List String) : Json → Except String (List String)
  | .obj members => .ok (fields.filter fun name => !members.any fun m => m.1 == name)
  | parsed => .error parsed.typeName

/-- `validate_required_fields`. -/
def validateRequiredFields (parsed : Json) (fields : List String) : ValidationCheck :=
  match missingFields fields parsed with
  | .error type =>
      { kind := "required_fields", passed := false
        detail := [("problem", .str s!"output is {type}, not an object")] }
  | .ok missing =>
      if missing.isEmpty then { kind := "required_fields", passed := true }
      else { kind := "required_fields", passed := false
             detail := [("missing", .arr (missing.map .str))] }

/-- `validate_length`. -/
def validateLength (text : String) (maximumChars : ℤ) : ValidationCheck :=
  if maximumChars < text.length then
    { kind := "length", passed := false
      detail := [("chars", .int text.length), ("max_output_chars", .int maximumChars)] }
  else { kind := "length", passed := true }

/-- The checks of parsed JSON. -/
def checkParsed (policy : ValidationPolicy) (parsed : Json) :
    Except Raised (List ValidationCheck) := do
  let schema ← match policy.schema with
    | none => pure []
    | some schema => do pure [← validateSchema tools parsed schema]
  pure (schema ++ if policy.requiredFields.isEmpty then []
    else [validateRequiredFields parsed policy.requiredFields])

/-- The checks that need JSON; what depends on the parsed value is skipped when there is none. -/
def checkJson (policy : ValidationPolicy) (text : String) :
    Except Raised (List ValidationCheck × Json) :=
  let (check, parsed) := validateJson tools text
  if check.passed then
    (checkParsed tools policy parsed).map fun checks => (check :: checks, parsed)
  else .ok ([check], parsed)

/-- `validate_output`, which an execution calls without a pattern. -/
def validateOutput (policy : ValidationPolicy) (text : String) :
    Except Raised ValidationOutcome :=
  (if policy.needsJson then checkJson tools policy text else .ok ([], .null)).map fun found =>
    let checks := found.1 ++ (policy.maxOutputChars.map (validateLength text)).toList
    if checks.isEmpty then { performed := false, passed := none, checks := [] }
    else { performed := true, passed := some (checks.all (·.passed)), checks, parsed := found.2 }

end Checks

/-! ### What the checks tell -/

section Alike

variable (tools : TextTools)

/-- Two answers the checks of a policy cannot tell apart: neither is JSON, for the same reason and
with the same first 200 characters, or both are, and the schema finds the same wrong with them
and they lack the same fields. -/
def TextTools.Alike (policy : ValidationPolicy) (text text' : String) : Prop :=
  policy.needsJson = true →
    match tools.loads text, tools.loads text' with
    | .error problem, .error problem' =>
        problem = problem' ∧ outputPrefix text = outputPrefix text'
    | .ok parsed, .ok parsed' =>
        (∀ schema ∈ policy.schema, tools.checkNode parsed schema = tools.checkNode parsed' schema) ∧
          (policy.requiredFields ≠ [] →
            missingFields policy.requiredFields parsed =
              missingFields policy.requiredFields parsed')
    | _, _ => False

variable {tools} {policy : ValidationPolicy} {parsed parsed' : Json}

theorem problemJson_injective : Function.Injective problemJson := by
  rintro ⟨path, problem⟩ ⟨path', problem'⟩ h
  simp only [problemJson, Json.obj.injEq, List.cons.injEq, Prod.mk.injEq, Json.str.injEq,
    true_and, and_true] at h
  exact Prod.ext h.1 h.2

theorem str_injective : Function.Injective Json.str := fun _ _ h => Json.str.inj h

theorem validateSchema_eq_iff {schema : Members} {check check' : ValidationCheck}
    (h : validateSchema tools parsed schema = .ok check)
    (h' : validateSchema tools parsed' schema = .ok check') :
    check = check' ↔ tools.checkNode parsed schema = tools.checkNode parsed' schema := by
  unfold validateSchema at h h'
  by_cases hrejects : rejectsSchema (.obj schema) = true
  · rw [if_pos hrejects] at h
    cases h
  · rw [if_neg hrejects] at h h'
    obtain ⟨problems, hproblems, rfl⟩ := map_eq_ok.1 h
    obtain ⟨problems', hproblems', rfl⟩ := map_eq_ok.1 h'
    rw [hproblems, hproblems', Except.ok.injEq]
    constructor
    · intro heq
      cases problems <;> cases problems' <;>
        simp_all [problemJson_injective.eq_iff, (List.map_injective_iff.2
          problemJson_injective).eq_iff]
    · rintro rfl
      rfl

theorem validateRequiredFields_eq_iff {fields : List String} :
    validateRequiredFields parsed fields = validateRequiredFields parsed' fields ↔
      missingFields fields parsed = missingFields fields parsed' := by
  constructor
  · intro h
    unfold validateRequiredFields at h
    cases hmissing : missingFields fields parsed with
    | error type =>
        cases hmissing' : missingFields fields parsed' with
        | error type' =>
            have htype : toString type = toString type' := by
              simpa [hmissing, hmissing', String.append_left_inj, String.append_right_inj] using h
            exact congrArg Except.error htype
        | ok missing' => cases missing' <;> simp [hmissing, hmissing'] at h
    | ok missing =>
        cases hmissing' : missingFields fields parsed' with
        | error type' => cases missing <;> simp [hmissing, hmissing'] at h
        | ok missing' =>
            cases missing <;> cases missing' <;>
              simp_all [(List.map_injective_iff.2 str_injective).eq_iff]
  · intro h
    rw [validateRequiredFields, validateRequiredFields, h]

theorem checkParsed_eq_iff {checks checks' : List ValidationCheck}
    (h : checkParsed tools policy parsed = .ok checks)
    (h' : checkParsed tools policy parsed' = .ok checks') :
    checks = checks' ↔
      (∀ schema ∈ policy.schema,
        tools.checkNode parsed schema = tools.checkNode parsed' schema) ∧
        (policy.requiredFields ≠ [] →
          missingFields policy.requiredFields parsed =
            missingFields policy.requiredFields parsed') := by
  unfold checkParsed at h h'
  rw [← validateRequiredFields_eq_iff]
  cases hschema : policy.schema with
  | none =>
      simp only [hschema] at h h'
      cases h
      cases h'
      cases hfields : policy.requiredFields <;> simp
  | some schema =>
      simp only [hschema] at h h'
      obtain ⟨check, hcheck, hchecks⟩ := bind_eq_ok.1 h
      obtain ⟨check', hcheck', hchecks'⟩ := bind_eq_ok.1 h'
      cases hchecks
      cases hchecks'
      have hiff := validateSchema_eq_iff hcheck hcheck'
      cases hfields : policy.requiredFields <;> simp [hiff]

variable {text text' : String}

theorem checkJson_of_error {problem : String} (h : tools.loads text = .error problem) :
    checkJson tools policy text =
      .ok ([{ kind := "json", passed := false
              detail := [("problem", .str problem), ("output_prefix", .str (outputPrefix text))] }],
        .null) := by
  simp [checkJson, validateJson, h]

theorem checkJson_of_ok (h : tools.loads text = .ok parsed) :
    checkJson tools policy text = (checkParsed tools policy parsed).map fun checks =>
      ({ kind := "json", passed := true } :: checks, parsed) := by
  simp [checkJson, validateJson, h]

theorem checkJson_eq_iff {found found' : List ValidationCheck × Json}
    (hneeds : policy.needsJson = true) (h : checkJson tools policy text = .ok found)
    (h' : checkJson tools policy text' = .ok found') :
    found.1 = found'.1 ↔ tools.Alike policy text text' := by
  simp only [TextTools.Alike, hneeds, true_implies]
  cases hloads : tools.loads text with
  | error problem =>
      rw [checkJson_of_error hloads] at h
      cases h
      cases hloads' : tools.loads text' with
      | error problem' =>
          rw [checkJson_of_error hloads'] at h'
          cases h'
          simp
      | ok parsed' =>
          rw [checkJson_of_ok hloads'] at h'
          obtain ⟨checks', -, rfl⟩ := map_eq_ok.1 h'
          simp
  | ok parsed =>
      rw [checkJson_of_ok hloads] at h
      obtain ⟨checks, hchecks, rfl⟩ := map_eq_ok.1 h
      cases hloads' : tools.loads text' with
      | error problem' =>
          rw [checkJson_of_error hloads'] at h'
          cases h'
          simp
      | ok parsed' =>
          rw [checkJson_of_ok hloads'] at h'
          obtain ⟨checks', hchecks', rfl⟩ := map_eq_ok.1 h'
          simpa using checkParsed_eq_iff hchecks hchecks'

theorem validateOutput_eq_ok {outcome : ValidationOutcome}
    (h : validateOutput tools policy text = .ok outcome) :
    outcome.performed = !outcome.checks.isEmpty ∧
      outcome.passed = (if outcome.checks.isEmpty then none
        else some (outcome.checks.all (·.passed))) ∧
      ∃ found : List ValidationCheck × Json,
        (if policy.needsJson then checkJson tools policy text else .ok ([], .null)) = .ok found ∧
        outcome.checks =
          found.1 ++ (policy.maxOutputChars.map (validateLength text)).toList := by
  obtain ⟨found, hfound, houtcome⟩ := map_eq_ok.1 h
  by_cases hempty : (found.1 ++ (policy.maxOutputChars.map (validateLength text)).toList).isEmpty
  · simp only [if_pos hempty] at houtcome
    subst houtcome
    exact ⟨rfl, rfl, found, hfound, (List.isEmpty_iff.1 hempty).symm⟩
  · simp only [if_neg hempty] at houtcome
    subst houtcome
    simp only [hempty]
    exact ⟨rfl, rfl, found, hfound, rfl⟩

/-- **What the checks tell** of two answers of one length. -/
theorem validateOutput_checks_eq_iff {outcome outcome' : ValidationOutcome}
    (hlength : text.length = text'.length) (h : validateOutput tools policy text = .ok outcome)
    (h' : validateOutput tools policy text' = .ok outcome') :
    outcome.checks = outcome'.checks ↔ tools.Alike policy text text' := by
  obtain ⟨-, -, found, hfound, hchecks⟩ := validateOutput_eq_ok h
  obtain ⟨-, -, found', hfound', hchecks'⟩ := validateOutput_eq_ok h'
  have hsame : validateLength text = validateLength text' := by
    funext maximum
    simp [validateLength, hlength]
  rw [hchecks, hchecks', hsame, List.append_left_inj]
  by_cases hneeds : policy.needsJson = true
  · rw [if_pos hneeds] at hfound hfound'
    exact checkJson_eq_iff hneeds hfound hfound'
  · rw [if_neg hneeds] at hfound hfound'
    cases hfound
    cases hfound'
    simp [TextTools.Alike, hneeds]

end Alike

end LoadCoach
