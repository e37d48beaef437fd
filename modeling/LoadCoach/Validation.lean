import LoadCoach.Foundations.Json

/-! # Which schemas the validator understands

`domain/validation.py`: a task's JSON Schema is checked by a validator that knows twenty keywords
and refuses a schema that uses any other (`_reject_unsupported`).  The refusal is an exception of
its own, `SchemaUnsupported`, and comes when an answer is validated: the schema is read from its
file without being looked at. -/

namespace LoadCoach

open Foundations

/-- Every keyword the validator understands. -/
def supportedSchemaKeywords : List String :=
  ["$schema", "$comment", "title", "description", "type", "properties", "required",
   "additionalProperties", "items", "enum", "const", "minimum", "maximum", "exclusiveMinimum",
   "exclusiveMaximum", "minLength", "maxLength", "minItems", "maxItems", "pattern"]

mutual

/-- Whether `_reject_unsupported` raises: only an object is looked at. -/
def rejectsSchema : Json → Bool
  | .obj members =>
      members.any (fun m => !supportedSchemaKeywords.contains m.1) || rejectsMembers members
  | _ => false

/-- Whether a keyword of a schema leads to one that is rejected. -/
def rejectsMembers : List (String × Json) → Bool
  | [] => false
  | (key, value) :: rest =>
      (if key = "properties" then rejectsProperties value
        else if key = "items" ∨ key = "additionalProperties" then rejectsSchema value
        else false) || rejectsMembers rest

/-- Whether the schema of a property is rejected. -/
def rejectsProperties : Json → Bool
  | .obj members => rejectsEach members
  | _ => false

/-- Whether a value of an object is a schema that is rejected. -/
def rejectsEach : List (String × Json) → Bool
  | [] => false
  | (_, value) :: rest => rejectsSchema value || rejectsEach rest

end

end LoadCoach
