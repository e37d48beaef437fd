import LoadCoach.Content.Checks
import LoadCoach.Foundations.Exceptions
import LoadCoach.Foundations.JsonSchema

/-! # The schema evaluator

`_type_matches` and `_check_node` of `domain/validation.py`: a value is checked against a schema
document as it was read, keyword by keyword, and every problem is listed with the path of the value
it was found at.  A value of the wrong type is looked at no further.  A keyword of a form the
evaluator does not expect raises where it is read.

The evaluator compares values with the equality of its own language, in which a boolean is a
number.  It descends into the properties and the items whose subschema is an object, and nowhere
else. -/

namespace LoadCoach

open Foundations Json JsonSchema

/-- What the evaluator calls: `repr`, and `re.search`, which raises for what is no pattern. -/
structure SchemaTools where
  repr : Json → String
  search : String → String → Except Raised Bool

/-- A path and what was found there. -/
abbrev Problem := String × String

/-! ### Values -/

/-- The equality of two values read from JSON: a boolean is one or zero. -/
def pyEqual : Json → Json → Bool := equalBy numberOf

/-- A value as a key of a dictionary read from JSON, which are texts; a list or a dictionary can be
no key at all. -/
def asKey : Json → Except Raised (Option String)
  | .arr _ | .obj _ => .error .typeError
  | value => .ok (text? value)

/-- `value in container`. -/
def pyIn (value : Json) : Json → Except Raised Bool
  | .arr items => .ok (items.any fun item => pyEqual value item)
  | .str s => (text? value).elim (.error .typeError) fun part =>
      .ok (s.toList.tails.any fun rest => part.toList.isPrefixOf rest)
  | .obj members => (asKey value).map fun key => key.any fun key => (member? key members).isSome
  | _ => .error .typeError

/-- `_TYPE_CHECKS`: the types that are checked by the class of a value. -/
def typeChecks : List (String × String) :=
  [("object", "dict"), ("array", "list"), ("string", "str"), ("boolean", "bool"),
   ("null", "NoneType")]

/-- `_type_matches`, for a type that is named. -/
def typeMatches (value : Json) (expected : String) : Bool :=
  if expected = "integer" then value.typeName == "int"
  else if expected = "number" then value.typeName == "int" || value.typeName == "float"
  else if expected = "boolean" then value.typeName == "bool"
  else match typeChecks.lookup expected with
    | none => false
    | some checker => value.typeName == checker

/-- `_type_matches`: what is no text names no type, and may not be looked up. -/
def matchesOption (value : Json) : Json → Except Raised Bool
  | .str expected => .ok (typeMatches value expected)
  | .arr _ | .obj _ => .error .typeError
  | _ => .ok false

/-- Whether a value is of one of some types. -/
def matchesAny (value : Json) : List Json → Except Raised Bool
  | [] => .ok false
  | option :: options => do
      match ← matchesOption value option with
      | true => pure true
      | false => matchesAny value options

/-- `'|'.join(options)`. -/
def joinedOptions : List Json → Except Raised (List String)
  | [] => .ok []
  | .str name :: options => (joinedOptions options).map (name :: ·)
  | _ :: _ => .error .typeError

/-- What iterating over a value gives. -/
def iterated : Json → Except Raised (List Json)
  | .str s => .ok (s.toList.map fun c => .str (String.ofList [c]))
  | .arr items => .ok items
  | .obj members => .ok (members.map fun m => .str m.1)
  | _ => .error .typeError

/-- The types of a `type` keyword: one that is named, or several. -/
def typeOptions : Json → Except Raised (List Json)
  | .str name => .ok [.str name]
  | expected => iterated expected

/-! ### The keywords -/

section Keywords

variable (tools : SchemaTools) (value : Json) (schema : Members) (path : String)

/-- The `type` keyword. -/
def typeProblem : Except Raised (Option Problem) :=
  match member? "type" schema with
  | none | some .null => .ok none
  | some expected => do
      let options ← typeOptions expected
      match ← matchesAny value options with
      | true => pure none
      | false => do
          let names ← joinedOptions options
          let expected := "|".intercalate names
          pure (some (path, s!"expected type {expected}, got {value.typeName}"))

/-- The `enum` keyword. -/
def enumProblems : Except Raised (List Problem) :=
  match member? "enum" schema with
  | none => .ok []
  | some options => do
      match ← pyIn value options with
      | true => pure []
      | false => pure [(path, s!"must be one of {tools.repr options}")]

/-- The `const` keyword. -/
def constProblems : List Problem :=
  match member? "const" schema with
  | none => []
  | some expected =>
      if pyEqual value expected then [] else [(path, s!"must equal {tools.repr expected}")]

/-- A keyword that is compared with a number: the problem if the comparison fails. -/
def numberProblems (key : String) (ok : Number → Bool) (wording : String → String) :
    Except Raised (List Problem) :=
  match member? key schema with
  | none => .ok []
  | some bound => match numberOf bound with
    | none => .error .typeError
    | some n => .ok (if ok n then [] else [(path, wording (tools.repr bound))])

/-- `minLength` and `minItems`. -/
def lowerProblems (key : String) (count : ℕ) (wording : String → String) :
    Except Raised (List Problem) :=
  numberProblems tools schema path key (fun bound => !(Number.int count).lt bound) wording

/-- `maxLength` and `maxItems`. -/
def upperProblems (key : String) (count : ℕ) (wording : String → String) :
    Except Raised (List Problem) :=
  numberProblems tools schema path key (fun bound => !bound.lt (.int count)) wording

/-- The `pattern` keyword. -/
def patternProblems (s : String) : Except Raised (List Problem) :=
  match member? "pattern" schema with
  | none => .ok []
  | some (.str pattern) => do
      let quoted := tools.repr (.str pattern)
      match ← tools.search pattern s with
      | true => pure []
      | false => pure [(path, s!"does not match {quoted}")]
  | some _ => .error .typeError

/-- The keywords of a text. -/
def textProblems (s : String) : Except Raised (List Problem) := do
  let short ← lowerProblems tools schema path "minLength" s.length fun n => s!"shorter than {n}"
  let long ← upperProblems tools schema path "maxLength" s.length fun n => s!"longer than {n}"
  let unmatched ← patternProblems tools schema path s
  pure (short ++ long ++ unmatched)

/-- The keywords of a number. -/
def rangeProblems (x : Number) : Except Raised (List Problem) := do
  let minimum ← numberProblems tools schema path "minimum" (fun bound => bound.le x)
    fun n => s!"below the minimum {n}"
  let maximum ← numberProblems tools schema path "maximum" (fun bound => x.le bound)
    fun n => s!"above the maximum {n}"
  let lower ← numberProblems tools schema path "exclusiveMinimum" (fun bound => bound.lt x)
    fun n => s!"not above the exclusive minimum {n}"
  let upper ← numberProblems tools schema path "exclusiveMaximum" (fun bound => x.lt bound)
    fun n => s!"not below the exclusive maximum {n}"
  pure (minimum ++ maximum ++ lower ++ upper)

/-- The keywords of a list. -/
def listProblems (items : List Json) : Except Raised (List Problem) := do
  let few ← lowerProblems tools schema path "minItems" items.length
    fun n => s!"fewer than {n} items"
  let many ← upperProblems tools schema path "maxItems" items.length
    fun n => s!"more than {n} items"
  pure (few ++ many)

/-- One name of `required`: a list or a dictionary can be no key. -/
def requiredProblem (members : Members) : Json → Except Raised (List Problem)
  | .str name => .ok (if (member? name members).isSome then []
      else [(s!"{path}.{name}", "required but missing")])
  | .arr _ | .obj _ => .error .typeError
  | name =>
      let printed := tools.repr name
      .ok [(s!"{path}.{printed}", "required but missing")]

/-- The problems of several parts, in their order. -/
def gathered : List (Except Raised (List Problem)) → Except Raised (List Problem)
  | [] => .ok []
  | part :: parts => do
      let problems ← part
      let rest ← gathered parts
      pure (problems ++ rest)

/-- The `required` keyword. -/
def requiredProblems (members : Members) : Except Raised (List Problem) :=
  match member? "required" schema with
  | none => .ok []
  | some names => do
      let names ← iterated names
      gathered (names.map (requiredProblem tools path members))

/-- `schema.get("properties", {})`, which is asked for its items in the end.  Before that a member
is looked for in it where no other member is allowed. -/
def schemaProperties (members : Members) : Except Raised Members :=
  match member? "properties" schema with
  | none => .ok []
  | some (.obj properties) => .ok properties
  | some (.str _) | some (.arr _) => .error .unexpected
  | some _ => match member? "additionalProperties" schema with
    | some (.bool false) => .error (if members.isEmpty then .unexpected else .typeError)
    | _ => .error .unexpected

/-- The keywords of a dictionary. -/
def memberProblems (members : Members) : Except Raised (List Problem) := do
  let missing ← requiredProblems tools schema path members
  let properties ← schemaProperties schema members
  let forbidden := match member? "additionalProperties" schema with
    | some (.bool false) =>
        (members.filter fun m => (member? m.1 properties).isNone).map fun m =>
          (s!"{path}.{m.1}", "not allowed by the schema")
    | _ => []
  pure (missing ++ forbidden)

/-- The keywords of a value of one type. -/
def typedProblems : Except Raised (List Problem) :=
  match value with
  | .str s => textProblems tools schema path s
  | .int n => rangeProblems tools schema path (.int n)
  | .float x => rangeProblems tools schema path (.ofFloat x)
  | .arr items => listProblems tools schema path items
  | .obj members => memberProblems tools schema path members
  | .null | .bool _ => .ok []

/-- Everything that is found at a value itself, once its type is right. -/
def ownProblems : Except Raised (List Problem) := do
  let unlisted ← enumProblems tools value schema path
  let typed ← typedProblems tools value schema path
  pure (unlisted ++ constProblems tools value schema path ++ typed)

/-- What the evaluator descends into: the items and the properties whose subschema is an object. -/
def children : List (Json × Members × String) :=
  match value with
  | .arr items => match member? "items" schema with
    | some (.obj sub) => items.zipIdx.map fun e => (e.1, sub, s!"{path}[{e.2}]")
    | _ => []
  | .obj members => match member? "properties" schema with
    | some (.obj properties) => properties.filterMap fun property => match property.2 with
      | .obj sub => (member? property.1 members).map fun child =>
          (child, sub, s!"{path}.{property.1}")
      | _ => none
    | _ => []
  | _ => []

end Keywords

/-! ### The recursion -/

theorem sizeOf_member? {key : String} {members : Members} {child : Json}
    (h : member? key members = some child) : sizeOf child < sizeOf (Json.obj members) := by
  obtain ⟨m, hm, rfl⟩ := Option.map_eq_some_iff.1 h
  have hmem := List.sizeOf_lt_of_mem (List.mem_of_find?_eq_some hm)
  obtain ⟨name, child⟩ := m
  simp only [Prod.mk.sizeOf_spec, Json.obj.sizeOf_spec] at hmem ⊢
  omega

theorem sizeOf_children {value : Json} {schema : Members} {path : String}
    {child : Json × Members × String} (h : child ∈ children value schema path) :
    sizeOf child.1 < sizeOf value := by
  unfold children at h
  split at h
  · rename_i items
    split at h
    · obtain ⟨⟨item, i⟩, hitem, rfl⟩ := List.mem_map.1 h
      have hmem : sizeOf item < sizeOf items :=
        List.sizeOf_lt_of_mem (List.fst_mem_of_mem_zipIdx hitem)
      simp only [Json.arr.sizeOf_spec]
      omega
    · cases h
  · split at h
    · obtain ⟨⟨name, sub⟩, -, hchild⟩ := List.mem_filterMap.1 h
      split at hchild
      · obtain ⟨child, hmember, rfl⟩ := Option.map_eq_some_iff.1 hchild
        exact sizeOf_member? hmember
      · cases hchild
    · cases h
  · cases h

/-- `_check_node`: a value, then what it holds. -/
def checkNode (tools : SchemaTools) (value : Json) (schema : Members) (path : String) :
    Except Raised (List Problem) := do
  match ← typeProblem value schema path with
  | some problem => pure [problem]
  | none =>
      let own ← ownProblems tools value schema path
      let below ← gathered ((children value schema path).attach.map fun child =>
        checkNode tools child.1.1 child.1.2.1 child.1.2.2)
      pure (own ++ below)
termination_by sizeOf value
decreasing_by exact sizeOf_children child.2

end LoadCoach
