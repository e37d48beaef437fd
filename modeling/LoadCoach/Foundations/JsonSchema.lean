import LoadCoach.Foundations.Number

/-! # JSON Schema

What a schema document of the 2020-12 dialect says of a value, for the keywords of its core and
validation vocabularies that bear on types, values, sizes and members.  A keyword asserts something
of the value itself (`Asserts`), or applies a subschema to an item or a member (`applied`); a value
is valid if everything that is asserted holds and everything that is applied is valid (`Valid`).

Two values are equal if they are of one type and of one content (`equal`): a boolean is no number,
and a number is what it is however it is written.  The regular expressions of `pattern` are a
parameter. -/

namespace Foundations

namespace Json

/-! ### Equality -/

/-- Scalars of one type and one content, with a reading of numbers. -/
def equalScalar (number : Json → Option Number) : Json → Json → Bool
  | .null, .null => true
  | .str a, .str b => a == b
  | .bool a, .bool b => a == b
  | a, b => match number a, number b with
    | some x, some y => x.same y
    | _, _ => false

mutual

/-- Equality that compares items in order and members by name. -/
def equalBy (number : Json → Option Number) : Json → Json → Bool
  | .arr a, .arr b => equalItems number a b
  | .obj a, .obj b => a.length == b.length && equalMembers number a b
  | a, b => equalScalar number a b

/-- Equal items in the same places. -/
def equalItems (number : Json → Option Number) : List Json → List Json → Bool
  | [], [] => true
  | a :: as, b :: bs => equalBy number a b && equalItems number as bs
  | _, _ => false

/-- Every member is found under its name with an equal value. -/
def equalMembers (number : Json → Option Number) : Members → Members → Bool
  | [], _ => true
  | (key, a) :: rest, b =>
      (match member? key b with
        | some other => equalBy number a other
        | none => false) && equalMembers number rest b

end

/-- The equality of JSON values. -/
def equal : Json → Json → Bool := equalBy number?

end Json

namespace JsonSchema

open Json

/-! ### Types -/

/-- Whether a value is of a type; every integer is a number, and so is a float. -/
def admits (type : String) : Json → Bool
  | .null => type == "null"
  | .bool _ => type == "boolean"
  | .str _ => type == "string"
  | .arr _ => type == "array"
  | .obj _ => type == "object"
  | .int _ => type == "number" || type == "integer"
  | .float x => type == "number" || type == "integer" && (Number.ofFloat x).integral

/-- The text a value is. -/
def text? : Json → Option String
  | .str s => some s
  | _ => none

/-- The items a value has. -/
def itemsOf : Json → List Json
  | .arr items => items
  | _ => []

/-- The types a `type` keyword names, one or several. -/
def typeNames : Json → List String
  | .str name => [name]
  | value => (itemsOf value).filterMap text?

/-! ### Keywords -/

/-- The number a keyword gives. -/
def numberAt (key : String) (schema : Members) : Option Number :=
  (member? key schema).bind number?

/-- The text a keyword gives. -/
def textAt (key : String) (schema : Members) : Option String :=
  (member? key schema).bind text?

/-- The names `required` lists. -/
def requiredNames (schema : Members) : List String :=
  ((member? "required" schema).map fun names => (itemsOf names).filterMap text?).getD []

/-- The subschemas `properties` names. -/
def propertiesOf (schema : Members) : Members :=
  match member? "properties" schema with
  | some (.obj properties) => properties
  | _ => []

/-- A count lies within the bounds two keywords give. -/
structure Counted (count : ℕ) (lower upper : String) (schema : Members) : Prop where
  lower : ∀ bound ∈ numberAt lower schema, bound.le (.int count) = true
  upper : ∀ bound ∈ numberAt upper schema, (Number.int count).le bound = true

/-- A number lies within the bounds of a schema. -/
structure Ranged (x : Number) (schema : Members) : Prop where
  minimum : ∀ bound ∈ numberAt "minimum" schema, bound.le x = true
  maximum : ∀ bound ∈ numberAt "maximum" schema, x.le bound = true
  exclusiveMinimum : ∀ bound ∈ numberAt "exclusiveMinimum" schema, bound.lt x = true
  exclusiveMaximum : ∀ bound ∈ numberAt "exclusiveMaximum" schema, x.lt bound = true

/-- The assertions that bear on values of one type only, and compare no two values. -/
structure Sized (value : Json) (schema : Members) : Prop where
  length : ∀ s, value = .str s → Counted s.length "minLength" "maxLength" schema
  range : ∀ x, value.number? = some x → Ranged x schema
  items : ∀ items, value = .arr items → Counted items.length "minItems" "maxItems" schema
  required : ∀ members, value = .obj members →
    ∀ name ∈ requiredNames schema, (member? name members).isSome = true

/-- Everything a schema asserts of a value itself. -/
structure Asserts (regex : String → String → Prop) (value : Json) (schema : Members) : Prop where
  type : ∀ t ∈ member? "type" schema, ∃ name ∈ typeNames t, admits name value = true
  enum : ∀ e ∈ member? "enum" schema, ∃ item ∈ itemsOf e, equal value item = true
  const : ∀ c ∈ member? "const" schema, equal value c = true
  pattern : ∀ s, value = .str s → ∀ p ∈ textAt "pattern" schema, regex p s
  sized : Sized value schema

/-! ### Subschemas -/

/-- `items` is applied to every item. -/
def itemPairs (value : Json) (schema : Members) : List (Json × Json) :=
  match member? "items" schema with
  | some sub => (itemsOf value).map fun item => (item, sub)
  | none => []

/-- The members of a value. -/
def membersOf : Json → Members
  | .obj members => members
  | _ => []

/-- The subschemas of `properties` are applied to the members they name. -/
def propertyPairs (value : Json) (schema : Members) : List (Json × Json) :=
  (propertiesOf schema).filterMap fun property =>
    (member? property.1 (membersOf value)).map fun child => (child, property.2)

/-- The members `properties` does not name. -/
def additionalMembers (value : Json) (schema : Members) : Members :=
  (membersOf value).filter fun m => !(propertiesOf schema).any fun property => property.1 == m.1

/-- `additionalProperties` is applied to them. -/
def additionalPairs (value : Json) (schema : Members) : List (Json × Json) :=
  match member? "additionalProperties" schema with
  | some sub => (additionalMembers value schema).map fun m => (m.2, sub)
  | none => []

/-- Everything a schema applies a subschema to. -/
def applied (value : Json) (schema : Members) : List (Json × Json) :=
  itemPairs value schema ++ propertyPairs value schema ++ additionalPairs value schema

/-- The subschemas of a schema. -/
def subschemas (schema : Members) : List Json :=
  (member? "items" schema).toList ++ (propertiesOf schema).map Prod.snd ++
    (member? "additionalProperties" schema).toList

theorem mem_subschemas_of_applied {value : Json} {schema : Members} {pair : Json × Json}
    (h : pair ∈ applied value schema) : pair.2 ∈ subschemas schema := by
  unfold applied at h
  unfold subschemas
  rcases List.mem_append.1 h with h | h
  · refine List.mem_append_left _ ?_
    rcases List.mem_append.1 h with h | h
    · refine List.mem_append_left _ ?_
      unfold itemPairs at h
      split at h
      · rename_i sub hsub
        obtain ⟨_, -, rfl⟩ := List.mem_map.1 h
        simpa using hsub
      · cases h
    · refine List.mem_append_right _ ?_
      obtain ⟨property, hproperty, h⟩ := List.mem_filterMap.1 h
      obtain ⟨_, -, rfl⟩ := Option.map_eq_some_iff.1 h
      exact List.mem_map_of_mem hproperty
  · refine List.mem_append_right _ ?_
    unfold additionalPairs at h
    split at h
    · rename_i sub hsub
      obtain ⟨_, -, rfl⟩ := List.mem_map.1 h
      simpa using hsub
    · cases h

/-! ### Validity -/

/-- **A value is valid under a schema.** -/
inductive Valid (regex : String → String → Prop) : Json → Json → Prop
  | always (value : Json) : Valid regex value (.bool true)
  | object {value : Json} {schema : Members} (asserts : Asserts regex value schema)
      (applied : ∀ pair ∈ applied value schema, Valid regex pair.1 pair.2) :
      Valid regex value (.obj schema)

variable {regex : String → String → Prop} {value : Json} {schema : Members}

theorem valid_obj_iff : Valid regex value (.obj schema) ↔
    Asserts regex value schema ∧ ∀ pair ∈ applied value schema, Valid regex pair.1 pair.2 := by
  constructor
  · rintro ⟨⟩
    exact ⟨‹_›, ‹_›⟩
  · rintro ⟨hasserts, happlied⟩
    exact .object hasserts happlied

theorem valid_bool_iff {b : Bool} : Valid regex value (.bool b) ↔ b = true := by
  constructor
  · rintro ⟨⟩
    rfl
  · rintro rfl
    exact .always value

/-! ### Schema documents -/

/-- The keywords of a schema have the forms the dialect gives them. -/
structure Formed (schema : Members) : Prop where
  type : ∀ t ∈ member? "type" schema,
    (∃ name, t = .str name) ∨ ∃ names : List String, t = .arr (names.map .str)
  enum : ∀ e ∈ member? "enum" schema, ∃ items, e = .arr items
  count : ∀ key ∈ ["minLength", "maxLength", "minItems", "maxItems"],
    ∀ v ∈ member? key schema, ∃ n, v.number? = some n ∧ n.integral = true
  bound : ∀ key ∈ ["minimum", "maximum", "exclusiveMinimum", "exclusiveMaximum"],
    ∀ v ∈ member? key schema, ∃ n, v.number? = some n
  pattern : ∀ p ∈ member? "pattern" schema, ∃ s, p = .str s
  required : ∀ r ∈ member? "required" schema, ∃ names : List String, r = .arr (names.map .str)
  properties : ∀ p ∈ member? "properties" schema, ∃ properties, p = .obj properties

/-- A document that is a schema: a boolean, or an object whose keywords have their forms and whose
subschemas are schemas. -/
inductive IsSchema : Json → Prop
  | bool (b : Bool) : IsSchema (.bool b)
  | object {schema : Members} (formed : Formed schema)
      (subschemas : ∀ sub ∈ subschemas schema, IsSchema sub) : IsSchema (.obj schema)

theorem IsSchema.formed (h : IsSchema (.obj schema)) : Formed schema := by
  cases h
  assumption

theorem IsSchema.applied (h : IsSchema (.obj schema)) {pair : Json × Json}
    (hpair : pair ∈ applied value schema) : IsSchema pair.2 := by
  cases h with
  | object _ hsub => exact hsub _ (mem_subschemas_of_applied hpair)

end JsonSchema

end Foundations
