import Mathlib.Logic.Relation
import LoadCoach.Content.Schema

/-! # What the schema evaluator says of a value

The evaluator against the meaning of the schema.  Both look at a value and at what it holds, one
node at a time, and on most keywords they agree.  They part in two ways:

* at some nodes the evaluator is stricter (`Stricter`): a float is no integer to it, whatever its
  value is, and its regular expressions are not those of the schema;
* at others it overlooks something (`Overlooks`): a boolean passes for the number it is equal to in
  an `enum` or a `const`, a boolean subschema is read by nobody, and `additionalProperties` only
  where it is `false`.

`validates_iff_valid_iff` says from this exactly when the evaluator passes the values
that are valid. -/

namespace LoadCoach

open Foundations Json JsonSchema

/-! ### Parts of a program -/

theorem gathered_eq_nil {parts : List (Except Raised (List Problem))} :
    gathered parts = .ok [] ↔ ∀ part ∈ parts, part = .ok [] := by
  induction parts with
  | nil => simp [gathered]
  | cons part parts ih =>
      rw [gathered, List.forall_mem_cons, ← ih]
      simp only [bind_eq_ok, pure_eq_ok, List.append_eq_nil_iff]
      constructor
      · rintro ⟨_, hpart, _, hrest, rfl, rfl⟩
        exact ⟨hpart, hrest⟩
      · rintro ⟨hpart, hrest⟩
        exact ⟨_, hpart, _, hrest, rfl, rfl⟩

theorem append_eq_nil {x y : Except Raised (List Problem)} :
    (x >>= fun a => y >>= fun b => pure (a ++ b)) = .ok [] ↔ x = .ok [] ∧ y = .ok [] := by
  simp only [bind_eq_ok, pure_eq_ok, List.append_eq_nil_iff]
  constructor
  · rintro ⟨_, hx, _, hy, rfl, rfl⟩
    exact ⟨hx, hy⟩
  · rintro ⟨hx, hy⟩
    exact ⟨_, hx, _, hy, rfl, rfl⟩

/-! ### The keywords -/

section Keywords

variable {tools : SchemaTools} {regex : String → String → Prop} {value : Json} {schema : Members}
  {path : String}

theorem numberOf_of_number? {v : Json} {n : Number} (h : v.number? = some n) :
    v.numberOf = some n := by
  cases v with
  | bool b => cases h
  | null | int n | float x | str s | arr items | obj members => exact h

theorem numberProblems_eq_nil {key : String} {ok : Number → Bool} {wording : String → String}
    (hformed : ∀ v ∈ member? key schema, ∃ n, v.number? = some n) :
    numberProblems tools schema path key ok wording = .ok [] ↔
      ∀ bound ∈ numberAt key schema, ok bound = true := by
  unfold numberProblems numberAt
  cases hmember : member? key schema with
  | none => simp
  | some v =>
      obtain ⟨n, hn⟩ := hformed v hmember
      simp only [numberOf_of_number? hn, Option.bind_some, hn, Option.mem_some, forall_eq']
      cases ok n <;> simp

theorem counted_iff {count : ℕ} {lower upper : String} {short long : String → String}
    (hlower : ∀ v ∈ member? lower schema, ∃ n, v.number? = some n ∧ n.integral = true)
    (hupper : ∀ v ∈ member? upper schema, ∃ n, v.number? = some n ∧ n.integral = true) :
    (lowerProblems tools schema path lower count short = .ok [] ∧
      upperProblems tools schema path upper count long = .ok []) ↔
        Counted count lower upper schema := by
  have hnumber : ∀ {key}, (∀ v ∈ member? key schema, ∃ n, v.number? = some n ∧
      n.integral = true) → ∀ bound ∈ numberAt key schema, bound ≠ .nan := by
    intro key hformed bound hbound
    obtain ⟨v, hv, hn⟩ := Option.bind_eq_some_iff.1 hbound
    obtain ⟨n, hn', hintegral⟩ := hformed v hv
    cases hn.symm.trans hn'
    exact Number.ne_nan_of_integral hintegral
  have hint : Number.int count ≠ .nan := by simp
  have hbelow : ∀ bound ∈ numberAt lower schema,
      (!(Number.int count).lt bound) = bound.le (.int count) :=
    fun bound hbound => Number.not_lt_eq_le hint (hnumber hlower bound hbound)
  have habove : ∀ bound ∈ numberAt upper schema,
      (!bound.lt (.int count)) = (Number.int count).le bound :=
    fun bound hbound => Number.not_lt_eq_le (hnumber hupper bound hbound) hint
  unfold lowerProblems upperProblems
  rw [numberProblems_eq_nil fun v hv => (hlower v hv).imp fun _ h => h.1,
    numberProblems_eq_nil fun v hv => (hupper v hv).imp fun _ h => h.1]
  constructor
  · rintro ⟨hmin, hmax⟩
    exact ⟨fun bound hbound => hbelow bound hbound ▸ hmin bound hbound,
      fun bound hbound => habove bound hbound ▸ hmax bound hbound⟩
  · rintro ⟨hmin, hmax⟩
    exact ⟨fun bound hbound => (hbelow bound hbound).trans (hmin bound hbound),
      fun bound hbound => (habove bound hbound).trans (hmax bound hbound)⟩

theorem patternProblems_eq_nil (path : String) (hformed : Formed schema) {s : String} :
    patternProblems tools schema path s = .ok [] ↔
      ∀ p ∈ textAt "pattern" schema, tools.search p s = .ok true := by
  unfold patternProblems textAt
  cases hmember : member? "pattern" schema with
  | none => simp
  | some v =>
      obtain ⟨p, rfl⟩ := hformed.pattern v hmember
      simp only [Option.bind_some, text?, Option.mem_some, forall_eq']
      cases tools.search p s with
      | error x => simp [bind, Except.bind]
      | ok found => cases found <;> simp [pure, Except.pure]

theorem textProblems_eq_nil (hformed : Formed schema) {s : String} :
    textProblems tools schema path s = .ok [] ↔
      Counted s.length "minLength" "maxLength" schema ∧
        ∀ p ∈ textAt "pattern" schema, tools.search p s = .ok true := by
  rw [← patternProblems_eq_nil path hformed, ← counted_iff
    (hformed.count "minLength" (by simp)) (hformed.count "maxLength" (by simp))]
  unfold textProblems
  simp only [bind_eq_ok, pure_eq_ok, List.append_eq_nil_iff]
  constructor
  · rintro ⟨_, hmin, _, hmax, _, hpattern, ⟨rfl, rfl⟩, rfl⟩
    exact ⟨⟨hmin, hmax⟩, hpattern⟩
  · rintro ⟨⟨hmin, hmax⟩, hpattern⟩
    exact ⟨_, hmin, _, hmax, _, hpattern, ⟨rfl, rfl⟩, rfl⟩

theorem rangeProblems_eq_nil (hformed : Formed schema) {x : Number} :
    rangeProblems tools schema path x = .ok [] ↔ Ranged x schema := by
  have hkey := hformed.bound
  unfold rangeProblems
  simp only [bind_eq_ok, pure_eq_ok, List.append_eq_nil_iff]
  constructor
  · rintro ⟨_, hmin, _, hmax, _, hlower, _, hupper, ⟨⟨rfl, rfl⟩, rfl⟩, rfl⟩
    exact ⟨(numberProblems_eq_nil (hkey _ (by simp))).1 hmin,
      (numberProblems_eq_nil (hkey _ (by simp))).1 hmax,
      (numberProblems_eq_nil (hkey _ (by simp))).1 hlower,
      (numberProblems_eq_nil (hkey _ (by simp))).1 hupper⟩
  · rintro ⟨hmin, hmax, hlower, hupper⟩
    exact ⟨_, (numberProblems_eq_nil (hkey _ (by simp))).2 hmin,
      _, (numberProblems_eq_nil (hkey _ (by simp))).2 hmax,
      _, (numberProblems_eq_nil (hkey _ (by simp))).2 hlower,
      _, (numberProblems_eq_nil (hkey _ (by simp))).2 hupper, ⟨⟨rfl, rfl⟩, rfl⟩, rfl⟩

theorem listProblems_eq_nil (hformed : Formed schema) {items : List Json} :
    listProblems tools schema path items = .ok [] ↔
      Counted items.length "minItems" "maxItems" schema := by
  rw [← counted_iff (hformed.count "minItems" (by simp)) (hformed.count "maxItems" (by simp))]
  exact append_eq_nil

theorem filterMap_text (names : List String) :
    (names.map Json.str).filterMap text? = names := by
  induction names with
  | nil => rfl
  | cons name names ih => rw [List.map_cons, List.filterMap_cons, ih]; rfl

theorem requiredProblems_eq_nil (tools : SchemaTools) (path : String) (hformed : Formed schema)
    {members : Members} :
    requiredProblems tools schema path members = .ok [] ↔
      ∀ name ∈ requiredNames schema, (member? name members).isSome = true := by
  unfold requiredProblems requiredNames
  cases hmember : member? "required" schema with
  | none => simp
  | some r =>
      obtain ⟨names, rfl⟩ := hformed.required r hmember
      simp only [iterated, ok_bind, gathered_eq_nil, Option.map_some, Option.getD_some, itemsOf,
        filterMap_text, List.forall_mem_map]
      refine forall₂_congr fun name _ => ?_
      rw [requiredProblem]
      cases (member? name members).isSome <;> simp

theorem isNone_member? (key : String) (members : Members) :
    (member? key members).isNone = !members.any fun m => m.1 == key := by
  induction members with
  | nil => rfl
  | cons m members ih =>
      unfold member? at ih ⊢
      rw [List.find?_cons, List.any_cons]
      cases m.1 == key with
      | true => rfl
      | false => simpa using ih

/-- No member is left over where none is allowed. -/
def Closed (value : Json) (schema : Members) : Prop :=
  member? "additionalProperties" schema = some (.bool false) → additionalMembers value schema = []

theorem schemaProperties_eq (hformed : Formed schema) (members : Members) :
    schemaProperties schema members = .ok (propertiesOf schema) := by
  unfold schemaProperties propertiesOf
  cases hmember : member? "properties" schema with
  | none => rfl
  | some p =>
      obtain ⟨properties, rfl⟩ := hformed.properties p hmember
      rfl

theorem memberProblems_eq_nil (hformed : Formed schema) {members : Members} :
    memberProblems tools schema path members = .ok [] ↔
      (∀ name ∈ requiredNames schema, (member? name members).isSome = true) ∧
        Closed (.obj members) schema := by
  rw [← requiredProblems_eq_nil tools path hformed]
  unfold memberProblems Closed additionalMembers membersOf
  rw [schemaProperties_eq hformed]
  simp only [ok_bind, isNone_member?, bind_eq_ok, pure_eq_ok, List.append_eq_nil_iff]
  split
  · rename_i hforbids
    simp only [hforbids, List.map_eq_nil_iff, forall_const]
    constructor
    · rintro ⟨_, hrequired, rfl, hnone⟩
      exact ⟨hrequired, hnone⟩
    · rintro ⟨hrequired, hnone⟩
      exact ⟨_, hrequired, rfl, hnone⟩
  · rename_i hother
    constructor
    · rintro ⟨_, hrequired, rfl, -⟩
      exact ⟨hrequired, fun h => absurd h hother⟩
    · rintro ⟨hrequired, -⟩
      exact ⟨_, hrequired, rfl, rfl⟩

theorem typedProblems_eq_nil (hformed : Formed schema) :
    typedProblems tools value schema path = .ok [] ↔
      Sized value schema ∧
        (∀ s, value = .str s → ∀ p ∈ textAt "pattern" schema, tools.search p s = .ok true) ∧
        Closed value schema := by
  have hclosed : membersOf value = [] → Closed value schema := by
    intro hmembers _
    rw [additionalMembers, hmembers]
    rfl
  unfold typedProblems
  cases value with
  | null | bool b =>
      exact iff_of_true rfl ⟨⟨nofun, nofun, nofun, nofun⟩, nofun, hclosed rfl⟩
  | int n =>
      rw [rangeProblems_eq_nil hformed]
      constructor
      · intro h
        refine ⟨⟨nofun, ?_, nofun, nofun⟩, nofun, hclosed rfl⟩
        rintro _ ⟨⟩
        exact h
      · rintro ⟨h, -⟩
        exact h.range _ rfl
  | float x =>
      rw [rangeProblems_eq_nil hformed]
      constructor
      · intro h
        refine ⟨⟨nofun, ?_, nofun, nofun⟩, nofun, hclosed rfl⟩
        rintro _ ⟨⟩
        exact h
      · rintro ⟨h, -⟩
        exact h.range _ rfl
  | str s =>
      rw [textProblems_eq_nil hformed]
      constructor
      · rintro ⟨hcount, hpattern⟩
        refine ⟨⟨?_, nofun, nofun, nofun⟩, ?_, hclosed rfl⟩
        · rintro _ ⟨⟩
          exact hcount
        · rintro _ ⟨⟩
          exact hpattern
      · rintro ⟨hsized, hpattern, -⟩
        exact ⟨hsized.length s rfl, hpattern s rfl⟩
  | arr items =>
      rw [listProblems_eq_nil hformed]
      constructor
      · intro h
        refine ⟨⟨nofun, nofun, ?_, nofun⟩, nofun, hclosed rfl⟩
        rintro _ ⟨⟩
        exact h
      · rintro ⟨h, -⟩
        exact h.items _ rfl
  | obj members =>
      rw [memberProblems_eq_nil hformed]
      constructor
      · rintro ⟨hrequired, h⟩
        refine ⟨⟨nofun, nofun, nofun, ?_⟩, nofun, h⟩
        rintro _ ⟨⟩
        exact hrequired
      · rintro ⟨hsized, -, h⟩
        exact ⟨hsized.required _ rfl, h⟩

theorem enumProblems_eq_nil (hformed : Formed schema) :
    enumProblems tools value schema path = .ok [] ↔
      ∀ e ∈ member? "enum" schema, ∃ item ∈ itemsOf e, pyEqual value item = true := by
  unfold enumProblems
  cases hmember : member? "enum" schema with
  | none => simp
  | some e =>
      obtain ⟨items, rfl⟩ := hformed.enum e hmember
      have hfound : items.any (fun item => pyEqual value item) = true ↔
          ∃ item ∈ items, pyEqual value item = true := List.any_eq_true
      simp only [pyIn, ok_bind, itemsOf, Option.mem_some, forall_eq', ← hfound]
      cases items.any fun item => pyEqual value item <;> simp [pure, Except.pure]

theorem constProblems_eq_nil :
    constProblems tools value schema path = [] ↔
      ∀ c ∈ member? "const" schema, pyEqual value c = true := by
  unfold constProblems
  cases member? "const" schema with
  | none => simp
  | some c => cases hequal : pyEqual value c <;> simp [hequal]

/-- What the evaluator finds right about a value itself. -/
structure Passes (tools : SchemaTools) (value : Json) (schema : Members) : Prop where
  type : ∀ t ∈ member? "type" schema, ∃ name ∈ typeNames t, typeMatches value name = true
  enum : ∀ e ∈ member? "enum" schema, ∃ item ∈ itemsOf e, pyEqual value item = true
  const : ∀ c ∈ member? "const" schema, pyEqual value c = true
  pattern : ∀ s, value = .str s → ∀ p ∈ textAt "pattern" schema, tools.search p s = .ok true
  sized : Sized value schema
  closed : Closed value schema

theorem matchesAny_texts (names : List String) :
    matchesAny value (names.map .str) = .ok (names.any fun name => typeMatches value name) := by
  induction names with
  | nil => rfl
  | cons name names ih =>
      rw [List.map_cons, matchesAny, List.any_cons]
      simp only [matchesOption, ok_bind]
      cases typeMatches value name with
      | true => rfl
      | false => simpa using ih

theorem joinedOptions_texts (names : List String) :
    joinedOptions (names.map .str) = .ok names := by
  induction names with
  | nil => rfl
  | cons name names ih =>
      rw [List.map_cons, joinedOptions, ih]
      rfl

theorem typeOptions_eq {t : Json}
    (hformed : (∃ name, t = .str name) ∨ ∃ names : List String, t = .arr (names.map .str)) :
    typeOptions t = .ok ((typeNames t).map .str) := by
  rcases hformed with ⟨name, rfl⟩ | ⟨names, rfl⟩
  · rfl
  · rw [typeNames, itemsOf, filterMap_text]
    · rfl
    · exact nofun

theorem typeProblem_eq (value : Json) (path : String) (hformed : Formed schema) :
    (typeProblem value schema path = .ok none ∧
        ∀ t ∈ member? "type" schema, ∃ name ∈ typeNames t, typeMatches value name = true) ∨
      (∃ problem, typeProblem value schema path = .ok (some problem)) ∧
        ¬ ∀ t ∈ member? "type" schema, ∃ name ∈ typeNames t, typeMatches value name = true := by
  unfold typeProblem
  cases hmember : member? "type" schema with
  | none => exact .inl ⟨rfl, nofun⟩
  | some t =>
      have hform := hformed.type t hmember
      -- `None` is no type, and the evaluator takes it for no keyword
      have hnull : t ≠ .null := by
        rintro rfl
        rcases hform with ⟨_, h⟩ | ⟨_, h⟩ <;> cases h
      simp only [typeOptions_eq hform, ok_bind, matchesAny_texts, joinedOptions_texts,
        Option.mem_some, forall_eq', ← List.any_eq_true (l := typeNames t)]
      cases (typeNames t).any fun name => typeMatches value name with
      | true => exact .inl ⟨rfl, rfl⟩
      | false => exact .inr ⟨⟨_, rfl⟩, nofun⟩

theorem ownProblems_eq_nil (hformed : Formed schema)
    (htype : ∀ t ∈ member? "type" schema, ∃ name ∈ typeNames t, typeMatches value name = true) :
    ownProblems tools value schema path = .ok [] ↔ Passes tools value schema := by
  unfold ownProblems
  simp only [bind_eq_ok, pure_eq_ok, List.append_eq_nil_iff]
  constructor
  · rintro ⟨_, henum, _, htyped, ⟨rfl, hconst⟩, rfl⟩
    obtain ⟨hsized, hpattern, hclosed⟩ := (typedProblems_eq_nil hformed).1 htyped
    exact ⟨htype, (enumProblems_eq_nil hformed).1 henum, constProblems_eq_nil.1 hconst, hpattern,
      hsized, hclosed⟩
  · rintro ⟨-, henum, hconst, hpattern, hsized, hclosed⟩
    exact ⟨_, (enumProblems_eq_nil hformed).2 henum,
      _, (typedProblems_eq_nil hformed).2 ⟨hsized, hpattern, hclosed⟩,
      ⟨rfl, constProblems_eq_nil.2 hconst⟩, rfl⟩

end Keywords

/-! ### Equality and types in the two languages -/

theorem equalScalar_numberOf : ∀ a b : Json,
    equalScalar number? a b = true → equalScalar numberOf a b = true := by
  intro a b
  cases a <;> cases b <;>
    first
    | exact id
    | exact nofun

mutual

theorem equalBy_numberOf : ∀ a b : Json,
    equalBy number? a b = true → equalBy numberOf a b = true
  | .arr a, b => by
      cases b with
      | arr b => exact equalItems_numberOf a b
      | null | bool | int | float | str | obj => simp [equalBy, equalScalar, number?]
  | .obj a, b => by
      cases b with
      | obj b =>
          intro h
          obtain ⟨hlength, hmembers⟩ := Bool.and_eq_true_iff.1 h
          exact Bool.and_eq_true_iff.2 ⟨hlength, equalMembers_numberOf a b hmembers⟩
      | null | bool | int | float | str | arr => simp [equalBy, equalScalar, number?]
  | .null, b => equalScalar_numberOf .null b
  | .bool c, b => equalScalar_numberOf (.bool c) b
  | .int n, b => equalScalar_numberOf (.int n) b
  | .float x, b => equalScalar_numberOf (.float x) b
  | .str s, b => equalScalar_numberOf (.str s) b

theorem equalItems_numberOf : ∀ a b : List Json,
    equalItems number? a b = true → equalItems numberOf a b = true
  | [], [] => id
  | [], _ :: _ | _ :: _, [] => nofun
  | a :: as, b :: bs => by
      intro h
      obtain ⟨hhead, htail⟩ := Bool.and_eq_true_iff.1 h
      exact Bool.and_eq_true_iff.2 ⟨equalBy_numberOf a b hhead, equalItems_numberOf as bs htail⟩

theorem equalMembers_numberOf : ∀ a b : Members,
    equalMembers number? a b = true → equalMembers numberOf a b = true
  | [], _ => id
  | (key, a) :: rest, b => by
      intro h
      obtain ⟨hhead, htail⟩ := Bool.and_eq_true_iff.1 h
      refine Bool.and_eq_true_iff.2 ⟨?_, equalMembers_numberOf rest b htail⟩
      cases hmember : member? key b with
      | none => simp [hmember] at hhead
      | some other =>
          rw [hmember] at hhead
          exact equalBy_numberOf a other hhead

end

theorem pyEqual_of_equal {a b : Json} (h : equal a b = true) : pyEqual a b = true :=
  equalBy_numberOf a b h

/-- The names that `_type_matches` tells apart. -/
def knownTypes : List String :=
  ["integer", "number", "boolean", "object", "array", "string", "null"]

theorem typeMatches_of_unknown {name : String} (h : name ∉ knownTypes) (value : Json) :
    typeMatches value name = false := by
  simp only [knownTypes, List.mem_cons, List.not_mem_nil, or_false, not_or] at h
  obtain ⟨hinteger, hnumber, hboolean, hrest⟩ := h
  have hboolean' : (name == "boolean") = false := beq_eq_false_iff_ne.2 hboolean
  simp only [← beq_eq_false_iff_ne] at hrest
  simp [typeMatches, typeChecks, List.lookup_cons, hinteger, hnumber, hboolean, hboolean', hrest]

theorem admits_of_unknown {name : String} (h : name ∉ knownTypes) (value : Json) :
    admits name value = false := by
  simp only [knownTypes, List.mem_cons, List.not_mem_nil, or_false, not_or] at h
  obtain ⟨hinteger, hnumber, hboolean, hobject, harray, hstring, hnull⟩ := h
  cases value <;> simp [admits, *]

/-- Two functions of a name that tell nothing apart but the known ones are equal if they agree on
those. -/
theorem eq_of_known {p q : String → Bool} (hp : ∀ name ∉ knownTypes, p name = false)
    (hq : ∀ name ∉ knownTypes, q name = false) (h : ∀ name ∈ knownTypes, p name = q name)
    (name : String) : p name = q name := by
  by_cases hknown : name ∈ knownTypes
  · exact h name hknown
  · rw [hp name hknown, hq name hknown]

theorem typeMatches_eq_admits {value : Json} (h : ∀ x, value ≠ .float x) (name : String) :
    typeMatches value name = admits name value := by
  refine eq_of_known (fun name hn => typeMatches_of_unknown hn value)
    (fun name hn => admits_of_unknown hn value) ?_ name
  cases value with
  | float x => exact absurd rfl (h x)
  | null | bool b | int n | str s | arr items | obj members =>
      simp only [knownTypes, List.forall_mem_cons]
      exact ⟨rfl, rfl, rfl, rfl, rfl, rfl, rfl, nofun⟩

theorem typeMatches_float (x : JsonFloat) (name : String) :
    typeMatches (.float x) name = (name == "number") := by
  refine eq_of_known (p := typeMatches (.float x)) (q := fun name => name == "number")
    (fun name hn => typeMatches_of_unknown hn _) (fun name hn => ?_) ?_ name
  · simpa using fun h : name = "number" => hn (by simp [h, knownTypes])
  · simp only [knownTypes, List.forall_mem_cons]
    exact ⟨rfl, rfl, rfl, rfl, rfl, rfl, rfl, nofun⟩

/-! ### Nodes -/

/-- A value with the schema object it is looked at under. -/
abbrev Node := Json × Members

/-- The evaluator descends from a node to another. -/
def Descends (a b : Node) : Prop :=
  (b.1, Json.obj b.2) ∈ itemPairs a.1 a.2 ++ propertyPairs a.1 a.2

/-- A node is reached from another. -/
def Reaches : Node → Node → Prop := Relation.ReflTransGen Descends

section Nodes

variable {tools : SchemaTools} {regex : String → String → Prop} {value : Json} {schema : Members}
  {path : String}

theorem propertyPairs_eq_nil (h : membersOf value = []) : propertyPairs value schema = [] := by
  unfold propertyPairs
  rw [h]
  exact List.filterMap_eq_nil_iff.2 fun _ _ => rfl

theorem itemPairs_eq_nil (h : itemsOf value = []) : itemPairs value schema = [] := by
  unfold itemPairs
  rw [h]
  split <;> rfl

theorem exists_mem_children_iff (path : String) {child : Node} :
    (∃ at', (child.1, child.2, at') ∈ children value schema path) ↔
      Descends (value, schema) child := by
  obtain ⟨child, sub⟩ := child
  unfold Descends children
  dsimp only
  cases value with
  | null | bool b | int n | float x | str s =>
      rw [itemPairs_eq_nil rfl, propertyPairs_eq_nil rfl]
      simp
  | arr items =>
      rw [propertyPairs_eq_nil rfl, List.append_nil]
      unfold itemPairs
      cases member? "items" schema with
      | none => simp
      | some s =>
          cases s with
          | obj s =>
              simp only [itemsOf, List.mem_map, Prod.mk.injEq, Json.obj.injEq]
              constructor
              · rintro ⟨_, ⟨item, i⟩, hitem, rfl, rfl, -⟩
                exact ⟨item, List.fst_mem_of_mem_zipIdx hitem, rfl, rfl⟩
              · rintro ⟨item, hitem, rfl, rfl⟩
                obtain ⟨i, hi⟩ := List.mem_iff_getElem?.1 hitem
                exact ⟨_, (item, i), List.mem_zipIdx_iff_getElem?.2 hi, rfl, rfl, rfl⟩
          | null | bool b | int n | float x | str s | arr items => simp
  | obj members =>
      rw [itemPairs_eq_nil rfl, List.nil_append]
      unfold propertyPairs propertiesOf
      cases member? "properties" schema with
      | none => simp
      | some p =>
          cases p with
          | obj properties =>
              simp only [membersOf, List.mem_filterMap]
              constructor
              · rintro ⟨_, ⟨name, s⟩, hproperty, hfound⟩
                split at hfound
                · rename_i s hs
                  obtain ⟨child, hmember, hchild⟩ := Option.map_eq_some_iff.1 hfound
                  cases hchild
                  exact ⟨(name, .obj sub), by rwa [← hs], by rw [hmember]; rfl⟩
                · cases hfound
              · rintro ⟨⟨name, s⟩, hproperty, hfound⟩
                obtain ⟨child, hmember, hchild⟩ := Option.map_eq_some_iff.1 hfound
                cases hchild
                exact ⟨_, (name, .obj sub), hproperty, by simp only [hmember]; rfl⟩
          | null | bool b | int n | float x | str s | arr items => simp

theorem sizeOf_descends {a b : Node} (h : Descends a b) : sizeOf b.1 < sizeOf a.1 := by
  obtain ⟨_, hchild⟩ := (exists_mem_children_iff "").2 h
  exact sizeOf_children hchild

/-- What holds at every node that is reached holds here and at every node that is reached from
below. -/
theorem forall_reaches_iff {p : Node → Prop} {a : Node} :
    (∀ n, Reaches a n → p n) ↔ p a ∧ ∀ b, Descends a b → ∀ n, Reaches b n → p n := by
  constructor
  · intro h
    exact ⟨h a .refl, fun b hb n hn => h n (.head hb hn)⟩
  · rintro ⟨ha, hbelow⟩ n hn
    rcases Relation.ReflTransGen.cases_head hn with rfl | ⟨b, hb, hn⟩
    · exact ha
    · exact hbelow b hb n hn

theorem IsSchema.descends {a b : Node} (h : IsSchema (.obj a.2)) (hb : Descends a b) :
    IsSchema (.obj b.2) :=
  h.applied (List.mem_append_left _ hb)

/-- **What the evaluator passes**: it finds nothing wrong at any node it reaches. -/
theorem checkNode_eq_nil (h : IsSchema (.obj schema)) :
    checkNode tools value schema path = .ok [] ↔
      ∀ n, Reaches (value, schema) n → Passes tools n.1 n.2 := by
  induction hsize : sizeOf value using Nat.strong_induction_on generalizing value schema path with
  | _ size ih =>
      subst hsize
      rw [checkNode, forall_reaches_iff]
      rcases typeProblem_eq value path h.formed with
        ⟨hnone, htype⟩ | ⟨⟨problem, hsome⟩, hnot⟩
      · simp only [hnone, ok_bind]
        rw [append_eq_nil, gathered_eq_nil, ownProblems_eq_nil h.formed htype]
        refine and_congr_right fun _ => ?_
        constructor
        · intro hbelow child hchild
          obtain ⟨at', hmem⟩ := (exists_mem_children_iff path).2 hchild
          have hchecked := hbelow _ (List.mem_map.2 ⟨⟨_, hmem⟩, List.mem_attach _ _, rfl⟩)
          exact (ih _ (sizeOf_descends hchild) (IsSchema.descends h hchild) rfl).1 hchecked
        · intro hbelow part hpart
          obtain ⟨⟨⟨child, sub, at'⟩, hmem⟩, -, rfl⟩ := List.mem_map.1 hpart
          have hchild : Descends (value, schema) (child, sub) :=
            (exists_mem_children_iff path).1 ⟨at', hmem⟩
          exact (ih _ (sizeOf_descends hchild) (IsSchema.descends h hchild) rfl).2
            (hbelow _ hchild)
      · simp only [hsome, ok_bind, pure_eq_ok, List.cons_ne_nil, false_iff]
        rintro ⟨hpasses, -⟩
        exact hnot hpasses.type

/-- A pair that a schema applies and the evaluator does not look at. -/
def Unseen (value : Json) (schema : Members) (pair : Json × Json) : Prop :=
  (pair ∈ itemPairs value schema ++ propertyPairs value schema ∧ ∀ sub, pair.2 ≠ .obj sub) ∨
    (pair ∈ additionalPairs value schema ∧ pair.2 ≠ .bool false)

/-- What a schema says of one node, apart from the nodes below it. -/
structure Means (regex : String → String → Prop) (value : Json) (schema : Members) : Prop where
  asserts : Asserts regex value schema
  closed : Closed value schema
  unseen : ∀ pair, Unseen value schema pair → Valid regex pair.1 pair.2

theorem valid_iff_forall_reaches :
    Valid regex value (.obj schema) ↔ ∀ n, Reaches (value, schema) n → Means regex n.1 n.2 := by
  induction hsize : sizeOf value using Nat.strong_induction_on generalizing value schema with
  | _ size ih =>
      subst hsize
      rw [forall_reaches_iff, valid_obj_iff]
      constructor
      · rintro ⟨hasserts, happlied⟩
        refine ⟨⟨hasserts, ?_, ?_⟩, fun child hchild => ?_⟩
        · intro hforbids
          by_contra hne
          obtain ⟨m, hm⟩ := List.exists_mem_of_ne_nil _ hne
          have hpair : (m.2, Json.bool false) ∈ additionalPairs value schema := by
            unfold additionalPairs
            rw [hforbids]
            exact List.mem_map_of_mem hm
          exact absurd (valid_bool_iff.1 (happlied _ (List.mem_append_right _ hpair))) nofun
        · rintro pair (⟨hpair, -⟩ | ⟨hpair, -⟩)
          · exact happlied pair (List.mem_append_left _ hpair)
          · exact happlied pair (List.mem_append_right _ hpair)
        · exact (ih _ (sizeOf_descends hchild) rfl).1 (happlied _ (List.mem_append_left _ hchild))
      · rintro ⟨⟨hasserts, hclosed, hunseen⟩, hbelow⟩
        refine ⟨hasserts, fun pair hpair => ?_⟩
        rcases List.mem_append.1 hpair with hpair | hpair
        · by_cases hobject : ∃ sub, pair.2 = .obj sub
          · obtain ⟨sub, hsub⟩ := hobject
            have hchild : Descends (value, schema) (pair.1, sub) := by
              unfold Descends
              rw [← hsub]
              exact hpair
            rw [hsub]
            exact (ih _ (sizeOf_descends hchild) rfl).2 (hbelow _ hchild)
          · exact hunseen pair (.inl ⟨hpair, fun sub hsub => hobject ⟨sub, hsub⟩⟩)
        · by_cases hfalse : pair.2 = .bool false
          · unfold additionalPairs at hpair
            split at hpair
            · rename_i s hs
              obtain ⟨m, hm, rfl⟩ := List.mem_map.1 hpair
              dsimp only at hfalse
              rw [hclosed (by rw [hs, hfalse])] at hm
              cases hm
            · cases hpair
          · exact hunseen pair (.inr ⟨hpair, hfalse⟩)

/-! ### Where the two part -/

/-- What the evaluator and the meaning of the schema both ask of a node. -/
structure Agreed (tools : SchemaTools) (regex : String → String → Prop) (value : Json)
    (schema : Members) : Prop where
  type : ∀ t ∈ member? "type" schema, ∃ name ∈ typeNames t, admits name value = true
  enum : ∀ e ∈ member? "enum" schema, ∃ item ∈ itemsOf e, pyEqual value item = true
  const : ∀ c ∈ member? "const" schema, pyEqual value c = true
  pattern : ∀ s, value = .str s → ∀ p ∈ textAt "pattern" schema,
    tools.search p s = .ok true ∨ regex p s
  sized : Sized value schema
  closed : Closed value schema

/-- A float without a fractional part where an integer is asked for, and no other number. -/
def FloatForInteger (value t : Json) : Prop :=
  "integer" ∈ typeNames t ∧ "number" ∉ typeNames t ∧
    ∃ x, value = .float x ∧ (Number.ofFloat x).integral = true

/-- The evaluator refuses what the schema admits at a node. -/
def Stricter (tools : SchemaTools) (regex : String → String → Prop) (n : Node) : Prop :=
  (∃ t ∈ member? "type" n.2, FloatForInteger n.1 t) ∨
    ∃ s p, n.1 = .str s ∧ p ∈ textAt "pattern" n.2 ∧ regex p s ∧ tools.search p s ≠ .ok true

/-- The evaluator overlooks something at a node: a value that is equal to it and not to a reader of
JSON, a text its own expressions match, or a subschema it does not look at. -/
def Overlooks (tools : SchemaTools) (regex : String → String → Prop) (n : Node) : Prop :=
  (∃ e ∈ member? "enum" n.2, (∃ item ∈ itemsOf e, pyEqual n.1 item = true) ∧
      ∀ item ∈ itemsOf e, equal n.1 item = false) ∨
    (∃ c ∈ member? "const" n.2, pyEqual n.1 c = true ∧ equal n.1 c = false) ∨
    (∃ s p, n.1 = .str s ∧ p ∈ textAt "pattern" n.2 ∧ tools.search p s = .ok true ∧
      ¬ regex p s) ∨
    ∃ pair, Unseen n.1 n.2 pair ∧ ¬ Valid regex pair.1 pair.2

theorem exists_typeMatches_iff {t : Json} :
    (∃ name ∈ typeNames t, typeMatches value name = true) ↔
      (∃ name ∈ typeNames t, admits name value = true) ∧ ¬ FloatForInteger value t := by
  by_cases hfloat : ∃ x, value = .float x
  · obtain ⟨x, rfl⟩ := hfloat
    simp only [typeMatches_float, beq_iff_eq, exists_eq_right]
    constructor
    · intro hnumber
      exact ⟨⟨_, hnumber, rfl⟩, fun h => h.2.1 hnumber⟩
    · rintro ⟨⟨name, hname, hadmits⟩, hplain⟩
      by_contra hnumber
      simp only [admits, Bool.or_eq_true, beq_iff_eq, Bool.and_eq_true] at hadmits
      rcases hadmits with rfl | ⟨rfl, hintegral⟩
      · exact hnumber hname
      · exact hplain ⟨hname, hnumber, x, rfl, hintegral⟩
  · have hother : ∀ x, value ≠ .float x := fun x hx => hfloat ⟨x, hx⟩
    simp only [typeMatches_eq_admits hother]
    refine ⟨fun h => ⟨h, ?_⟩, fun h => h.1⟩
    rintro ⟨-, -, x, hx, -⟩
    exact hother x hx

theorem passes_iff (regex : String → String → Prop) {n : Node} :
    Passes tools n.1 n.2 ↔ Agreed tools regex n.1 n.2 ∧ ¬ Stricter tools regex n := by
  constructor
  · intro h
    refine ⟨⟨fun t ht => (exists_typeMatches_iff.1 (h.type t ht)).1, h.enum, h.const,
      fun s hs p hp => .inl (h.pattern s hs p hp), h.sized, h.closed⟩, ?_⟩
    rintro (⟨t, ht, hfloat⟩ | ⟨s, p, hs, hp, -, hsearch⟩)
    · exact (exists_typeMatches_iff.1 (h.type t ht)).2 hfloat
    · exact hsearch (h.pattern s hs p hp)
  · rintro ⟨h, hplain⟩
    refine ⟨fun t ht => exists_typeMatches_iff.2 ⟨h.type t ht, fun hfloat =>
      hplain (.inl ⟨t, ht, hfloat⟩)⟩, h.enum, h.const, fun s hs p hp => ?_, h.sized, h.closed⟩
    by_contra hsearch
    have hregex := (h.pattern s hs p hp).resolve_left hsearch
    exact hplain (.inr ⟨s, p, hs, hp, hregex, hsearch⟩)

theorem means_iff (tools : SchemaTools) {n : Node} :
    Means regex n.1 n.2 ↔ Agreed tools regex n.1 n.2 ∧ ¬ Overlooks tools regex n := by
  constructor
  · intro h
    obtain ⟨htype, henum, hconst, hpattern, hsized⟩ := h.asserts
    refine ⟨⟨htype, fun e he => ?_, fun c hc => pyEqual_of_equal (hconst c hc),
      fun s hs p hp => .inr (hpattern s hs p hp), hsized, h.closed⟩, ?_⟩
    · obtain ⟨item, hitem, hequal⟩ := henum e he
      exact ⟨item, hitem, pyEqual_of_equal hequal⟩
    rintro (⟨e, he, -, hnone⟩ | ⟨c, hc, -, hother⟩ | ⟨s, p, hs, hp, -, hregex⟩ |
      ⟨pair, hunseen, hinvalid⟩)
    · obtain ⟨item, hitem, hequal⟩ := henum e he
      exact absurd (hequal.symm.trans (hnone item hitem)) nofun
    · exact absurd ((hconst c hc).symm.trans hother) nofun
    · exact hregex (hpattern s hs p hp)
    · exact hinvalid (h.unseen pair hunseen)
  · rintro ⟨h, hseen⟩
    refine ⟨⟨h.type, fun e he => ?_, fun c hc => ?_, fun s hs p hp => ?_, h.sized⟩, h.closed,
      fun pair hunseen => ?_⟩
    · by_contra hnone
      refine hseen (.inl ⟨e, he, h.enum e he, fun item hitem => ?_⟩)
      by_contra hequal
      exact hnone ⟨item, hitem, by simpa using hequal⟩
    · by_contra hother
      exact hseen (.inr (.inl ⟨c, hc, h.const c hc, by simpa using hother⟩))
    · by_contra hregex
      have hsearch := (h.pattern s hs p hp).resolve_right hregex
      exact hseen (.inr (.inr (.inl ⟨s, p, hs, hp, hsearch, hregex⟩)))
    · by_contra hinvalid
      exact hseen (.inr (.inr (.inr ⟨pair, hunseen, hinvalid⟩)))

end Nodes

/-! ### What is passed and what is valid -/

/-- `validate_schema` of a document; what is no object has no keyword to get. -/
def validateDocument (texts : TextTools) (tools : SchemaTools) (value : Json) :
    Json → Except Raised ValidationCheck
  | .obj schema =>
      validateSchema { texts with checkNode := fun v s => checkNode tools v s "$" } value schema
  | _ => .error .unexpected

/-- The check of a value under a document passes. -/
def Validates (texts : TextTools) (tools : SchemaTools) (value document : Json) : Prop :=
  ∃ check, validateDocument texts tools value document = .ok check ∧ check.passed = true

/-- A document and a value on which the evaluator is right: there is a fault both see, or it is
stricter somewhere exactly if it overlooks something; of the booleans it is right on `false`, which
it cannot read. -/
def Coincides (tools : SchemaTools) (regex : String → String → Prop) (value : Json) :
    Json → Prop
  | .obj schema =>
      (∃ n, Reaches (value, schema) n ∧ ¬ Agreed tools regex n.1 n.2) ∨
        ((∃ n, Reaches (value, schema) n ∧ Stricter tools regex n) ↔
          ∃ n, Reaches (value, schema) n ∧ Overlooks tools regex n)
  | document => document = .bool false

theorem validates_obj_iff {texts : TextTools} {tools : SchemaTools} {value : Json}
    {schema : Members} (haccepted : rejectsSchema (.obj schema) = false) :
    Validates texts tools value (.obj schema) ↔ checkNode tools value schema "$" = .ok [] := by
  unfold Validates validateDocument validateSchema
  simp only [haccepted, Bool.false_eq_true, if_false, map_eq_ok]
  constructor
  · rintro ⟨_, ⟨problems, hproblems, rfl⟩, hpassed⟩
    cases problems with
    | nil => exact hproblems
    | cons problem problems => cases hpassed
  · intro h
    exact ⟨_, ⟨[], h, rfl⟩, rfl⟩

/-- Two tests that share a part hold together if and only if the shared part fails somewhere, or
what each adds fails for both or for neither. -/
theorem shared_iff {reached shared left right : Node → Prop} :
    ((∀ n, reached n → shared n ∧ ¬ left n) ↔ ∀ n, reached n → shared n ∧ ¬ right n) ↔
      (∃ n, reached n ∧ ¬ shared n) ∨
        ((∃ n, reached n ∧ left n) ↔ ∃ n, reached n ∧ right n) := by
  by_cases hshared : ∀ n, reached n → shared n
  · have hleft : (∀ n, reached n → shared n ∧ ¬ left n) ↔ ¬ ∃ n, reached n ∧ left n := by
      rw [not_exists]
      exact forall_congr' fun n => ⟨fun h hn => (h hn.1).2 hn.2,
        fun h hn => ⟨hshared n hn, fun hl => h ⟨hn, hl⟩⟩⟩
    have hright : (∀ n, reached n → shared n ∧ ¬ right n) ↔ ¬ ∃ n, reached n ∧ right n := by
      rw [not_exists]
      exact forall_congr' fun n => ⟨fun h hn => (h hn.1).2 hn.2,
        fun h hn => ⟨hshared n hn, fun hr => h ⟨hn, hr⟩⟩⟩
    have hnone : ¬ ∃ n, reached n ∧ ¬ shared n := by
      rintro ⟨n, hn, hfault⟩
      exact hfault (hshared n hn)
    rw [hleft, hright, not_iff_not, or_iff_right hnone]
  · push Not at hshared
    obtain ⟨n, hn, hfault⟩ := hshared
    refine iff_of_true (iff_of_false ?_ ?_) (.inl ⟨n, hn, hfault⟩)
    · exact fun h => hfault (h n hn).1
    · exact fun h => hfault (h n hn).1

/-- **When schema validation agrees with JSON Schema.**  On a document that is a schema and is not
refused, the check of a value passes exactly if the value is valid, if and only if the two
coincide. -/
theorem validates_iff_valid_iff (texts : TextTools) (tools : SchemaTools)
    (regex : String → String → Prop) (value : Json) {document : Json}
    (hschema : IsSchema document) (haccepted : rejectsSchema document = false) :
    (Validates texts tools value document ↔ Valid regex value document) ↔
      Coincides tools regex value document := by
  cases hschema with
  | bool b =>
      have hraises : ¬ Validates texts tools value (.bool b) := by
        rintro ⟨_, h, -⟩
        cases h
      rw [valid_bool_iff]
      simp only [Coincides, Json.bool.injEq, iff_false_left hraises, Bool.not_eq_true]
  | object formed subschemas =>
      rename_i schema
      have h : IsSchema (.obj schema) := .object formed subschemas
      rw [validates_obj_iff haccepted, checkNode_eq_nil h, valid_iff_forall_reaches]
      simp only [passes_iff regex, means_iff tools]
      exact shared_iff

/-- A schema of objects whose members are texts. -/
def textMembers : Members :=
  [("type", .str "object"), ("additionalProperties", .obj [("type", .str "string")])]

/-- An object with a number among its members. -/
def countMember : Json := .obj [("count", .int 1)]

/-- Tools for a schema that is printed nowhere and has no pattern. -/
def plainTools : SchemaTools where
  repr := fun _ => ""
  search := fun _ _ => .ok false

/-- Writers that are not called for either. -/
def plainTexts : TextTools where
  sha256 := id
  loads := fun _ => .ok .null
  checkNode := fun _ _ => .ok []
  assembleToolCalls := id

theorem formed_of_type {name : String} {rest : Members}
    (hrest : ∀ key, key ≠ "additionalProperties" → member? key rest = none) :
    Formed (("type", .str name) :: rest) := by
  have hother : ∀ key, key ≠ "type" → key ≠ "additionalProperties" →
      member? key (("type", .str name) :: rest) = none := by
    intro key htype hadditional
    have hne : ("type" == key) = false := beq_eq_false_iff_ne.2 htype.symm
    simpa [member?, hne] using hrest key hadditional
  refine ⟨fun t ht => .inl ⟨name, (Option.some.inj ht).symm⟩, ?_, ?_, ?_, ?_, ?_, ?_⟩
  · simp [hother "enum" (by decide) (by decide)]
  · intro key hkey v hv
    rw [hother key (by rintro rfl; simp at hkey) (by rintro rfl; simp at hkey)] at hv
    cases hv
  · intro key hkey v hv
    rw [hother key (by rintro rfl; simp at hkey) (by rintro rfl; simp at hkey)] at hv
    cases hv
  · simp [hother "pattern" (by decide) (by decide)]
  · simp [hother "required" (by decide) (by decide)]
  · simp [hother "properties" (by decide) (by decide)]

theorem textMembers_isSchema : IsSchema (.obj textMembers) := by
  refine .object (formed_of_type fun key hkey => ?_) fun sub hsub => ?_
  · have hne : ("additionalProperties" == key) = false := beq_eq_false_iff_ne.2 hkey.symm
    simp [member?, hne]
  · cases List.mem_singleton.1 hsub
    exact .object (formed_of_type fun _ _ => rfl) (by simp [subschemas, propertiesOf, member?])

theorem validates_iff_valid_iff_textMembers :
    (Validates plainTexts plainTools countMember (.obj textMembers) ↔
        Valid (fun _ _ => False) countMember (.obj textMembers)) ↔
      Coincides plainTools (fun _ _ => False) countMember (.obj textMembers) :=
  validates_iff_valid_iff plainTexts plainTools (fun _ _ => False) countMember
    textMembers_isSchema rfl

theorem count_validates (texts : TextTools) (tools : SchemaTools) :
    Validates texts tools countMember (.obj textMembers) := by
  rw [validates_obj_iff rfl, checkNode]
  rfl

theorem count_invalid (regex : String → String → Prop) :
    ¬ Valid regex countMember (.obj textMembers) := by
  intro h
  have hmember := (valid_obj_iff.1 h).2 (.int 1, .obj [("type", .str "string")]) (by
    simp [applied, additionalPairs, additionalMembers, textMembers, countMember, member?,
      membersOf, propertiesOf])
  obtain ⟨name, hname, hadmits⟩ := (valid_obj_iff.1 hmember).1.type (.str "string") rfl
  cases List.mem_singleton.1 hname
  cases hadmits

/-- A subschema of the members that are not named is accepted and not looked at. -/
theorem additional_unchecked : ¬ ∀ (texts : TextTools) (tools : SchemaTools)
    (regex : String → String → Prop) (value document : Json), IsSchema document →
      rejectsSchema document = false →
        (Validates texts tools value document ↔ Valid regex value document) := by
  intro h
  have hagree := h plainTexts plainTools (fun _ _ => False) countMember (.obj textMembers)
    textMembers_isSchema rfl
  exact count_invalid _ (hagree.1 (count_validates _ _))

end LoadCoach
