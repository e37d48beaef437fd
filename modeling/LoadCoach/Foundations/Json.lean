import Mathlib.Data.Int.Notation
import Mathlib.Data.List.Basic
import Mathlib.Data.Nat.Notation

/-! # JSON values

The values a document store keeps and hands back: `null`, booleans, integers, floats, strings,
arrays and objects.  Integers and floats are different values, and a float is its literal.  An
object is its list of members in order; reading a member finds the first of that name, so a
document that states every name once behaves as a dictionary. -/

namespace Foundations

/-- The floats a JSON reader produces: a literal `mantissa · 10 ^ exponent`, or one of the three
values outside the standard that permissive readers accept. -/
inductive JsonFloat where
  | literal (mantissa exponent : ℤ)
  | nan
  | infinity
  | negInfinity
deriving DecidableEq, Repr

/-- A JSON value. -/
inductive Json where
  | null
  | bool (b : Bool)
  | int (n : ℤ)
  | float (x : JsonFloat)
  | str (s : String)
  | arr (items : List Json)
  | obj (members : List (String × Json))

/-- The members of an object. -/
abbrev Members := List (String × Json)

namespace Json

/-! ### Reading -/

/-- The member of a given name. -/
def member? (key : String) (members : Members) : Option Json :=
  (members.find? fun m => m.1 == key).map Prod.snd

/-- The member of a given name, of an object. -/
def get? (key : String) : Json → Option Json
  | obj members => member? key members
  | _ => none

/-- `mapping[key] = value`: in place where the key is there, at the end where it is not. -/
def setMember (key : String) (value : Json) (members : Members) : Members :=
  if members.any fun m => m.1 == key then
    members.map fun m => if m.1 == key then (key, value) else m
  else members ++ [(key, value)]

/-- Python's name of the type. -/
def typeName : Json → String
  | null => "NoneType"
  | bool _ => "bool"
  | int _ => "int"
  | float _ => "float"
  | str _ => "str"
  | arr _ => "list"
  | obj _ => "dict"

/-- Python's truth value. -/
def truthy : Json → Bool
  | null => false
  | bool b => b
  | int n => n != 0
  | float (.literal m _) => m != 0
  | float _ => true
  | str s => s != ""
  | arr items => !items.isEmpty
  | obj members => !members.isEmpty

theorem any_setMember (key : String) (value : Json) (members : Members) :
    (setMember key value members).any (fun m => m.1 == key) = true := by
  rw [setMember]
  split
  · rename_i h
    obtain ⟨m, hm, hkey⟩ := List.any_eq_true.1 h
    refine List.any_eq_true.2 ⟨(key, value), List.mem_map.2 ⟨m, hm, ?_⟩, beq_self_eq_true key⟩
    rw [if_pos hkey]
  · simp

theorem member?_setMember_self (key : String) (value : Json) (members : Members) :
    member? key (setMember key value members) = some value := by
  rw [setMember]
  split
  · rename_i h
    induction members with
    | nil => simp at h
    | cons m members ih =>
        by_cases hkey : m.1 = key
        · simp [member?, hkey]
        · have hrest : members.any (fun m => m.1 == key) = true := by simpa [hkey] using h
          simpa [member?, hkey] using ih hrest
  · rename_i h
    have hnone : members.find? (fun m => m.1 == key) = none := by
      rw [List.find?_eq_none]
      intro m hm hkey
      exact h (List.any_eq_true.2 ⟨m, hm, hkey⟩)
    simp [member?, List.find?_append, hnone]

theorem member?_setMember_of_ne {key other : String} (h : other ≠ key) (value : Json)
    (members : Members) : member? other (setMember key value members) = member? other members := by
  rw [setMember]
  split
  · clear * - h
    induction members with
    | nil => rfl
    | cons m members ih =>
        have hother : (key == other) = false := by simpa using h.symm
        by_cases hkey : m.1 = key
        · simpa [member?, hkey, hother] using ih
        · by_cases hm : m.1 = other
          · simp [member?, hm, h]
          · simpa [member?, hkey, hm] using ih
  · simp [member?, List.find?_append, h.symm]

@[simp] theorem get?_obj (key : String) (members : Members) :
    get? key (obj members) = member? key members := rfl

/-! ### Writing optional values -/

/-- An optional value, absence written as `null`. -/
def ofOption {α : Type*} (encode : α → Json) : Option α → Json
  | none => null
  | some a => encode a

@[simp] theorem ofOption_none {α : Type*} (encode : α → Json) :
    ofOption encode none = null := rfl

@[simp] theorem ofOption_some {α : Type*} (encode : α → Json) (a : α) :
    ofOption encode (some a) = encode a := rfl

end Json

end Foundations
