import Mathlib.Data.List.Basic
import Mathlib.Data.List.Nodup

/-!
# JSON documents

A document as the parser gives it. A field that is missing, or asked of something that is not an
object, reads as `null`.
-/

namespace OakKeyring

/-- `serde_json::Value`. -/
inductive JsonValue
  | null
  | bool (b : Bool)
  | number (n : Nat)
  /-- a number that is negative or not whole, by its text -/
  | otherNumber (text : String)
  | string (s : String)
  | array (items : List JsonValue)
  | object (fields : List (String × JsonValue))

namespace JsonValue

/-- `value[key]`. -/
def field (v : JsonValue) (key : String) : JsonValue :=
  match v with
  | object fields => ((fields.find? fun f => f.1 == key).map Prod.snd).getD null
  | _ => null

def asU64 : JsonValue → Option Nat
  | number n => some n
  | _ => none

def asStr : JsonValue → Option String
  | string s => some s
  | _ => none

/-- No object has a key twice. -/
inductive Distinct : JsonValue → Prop
  | null : Distinct null
  | bool (b : Bool) : Distinct (bool b)
  | number (n : Nat) : Distinct (number n)
  | otherNumber (text : String) : Distinct (otherNumber text)
  | string (s : String) : Distinct (string s)
  | array {items : List JsonValue} (hitems : ∀ v ∈ items, Distinct v) : Distinct (array items)
  | object {fields : List (String × JsonValue)} (hkeys : (fields.map Prod.fst).Nodup)
      (hfields : ∀ f ∈ fields, Distinct f.2) : Distinct (object fields)

end JsonValue

/-- The text form of documents, from the crate `serde_json`. -/
class ValueJson where
  toStringPretty : JsonValue → Except String String
  fromStr : String → Except String JsonValue

export ValueJson (toStringPretty fromStr)

/-- What is printed is read back. -/
class LawfulValueJson [ValueJson] : Prop where
  fromStr_toStringPretty : ∀ {v : JsonValue} {text : String}, v.Distinct →
    toStringPretty v = .ok text → fromStr text = .ok v

end OakKeyring
