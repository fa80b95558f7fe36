import Mathlib.Data.BitVec
import Rustnzb.Lib.Json

/-!
# The fields of the configuration as JSON

The derived `to_value` and `from_value`, field by field. A path that is not Unicode cannot be
written, and a number that is not finite is written as `null`, which is not read back as a number.
Everything else is read back as it was.
-/

namespace Rustnzb.Core.Config

open Lib

structure F64 where
  bits : BitVec 64
  deriving DecidableEq

namespace F64

def isFinite (value : F64) : Bool := value.bits.extractLsb' 52 11 ≠ BitVec.allOnes 11

def rank (value : F64) : ℤ :=
  let magnitude : ℤ := (value.bits.extractLsb' 0 63).toNat
  if value.bits.msb then -magnitude else magnitude

/-- `as f64`: to the nearest double, to the even one between two. -/
def ofNat (number : ℕ) : F64 :=
  if number = 0 then ⟨0⟩
  else
    let exponent := number.log2
    let mantissa :=
      if exponent ≤ 52 then number <<< (52 - exponent)
      else
        let shift := exponent - 52
        let low := number >>> shift
        let rest := number % 2 ^ shift
        let half := 2 ^ (shift - 1)
        if rest > half ∨ rest = half ∧ low % 2 = 1 then low + 1 else low
    ⟨BitVec.ofNat 64 ((exponent + 1023) <<< 52 + (mantissa - 2 ^ 52))⟩

end F64

inductive Number where
  | int (value : ℕ)
  | float (value : F64)
  deriving DecidableEq

inductive OsPath where
  | unicode (text : String)
  | bytes (raw : List UInt8)
  deriving DecidableEq

def OsPath.isUnicode : OsPath → Bool
  | unicode _ => true
  | bytes _ => false

theorem mapM_map_eq_some {Entry Document : Type} {read : Document → Option Entry}
    {write : Entry → Document} {entries : List Entry}
    (back : ∀ entry ∈ entries, read (write entry) = some entry) :
    (entries.map write).mapM read = some entries := by
  induction entries with
  | nil => rfl
  | cons entry entries ih =>
      have later := ih fun entry mem => back entry (List.mem_cons_of_mem _ mem)
      rw [List.map_cons, List.mapM_cons, back entry List.mem_cons_self, later]
      rfl

inductive PlainType where
  | bool
  | uint (max : ℕ)
  | text
  | path
  | enum (values : List String)

namespace PlainType

abbrev Value : PlainType → Type
  | bool => Bool
  | uint max => { number : ℕ // number ≤ max }
  | text => String
  | path => OsPath
  | enum values => { text : String // text ∈ values }

def writable : (type : PlainType) → type.Value → Bool
  | path, value => value.isUnicode
  | bool, _ | uint _, _ | text, _ | enum _, _ => true

def toValue : (type : PlainType) → type.Value → Json Number
  | bool, value => .bool value
  | uint _, value => .number (.int value.1)
  | text, value => .string value
  | path, .unicode name => .string name
  | path, .bytes _ => .null
  | enum _, value => .string value.1

def fromValue : (type : PlainType) → Json Number → Option type.Value
  | bool, .bool flag => some flag
  | uint max, .number (.int number) => if fits : number ≤ max then some ⟨number, fits⟩ else none
  | text, .string content => some content
  | path, .string name => some (.unicode name)
  | enum values, .string name => if named : name ∈ values then some ⟨name, named⟩ else none
  | _, _ => none

theorem fromValue_toValue (type : PlainType) (value : type.Value)
    (writable : type.writable value = true) : type.fromValue (type.toValue value) = some value := by
  cases type with
  | bool => rfl
  | uint max => simp [toValue, fromValue, value.2]
  | text => rfl
  | path =>
      cases value with
      | unicode name => rfl
      | bytes raw => cases writable
  | enum values => simp [toValue, fromValue, value.2]

theorem toValue_ne_null (type : PlainType) (value : type.Value)
    (writable : type.writable value = true) : type.toValue value ≠ .null := by
  cases type with
  | path =>
      cases value with
      | unicode name => simp [toValue]
      | bytes raw => cases writable
  | bool | uint max | text | enum values => simp [toValue]

end PlainType

inductive ItemType where
  | plain (type : PlainType)
  | option (type : PlainType)
  | texts

namespace ItemType

abbrev Value : ItemType → Type
  | plain type => type.Value
  | option type => Option type.Value
  | texts => List String

def writable : (type : ItemType) → type.Value → Bool
  | plain type, value => type.writable value
  | option type, value => value.all type.writable
  | texts, _ => true

def toValue : (type : ItemType) → type.Value → Json Number
  | plain type, value => type.toValue value
  | option type, value => value.elim .null type.toValue
  | texts, value => .array (value.map .string)

def textOf : Json Number → Option String
  | .string text => some text
  | _ => none

def fromValue : (type : ItemType) → Json Number → Option type.Value
  | plain type, value => type.fromValue value
  | option _, .null => some none
  | option type, value => (type.fromValue value).map some
  | texts, .array items => items.mapM textOf
  | texts, _ => none

theorem fromValue_toValue (type : ItemType) (value : type.Value)
    (writable : type.writable value = true) : type.fromValue (type.toValue value) = some value := by
  cases type with
  | plain type => exact type.fromValue_toValue value writable
  | option type =>
      cases value with
      | none => rfl
      | some value =>
          have unset := type.toValue_ne_null value writable
          have read := type.fromValue_toValue value writable
          simp only [toValue, Option.elim_some]
          rw [fromValue, read]
          · rfl
          · exact unset
  | texts =>
      exact mapM_map_eq_some fun _ _ => rfl

end ItemType

/-- A field of a list entry. A field without a default is required. -/
structure ItemField where
  name : String
  type : ItemType
  default : Option type.Value

def Item : List ItemField → Type
  | [] => Unit
  | field :: fields => field.type.Value × Item fields

namespace Item

def writable : (fields : List ItemField) → Item fields → Bool
  | [], _ => true
  | field :: fields, (value, rest) => field.type.writable value && writable fields rest

def members : (fields : List ItemField) → Item fields → List (String × Json Number)
  | [], _ => []
  | field :: fields, (value, rest) => (field.name, field.type.toValue value) :: members fields rest

def read (found : String → Option (Json Number)) : (fields : List ItemField) → Option (Item fields)
  | [] => some ()
  | field :: fields =>
      match found field.name with
      | none => field.default.bind fun value => (read found fields).map (value, ·)
      | some value =>
          (field.type.fromValue value).bind fun value => (read found fields).map (value, ·)

theorem read_congr {found found' : String → Option (Json Number)} :
    (fields : List ItemField) → (∀ name ∈ fields.map ItemField.name, found name = found' name) →
      read found fields = read found' fields
  | [], _ => rfl
  | field :: fields, same => by
      rw [read, read, same field.name (by simp), read_congr fields]
      intro name isName
      exact same name (List.mem_cons_of_mem _ isName)

theorem read_members : (fields : List ItemField) → (fields.map ItemField.name).Nodup →
    (item : Item fields) → writable fields item = true →
      read (fun name => (members fields item).lookup name) fields = some item
  | [], _, _, _ => rfl
  | field :: fields, distinct, (value, rest), isWritable => by
      rw [List.map_cons, List.nodup_cons] at distinct
      rw [writable, Bool.and_eq_true] at isWritable
      have later : read (fun name => (members (field :: fields) (value, rest)).lookup name) fields =
          some rest := by
        rw [← read_members fields distinct.2 rest isWritable.2]
        apply read_congr
        intro name isName
        rw [members, Json.lookup_cons, if_neg]
        rintro rfl
        exact distinct.1 isName
      rw [read, later]
      simp only [members, Json.lookup_cons, if_true]
      rw [field.type.fromValue_toValue value isWritable.1]
      rfl

end Item

structure ItemStruct where
  fields : List ItemField
  denyUnknown : Bool
  distinct : (fields.map ItemField.name).Nodup

namespace ItemStruct

def toValue (struct : ItemStruct) (item : Item struct.fields) : Json Number :=
  .object (Item.members struct.fields item)

def fromValue (struct : ItemStruct) (value : Json Number) : Option (Item struct.fields) :=
  match value with
  | .object members =>
      if struct.denyUnknown && !value.knownIn (struct.fields.map ItemField.name) then none
      else Item.read (fun name => members.lookup name) struct.fields
  | _ => none

theorem knownIn_members : (fields : List ItemField) → (item : Item fields) →
    (Json.object (Item.members fields item)).knownIn (fields.map ItemField.name) = true
  | [], _ => rfl
  | field :: fields, (value, rest) => by
      have later := knownIn_members fields rest
      simp only [Json.knownIn, List.all_eq_true, decide_eq_true_eq] at later ⊢
      intro member mem
      rw [List.map_cons, List.mem_cons]
      rcases List.mem_cons.mp mem with rfl | deeper
      · exact .inl rfl
      · exact .inr (later member deeper)

theorem fromValue_toValue (struct : ItemStruct) (item : Item struct.fields)
    (writable : Item.writable struct.fields item = true) :
    struct.fromValue (struct.toValue item) = some item := by
  rw [toValue, fromValue, knownIn_members]
  simp only [Bool.not_true, Bool.and_false, Bool.false_eq_true, if_false]
  exact Item.read_members struct.fields struct.distinct item writable

end ItemStruct

inductive FieldType where
  | item (type : ItemType)
  | float
  | items (struct : ItemStruct)

namespace FieldType

abbrev Value : FieldType → Type
  | item type => type.Value
  | float => F64
  | items struct => List (Item struct.fields)

def writable : (type : FieldType) → type.Value → Bool
  | item type, value => type.writable value
  | float, _ => true
  | items struct, value => value.all (Item.writable struct.fields)

def readable : (type : FieldType) → type.Value → Bool
  | float, value => value.isFinite
  | item _, _ | items _, _ => true

def isNone : (type : FieldType) → type.Value → Bool
  | item (.option _), value => Option.isNone value
  | _, _ => false

def toValue : (type : FieldType) → type.Value → Json Number
  | item type, value => type.toValue value
  | float, value => if value.isFinite then .number (.float value) else .null
  | items struct, value => .array (value.map struct.toValue)

def fromValue : (type : FieldType) → Json Number → Option type.Value
  | item type, value => type.fromValue value
  | float, .number (.float value) => some value
  | float, .number (.int value) => some (.ofNat value)
  | float, _ => none
  | items struct, .array values => values.mapM struct.fromValue
  | items _, _ => none

theorem fromValue_toValue (type : FieldType) (value : type.Value)
    (writable : type.writable value = true) (readable : type.readable value = true) :
    type.fromValue (type.toValue value) = some value := by
  cases type with
  | item type => exact type.fromValue_toValue value writable
  | float =>
      have finite : F64.isFinite value = true := readable
      rw [toValue, if_pos finite]
      rfl
  | items struct =>
      exact mapM_map_eq_some fun item mem =>
        struct.fromValue_toValue item (List.all_eq_true.mp writable item mem)

theorem fromValue_toValue_eq_none (type : FieldType) (value : type.Value)
    (unreadable : type.readable value = false) : type.fromValue (type.toValue value) = none := by
  cases type with
  | float =>
      simp only [readable] at unreadable
      simp [toValue, unreadable, fromValue]
  | item _ | items _ => cases unreadable

end FieldType

end Rustnzb.Core.Config
