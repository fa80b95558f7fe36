import Rustnzb.Core.ConfigToml

/-!
# Reading does not depend on the order of members

A table of TOML is read by its names. Documents that are the same up to the order of the members are
read as one configuration.
-/

namespace Rustnzb.Core.Config

open Lib

variable {first second : Json Number}

theorem mapM_congr {α β γ : Type} {read : α → Option γ} {read' : β → Option γ} {items : List α}
    {items' : List β}
    (same : List.Forall₂ (fun item item' => read item = read' item') items items') :
    items.mapM read = items'.mapM read' := by
  induction same with
  | nil => rfl
  | cons head _ ih => rw [List.mapM_cons, List.mapM_cons, head, ih]

theorem PlainType.fromValue_congr (type : PlainType) (same : Json.Same first second) :
    type.fromValue first = type.fromValue second := by
  cases same with
  | leaf => rfl
  | array | object => cases type <;> rfl

theorem ItemType.textOf_congr (same : Json.Same first second) : textOf first = textOf second := by
  cases same <;> rfl

theorem ItemType.fromValue_congr (type : ItemType) (same : Json.Same first second) :
    type.fromValue first = type.fromValue second := by
  cases type with
  | plain type => exact type.fromValue_congr same
  | option type =>
      have inner := type.fromValue_congr same
      cases same with
      | leaf => rfl
      | array | object => exact congrArg (Option.map some) inner
  | texts =>
      cases same with
      | leaf | object => rfl
      | array each => exact mapM_congr (each.imp fun _ _ same => textOf_congr same)

theorem Item.read_congr_same {found found' : String → Option (Json Number)}
    (same : ∀ name, Option.Rel Json.Same (found name) (found' name)) :
    (fields : List ItemField) → read found fields = read found' fields
  | [] => rfl
  | field :: fields => by
      have isSame := same field.name
      rw [read, read, read_congr_same same fields]
      generalize found field.name = value, found' field.name = value' at isSame
      cases isSame with
      | none => rfl
      | some inner =>
          dsimp only
          rw [field.type.fromValue_congr inner]

theorem ItemStruct.fromValue_congr (struct : ItemStruct) (same : Json.Same first second) :
    struct.fromValue first = struct.fromValue second := by
  have known := same.knownIn_eq (struct.fields.map ItemField.name)
  have found := same.get
  cases same with
  | leaf | array => rfl
  | object =>
      have read := Item.read_congr_same found struct.fields
      simp only [Json.get] at read
      rw [fromValue, fromValue, known, read]

theorem FieldType.fromValue_congr (type : FieldType) (same : Json.Same first second) :
    type.fromValue first = type.fromValue second := by
  cases type with
  | item type => exact type.fromValue_congr same
  | float => cases same <;> rfl
  | items struct =>
      cases same with
      | leaf | object => rfl
      | array each => exact mapM_congr (each.imp fun _ _ same => struct.fromValue_congr same)

namespace AppConfig

theorem readField_congr (same : Json.Same first second) (key : Key) :
    readField first key = readField second key := by
  have found := same.at? key.path
  rw [readField, readField]
  generalize first.at? key.path = value, second.at? key.path = value' at found
  cases found with
  | none => rfl
  | some inner => exact key.field.type.fromValue_congr inner

theorem wellFormed_congr (same : Json.Same first second) :
    wellFormed first = wellFormed second := by
  rw [wellFormed, wellFormed, same.knownIn_eq]
  congr 2
  funext owner
  have found := same.get owner.name
  generalize first.get owner.name = value, second.get owner.name = value' at found
  cases found with
  | none => rfl
  | some inner =>
      have known := inner.knownIn_eq ((Key.keys owner).map (·.field.name))
      cases inner with
      | leaf | array => rfl
      | object =>
          dsimp only
          rw [known]

theorem fromValue_congr (same : Json.Same first second) : fromValue first = fromValue second := by
  have shape := wellFormed_congr same
  have fields : readField first = readField second := funext (readField_congr same)
  unfold fromValue
  simp only [shape, fields]

theorem loadToml_congr (same : Json.Same first second) : loadToml first = loadToml second := by
  rw [loadToml, loadToml, readToml, readToml, fromValue_congr same]

end AppConfig

end Rustnzb.Core.Config
