import Rustnzb.Core.ConfigDocument
import Rustnzb.Core.NzbParser

/-!
# Overrides

What the command line, the environment and a desktop shell set for one process, how it is put over
the file layer, and how an update keeps it out of the file. The messages of rejected variables,
which are only logged, are left out.
-/

namespace Rustnzb.Core.Config

open Lib

def asBool : Json Number → Option Bool
  | .bool flag => some flag
  | _ => none

def asU64 : Json Number → Option ℕ
  | .number (.int number) => if number ≤ u64Max then some number else none
  | _ => none

def asF64 : Json Number → Option F64
  | .number (.float number) => some number
  | .number (.int number) => some (.ofNat number)
  | _ => none

def boundedU64 (value : Json Number) (min max : ℕ) : Option (Json Number) :=
  (asU64 value).bind fun number =>
    if number < min ∨ max < number then none else some (.number (.int number))

def textValue (value : Json Number) (optional : Bool) (maxLen : Option ℕ) : Option (Json Number) :=
  match value with
  | .null => if optional then some .null else none
  | .string text =>
      if text = "" then if optional then some .null else none
      else if maxLen.any (· < text.length) then none
      else some (.string text)
  | _ => none

def validateValue (kind : Kind) (value : Json Number) : Option (Json Number) :=
  match kind with
  | .bool => (asBool value).map .bool
  | .u64 min max | .usize min max | .u16 min max | .u8 min max => boundedU64 value min max
  | .f64 min max =>
      (asF64 value).bind fun number =>
        if !number.isFinite ∨ number.rank < min.rank ∨ max.rank < number.rank then none
        else some (.number (.float number))
  | .path optional => textValue value optional none
  | .string optional maxLen => textValue value optional maxLen
  | .secret optional => textValue value optional none
  | .enum values =>
      match value with
      | .string text => if text ∈ values then some (.string text) else none
      | _ => none
  | .stringList =>
      match value with
      | .array items => (items.mapM ItemType.textOf).map fun texts => .array (texts.map .string)
      | _ => none

def parseU64 (text : String) : Option ℕ :=
  let digits := match text.toList with
    | '+' :: digits => digits
    | digits => digits
  if digits ≠ [] ∧ digits.all Char.isDigit then
    let number := digits.foldl (fun number digit => 10 * number + (digit.toNat - '0'.toNat)) 0
    if number ≤ u64Max then some number else none
  else none

def truthy : List String := ["1", "true", "yes", "on"]

def falsy : List String := ["0", "false", "no", "off"]

def lowerText (text : String) : String := String.ofList (text.toList.map Char.toLower)

def parseEnvText (parseF64 : String → Option F64) (kind : Kind) (text : String) :
    Option (Json Number) :=
  let trimmed := trimString text
  match kind with
  | .bool =>
      if lowerText trimmed ∈ truthy then some (.bool true)
      else if lowerText trimmed ∈ falsy then some (.bool false)
      else none
  | .u64 .. | .usize .. | .u16 .. | .u8 .. => (parseU64 trimmed).map fun number =>
    .number (.int number)
  | .f64 .. =>
      (parseF64 trimmed).map fun number =>
        if number.isFinite then .number (.float number) else .null
  | .path _ | .string .. | .secret _ | .enum _ => some (.string trimmed)
  | .stringList => none

def dots : List Char → List Char
  | '_' :: '_' :: rest => '.' :: dots rest
  | char :: rest => char :: dots rest
  | [] => []

def Key.dotted (key : Key) : List Char := (".".intercalate key.path).toList

/-- `config_registry::get`. -/
def Key.get (dotted : List Char) : Option (Key × Kind) :=
  (Key.all.find? fun key => key.field.kind.isSome && key.dotted = dotted).bind fun key =>
    key.field.kind.map fun kind => (key, kind)

def hasUnderscores (name : List Char) : Bool := "__".toList <:+: name

def isSecret : Kind → Bool
  | .secret _ => true
  | _ => false

/-- The key and the value of `RUSTNZB__SECTION__KEY`, or of its `_FILE`. -/
def genericEnvOverride (parseF64 : String → Option F64) (readFile : String → Option String)
    (name raw : String) : Option (Key × Json Number) :=
  match "RUSTNZB__".toList.isPrefixOf name.toList, name.toList.drop 9 with
  | false, _ => none
  | true, rest =>
      if rest = [] ∨ !hasUnderscores rest then none
      else
        let without := rest.take (rest.length - 5)
        let fromFile := "_FILE".toList.isSuffixOf rest && hasUnderscores without
        let keyName := if fromFile then without else rest
        (Key.get (dots (keyName.map Char.toLower))).bind fun (key, kind) =>
          if name ∈ key.field.env then none
          else if kind = .stringList ∨ key.path.head? ∈ [some "servers", some "categories",
              some "rss_feeds"] then none
          else if fromFile ∧ !isSecret kind then none
          else
            let text :=
              if fromFile then
                (readFile (trimString raw)).map fun contents =>
                  String.ofList (contents.toList.rdropWhile fun char => char = '\n' ∨ char = '\r')
              else some raw
            text.bind fun text =>
              (parseEnvText parseF64 kind text).bind fun parsed =>
                (validateValue kind parsed).map fun checked => (key, checked)

inductive OverrideSource where
  | cli
  | env (name : String)
  | desktop
  deriving DecidableEq

inductive OverrideValue where
  | listenAddr (addr : String)
  | port (number : { number : ℕ // number ≤ u16Max })
  | dataDir (dir : OsPath)
  | otelEnabled (on : Bool)
  | otelEndpoint (endpoint : String)
  | otelLogsEnabled (on : Bool)
  | otelLogsEndpoint (endpoint : String)
  | otelMetricsEnabled (on : Bool)
  | otelMetricsEndpoint (endpoint : String)
  | otelServiceName (name : String)
  | davEnabled (on : Bool)
  | json (key : Key) (value : Json Number)

namespace OverrideValue

def key : OverrideValue → Key
  | listenAddr _ => .listenAddr
  | port _ => .port
  | dataDir _ => .dataDir
  | otelEnabled _ => .otelEnabled
  | otelEndpoint _ => .otelEndpoint
  | otelLogsEnabled _ => .otelLogsEnabled
  | otelLogsEndpoint _ => .otelLogsEndpoint
  | otelMetricsEnabled _ => .otelMetricsEnabled
  | otelMetricsEndpoint _ => .otelMetricsEndpoint
  | otelServiceName _ => .otelServiceName
  | davEnabled _ => .davEnabled
  | json key _ => key

def apply (config : AppConfig) : OverrideValue → AppConfig
  | listenAddr addr => config.set .listenAddr addr
  | port number => config.set .port number
  | dataDir dir => config.set .dataDir dir
  | otelEnabled on => config.set .otelEnabled on
  | otelEndpoint endpoint => config.set .otelEndpoint endpoint
  | otelLogsEnabled on => config.set .otelLogsEnabled (some on)
  | otelLogsEndpoint endpoint => config.set .otelLogsEndpoint (some endpoint)
  | otelMetricsEnabled on => config.set .otelMetricsEnabled (some on)
  | otelMetricsEndpoint endpoint => config.set .otelMetricsEndpoint (some endpoint)
  | otelServiceName name => config.set .otelServiceName name
  | davEnabled on => config.set .davEnabled on
  | json key value => config.applyJsonLeaf key value

def keepFileValue (file next : AppConfig) : OverrideValue → AppConfig
  | listenAddr _ => next.set .listenAddr (file .listenAddr)
  | port _ => next.set .port (file .port)
  | dataDir _ => next.set .dataDir (file .dataDir)
  | otelEnabled _ => next.set .otelEnabled (file .otelEnabled)
  | otelEndpoint _ => next.set .otelEndpoint (file .otelEndpoint)
  | otelLogsEnabled _ => next.set .otelLogsEnabled (file .otelLogsEnabled)
  | otelLogsEndpoint _ => next.set .otelLogsEndpoint (file .otelLogsEndpoint)
  | otelMetricsEnabled _ => next.set .otelMetricsEnabled (file .otelMetricsEnabled)
  | otelMetricsEndpoint _ => next.set .otelMetricsEndpoint (file .otelMetricsEndpoint)
  | otelServiceName _ => next.set .otelServiceName (file .otelServiceName)
  | davEnabled _ => next.set .davEnabled (file .davEnabled)
  | json key _ => next.copyJsonLeaf file key

def given : (value : OverrideValue) → Option value.key.Value
  | listenAddr addr => some addr
  | port number => some number
  | dataDir dir => some dir
  | otelEnabled on => some on
  | otelEndpoint endpoint => some endpoint
  | otelLogsEnabled on => some (some on)
  | otelLogsEndpoint endpoint => some (some endpoint)
  | otelMetricsEnabled on => some (some on)
  | otelMetricsEndpoint endpoint => some (some endpoint)
  | otelServiceName name => some name
  | davEnabled on => some on
  | json key value => key.field.type.fromValue value

end OverrideValue

structure Override where
  value : OverrideValue
  source : OverrideSource

structure OverrideSet where
  entries : List Override
  distinct : (entries.map fun entry => entry.value.key).Nodup

namespace OverrideSet

def empty : OverrideSet where
  entries := []
  distinct := List.nodup_nil

def set (overrides : OverrideSet) (value : OverrideValue) (source : OverrideSource) :
    OverrideSet where
  entries :=
    overrides.entries.filter (fun entry => entry.value.key ≠ value.key) ++ [⟨value, source⟩]
  distinct := by
    rw [List.map_append, List.nodup_append]
    refine ⟨?_, by simp, ?_⟩
    · exact overrides.distinct.sublist (List.Sublist.map _ List.filter_sublist)
    · intro key isKey other isOther
      rcases List.mem_map.mp isKey with ⟨entry, isEntry, rfl⟩
      rw [List.map_singleton, List.mem_singleton] at isOther
      rw [isOther]
      exact of_decide_eq_true (List.mem_filter.mp isEntry).2

def apply (overrides : OverrideSet) (config : AppConfig) : AppConfig :=
  overrides.entries.foldl (fun config entry => entry.value.apply config) config

def keepFileValues (overrides : OverrideSet) (next file : AppConfig) : AppConfig :=
  overrides.entries.foldl (fun next entry => entry.value.keepFileValue file next) next

def overlay (overrides : OverrideSet) (file : AppConfig) : AppConfig := overrides.apply file

def has (overrides : OverrideSet) (key : Key) : Prop :=
  ∃ entry ∈ overrides.entries, entry.value.key = key

instance (overrides : OverrideSet) (key : Key) : Decidable (overrides.has key) := by
  unfold has
  infer_instance

end OverrideSet

def applyGenericEnv (parseF64 : String → Option F64) (readFile : String → Option String)
    (overrides : OverrideSet) (vars : List (String × String)) : OverrideSet :=
  vars.foldl (fun overrides (name, raw) =>
    match genericEnvOverride parseF64 readFile name raw with
    | none => overrides
    | some (key, value) =>
        if overrides.has key then overrides else overrides.set (.json key value) (.env name))
    overrides

def OverrideValue.FromStartup (parseF64 : String → Option F64) (readFile : String → Option String) :
    OverrideValue → Prop
  | .json key value => ∃ name raw, genericEnvOverride parseF64 readFile name raw = some (key, value)
  | _ => True

def OverrideSet.FromStartup (parseF64 : String → Option F64) (readFile : String → Option String)
    (overrides : OverrideSet) : Prop :=
  ∀ entry ∈ overrides.entries, entry.value.FromStartup parseF64 readFile

/-- What `with_overrides` and the updates keep in the process. -/
structure AppState where
  overrides : OverrideSet
  file : AppConfig
  config : AppConfig

namespace AppState

/-- `save` tells whether the file was written. -/
def commitConfig (save : AppConfig → Bool) (state : AppState) (next : AppConfig) :
    Option AppState :=
  let next := state.overrides.keepFileValues next state.file
  if save next then
    some { state with file := next, config := state.overrides.overlay next }
  else none

/-- `allows` is the check of the path policy, from the old to the new file layer. -/
def updateConfig (allows : AppConfig → AppConfig → Bool) (save : AppConfig → Bool)
    (state : AppState) (config : AppConfig) : Option AppState :=
  let config := state.overrides.keepFileValues config state.file
  if allows state.file config then state.commitConfig save config else none

def updateConfigWith (allows : AppConfig → AppConfig → Bool) (save : AppConfig → Bool)
    (edit : AppConfig → Option AppConfig) (state : AppState) : Option AppState :=
  match edit state.file with
  | none => none
  | some next =>
      let next := state.overrides.keepFileValues next state.file
      if allows state.file next then state.commitConfig save next else none

end AppState

end Rustnzb.Core.Config
