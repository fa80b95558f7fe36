import Rustnzb.Core.ConfigDocument
import Rustnzb.Core.NzbParser
import Rustnzb.Lib.FirstFree

/-!
# The configuration as TOML

What `toml::to_string_pretty` is given and what `AppConfig::read` makes of a document. There is no
`null` in TOML: a field without a value is left out, and the reader puts its default there. A
configuration is read back as it was when nothing that is left out has another default, and when
what `read` does to the servers and to the expiry leaves it alone.
-/

namespace Rustnzb.Core.Config

open Lib

namespace ItemType

def toToml : (type : ItemType) → type.Value → Option (Json Number)
  | plain type, value => some (type.toValue value)
  | option type, value => Option.map type.toValue value
  | texts, value => some (.array (value.map .string))

theorem fromValue_of_toToml {type : ItemType} {value : type.Value} {written : Json Number}
    (isWritten : type.toToml value = some written) (writable : type.writable value = true) :
    type.fromValue written = some value := by
  cases type with
  | plain type =>
      cases isWritten
      exact type.fromValue_toValue value writable
  | option type =>
      rcases Option.map_eq_some_iff.mp isWritten with ⟨inner, rfl, rfl⟩
      exact (option type).fromValue_toValue (some inner) writable
  | texts =>
      cases isWritten
      exact texts.fromValue_toValue value writable

end ItemType

def ItemField.noneIsDefault : ItemField → Bool
  | ⟨_, .option _, some none⟩ => true
  | ⟨_, .option _, _⟩ => false
  | ⟨_, .plain _, _⟩ | ⟨_, .texts, _⟩ => true

theorem ItemField.default_of_toToml {field : ItemField} (optional : field.noneIsDefault = true)
    {value : field.type.Value} (leftOut : field.type.toToml value = none) :
    field.default = some value := by
  rcases field with ⟨name, type, default⟩
  cases type with
  | plain type => cases leftOut
  | option type =>
      rw [Option.map_eq_none_iff.mp leftOut]
      rcases default with _ | _ | default
      · cases optional
      · rfl
      · cases optional
  | texts => cases leftOut

namespace Item

def tomlMembers : (fields : List ItemField) → Item fields → List (String × Json Number)
  | [], _ => []
  | field :: fields, (value, rest) =>
      match field.type.toToml value with
      | none => tomlMembers fields rest
      | some written => (field.name, written) :: tomlMembers fields rest

theorem names_tomlMembers : (fields : List ItemField) → (item : Item fields) →
    ∀ entry ∈ tomlMembers fields item, entry.1 ∈ fields.map ItemField.name
  | [], _, _, mem => by cases mem
  | field :: fields, (value, rest), entry, mem => by
      rw [tomlMembers] at mem
      split at mem
      · exact List.mem_cons_of_mem _ (names_tomlMembers fields rest entry mem)
      · rcases List.mem_cons.mp mem with rfl | later
        · exact List.mem_cons_self
        · exact List.mem_cons_of_mem _ (names_tomlMembers fields rest entry later)

theorem lookup_tomlMembers_of_not_mem {name : String} {fields : List ItemField} {item : Item fields}
    (fresh : name ∉ fields.map ItemField.name) : (tomlMembers fields item).lookup name = none := by
  rw [List.lookup_eq_none_iff]
  intro entry mem
  have isName := names_tomlMembers fields item entry mem
  simpa using fun same : name = entry.1 => fresh (same ▸ isName)

theorem read_tomlMembers : (fields : List ItemField) → (fields.map ItemField.name).Nodup →
    fields.all ItemField.noneIsDefault = true → (item : Item fields) →
    writable fields item = true →
      read (fun name => (tomlMembers fields item).lookup name) fields = some item
  | [], _, _, _, _ => rfl
  | field :: fields, distinct, optional, (value, rest), isWritable => by
      rw [List.map_cons, List.nodup_cons] at distinct
      rw [List.all_cons, Bool.and_eq_true] at optional
      rw [writable, Bool.and_eq_true] at isWritable
      have rest := read_tomlMembers fields distinct.2 optional.2 rest isWritable.2
      rw [read, tomlMembers]
      cases isWritten : field.type.toToml value with
      | none =>
          dsimp only
          rw [lookup_tomlMembers_of_not_mem distinct.1, rest,
            ItemField.default_of_toToml optional.1 isWritten]
          rfl
      | some written =>
          dsimp only
          have later :
              read (fun name => List.lookup name ((field.name, written) :: tomlMembers fields _))
              fields = _ := (read_congr fields fun name isName => by
            rw [Json.lookup_cons, if_neg]
            rintro rfl
            exact distinct.1 isName).trans rest
          rw [later, Json.lookup_cons, if_pos rfl]
          dsimp only
          rw [ItemType.fromValue_of_toToml isWritten isWritable.1]
          rfl

end Item

namespace ItemStruct

def toToml (struct : ItemStruct) (item : Item struct.fields) : Json Number :=
  .object (Item.tomlMembers struct.fields item)

theorem fromValue_toToml (struct : ItemStruct)
    (optional : struct.fields.all ItemField.noneIsDefault = true) (item : Item struct.fields)
    (writable : Item.writable struct.fields item = true) :
    struct.fromValue (struct.toToml item) = some item := by
  have known : (Json.object (Item.tomlMembers struct.fields item)).knownIn
      (struct.fields.map ItemField.name) = true := by
    rw [Json.knownIn, List.all_eq_true]
    exact fun entry mem => decide_eq_true (Item.names_tomlMembers struct.fields item entry mem)
  rw [toToml, fromValue, known]
  simp only [Bool.not_true, Bool.and_false, Bool.false_eq_true, if_false]
  exact Item.read_tomlMembers struct.fields struct.distinct optional item writable

end ItemStruct

namespace FieldType

def toToml : (type : FieldType) → type.Value → Option (Json Number)
  | item type, value => type.toToml value
  | float, value => some (.number (.float value))
  | items struct, value => some (.array (value.map struct.toToml))

def noneIsDefault : FieldType → Bool
  | items struct => struct.fields.all ItemField.noneIsDefault
  | item _ | float => true

theorem fromValue_of_toToml {type : FieldType} (optional : type.noneIsDefault = true)
    {value : type.Value} {written : Json Number} (isWritten : type.toToml value = some written)
    (writable : type.writable value = true) : type.fromValue written = some value := by
  cases type with
  | item type => exact ItemType.fromValue_of_toToml isWritten writable
  | float =>
      cases isWritten
      rfl
  | items struct =>
      cases isWritten
      exact mapM_map_eq_some fun item mem =>
        struct.fromValue_toToml optional item (List.all_eq_true.mp writable item mem)

end FieldType

theorem Key.noneIsDefault (key : Key) : key.field.type.noneIsDefault = true := by
  cases key <;> decide

namespace AppConfig

variable {config : AppConfig} {key : Key}

def tomlMembers (config : AppConfig) (owner : Section) : List (String × Json Number) :=
  (Key.keys owner).filterMap fun key =>
    (key.field.type.toToml (config key)).map (key.field.name, ·)

def tomlDocument (config : AppConfig) : Json Number :=
  .object (sectioned config.tomlMembers)

def toToml (config : AppConfig) : Option (Json Number) :=
  if config.writable then some config.tomlDocument else none

theorem fieldsOnly_tomlMembers (config : AppConfig) : FieldsOnly config.tomlMembers := by
  intro owner entry mem
  rcases List.mem_filterMap.mp mem with ⟨key, isKey, isEntry⟩
  rcases Option.map_eq_some_iff.mp isEntry with ⟨value, -, rfl⟩
  exact ⟨key, isKey, rfl⟩

theorem at?_tomlDocument (config : AppConfig) (key : Key) :
    config.tomlDocument.at? key.path = key.field.type.toToml (config key) :=
  (at?_sectioned config.fieldsOnly_tomlMembers key).trans
    (lookup_filterMap (Key.names_nodup _) key.mem_keys)

def withDefaults (config : AppConfig) : AppConfig := fun key =>
  match key.field.type.toToml (config key) with
  | none => key.field.missing
  | some _ => config key

theorem fromValue_tomlDocument (writable : config.writable = true) :
    fromValue config.tomlDocument = some config.withDefaults := by
  have reads : ∀ key, readField config.tomlDocument key = some (config.withDefaults key) := by
    intro key
    rw [readField, at?_tomlDocument, withDefaults]
    cases isWritten : key.field.type.toToml (config key) with
    | none => rfl
    | some written =>
        exact FieldType.fromValue_of_toToml key.noneIsDefault isWritten (writable_at writable key)
  exact fromValue_eq_some (wellFormed_sectioned config.fieldsOnly_tomlMembers) reads

theorem missing_of_toToml (differs : key ≠ .rssHistoryLimit)
    (leftOut : key.field.type.toToml (config key) = none) : key.field.missing = config key := by
  generalize config key = value at leftOut
  cases key
  case rssHistoryLimit => exact absurd rfl differs
  all_goals first | cases leftOut | exact (Option.map_eq_none_iff.mp leftOut).symm

theorem withDefaults_of_ne (differs : key ≠ .rssHistoryLimit) :
    config.withDefaults key = config key := by
  unfold withDefaults
  split
  next leftOut => exact missing_of_toToml differs leftOut
  · rfl

theorem withDefaults_rssHistoryLimit :
    config.withDefaults .rssHistoryLimit = config .rssHistoryLimit ↔
      config .rssHistoryLimit ≠ none := by
  unfold withDefaults
  split
  next leftOut =>
    have isNone : config .rssHistoryLimit = none := Option.map_eq_none_iff.mp leftOut
    rw [isNone]
    exact ⟨fun same => (by cases same), fun some => absurd rfl some⟩
  next written isWritten =>
    refine ⟨fun _ isNone => ?_, fun _ => rfl⟩
    rw [isNone] at isWritten
    cases isWritten

end AppConfig

abbrev Server : Type := Item serverConfig.fields

namespace Server

def id : Server → String
  | (id, _) => id

def host : Server → String
  | (_, _, host, _) => host

def port : Server → ℕ
  | (_, _, _, port, _) => port.1

def withId (id : String) : Server → Server
  | (_, rest) => (id, rest)

def isBlank (server : Server) : Bool := trimString server.id = ""

/-- The ids that are tried: of the host and the port, and then with a number from 2. -/
def candidate (server : Server) (index : ℕ) : String :=
  let base := trimString server.host ++ "-" ++ toString server.port
  match index with
  | 0 => base
  | index + 1 => base ++ "-" ++ toString (index + 2)

end Server

def assignFrom (before : List Server) : List Server → List Server
  | [] => before
  | server :: servers =>
      if server.isBlank then
        let taken := (before ++ server :: servers).map Server.id
        assignFrom (before ++ [server.withId (firstFree server.candidate taken)]) servers
      else assignFrom (before ++ [server]) servers

namespace AppConfig

def servers (config : AppConfig) : List Server := config .servers

def assignMissingServerIds (config : AppConfig) : AppConfig :=
  config.set .servers (assignFrom [] config.servers)

def maxRssExpiryDays : ℕ := 36500

def normalizeRssExpiryDays (days : Option { days : ℕ // days ≤ u64Max }) :
    Option { days : ℕ // days ≤ u64Max } :=
  days.map fun days => ⟨min days.1 maxRssExpiryDays, (Nat.min_le_left _ _).trans days.2⟩

/-- What `read` does to what was parsed. -/
def normalize (config : AppConfig) : AppConfig :=
  let config := config.assignMissingServerIds
  config.set .rssDownloadedItemExpiryDays
    (normalizeRssExpiryDays (config .rssDownloadedItemExpiryDays))

def readToml (document : Json Number) : Option AppConfig := (fromValue document).map normalize

def configVersion : { version : ℕ // version ≤ u32Max } := ⟨1, by decide⟩

def migrate (config : AppConfig) : AppConfig :=
  if (config .configVersion).1 < configVersion.1 then config.set .configVersion configVersion
  else config

/-- What `AppConfig::load` makes of a file that is there. When it upgrades the configuration it
saves it too, and goes on when that fails. -/
def loadToml (document : Json Number) : Option AppConfig :=
  (readToml document).map migrate

end AppConfig

theorem isWhitespace_of_trim {text : List Char} (blank : trim text = []) :
    ∀ char ∈ text, isWhitespace char = true := by
  intro char mem
  have split := @List.takeWhile_append_dropWhile Char isWhitespace text
  rw [← split] at mem
  rcases List.mem_append.mp mem with leading | rest
  · exact List.mem_takeWhile_imp leading
  · exact List.rdropWhile_eq_nil_iff.mp blank char rest

namespace Server

variable {server : Server} {index : ℕ}

theorem dash_mem_candidate : '-' ∈ (server.candidate index).toList := by
  cases index <;> simp [candidate, String.toList_append]

theorem isBlank_withId_candidate : (server.withId (server.candidate index)).isBlank = false := by
  by_contra isBlank
  have empty : trimString (server.candidate index) = "" :=
    of_decide_eq_true (Bool.of_not_eq_false isBlank)
  have blank : trim (server.candidate index).toList = [] := by
    simpa [trimString] using congrArg String.toList empty
  exact absurd (isWhitespace_of_trim blank '-' dash_mem_candidate) (by decide)

end Server

theorem append_of_assignFrom (servers before : List Server) :
    ∃ assigned, assignFrom before servers = before ++ assigned := by
  induction servers generalizing before with
  | nil => exact ⟨[], (List.append_nil before).symm⟩
  | cons server servers ih =>
      rw [assignFrom]
      split
      all_goals
        rcases ih (before ++ [_]) with ⟨assigned, isAssigned⟩
        exact ⟨_ :: assigned, by rw [isAssigned, List.append_assoc, List.singleton_append]⟩

theorem assignFrom_eq_append_iff {before servers : List Server} :
    assignFrom before servers = before ++ servers ↔ ∀ server ∈ servers, server.isBlank = false := by
  induction servers generalizing before with
  | nil => simp [assignFrom]
  | cons server servers ih =>
      rw [assignFrom, List.forall_mem_cons]
      cases isBlank : server.isBlank with
      | true =>
          rw [if_pos rfl]
          refine ⟨fun same => ?_, fun each => absurd each.1 (by simp)⟩
          dsimp only at same
          generalize (before ++ server :: servers).map Server.id = taken at same
          rcases append_of_assignFrom servers
            (before ++ [server.withId (firstFree server.candidate taken)]) with
              ⟨assigned, isAssigned⟩
          rw [isAssigned, List.append_assoc, List.singleton_append, List.append_cancel_left_eq,
            List.cons_eq_cons] at same
          have named : (server.withId (firstFree server.candidate taken)).isBlank = false :=
            Server.isBlank_withId_candidate
          rw [same.1, isBlank] at named
          cases named
      | false =>
          have later :
              assignFrom (before ++ [server]) servers = before ++ [server] ++ servers ↔ _ := ih
          rw [List.append_assoc, List.singleton_append] at later
          simpa using later

namespace AppConfig

variable {config : AppConfig}

def Normal (config : AppConfig) : Prop :=
  config .rssHistoryLimit ≠ none ∧
    normalizeRssExpiryDays (config .rssDownloadedItemExpiryDays) =
      config .rssDownloadedItemExpiryDays ∧
    ∀ server ∈ config.servers, server.isBlank = false

def stamped (config : AppConfig) : AppConfig := config.set .configVersion configVersion

theorem normalize_rssDownloadedItemExpiryDays : config.normalize .rssDownloadedItemExpiryDays =
    normalizeRssExpiryDays (config .rssDownloadedItemExpiryDays) :=
  (set_self _ .rssDownloadedItemExpiryDays _).trans
    (congrArg normalizeRssExpiryDays (set_of_ne (by decide) config _))

theorem normalize_servers : config.normalize .servers = assignFrom [] config.servers :=
  (set_of_ne (by decide) config.assignMissingServerIds _).trans (set_self config .servers _)

theorem normalize_of_ne {key : Key} (expiry : key ≠ .rssDownloadedItemExpiryDays)
    (servers : key ≠ .servers) : config.normalize key = config key :=
  (set_of_ne expiry config.assignMissingServerIds _).trans (set_of_ne servers config _)

theorem normalize_withDefaults_eq_self_iff :
    config.withDefaults.normalize = config ↔ config.Normal := by
  have servers : config.withDefaults.servers = config.servers :=
    withDefaults_of_ne (show Key.servers ≠ .rssHistoryLimit by decide)
  constructor
  · intro same
    refine ⟨?_, ?_, ?_⟩
    · have limit := congrFun same .rssHistoryLimit
      rw [normalize_of_ne (by decide) (by decide)] at limit
      exact withDefaults_rssHistoryLimit.mp limit
    · have expiry := congrFun same .rssDownloadedItemExpiryDays
      rwa [normalize_rssDownloadedItemExpiryDays, withDefaults_of_ne (by decide)] at expiry
    · have assigned := congrFun same .servers
      rw [normalize_servers, servers] at assigned
      exact assignFrom_eq_append_iff.mp assigned
  · rintro ⟨limit, expiry, named⟩
    funext key
    by_cases isServers : key = .servers
    · subst isServers
      rw [normalize_servers, servers]
      exact assignFrom_eq_append_iff.mpr named
    · by_cases isExpiry : key = .rssDownloadedItemExpiryDays
      · subst isExpiry
        rw [normalize_rssDownloadedItemExpiryDays, withDefaults_of_ne (by decide), expiry]
      · rw [normalize_of_ne isExpiry isServers]
        by_cases isLimit : key = .rssHistoryLimit
        · subst isLimit
          exact withDefaults_rssHistoryLimit.mpr limit
        · exact withDefaults_of_ne isLimit

theorem stamped_of_ne {key : Key} (differs : key ≠ .configVersion) :
    config.stamped key = config key :=
  set_of_ne differs config _

theorem normal_stamped_iff : config.stamped.Normal ↔ config.Normal := by
  unfold Normal servers
  rw [stamped_of_ne (by decide), stamped_of_ne (by decide), stamped_of_ne (by decide)]

theorem loadToml_tomlDocument_iff (writable : config.stamped.writable = true) :
    loadToml config.stamped.tomlDocument = some config.stamped ↔ config.Normal := by
  have current : config.stamped.withDefaults.normalize .configVersion = configVersion := by
    rw [normalize_of_ne (by decide) (by decide), withDefaults_of_ne (by decide)]
    exact set_self config .configVersion _
  have kept : migrate config.stamped.withDefaults.normalize =
      config.stamped.withDefaults.normalize := by
    rw [migrate, current, if_neg (lt_irrefl _)]
  rw [loadToml, readToml, fromValue_tomlDocument writable, Option.map_some, Option.map_some, kept,
    Option.some_inj, normalize_withDefaults_eq_self_iff, normal_stamped_iff]

end AppConfig

end Rustnzb.Core.Config
