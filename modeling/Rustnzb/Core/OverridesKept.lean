import Rustnzb.Core.Overrides

/-!
# Overrides stay out of the file

The typed overrides are kept out of the file and put over it field by field. The others go through
a document, and the document gives up silently: where the file has no value for
`general.log_level_before_debug`, beside a completion percentage that is not finite, and behind a
data directory that is not Unicode.
-/

namespace Rustnzb.Core.Config

open Lib

def Kind.fits : Kind → FieldType → Bool
  | .bool, .item (.plain .bool) | .bool, .item (.option .bool) => true
  | .u64 _ max, .item (.plain (.uint bound)) | .u64 _ max, .item (.option (.uint bound))
  | .usize _ max, .item (.plain (.uint bound)) | .usize _ max, .item (.option (.uint bound))
  | .u16 _ max, .item (.plain (.uint bound)) | .u8 _ max, .item (.plain (.uint bound)) =>
      max ≤ bound
  | .f64 .., .float => true
  | .path optional, .item (.plain .path) => !optional
  | .path _, .item (.option .path) => true
  | .string optional _, .item (.plain .text) => !optional
  | .string .., .item (.option .text) => true
  | .secret optional, .item (.plain .text) => !optional
  | .secret _, .item (.option .text) => true
  | .enum _, .item (.plain .text) => true
  | .enum values, .item (.plain (.enum names)) => values.all (· ∈ names)
  | .stringList, .item .texts => true
  | _, _ => false

theorem fits_of_kind {key : Key} {kind : Kind} (isKind : key.field.kind = some kind) :
    kind.fits key.field.type = true := by
  revert kind
  cases key <;> rintro kind ⟨⟩ <;> decide

def Given (type : FieldType) (value : Json Number) : Prop :=
  ∃ new, type.fromValue value = some new ∧ type.writable new = true ∧ type.readable new = true

variable {checked : Json Number}

theorem textValue_cases {value : Json Number} {optional : Bool} {maxLen : Option ℕ}
    (accepts : textValue value optional maxLen = some checked) :
    (checked = .null ∧ optional = true) ∨ ∃ text, checked = .string text := by
  unfold textValue at accepts
  split at accepts
  · split at accepts
    · cases accepts
      exact .inl ⟨rfl, ‹_›⟩
    · cases accepts
  · split at accepts
    · split at accepts
      · cases accepts
        exact .inl ⟨rfl, ‹_›⟩
      · cases accepts
    · split at accepts
      · cases accepts
      · cases accepts
        exact .inr ⟨_, rfl⟩
  · cases accepts

theorem boundedU64_eq {value : Json Number} {min max : ℕ}
    (accepts : boundedU64 value min max = some checked) :
    ∃ number ≤ max, checked = .number (.int number) := by
  rcases Option.bind_eq_some_iff.mp accepts with ⟨number, -, bounded⟩
  split at bounded
  · cases bounded
  next inside =>
    cases bounded
    exact ⟨number, by omega, rfl⟩

theorem given_uint {number bound : ℕ} (fits : number ≤ bound) :
    Given (.item (.plain (.uint bound))) (.number (.int number)) :=
  ⟨⟨number, fits⟩, by simp [FieldType.fromValue, ItemType.fromValue, PlainType.fromValue, fits],
    rfl, rfl⟩

theorem given_option {type : PlainType} {value : Json Number} (isValue : value ≠ .null)
    (given : Given (.item (.plain type)) value) : Given (.item (.option type)) value := by
  rcases given with ⟨new, reads, writable, -⟩
  refine ⟨some new, ?_, writable, rfl⟩
  have plain : type.fromValue value = some new := reads
  rw [FieldType.fromValue, ItemType.fromValue, plain]
  · rfl
  · exact isValue

theorem given_null (type : PlainType) : Given (.item (.option type)) .null := ⟨none, rfl, rfl, rfl⟩

theorem given_text (text : String) : Given (.item (.plain .text)) (.string text) :=
  ⟨text, rfl, rfl, rfl⟩

theorem given_path (text : String) : Given (.item (.plain .path)) (.string text) :=
  ⟨.unicode text, rfl, rfl, rfl⟩

theorem enum_eq {values : List String} {value : Json Number}
    (accepts : validateValue (.enum values) value = some checked) :
    ∃ text ∈ values, checked = .string text := by
  rcases value with _ | _ | _ | text | _ | _
  case string =>
    simp only [validateValue] at accepts
    split at accepts
    next mem =>
      cases accepts
      exact ⟨text, mem, rfl⟩
    · cases accepts
  all_goals cases accepts

theorem given_of_textValue {type : PlainType} {value : Json Number} {optional : Bool}
    {maxLen : Option ℕ} (given : ∀ text, Given (.item (.plain type)) (.string text))
    (accepts : textValue value optional maxLen = some checked) :
    (optional = false → Given (.item (.plain type)) checked) ∧
      Given (.item (.option type)) checked := by
  rcases textValue_cases accepts with ⟨rfl, isOptional⟩ | ⟨text, rfl⟩
  · exact ⟨fun required => by simp [required] at isOptional, given_null type⟩
  · exact ⟨fun _ => given text, given_option (by simp) (given text)⟩

theorem given_of_boundedU64 {value : Json Number} {min max bound : ℕ} (fits : max ≤ bound)
    (accepts : boundedU64 value min max = some checked) :
    Given (.item (.plain (.uint bound))) checked ∧
      Given (.item (.option (.uint bound))) checked := by
  rcases boundedU64_eq accepts with ⟨number, inside, rfl⟩
  have plain := given_uint (inside.trans fits)
  exact ⟨plain, given_option (by simp) plain⟩

theorem given_of_validateValue {kind : Kind} {type : FieldType} {value : Json Number}
    (fits : kind.fits type = true) (accepts : validateValue kind value = some checked) :
    Given type checked := by
  revert fits
  fun_cases Kind.fits kind type <;> intro fits
  case case1 =>
    rcases Option.map_eq_some_iff.mp accepts with ⟨flag, -, rfl⟩
    exact ⟨flag, rfl, rfl, rfl⟩
  case case2 =>
    rcases Option.map_eq_some_iff.mp accepts with ⟨flag, -, rfl⟩
    exact ⟨some flag, rfl, rfl, rfl⟩
  case case3 => exact (given_of_boundedU64 (of_decide_eq_true fits) accepts).1
  case case4 => exact (given_of_boundedU64 (of_decide_eq_true fits) accepts).2
  case case5 => exact (given_of_boundedU64 (of_decide_eq_true fits) accepts).1
  case case6 => exact (given_of_boundedU64 (of_decide_eq_true fits) accepts).2
  case case7 => exact (given_of_boundedU64 (of_decide_eq_true fits) accepts).1
  case case8 => exact (given_of_boundedU64 (of_decide_eq_true fits) accepts).1
  case case9 =>
    rcases Option.bind_eq_some_iff.mp accepts with ⟨number, -, inside⟩
    split at inside
    · cases inside
    next bounded =>
      cases inside
      have finite : number.isFinite = true := by
        by_contra infinite
        exact bounded (.inl (by simpa using infinite))
      exact ⟨number, rfl, rfl, finite⟩
  case case10 => exact (given_of_textValue given_path accepts).1 (by simpa using fits)
  case case11 => exact (given_of_textValue given_path accepts).2
  case case12 => exact (given_of_textValue given_text accepts).1 (by simpa using fits)
  case case13 => exact (given_of_textValue given_text accepts).2
  case case14 => exact (given_of_textValue given_text accepts).1 (by simpa using fits)
  case case15 => exact (given_of_textValue given_text accepts).2
  case case16 values =>
    rcases enum_eq accepts with ⟨text, -, rfl⟩
    exact given_text text
  case case17 values names =>
    rcases enum_eq accepts with ⟨text, mem, rfl⟩
    have named : text ∈ names := of_decide_eq_true (List.all_eq_true.mp fits text mem)
    exact ⟨⟨text, named⟩, by simp [FieldType.fromValue, ItemType.fromValue, PlainType.fromValue,
      named],
      rfl, rfl⟩
  case case18 =>
    rcases value with _ | _ | _ | _ | items | _
    case array =>
      rcases Option.map_eq_some_iff.mp accepts with ⟨texts, -, rfl⟩
      exact ⟨texts, mapM_map_eq_some fun _ _ => rfl, rfl, rfl⟩
    all_goals cases accepts
  case case19 => cases fits

theorem given_of_genericEnvOverride {parseF64 : String → Option F64}
    {readFile : String → Option String} {name raw : String} {key : Key} {value : Json Number}
    (parsed : genericEnvOverride parseF64 readFile name raw = some (key, value)) :
    Given key.field.type value := by
  unfold genericEnvOverride at parsed
  split at parsed
  · cases parsed
  · split at parsed
    · cases parsed
    · rcases Option.bind_eq_some_iff.mp parsed with ⟨⟨found, kind⟩, isSetting, rest⟩
      rcases Option.bind_eq_some_iff.mp isSetting with ⟨other, -, hasKind⟩
      rcases Option.map_eq_some_iff.mp hasKind with ⟨_, isKind, same⟩
      cases same
      dsimp only at rest
      split at rest
      · cases rest
      · split at rest
        · cases rest
        · split at rest
          · cases rest
          · rcases Option.bind_eq_some_iff.mp rest with ⟨text, -, rest⟩
            rcases Option.bind_eq_some_iff.mp rest with ⟨raw, -, rest⟩
            rcases Option.map_eq_some_iff.mp rest with ⟨checked, accepts, same⟩
            cases same
            exact given_of_validateValue (fits_of_kind isKind) accepts

section Startup

variable {parseF64 : String → Option F64} {readFile : String → Option String}
  {overrides : OverrideSet} {P : OverrideValue → Prop}

theorem OverrideSet.forall_set (each : ∀ entry ∈ overrides.entries, P entry.value)
    {value : OverrideValue} (source : OverrideSource) (isValue : P value) :
    ∀ entry ∈ (overrides.set value source).entries, P entry.value := by
  intro entry mem
  rcases List.mem_append.mp mem with old | new
  · exact each entry (List.mem_of_mem_filter old)
  · rw [List.mem_singleton.mp new]
    exact isValue

theorem forall_applyGenericEnv (vars : List (String × String))
    (each : ∀ entry ∈ overrides.entries, P entry.value) (parsed : ∀ name raw key value,
      genericEnvOverride parseF64 readFile name raw = some (key, value) → P (.json key value)) :
    ∀ entry ∈ (applyGenericEnv parseF64 readFile overrides vars).entries, P entry.value := by
  induction vars generalizing overrides with
  | nil => exact each
  | cons var vars ih =>
      rcases var with ⟨name, raw⟩
      apply ih
      dsimp only
      split
      · exact each
      next key value isParsed =>
        split
        · exact each
        · exact OverrideSet.forall_set each _ (parsed name raw key value isParsed)

theorem fromStartup_applyGenericEnv (vars : List (String × String))
    (startup : overrides.FromStartup parseF64 readFile) :
    (applyGenericEnv parseF64 readFile overrides vars).FromStartup parseF64 readFile :=
  forall_applyGenericEnv vars startup fun name raw _ _ parsed => ⟨name, raw, parsed⟩

end Startup

namespace AppConfig

theorem writable_iff {config : AppConfig} :
    config.writable = true ↔ ∀ key : Key, key.field.type.writable (config key) = true :=
  ⟨writable_at, fun each => List.all_eq_true.mpr fun key _ => each key⟩

theorem writable_set {config : AppConfig} {key : Key} {value : key.Value}
    (writable : config.writable = true) (isWritable : key.field.type.writable value = true) :
    (config.set key value).writable = true := by
  rw [writable_iff] at writable ⊢
  intro other
  by_cases same : other = key
  · subst same
    rw [set_self]
    exact isWritable
  · rw [set_of_ne same]
    exact writable other

theorem finite_set_of_ne {config : AppConfig} {key : Key} (differs : key ≠ .requiredCompletionPct)
    (value : key.Value) : (config.set key value).finite = config.finite := by
  rw [finite, finite, set_of_ne differs.symm]

end AppConfig

namespace OverrideValue

def isJson : OverrideValue → Bool
  | json .. => true
  | _ => false

def isOpaque : OverrideValue → Bool
  | dataDir dir => !dir.isUnicode
  | _ => false

variable {value : OverrideValue} {file next config : AppConfig}

theorem key_ne_of_typed (typed : value.isJson = false) : value.key ≠ .requiredCompletionPct := by
  cases value
  case json => cases typed
  all_goals exact fun same => by cases same

theorem keepFileValue_of_typed (typed : value.isJson = false) :
    value.keepFileValue file next = next.set value.key (file value.key) := by
  cases value
  case json => cases typed
  all_goals rfl

theorem apply_of_typed (typed : value.isJson = false) :
    ∃ new, value.given = some new ∧ (∀ config, value.apply config = config.set value.key new) ∧
      (value.key.field.type.writable new = !value.isOpaque) := by
  cases value
  case json => cases typed
  case dataDir dir => exact ⟨dir, rfl, fun _ => rfl, by cases dir <;> rfl⟩
  all_goals exact ⟨_, rfl, fun _ => rfl, rfl⟩

def Copies (file next : AppConfig) (value : OverrideValue) : Prop :=
  value.isJson = true → file.Offers value.key ∧ next.Carries value.key

theorem keepFileValue_eq_set (copies : value.Copies file next) :
    value.keepFileValue file next = next.set value.key (file value.key) := by
  cases typed : value.isJson with
  | false => exact keepFileValue_of_typed typed
  | true =>
      rcases copies typed with ⟨offers, carries⟩
      cases value
      case json key value => exact AppConfig.copyJsonLeaf_eq_update offers carries
      all_goals cases typed

theorem keepFileValue_eq_self (fails : ¬value.Copies file next) :
    value.keepFileValue file next = next := by
  cases value
  case json key value => exact AppConfig.copyJsonLeaf_eq_self fun both => fails fun _ => both
  all_goals exact absurd (fun json => by cases json) fails

theorem keepFileValue_of_ne {key : Key} (differs : key ≠ value.key) :
    value.keepFileValue file next key = next key := by
  by_cases copies : value.Copies file next
  · rw [keepFileValue_eq_set copies, AppConfig.set_of_ne differs]
  · rw [keepFileValue_eq_self copies]

end OverrideValue

section Fold

variable {step : AppConfig → Override → AppConfig} {config : AppConfig}

theorem foldl_of_not_mem
    (isLocal : ∀ config entry key, key ≠ entry.value.key → step config entry key = config key)
    {entries : List Override} {key : Key} (fresh : ∀ entry ∈ entries, entry.value.key ≠ key) :
    entries.foldl step config key = config key := by
  induction entries generalizing config with
  | nil => rfl
  | cons entry entries ih =>
      rw [List.foldl_cons, ih fun other mem => fresh other (List.mem_cons_of_mem _ mem)]
      exact isLocal config entry key (fresh entry List.mem_cons_self).symm

theorem foldl_at
    (isLocal : ∀ config entry key, key ≠ entry.value.key → step config entry key = config key)
    {before after : List Override} {entry : Override}
    (distinct : ((before ++ entry :: after).map fun entry => entry.value.key).Nodup) :
    (before ++ entry :: after).foldl step config entry.value.key =
        step (before.foldl step config) entry entry.value.key ∧
      before.foldl step config entry.value.key = config entry.value.key := by
  rw [List.map_append, List.map_cons, List.nodup_append, List.nodup_cons] at distinct
  rcases distinct with ⟨-, ⟨notAfter, -⟩, apart⟩
  constructor
  · rw [List.foldl_append, List.foldl_cons]
    apply foldl_of_not_mem isLocal
    intro other mem same
    exact notAfter (same ▸ List.mem_map_of_mem mem)
  · apply foldl_of_not_mem isLocal
    intro other mem same
    exact apart _ (List.mem_map_of_mem mem) _ List.mem_cons_self same

end Fold

/-! ## The file layer -/

section Keep

variable {file next : AppConfig} {entries : List Override}

def keepList (file : AppConfig) (entries : List Override) (next : AppConfig) : AppConfig :=
  entries.foldl (fun next entry => entry.value.keepFileValue file next) next

theorem keepFileValue_isLocal (next : AppConfig) (entry : Override) (key : Key)
    (differs : key ≠ entry.value.key) : entry.value.keepFileValue file next key = next key :=
  OverrideValue.keepFileValue_of_ne differs

variable {value : OverrideValue}

theorem writable_keepFileValue (unicode : file.writable = true) (writable : next.writable = true) :
    (value.keepFileValue file next).writable = true := by
  by_cases copies : value.Copies file next
  · rw [OverrideValue.keepFileValue_eq_set copies]
    exact AppConfig.writable_set writable (AppConfig.writable_at unicode _)
  · rw [OverrideValue.keepFileValue_eq_self copies]
    exact writable

theorem writable_keepList (unicode : file.writable = true) (writable : next.writable = true) :
    (keepList file entries next).writable = true := by
  induction entries generalizing next with
  | nil => exact writable
  | cons entry entries ih => exact ih (writable_keepFileValue unicode writable)

def Ready (file : AppConfig) (finite : Bool) (value : OverrideValue) : Prop :=
  value.isJson = true → file.present value.key = true ∧
    (value.key = .requiredCompletionPct → file.finite = true) ∧
      (value.key = .requiredCompletionPct ∨ finite = true)

theorem copies_iff_ready (unicode : file.writable = true) (writable : next.writable = true) :
    value.Copies file next ↔ Ready file next.finite value := by
  constructor
  · intro copies json
    rcases copies json with ⟨offers, carries⟩
    exact ⟨offers.2.1, offers.2.2, carries.2⟩
  · intro ready json
    rcases ready json with ⟨isPresent, isFinite, beside⟩
    exact ⟨⟨unicode, isPresent, isFinite⟩, writable, beside⟩

theorem Ready.of_finite {finite : Bool} (ready : Ready file finite value) :
    Ready file true value := by
  intro json
  rcases ready json with ⟨isPresent, isFinite, -⟩
  exact ⟨isPresent, isFinite, .inr rfl⟩

theorem finite_keepFileValue {finite : Bool} (isFinite : next.finite = finite)
    (steady : value.key = .requiredCompletionPct → file.finite = true → finite = true)
    (unicode : file.writable = true) (writable : next.writable = true) :
    (value.keepFileValue file next).finite = finite := by
  by_cases copies : value.Copies file next
  · rw [OverrideValue.keepFileValue_eq_set copies]
    by_cases isNumber : value.key = .requiredCompletionPct
    · have json : value.isJson = true := by
        by_contra typed
        exact OverrideValue.key_ne_of_typed (Bool.of_not_eq_true typed) isNumber
      have fileFinite := ((copies_iff_ready unicode writable).mp copies json).2.1 isNumber
      rw [steady isNumber fileFinite, AppConfig.finite]
      have copied : next.set value.key (file value.key) .requiredCompletionPct =
          file .requiredCompletionPct := by
        rw [← isNumber]
        exact AppConfig.set_self next value.key _
      rw [copied]
      exact fileFinite
    · rw [AppConfig.finite_set_of_ne isNumber, isFinite]
  · rw [OverrideValue.keepFileValue_eq_self copies, isFinite]

theorem finite_keepList {finite : Bool} (isFinite : next.finite = finite)
    (steady : ∀ entry ∈ entries, entry.value.key = .requiredCompletionPct → file.finite = true →
      finite = true) (unicode : file.writable = true) (writable : next.writable = true) :
    (keepList file entries next).finite = finite := by
  induction entries generalizing next with
  | nil => exact isFinite
  | cons entry entries ih =>
      apply ih
      · exact finite_keepFileValue isFinite (steady entry List.mem_cons_self) unicode writable
      · exact fun other mem => steady other (List.mem_cons_of_mem _ mem)
      · exact writable_keepFileValue unicode writable

theorem keepList_split (file next : AppConfig) {before after : List Override} {entry : Override}
    (distinct : ((before ++ entry :: after).map fun entry => entry.value.key).Nodup) :
    keepList file (before ++ entry :: after) next entry.value.key =
        entry.value.keepFileValue file (keepList file before next) entry.value.key ∧
      keepList file before next entry.value.key = next entry.value.key :=
  foldl_at keepFileValue_isLocal distinct

theorem keepList_at {finite : Bool} (isFinite : next.finite = finite)
    (steady : ∀ entry ∈ entries, entry.value.key = .requiredCompletionPct → file.finite = true →
      finite = true) (unicode : file.writable = true) (writable : next.writable = true)
    (distinct : (entries.map fun entry => entry.value.key).Nodup) {entry : Override}
    (mem : entry ∈ entries) :
    (Ready file finite entry.value →
        keepList file entries next entry.value.key = file entry.value.key) ∧
      (¬Ready file finite entry.value →
        keepList file entries next entry.value.key = next entry.value.key) := by
  rcases List.mem_iff_append.mp mem with ⟨before, after, rfl⟩
  have steadyBefore : (keepList file before next).finite = finite :=
    finite_keepList isFinite (fun other isBefore => steady other (List.mem_append_left _ isBefore))
      unicode writable
  have writableBefore : (keepList file before next).writable = true :=
    writable_keepList unicode writable
  rcases keepList_split file next distinct with ⟨result, untouched⟩
  have copies :
      entry.value.Copies file (keepList file before next) ↔ Ready file finite entry.value :=
    steadyBefore ▸ copies_iff_ready unicode writableBefore
  constructor
  · intro ready
    rw [result, OverrideValue.keepFileValue_eq_set (copies.mpr ready), AppConfig.set_self]
  · intro unready
    rw [result, OverrideValue.keepFileValue_eq_self fun fits => unready (copies.mp fits), untouched]

theorem keepList_at_of_not_ready (unicode : file.writable = true) (writable : next.writable = true)
    (distinct : (entries.map fun entry => entry.value.key).Nodup) {entry : Override}
    (mem : entry ∈ entries) (unready : ¬Ready file true entry.value) :
    keepList file entries next entry.value.key = next entry.value.key := by
  rcases List.mem_iff_append.mp mem with ⟨before, after, rfl⟩
  rcases keepList_split file next distinct with ⟨result, untouched⟩
  rw [result, OverrideValue.keepFileValue_eq_self, untouched]
  · intro copies
    exact unready
      ((copies_iff_ready unicode (writable_keepList unicode writable)).mp copies).of_finite

theorem finite_keepList_of_mem (unicode : file.writable = true) (writable : next.writable = true)
    (distinct : (entries.map fun entry => entry.value.key).Nodup) {entry : Override}
    (mem : entry ∈ entries) (isNumber : entry.value.key = .requiredCompletionPct)
    (fileFinite : file.finite = true) : (keepList file entries next).finite = true := by
  rcases List.mem_iff_append.mp mem with ⟨before, after, rfl⟩
  rcases keepList_split file next distinct with ⟨result, -⟩
  have ready {finite : Bool} : Ready file finite entry.value := fun _ =>
    ⟨AppConfig.present_of_ne (by rw [isNumber]; decide), fun _ => fileFinite, .inl isNumber⟩
  have copied : keepList file (before ++ entry :: after) next entry.value.key =
      file entry.value.key := by
    rw [result, OverrideValue.keepFileValue_eq_set
      ((copies_iff_ready unicode (writable_keepList unicode writable)).mpr ready),
      AppConfig.set_self]
  rw [isNumber] at copied
  rw [AppConfig.finite, copied]
  exact fileFinite

end Keep

section Saved

variable {overrides : OverrideSet} {file next : AppConfig}

/-- A percentage that is finite stands beside the leaf when it is copied: the one of the edit or,
where it is overridden, the one of the file. -/
def beside (overrides : OverrideSet) (file next : AppConfig) : Bool :=
  next.finite || (overrides.has .requiredCompletionPct && file.finite)

theorem keepFileValues_of_not_has {key : Key} (free : ¬overrides.has key) :
    overrides.keepFileValues next file key = next key :=
  foldl_of_not_mem keepFileValue_isLocal fun entry mem same => free ⟨entry, mem, same⟩

/-- Both passes of an update. The second one reaches what the first could not. -/
theorem keepFileValues_twice (unicode : file.writable = true) (writable : next.writable = true)
    {entry : Override} (mem : entry ∈ overrides.entries) :
    (Ready file (beside overrides file next) entry.value →
        overrides.keepFileValues (overrides.keepFileValues next file) file entry.value.key =
          file entry.value.key) ∧
      (¬Ready file (beside overrides file next) entry.value →
        overrides.keepFileValues (overrides.keepFileValues next file) file entry.value.key =
          next entry.value.key) := by
  have distinct := overrides.distinct
  have writableOnce : (overrides.keepFileValues next file).writable = true :=
    writable_keepList unicode writable
  by_cases reachable : beside overrides file next = true
  · rw [reachable]
    have finiteOnce : (overrides.keepFileValues next file).finite = true := by
      rw [beside, Bool.or_eq_true, Bool.and_eq_true, decide_eq_true_eq] at reachable
      rcases reachable with isFinite | ⟨⟨number, isEntry, isNumber⟩, fileFinite⟩
      · exact finite_keepList isFinite (fun _ _ _ _ => rfl) unicode writable
      · exact finite_keepList_of_mem unicode writable distinct isEntry isNumber fileFinite
    rcases keepList_at finiteOnce (fun _ _ _ _ => rfl) unicode writableOnce distinct mem with
      ⟨ready, unready⟩
    refine ⟨ready, fun fails => (unready fails).trans ?_⟩
    exact keepList_at_of_not_ready unicode writable distinct mem fails
  · rw [Bool.of_not_eq_true reachable]
    have isInfinite : next.finite = false := by
      by_contra isFinite
      exact reachable (by simp [beside, Bool.of_not_eq_false isFinite])
    have steady : ∀ entry ∈ overrides.entries, entry.value.key = .requiredCompletionPct →
        file.finite = true → false = true := by
      intro number isEntry isNumber fileFinite
      have isOverridden : overrides.has .requiredCompletionPct := ⟨number, isEntry, isNumber⟩
      exact absurd (by simp [beside, isOverridden, fileFinite]) reachable
    have infiniteOnce : (overrides.keepFileValues next file).finite = false :=
      finite_keepList isInfinite steady unicode writable
    rcases keepList_at infiniteOnce steady unicode writableOnce distinct mem with ⟨ready, unready⟩
    refine ⟨ready, fun fails => (unready fails).trans ?_⟩
    exact (keepList_at isInfinite steady unicode writable distinct mem).2 fails

def target (overrides : OverrideSet) (file next : AppConfig) : AppConfig := fun key =>
  if overrides.has key then file key else next key

/-- The document lets every value of the file through that the edit has changed. -/
def Keepable (overrides : OverrideSet) (file next : AppConfig) : Prop :=
  ∀ entry ∈ overrides.entries,
    Ready file (beside overrides file next) entry.value ∨
      next entry.value.key = file entry.value.key

theorem keepFileValues_twice_eq_iff (unicode : file.writable = true)
    (writable : next.writable = true) :
    overrides.keepFileValues (overrides.keepFileValues next file) file =
      target overrides file next ↔
      Keepable overrides file next := by
  constructor
  · intro same entry mem
    rcases keepFileValues_twice unicode writable mem with ⟨-, unready⟩
    by_cases ready : Ready file (beside overrides file next) entry.value
    · exact .inl ready
    · have kept := congrFun same entry.value.key
      rw [unready ready, target, if_pos ⟨entry, mem, rfl⟩] at kept
      exact .inr kept
  · intro keepable
    funext key
    rw [target]
    split
    next isOverridden =>
      rcases isOverridden with ⟨entry, mem, rfl⟩
      rcases keepFileValues_twice unicode writable mem with ⟨copied, untouched⟩
      by_cases ready : Ready file (beside overrides file next) entry.value
      · exact copied ready
      · rw [untouched ready]
        exact (keepable entry mem).resolve_left ready
    next free => rw [keepFileValues_of_not_has free, keepFileValues_of_not_has free]

theorem writable_target (unicode : file.writable = true) (writable : next.writable = true) :
    (target overrides file next).writable = true := by
  rw [AppConfig.writable_iff]
  intro key
  rw [target]
  split
  · exact AppConfig.writable_at unicode key
  · exact AppConfig.writable_at writable key

end Saved

/-! ## The effective configuration -/

section Overlay

variable {parseF64 : String → Option F64} {readFile : String → Option String}
  {overrides : OverrideSet} {saved config : AppConfig} {entries : List Override}
  {value : OverrideValue}

namespace OverrideValue

theorem exists_given (startup : value.FromStartup parseF64 readFile) :
    ∃ new, value.given = some new ∧
      (value.isJson = true → value.key.field.type.writable new = true ∧
        value.key.field.type.readable new = true) := by
  cases typed : value.isJson with
  | false =>
      rcases apply_of_typed typed with ⟨new, given, -, -⟩
      exact ⟨new, given, fun json => by cases json⟩
  | true =>
      cases value
      case json key value =>
        rcases startup with ⟨name, raw, parsed⟩
        rcases given_of_genericEnvOverride parsed with ⟨new, reads, writable, readable⟩
        exact ⟨new, reads, fun _ => ⟨writable, readable⟩⟩
      all_goals cases typed

theorem apply_eq_set {new : value.key.Value} (given : value.given = some new)
    (carries : value.isJson = true → config.Carries value.key) :
    value.apply config = config.set value.key new := by
  cases typed : value.isJson with
  | false =>
      rcases apply_of_typed typed with ⟨other, isGiven, applies, -⟩
      cases given.symm.trans isGiven
      exact applies config
  | true =>
      have beside := carries typed
      cases value
      case json key value => exact AppConfig.applyJsonLeaf_eq_update beside given
      all_goals cases typed

theorem apply_eq_self (json : value.isJson = true) (fails : ¬config.Carries value.key) :
    value.apply config = config := by
  cases value
  case json key value => exact AppConfig.applyJsonLeaf_eq_self_of_not_carries fails
  all_goals cases json

theorem apply_cases (startup : value.FromStartup parseF64 readFile) (config : AppConfig) :
    (∃ new, value.given = some new ∧ value.apply config = config.set value.key new) ∨
      value.isJson = true ∧ ¬config.Carries value.key ∧ value.apply config = config := by
  rcases exists_given startup with ⟨new, given, -⟩
  by_cases carries : value.isJson = true → config.Carries value.key
  · exact .inl ⟨new, given, apply_eq_set given carries⟩
  · rw [Classical.not_imp] at carries
    exact .inr ⟨carries.1, carries.2, apply_eq_self carries.1 carries.2⟩

theorem apply_of_ne {key : Key} (differs : key ≠ value.key) (config : AppConfig) :
    value.apply config key = config key := by
  cases typed : value.isJson with
  | false =>
      rcases apply_of_typed typed with ⟨new, -, applies, -⟩
      rw [applies, AppConfig.set_of_ne differs]
  | true =>
      cases value
      case json other value =>
        change config.applyJsonLeaf other value key = config key
        change key ≠ other at differs
        by_cases carries : config.Carries other
        · cases reads : other.field.type.fromValue value with
          | none => rw [AppConfig.applyJsonLeaf_eq_self_of_unread reads]
          | some new =>
              rw [AppConfig.applyJsonLeaf_eq_update carries reads, AppConfig.set_of_ne differs]
        · rw [AppConfig.applyJsonLeaf_eq_self_of_not_carries carries]
      all_goals cases typed

theorem writable_apply (startup : value.FromStartup parseF64 readFile)
    (clear : value.isOpaque = false) (writable : config.writable = true) :
    (value.apply config).writable = true := by
  cases typed : value.isJson with
  | false =>
      rcases apply_of_typed typed with ⟨new, -, applies, isWritable⟩
      rw [applies]
      exact AppConfig.writable_set writable (isWritable.trans (by rw [clear]; rfl))
  | true =>
      rcases exists_given startup with ⟨new, given, both⟩
      rcases apply_cases startup config with ⟨other, isGiven, applied⟩ | ⟨-, -, applied⟩
      · cases given.symm.trans isGiven
        rw [applied]
        exact AppConfig.writable_set writable (both typed).1
      · rw [applied]
        exact writable

end OverrideValue

def applyList (entries : List Override) (config : AppConfig) : AppConfig :=
  entries.foldl (fun config entry => entry.value.apply config) config

theorem applyList_split (config : AppConfig) {before after : List Override} {entry : Override}
    (distinct : ((before ++ entry :: after).map fun entry => entry.value.key).Nodup) :
    applyList (before ++ entry :: after) config entry.value.key =
        entry.value.apply (applyList before config) entry.value.key ∧
      applyList before config entry.value.key = config entry.value.key :=
  foldl_at (fun config _ _ differs => OverrideValue.apply_of_ne differs config) distinct

theorem applyList_of_not_mem {key : Key} (fresh : ∀ entry ∈ entries, entry.value.key ≠ key) :
    applyList entries config key = config key :=
  foldl_of_not_mem (fun config _ _ differs => OverrideValue.apply_of_ne differs config) fresh

theorem writable_applyList_iff
    (startup : ∀ entry ∈ entries, entry.value.FromStartup parseF64 readFile)
    (distinct : (entries.map fun entry => entry.value.key).Nodup)
    (writable : config.writable = true) :
    (applyList entries config).writable = true ↔
      ∀ entry ∈ entries, entry.value.isOpaque = false := by
  constructor
  · intro writableAll entry mem
    cases typed : entry.value.isJson with
    | true =>
        rcases entry with ⟨value, source⟩
        cases value
        case json => rfl
        all_goals cases typed
    | false =>
        rcases List.mem_iff_append.mp mem with ⟨before, after, rfl⟩
        rcases OverrideValue.apply_of_typed typed with ⟨new, -, applies, isWritable⟩
        have kept := AppConfig.writable_at writableAll entry.value.key
        rw [(applyList_split config distinct).1, applies, AppConfig.set_self, isWritable] at kept
        simpa using kept
  · intro clear
    clear distinct
    induction entries generalizing config with
    | nil => exact writable
    | cons entry entries ih =>
        apply ih
        · exact fun other mem => startup other (List.mem_cons_of_mem _ mem)
        · exact OverrideValue.writable_apply (startup entry List.mem_cons_self)
            (clear entry List.mem_cons_self) writable
        · exact fun other mem => clear other (List.mem_cons_of_mem _ mem)

theorem finite_applyList_iff
    (startup : ∀ entry ∈ entries, entry.value.FromStartup parseF64 readFile)
    (distinct : (entries.map fun entry => entry.value.key).Nodup)
    (writable : config.writable = true) (clear : ∀ entry ∈ entries, entry.value.isOpaque = false) :
    (applyList entries config).finite = true ↔
      config.finite = true ∨ ∃ entry ∈ entries, entry.value.key = .requiredCompletionPct := by
  by_cases isOverridden : ∃ entry ∈ entries, entry.value.key = .requiredCompletionPct
  · refine iff_of_true ?_ (.inr isOverridden)
    rcases isOverridden with ⟨entry, mem, isNumber⟩
    have fromStartup := startup entry mem
    rcases List.mem_iff_append.mp mem with ⟨before, after, rfl⟩
    have json : entry.value.isJson = true := by
      by_contra typed
      exact OverrideValue.key_ne_of_typed (Bool.of_not_eq_true typed) isNumber
    have writableBefore : (applyList before config).writable = true :=
      (writable_applyList_iff (fun other isBefore =>
        startup other (List.mem_append_left _ isBefore))
        (by rw [List.map_append] at distinct; exact (List.nodup_append.mp distinct).1)
        writable).mpr fun other isBefore => clear other (List.mem_append_left _ isBefore)
    rcases OverrideValue.exists_given fromStartup with ⟨new, given, both⟩
    have result := (applyList_split config distinct).1
    rw [OverrideValue.apply_eq_set given fun _ => ⟨writableBefore, .inl isNumber⟩,
      AppConfig.set_self] at result
    have readable := (both json).2
    rw [← result] at readable
    rw [isNumber] at readable
    exact readable
  · have fresh : ∀ entry ∈ entries, entry.value.key ≠ .requiredCompletionPct :=
      fun entry mem same =>
      isOverridden ⟨entry, mem, same⟩
    rw [AppConfig.finite, applyList_of_not_mem fresh]
    exact ⟨.inl, fun either => either.resolve_right isOverridden⟩

/-- The document takes every override that the file layer does not have already. -/
def Applicable (overrides : OverrideSet) (saved : AppConfig) : Prop :=
  ∀ before entry after, overrides.entries = before ++ entry :: after → entry.value.isJson = true →
    ((∀ other ∈ before, other.value.isOpaque = false) ∧
        (entry.value.key = .requiredCompletionPct ∨ saved.finite = true ∨
          ∃ other ∈ before, other.value.key = .requiredCompletionPct)) ∨
      entry.value.given = some (saved entry.value.key)

theorem overlay_of_not_has {key : Key} (free : ¬overrides.has key) :
    overrides.overlay saved key = saved key :=
  applyList_of_not_mem fun entry mem same => free ⟨entry, mem, same⟩

theorem carries_applyList_iff (startup : overrides.FromStartup parseF64 readFile)
    (writable : saved.writable = true) {before after : List Override} {entry : Override}
    (split : overrides.entries = before ++ entry :: after) :
    (applyList before saved).Carries entry.value.key ↔
      (∀ other ∈ before, other.value.isOpaque = false) ∧
        (entry.value.key = .requiredCompletionPct ∨ saved.finite = true ∨
          ∃ other ∈ before, other.value.key = .requiredCompletionPct) := by
  have startupBefore : ∀ other ∈ before, other.value.FromStartup parseF64 readFile :=
    fun other mem => startup other (split ▸ List.mem_append_left _ mem)
  have distinctBefore : (before.map fun entry => entry.value.key).Nodup := by
    have distinct := overrides.distinct
    rw [split, List.map_append] at distinct
    exact (List.nodup_append.mp distinct).1
  rw [AppConfig.Carries, writable_applyList_iff startupBefore distinctBefore writable]
  constructor
  · rintro ⟨clear, either⟩
    exact ⟨clear, either.imp_right
      (finite_applyList_iff startupBefore distinctBefore writable clear).mp⟩
  · rintro ⟨clear, either⟩
    exact ⟨clear, either.imp_right
      (finite_applyList_iff startupBefore distinctBefore writable clear).mpr⟩

theorem overlay_exact_iff (startup : overrides.FromStartup parseF64 readFile)
    (writable : saved.writable = true) :
    (∀ entry ∈ overrides.entries,
        entry.value.given = some (overrides.overlay saved entry.value.key)) ↔
      Applicable overrides saved := by
  have split {before after : List Override} {entry : Override}
      (isSplit : overrides.entries = before ++ entry :: after) :
      overrides.overlay saved entry.value.key =
          entry.value.apply (applyList before saved) entry.value.key ∧
        applyList before saved entry.value.key = saved entry.value.key := by
    have parts := applyList_split saved (isSplit ▸ overrides.distinct)
    rw [← isSplit] at parts
    exact parts
  constructor
  · intro each before entry after isSplit json
    rcases split isSplit with ⟨result, untouched⟩
    have given := each entry (isSplit ▸ by simp)
    by_cases carries : (applyList before saved).Carries entry.value.key
    · exact .inl ((carries_applyList_iff startup writable isSplit).mp carries)
    · rw [result, OverrideValue.apply_eq_self json carries, untouched] at given
      exact .inr given
  · intro applicable entry mem
    rcases List.mem_iff_append.mp mem with ⟨before, after, isSplit⟩
    rcases split isSplit with ⟨result, untouched⟩
    rcases OverrideValue.apply_cases (startup entry mem) (applyList before saved) with
      ⟨new, given, applied⟩ | ⟨json, fails, applied⟩
    · rw [result, applied, AppConfig.set_self, given]
    · rw [result, applied, untouched]
      refine (applicable before entry after isSplit json).resolve_left fun carries => ?_
      exact fails ((carries_applyList_iff startup writable isSplit).mpr carries)

end Overlay

/-! ## Updates -/

section Update

variable {parseF64 : String → Option F64} {readFile : String → Option String}
  {allows : AppConfig → AppConfig → Bool} {save : AppConfig → Bool} {state outcome : AppState}
  {next : AppConfig}

def Updates (allows : AppConfig → AppConfig → Bool) (save : AppConfig → Bool) (state : AppState)
    (next : AppConfig) (outcome : AppState) : Prop :=
  state.updateConfig allows save next = some outcome ∨
    ∃ edit, edit state.file = some next ∧ state.updateConfigWith allows save edit = some outcome

/-- The file layer keeps its values for the overridden keys and takes the others from the edit. The
effective configuration has the overrides and, elsewhere, what was saved. -/
structure UpdatesExactly (state : AppState) (next : AppConfig) (outcome : AppState) : Prop where
  kept : ∀ key, state.overrides.has key → outcome.file key = state.file key
  edited : ∀ key, ¬state.overrides.has key → outcome.file key = next key
  overridden : ∀ entry ∈ state.overrides.entries,
    entry.value.given = some (outcome.config entry.value.key)
  effective : ∀ key, ¬state.overrides.has key → outcome.config key = outcome.file key

theorem AppState.eq_of_commitConfig (commits : state.commitConfig save next = some outcome) :
    outcome.file = state.overrides.keepFileValues next state.file ∧
      outcome.config = state.overrides.overlay outcome.file := by
  unfold AppState.commitConfig at commits
  dsimp only at commits
  split at commits
  · cases commits
    exact ⟨rfl, rfl⟩
  · cases commits

theorem Updates.eq (updates : Updates allows save state next outcome) :
    outcome.file = state.overrides.keepFileValues
        (state.overrides.keepFileValues next state.file) state.file ∧
      outcome.config = state.overrides.overlay outcome.file := by
  rcases updates with whole | ⟨edit, edited, part⟩
  · unfold AppState.updateConfig at whole
    dsimp only at whole
    split at whole
    · exact AppState.eq_of_commitConfig whole
    · cases whole
  · unfold AppState.updateConfigWith at part
    rw [edited] at part
    dsimp only at part
    split at part
    · exact AppState.eq_of_commitConfig part
    · cases part

/-- The file layer and every edit come from TOML or JSON, where each path is Unicode. -/
theorem updates_exactly_iff (startup : state.overrides.FromStartup parseF64 readFile)
    (unicodeFile : state.file.writable = true) (unicodeEdit : next.writable = true)
    (updates : Updates allows save state next outcome) :
    UpdatesExactly state next outcome ↔
      Keepable state.overrides state.file next ∧
        Applicable state.overrides (target state.overrides state.file next) := by
  rcases updates.eq with ⟨saved, effective⟩
  have keeps : _ = target state.overrides state.file next ↔ _ :=
    keepFileValues_twice_eq_iff unicodeFile unicodeEdit
  have unicodeTarget : (target state.overrides state.file next).writable = true :=
    writable_target unicodeFile unicodeEdit
  have applies := overlay_exact_iff startup unicodeTarget
  constructor
  · intro exactly
    have isTarget : outcome.file = target state.overrides state.file next := by
      funext key
      rw [target]
      split
      next isOverridden => exact exactly.kept key isOverridden
      next free => exact exactly.edited key free
    refine ⟨keeps.mp (saved.symm.trans isTarget), applies.mp ?_⟩
    intro entry mem
    rw [← isTarget, ← effective]
    exact exactly.overridden entry mem
  · rintro ⟨keepable, applicable⟩
    have isTarget : outcome.file = target state.overrides state.file next :=
      saved.trans (keeps.mpr keepable)
    exact {
      kept := fun key isOverridden => by rw [isTarget, target, if_pos isOverridden]
      edited := fun key free => by rw [isTarget, target, if_neg free]
      overridden := fun entry mem => by
        rw [effective, isTarget]
        exact applies.mpr applicable entry mem
      effective := fun key free => by rw [effective, overlay_of_not_has free] }

def defaults : AppConfig := fun key => key.field.missing

theorem writable_defaults : defaults.writable = true := by decide

/-- A process with one generic variable and the default file layer. -/
def startedWith (name raw : String) : AppState where
  overrides := applyGenericEnv (fun _ => none) (fun _ => none) .empty [(name, raw)]
  file := defaults
  config := (applyGenericEnv (fun _ => none) (fun _ => none) .empty [(name, raw)]).overlay defaults

theorem config_startedWith (name raw : String) : (startedWith name raw).config =
    applyList (startedWith name raw).overrides.entries defaults := rfl

theorem fromStartup_startedWith (name raw : String) :
    (startedWith name raw).overrides.FromStartup (fun _ => none) fun _ => none :=
  fromStartup_applyGenericEnv _ fun _ mem => by cases mem

def limited : AppState := startedWith "RUSTNZB__GENERAL__SPEED_LIMIT_BPS" "2048"

theorem entries_limited : limited.overrides.entries =
    [⟨.json .speedLimitBps (.number (.int 2048)), .env "RUSTNZB__GENERAL__SPEED_LIMIT_BPS"⟩] := rfl

/-- The edit changes a field and sends the effective speed limit back. -/
def edited : AppConfig :=
  (defaults.set .speedLimitBps ⟨2048, by decide⟩).set .directUnpack false

theorem updates_exactly_iff_limited :
    ∃ outcome, Updates (fun _ _ => true) (fun _ => true) limited edited outcome ∧
      UpdatesExactly limited edited outcome := by
  have startup : limited.overrides.FromStartup (fun _ => none) fun _ => none :=
    fromStartup_startedWith _ _
  have unicodeEdit : edited.writable = true := by decide
  have updates : Updates (fun _ _ => true) (fun _ => true) limited edited _ := .inl rfl
  have keepable : Keepable limited.overrides limited.file edited := by
    intro entry mem
    rw [entries_limited, List.mem_singleton] at mem
    subst mem
    exact .inl fun _ => ⟨rfl, (fun same => by cases same), .inr rfl⟩
  have applicable :
      Applicable limited.overrides (target limited.overrides limited.file edited) := by
    intro before entry after split _
    rw [entries_limited] at split
    rcases List.append_eq_singleton_iff.mp split.symm with ⟨rfl, -⟩ | ⟨-, none⟩
    · exact .inl ⟨(fun _ mem => by cases mem), .inr (.inl rfl)⟩
    · cases none
  exact ⟨_, updates, (updates_exactly_iff startup writable_defaults unicodeEdit updates).mpr
    ⟨keepable, applicable⟩⟩

/-- The debug toggle is off in the file, and the edit sends the overridden value back. -/
def toggled : AppState := startedWith "RUSTNZB__GENERAL__LOG_LEVEL_BEFORE_DEBUG" "warn"

theorem entries_toggled : toggled.overrides.entries =
    [⟨.json .logLevelBeforeDebug (.string "warn"),
      .env "RUSTNZB__GENERAL__LOG_LEVEL_BEFORE_DEBUG"⟩] := rfl

theorem not_updates_exactly_toggled :
    ¬∀ state next outcome, state.overrides.FromStartup (fun _ => none) (fun _ => none) →
      state.file.writable = true → next.writable = true →
      Updates (fun _ _ => true) (fun _ => true) state next outcome →
      UpdatesExactly state next outcome := by
  intro each
  have startup : toggled.overrides.FromStartup (fun _ => none) fun _ => none :=
    fromStartup_startedWith _ _
  have unicodeEdit : toggled.config.writable = true := by
    rw [toggled, config_startedWith, ← toggled,
      writable_applyList_iff startup _ writable_defaults, entries_toggled]
    · simp [OverrideValue.isOpaque]
    · rw [entries_toggled]; exact List.nodup_singleton _
  have updates : Updates (fun _ _ => true) (fun _ => true) toggled toggled.config _ := .inl rfl
  have exactly := each toggled toggled.config _ startup writable_defaults unicodeEdit updates
  have kept : some "warn" = none :=
    exactly.kept .logLevelBeforeDebug ⟨_, List.mem_singleton.mpr rfl, rfl⟩
  cases kept

end Update

end Rustnzb.Core.Config
