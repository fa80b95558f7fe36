import Rustnzb.Core.ConfigSaves
import Rustnzb.Core.OverridesKept

/-!
# A save is exact, whole and keeps what it replaces

When that is so: the configuration is one that is read back as it was, the directory is not left
unsynced once the new text is in place, and the names of the backups agree with their order in time
where the pruning looks at them.
-/

namespace Rustnzb.Core.Config

open Lib

variable {Bare Format : Type} {library : TomlLibrary Bare Format}
  {parseDay : String → Option ℤ} {faults : Faults} {clock : Clock} {config : AppConfig}
  {disk : Disk} {name previous text : String} {allows : AppConfig → AppConfig → Bool}
  {process : Process} {request : Process.Request}

def DueBackup (parseDay : String → Option ℤ) (clock : Clock) (disk : Disk) (name : String) : Prop :=
  Due maxBackups (recentDay parseDay clock.today)
    ((namesAfter disk clock.stamp).filter isBackupName) name

theorem isBackupName_backupName (stamp : String) (n : ℕ) :
    isBackupName (backupName stamp n) = true := by
  rw [isBackupName, Bool.and_eq_true, List.isPrefixOf_iff_prefix, List.isSuffixOf_iff_suffix]
  cases n with
  | zero =>
      rw [backupName, String.toList_append, String.toList_append]
      exact ⟨List.prefix_append _ _, (List.suffix_append _ _).trans (List.suffix_append _ _)⟩
  | succ n =>
      simp only [backupName, String.toList_append]
      refine ⟨List.prefix_append _ _, ?_⟩
      simp only [← List.append_assoc]
      exact List.suffix_append _ _

theorem isBackupName_freshName (disk : Disk) (stamp : String) :
    isBackupName (disk.freshName stamp) = true :=
  isBackupName_backupName stamp _

theorem dueBackup_freshName : DueBackup parseDay clock disk (disk.freshName clock.stamp) := by
  refine ⟨disk.names.filter isBackupName, [], ?_, .inl (by decide)⟩
  rw [namesAfter, List.filter_append]
  simp [isBackupName_freshName]

namespace Process

/-- The configuration that is given to `save`. -/
def Request.target (allows : AppConfig → AppConfig → Bool) (state : AppState) :
    Request → Option AppConfig
  | .updateConfig config =>
      let config := state.overrides.keepFileValues config state.file
      if allows state.file config then some (state.overrides.keepFileValues config state.file)
      else none
  | .updateConfigWith edit =>
      (edit state.file).bind fun next =>
        let next := state.overrides.keepFileValues next state.file
        if allows state.file next then some (state.overrides.keepFileValues next state.file)
        else none

theorem update_eq (request : Request) :
    update library parseDay faults clock allows request process =
      match request.target allows process.state with
      | none => (.failed, process)
      | some config => saveAndPublish library parseDay faults clock config process := by
  cases request with
  | updateConfig config =>
      simp only [update, Request.target]
      split <;> rfl
  | updateConfigWith edit =>
      simp only [update, Request.target]
      cases edit process.state.file with
      | none => rfl
      | some next =>
          simp only [Option.bind_some]
          split <;> rfl

theorem outcome_saveAndPublish : (saveAndPublish library parseDay faults clock config process).1 =
    (writeFileLayer parseDay faults clock library config process.disk).1 := by
  unfold saveAndPublish
  split <;> simp_all

theorem disk_saveAndPublish : (saveAndPublish library parseDay faults clock config process).2.disk =
    (writeFileLayer parseDay faults clock library config process.disk).2 := by
  unfold saveAndPublish
  split <;> simp_all

theorem state_saveAndPublish
    (failed : (saveAndPublish library parseDay faults clock config process).1 = .failed) :
    (saveAndPublish library parseDay faults clock config process).2.state = process.state := by
  unfold saveAndPublish at failed ⊢
  split
  next ran => simp [ran] at failed
  · rfl
  · rfl

end Process

/-- An update is exact, whole, and keeps what it replaces. -/
structure Exact (library : TomlLibrary Bare Format) (parseDay : String → Option ℤ) (clock : Clock)
    (allows : AppConfig → AppConfig → Bool) (request : Process.Request) (before : Process)
    (result : Lib.Outcome × Process) : Prop where
  loaded : ∀ config, request.target allows before.state = some config → result.1 = .ok →
    ∃ text, result.2.disk.file = some text ∧ loadText library text = some config.stamped
  unchanged : result.1 = .failed →
    result.2.disk.file = before.disk.file ∧ result.2.state = before.state
  whole : result.1 = .crashed → result.2.disk.file = before.disk.file ∨
    ∃ config, request.target allows before.state = some config ∧
      result.2.disk.file = mergedDocument library before.disk.file config.stamped
  kept : ∀ previous, before.disk.file = some previous → result.2.disk.file ≠ some previous →
    (∃ backup ∈ result.2.disk.backups, backup.content = previous) ∧
      ∀ backup ∈ before.disk.backups ++ [⟨before.disk.freshName clock.stamp, previous⟩],
        DueBackup parseDay clock before.disk backup.name → backup ∈ result.2.disk.backups

/-- What goes wrong, the configuration and the backups are such that the save is exact. -/
structure Favourable (library : TomlLibrary Bare Format) (parseDay : String → Option ℤ)
    (faults : Faults) (clock : Clock) (disk : Disk) (config : AppConfig) : Prop where
  normal : (faults.begins ∧ Unchanged library faults config disk ∨
      ∃ text, Installs library parseDay faults clock config disk text ∧
        faults.rename = .completes ∧ faults.syncDir = .completes) → config.Normal
  synced : ∀ text, Installs library parseDay faults clock config disk text →
    disk.file ≠ some text → faults.rename = .completes → faults.syncDir ≠ .fails
  ordered : ∀ text previous, Installs library parseDay faults clock config disk text →
    disk.file = some previous → previous ≠ text →
      ∀ backup ∈ disk.backups ++ [⟨disk.freshName clock.stamp, previous⟩],
        DueBackup parseDay clock disk backup.name →
          Pruned parseDay faults clock (namesAfter disk clock.stamp) backup.name →
            faults.remove backup.name ≠ .completes

theorem merged_of_ok (ended : (writeFileLayer parseDay faults clock library config disk).1 = .ok) :
    (faults.begins ∧ Unchanged library faults config disk ∨
      ∃ text, Installs library parseDay faults clock config disk text ∧
        faults.rename = .completes ∧ faults.syncDir = .completes) ∧
      ∃ text, mergedDocument library disk.file config.stamped = some text ∧
        (writeFileLayer parseDay faults clock library config disk).2.file = some text := by
  by_cases installed : ∃ text, Installs library parseDay faults clock config disk text
  · rcases installed with ⟨text, installs⟩
    refine ⟨.inr ⟨text, installs, installs.eq_ok_iff.mp ended⟩, text, installs.merged,
      installs.file⟩
  · by_cases unchanged : faults.begins ∧ Unchanged library faults config disk
    · refine ⟨.inl unchanged, ?_⟩
      rw [writeFileLayer_of_unchanged unchanged.1 unchanged.2]
      rcases unchanged.2 with ⟨text, merged, isFile, -⟩
      exact ⟨text, merged, isFile⟩
    · have stays := fun text installs => installed ⟨text, installs⟩
      exact absurd ended (writeFileLayer_of_idle stays unchanged).1

theorem installs_of_file_ne
    (differs : (writeFileLayer parseDay faults clock library config disk).2.file ≠ disk.file) :
    ∃ text, Installs library parseDay faults clock config disk text ∧ disk.file ≠ some text := by
  by_contra none
  rw [not_exists] at none
  apply differs
  by_cases installed : ∃ text, Installs library parseDay faults clock config disk text
  · rcases installed with ⟨text, installs⟩
    have same : disk.file = some text := not_not.mp fun other => none text ⟨installs, other⟩
    rw [installs.file, same]
  · by_cases unchanged : faults.begins ∧ Unchanged library faults config disk
    · rw [writeFileLayer_of_unchanged unchanged.1 unchanged.2]
    · exact (writeFileLayer_of_idle (fun text installs => installed ⟨text, installs⟩) unchanged).2

theorem exact_of_none (noTarget : request.target allows process.state = none) :
    Exact library parseDay clock allows request process (.failed, process) where
  loaded _ isTarget _ := by
    rw [noTarget] at isTarget
    cases isTarget
  unchanged _ := ⟨rfl, rfl⟩
  whole crashed := by cases crashed
  kept _ isFile replaced := absurd isFile replaced

theorem loadText_iff_normal (parses : library.ParsesPrinted)
    (merged : mergedDocument library disk.file config.stamped = some text) :
    loadText library text = some config.stamped ↔ config.Normal := by
  rcases loadText_mergedDocument parses merged with ⟨writable, same⟩
  rw [same, AppConfig.loadToml_tomlDocument_iff writable]

theorem favourable_of_exact (parses : library.ParsesPrinted)
    (isTarget : request.target allows process.state = some config)
    (exact' : Exact library parseDay clock allows request process
      (Process.saveAndPublish library parseDay faults clock config process)) :
    Favourable library parseDay faults clock process.disk config where
  normal finishes := by
    have ended : (writeFileLayer parseDay faults clock library config process.disk).1 = .ok := by
      rcases finishes with ⟨begins, unchanged⟩ | ⟨text, installs, renamed, synced⟩
      · rw [writeFileLayer_of_unchanged begins unchanged]
      · exact installs.eq_ok_iff.mpr ⟨renamed, synced⟩
    rcases merged_of_ok ended with ⟨-, text, merged, isFile⟩
    rcases exact'.loaded config isTarget (Process.outcome_saveAndPublish.trans ended) with
      ⟨saved, isSaved, loads⟩
    rw [Process.disk_saveAndPublish, isFile] at isSaved
    cases isSaved
    exact (loadText_iff_normal parses merged).mp loads
  synced text installs differs renamed unsynced := by
    have failed := installs.eq_failed_iff.mpr ⟨renamed, unsynced⟩
    have same := (exact'.unchanged (Process.outcome_saveAndPublish.trans failed)).1
    rw [Process.disk_saveAndPublish, installs.file] at same
    exact differs same.symm
  ordered text previous installs isFile differs backup mem due pruned removed := by
    have replaced : (writeFileLayer parseDay faults clock library config process.disk).2.file ≠
        some previous := by
      rw [installs.file]
      exact fun same => differs (Option.some_inj.mp same).symm
    rw [← Process.disk_saveAndPublish] at replaced
    have left := (exact'.kept previous isFile replaced).2 backup mem due
    rw [Process.disk_saveAndPublish, installs.mem_backups isFile differs] at left
    exact left.2 ⟨pruned, removed⟩

theorem exact_of_favourable (parses : library.ParsesPrinted)
    (isTarget : request.target allows process.state = some config)
    (favourable : Favourable library parseDay faults clock process.disk config) :
    Exact library parseDay clock allows request process
      (Process.saveAndPublish library parseDay faults clock config process) where
  loaded saved isSaved ended := by
    rw [isTarget] at isSaved
    cases isSaved
    rw [Process.outcome_saveAndPublish] at ended
    rcases merged_of_ok ended with ⟨finishes, text, merged, isFile⟩
    refine ⟨text, Process.disk_saveAndPublish ▸ isFile, ?_⟩
    exact (loadText_iff_normal parses merged).mpr (favourable.normal finishes)
  unchanged failed := by
    refine ⟨?_, Process.state_saveAndPublish failed⟩
    rw [Process.outcome_saveAndPublish] at failed
    rw [Process.disk_saveAndPublish]
    by_contra differs
    rcases installs_of_file_ne differs with ⟨text, installs, isNew⟩
    rcases installs.eq_failed_iff.mp failed with ⟨renamed, unsynced⟩
    exact favourable.synced text installs isNew renamed unsynced
  whole crashed := by
    rw [Process.disk_saveAndPublish, or_iff_not_imp_left]
    intro differs
    rcases installs_of_file_ne differs with ⟨text, installs, -⟩
    exact ⟨config, isTarget, installs.file.trans installs.merged.symm⟩
  kept previous isFile replaced := by
    rw [Process.disk_saveAndPublish] at replaced ⊢
    have moved : (writeFileLayer parseDay faults clock library config process.disk).2.file ≠
        process.disk.file := isFile ▸ replaced
    rcases installs_of_file_ne moved with ⟨text, installs, isNew⟩
    have differs : previous ≠ text := by
      rintro rfl
      exact isNew isFile
    have stays : ∀ backup ∈ process.disk.backups ++
        [⟨process.disk.freshName clock.stamp, previous⟩],
        DueBackup parseDay clock process.disk backup.name →
          backup ∈
            (writeFileLayer parseDay faults clock library config process.disk).2.backups := by
      intro backup mem due
      refine (installs.mem_backups isFile differs).mpr ⟨mem, fun ⟨pruned, removed⟩ => ?_⟩
      exact favourable.ordered text previous installs isFile differs backup mem due pruned removed
    refine ⟨⟨⟨process.disk.freshName clock.stamp, previous⟩, ?_, rfl⟩, stays⟩
    exact stays _ (List.mem_append_right _ (List.mem_singleton.mpr rfl)) dueBackup_freshName

/-- An update is exact, whole, and keeps what it replaces just when what it saves is favourable. -/
theorem exact_update_iff (parses : library.ParsesPrinted) :
    Exact library parseDay clock allows request process
        (Process.update library parseDay faults clock allows request process) ↔
      ∀ config, request.target allows process.state = some config →
        Favourable library parseDay faults clock process.disk config := by
  rw [Process.update_eq]
  cases isTarget : request.target allows process.state with
  | none => exact ⟨fun _ => nofun, fun _ => exact_of_none isTarget⟩
  | some config =>
      constructor
      · intro exact' _ same
        cases same
        exact favourable_of_exact parses isTarget exact'
      · intro each
        exact exact_of_favourable parses isTarget (each config rfl)

/-! ## A file that is edited -/

/-- What the user has written: a port, with a comment. -/
def editedText : String := "# mine\n[general]\nport = 9091\n"

/-- What is written of the default configuration, from the lines of `[general]` up to the port, and
with the line of the limit. -/
def defaultText (port limit : List String) : String :=
  "config_version = 1\n" ++ "\n".intercalate (
    ["servers = []", "rss_feeds = []"] ++ port ++
    ["incomplete_dir = \"/downloads/incomplete\"",
      "complete_dir = \"/downloads/complete\"", "data_dir = \"/data\"", "speed_limit_bps = 0",
      "cache_size = 524288000", "log_level = \"info\"", "keep_history_on_arr_delete = true",
      "max_active_downloads = 1", "max_post_processing_jobs = 2", "max_repair_workers = 1",
      "max_extract_workers = 1", "min_free_space_bytes = 1073741824"] ++ limit ++
    ["direct_unpack = true", "max_nested_archive_depth = 5", "abort_hopeless = true",
      "early_failure_check = true", "required_completion_pct = 100.0", "article_timeout_secs = 30",
      "auto_sort_remaining_pct = false", "duplicate_policy = \"warn\"",
      "queue_complete_pers = false", "script_timeout_secs = 300",
      "script_max_output_bytes = 1048576", "fetch_allow_private = false",
      "fetch_allowed_hosts = []", "group_max_headers = 100000", "shutdown_timeout_secs = 30",
      "trusted_proxies = []", "step_up_ttl_secs = 300", "", "[[categories]]",
      "name = \"Default\"", "post_processing = 3", "cleanup_patterns = []",
      "unwanted_extensions = []", "", "[otel]", "enabled = false",
      "endpoint = \"http://localhost:4317\"", "service_name = \"rustnzb\"", "", "[dav]",
      "enabled = false", "auto_send_all = false", "category_rules = []",
      "playback_reserve_pct = 25", "", "[notifications]", "webhook_url = \"\"",
      "apprise_api_url = \"\"", "apprise_urls = \"\"", "ntfy_server = \"https://ntfy.sh\"",
      "ntfy_topic = \"\"", "ntfy_token = \"\"", "", "[par2]", "defer_volumes = true",
      "trust_inflight_verify = true", "", "[schedule]", "enabled = false", "rules = []", ""])

def freshText (limit : List String) : String :=
  defaultText ["", "[general]", "listen_addr = \"0.0.0.0\"", "port = 9090"] limit

def mergedText : String :=
  defaultText ["# mine", "[general]", "port = 9090", "listen_addr = \"0.0.0.0\""]
    ["rss_history_limit = 500"]

theorem versioned_ne (rest : String) : "config_version = 1\n" ++ rest ≠ editedText := by
  intro same
  have first := congrArg (fun text => text.toList.head?) same
  simp [editedText] at first

theorem defaultText_ne (port limit : List String) : defaultText port limit ≠ editedText :=
  versioned_ne _

theorem mergedText_ne : mergedText ≠ editedText := defaultText_ne _ _

section Library

variable (config : AppConfig)

/-- The value of a key, or the port that the user has written. -/
def leaf : Option Key → Json Number
  | none => .number (.int 9091)
  | some key => (key.field.type.toToml (config key)).getD .null

def entriesOf (keys : List Key) : List (Toml.Entry (Option Key) String) :=
  keys.filterMap fun key => (key.field.type.toToml (config key)).map fun _ =>
    (⟨key.field.name, none⟩, .value " " (some key))

def freshDocument : Toml.Document (Option Key) String where
  trailing := ""
  entries := entriesOf config (Key.keys .root) ++ Section.nested.map fun owner =>
    (⟨owner.name, none⟩, .table "" (entriesOf config (Key.keys owner)))

def editedDocument : Toml.Document (Option Key) String where
  trailing := ""
  entries := [(⟨"general", some "# mine\n"⟩, .table "" [(⟨"port", none⟩, .value " " none)])]

/-- A library that knows the documents of a configuration and of the user's file. -/
noncomputable def bookLibrary (fresh : String) : TomlLibrary (Option Key) String where
  text bare := String.ofList (List.replicate ((none :: Key.all.map some).idxOf bare) '0')
  data := leaf config
  toStringPretty data := open Classical in if data = config.tomlDocument then some fresh else none
  fromStr text := some
    (if text = editedText then editedDocument.data (leaf config) else config.tomlDocument)
  parse text := some (if text = editedText then editedDocument else freshDocument config)
  print document := open Classical in
    if Json.Same (document.data (leaf config)) config.tomlDocument then mergedText else editedText

variable {config}

theorem members_append {read : Option Key → Json Number}
    (first second : List (Toml.Entry (Option Key) String)) :
    Toml.members read (first ++ second) = Toml.members read first ++ Toml.members read second := by
  induction first with
  | nil => rfl
  | cons entry first ih => rw [List.cons_append, Toml.members, Toml.members, ih, List.cons_append]

theorem members_entriesOf (keys : List Key) : Toml.members (leaf config) (entriesOf config keys) =
    keys.filterMap fun key => (key.field.type.toToml (config key)).map (key.field.name, ·) := by
  induction keys with
  | nil => rfl
  | cons key keys ih =>
      rw [entriesOf] at ih ⊢
      rcases written : key.field.type.toToml (config key) with _ | value
      · rw [List.filterMap_cons_none (by rw [written]; rfl), ih,
          List.filterMap_cons_none (by rw [written]; rfl)]
      · rw [List.filterMap_cons_some (by rw [written]; rfl), Toml.members, ih,
          List.filterMap_cons_some (by rw [written]; rfl), Toml.Item.data, leaf, written]
        rfl

theorem names_entriesOf (keys : List Key) :
    ((entriesOf config keys).map fun entry => entry.1.name).Sublist
      (keys.map fun key => key.field.name) := by
  induction keys with
  | nil => exact .slnil
  | cons key keys ih =>
      rw [entriesOf] at ih ⊢
      rcases written : key.field.type.toToml (config key) with _ | value
      · rw [List.filterMap_cons_none (by rw [written]; rfl)]
        exact ih.cons _
      · rw [List.filterMap_cons_some (by rw [written]; rfl)]
        exact ih.cons_cons _

theorem wellFormed_entriesOf (keys : List Key) :
    ∀ entry ∈ entriesOf config keys, entry.2.WellFormed := by
  intro entry mem
  rcases List.mem_filterMap.mp mem with ⟨key, -, isEntry⟩
  rcases Option.map_eq_some_iff.mp isEntry with ⟨value, -, rfl⟩
  exact .value _ _

theorem data_freshDocument : (freshDocument config).data (leaf config) = config.tomlDocument := by
  rw [Toml.Document.data, freshDocument, members_append, members_entriesOf]
  simp only [AppConfig.tomlDocument, AppConfig.sectioned, AppConfig.tomlMembers, Section.nested,
    List.map_cons, List.map_nil, Toml.members, Toml.Item.data, members_entriesOf]

theorem wellFormed_freshDocument : (freshDocument config).WellFormed := by
  refine .table ?_ fun entry mem => ?_
  · rw [freshDocument, List.map_append, List.nodup_append]
    have names : ((Section.nested.map fun owner => ((⟨owner.name, none⟩, .table ""
        (entriesOf config (Key.keys owner))) : Toml.Entry (Option Key) String)).map
          fun entry => entry.1.name) = Section.nested.map Section.name := List.map_map
    rw [names]
    refine ⟨(Key.names_nodup .root).sublist (names_entriesOf _), by decide, ?_⟩
    intro name isField _ isSection same
    rcases List.mem_map.mp ((names_entriesOf _).subset isField) with ⟨key, isKey, rfl⟩
    rcases List.mem_map.mp isSection with ⟨owner, -, rfl⟩
    exact Key.root_name_ne owner key isKey same
  · rcases List.mem_append.mp mem with field | nested
    · exact wellFormed_entriesOf _ entry field
    · rcases List.mem_map.mp nested with ⟨owner, -, rfl⟩
      refine .table ((Key.names_nodup owner).sublist (names_entriesOf _)) ?_
      exact wellFormed_entriesOf _

theorem wellFormed_editedDocument : editedDocument.WellFormed := by
  refine .table (by decide) fun entry mem => ?_
  rw [List.mem_singleton.mp mem]
  refine .table (by decide) fun entry mem => ?_
  rw [List.mem_singleton.mp mem]
  exact .value _ _

theorem leaf_of_text (config : AppConfig) (fresh : String) (old new : Option Key)
    (same : (bookLibrary config fresh).text old = (bookLibrary config fresh).text new) :
    leaf config old = leaf config new := by
  have counts := congrArg (fun text => text.toList.length) same
  simp only [bookLibrary, String.toList_ofList, List.length_replicate] at counts
  have known (bare : Option Key) : bare ∈ none :: Key.all.map some := by
    cases bare with
    | none => exact List.mem_cons_self
    | some key => exact List.mem_cons_of_mem _ (List.mem_map_of_mem key.mem_all)
  rw [(List.idxOf_inj (known old)).mp counts]

theorem known_of_parse {fresh text : String} {document : Toml.Document (Option Key) String}
    (parsed : (bookLibrary config fresh).parse text = some document) : document.WellFormed ∧
      (document.data (leaf config) = editedDocument.data (leaf config) ∨
        document.data (leaf config) = config.tomlDocument) := by
  simp only [bookLibrary, Option.some_inj] at parsed
  subst parsed
  split
  · exact ⟨wellFormed_editedDocument, .inl rfl⟩
  · exact ⟨wellFormed_freshDocument, .inr data_freshDocument⟩

theorem parsesPrinted_bookLibrary {fresh : String} (apart : fresh ≠ editedText) :
    (bookLibrary config fresh).ParsesPrinted where
  data_of_text := leaf_of_text config fresh
  fromStr_of_pretty data text printed := by
    simp only [bookLibrary] at printed
    split at printed
    next same =>
      cases printed
      exact ⟨config.tomlDocument, by simp only [bookLibrary, if_neg apart], same ▸ .leaf _⟩
    · cases printed
  fromStr_of_parse text document parsed := by
    cases parsed
    by_cases edited : text = editedText
    · simp only [bookLibrary, edited, if_true]
      exact ⟨wellFormed_editedDocument, _, rfl, .leaf _⟩
    · simp only [bookLibrary, edited, if_false, data_freshDocument]
      exact ⟨wellFormed_freshDocument, _, rfl, .leaf _⟩
  fromStr_print first second old new isOld isNew _ := by
    rcases known_of_parse isNew with ⟨formed, data⟩
    have same := Toml.same_mergeTable (leaf_of_text config fresh) old formed
    have asNew : Json.Same (new.data (leaf config))
        (((bookLibrary config fresh).merged old new).data (leaf config)) := same.symm
    by_cases printed : Json.Same (((bookLibrary config fresh).merged old new).data (leaf config))
        config.tomlDocument
    · refine ⟨config.tomlDocument, ?_, printed.symm⟩
      simp only [bookLibrary] at printed ⊢
      rw [if_pos printed, if_neg mergedText_ne]
    · rcases data with edited | isFresh
      · refine ⟨editedDocument.data (leaf config), ?_, edited ▸ asNew⟩
        simp only [bookLibrary] at printed ⊢
        rw [if_neg printed, if_pos rfl]
      · exact absurd (isFresh ▸ same) printed

end Library

def unsaved : Process where
  state := { overrides := .empty, file := defaults, config := defaults }
  disk := { file := none, isPrivate := false, backups := [], distinct := List.nodup_nil }

/-- Nothing goes wrong but what may with the directory. -/
def faultless (syncDir : Fault) : Faults where
  createDir := .completes
  read := .completes
  metadataFails := false
  createBackupDir := .completes
  openBackup := .completes
  protectBackup := .completes
  writePart := .completes
  part := ""
  writeBackup := .completes
  syncBackup := .completes
  listBackups := .completes
  unlisted _ := false
  remove _ := .completes
  openTmp := .completes
  protectTmp := .completes
  writeTmp := .completes
  syncTmp := .completes
  rename := .completes
  syncDir := syncDir

def noon : Clock where
  stamp := "20261016T120000000Z"
  today := 20742

def parseNoon (digits : String) : Option ℤ := if digits = "20261016" then some noon.today else none

theorem installs_unsaved (writable : config.stamped.writable = true) (syncDir : Fault) :
    Installs (bookLibrary config.stamped text) parseDay (faultless syncDir) noon config
      unsaved.disk text where
  begins := ⟨rfl, rfl⟩
  merged := by simp [mergedDocument, AppConfig.toToml, writable, bookLibrary, unsaved]
  writes isFile := by cases isFile
  backsUp _ isFile := by cases isFile
  renames := ⟨rfl, rfl, rfl, rfl, .inl rfl⟩

theorem target_unsaved (config : AppConfig) :
    Process.Request.target (fun _ _ => true) unsaved.state (.updateConfig config) = some config :=
      rfl

theorem normal_defaults : defaults.Normal := by
  refine ⟨Option.some_ne_none _, rfl, fun server mem => ?_⟩
  have noServers : defaults.servers = [] := rfl
  rw [noServers] at mem
  cases mem

/-- The user's file is in place, with a backup of the day before. -/
def handEdited : Process where
  state := unsaved.state
  disk :=
    { file := some editedText
      isPrivate := false
      backups := [⟨"config-20261015T120000000Z.toml", "[general]\nport = 9092\n"⟩]
      distinct := List.nodup_singleton _ }

noncomputable def defaultsLibrary : TomlLibrary (Option Key) String :=
  bookLibrary defaults.stamped (freshText ["rss_history_limit = 500"])

theorem installs_handEdited :
    Installs defaultsLibrary parseNoon (faultless .completes) noon defaults
    handEdited.disk mergedText where
  begins := ⟨rfl, rfl⟩
  merged := by
    have same := Toml.same_mergeTable (leaf_of_text defaults.stamped
      (freshText ["rss_history_limit = 500"])) editedDocument
        (@wellFormed_freshDocument defaults.stamped)
    rw [data_freshDocument] at same
    have writable : defaults.stamped.writable = true := by decide
    simp only [mergedDocument, AppConfig.toToml, writable, if_true, defaultsLibrary, handEdited,
      bookLibrary, Option.bind_some, if_neg (defaultText_ne _ _), freshText, Option.map_some,
      TomlLibrary.merged]
    exact congrArg some (if_pos same)
  writes isFile := absurd (Option.some_inj.mp isFile).symm mergedText_ne
  backsUp _ _ _ := ⟨rfl, rfl, rfl, rfl, rfl, rfl, rfl, fun _ _ _ => nofun⟩
  renames := ⟨rfl, rfl, rfl, rfl, .inl rfl⟩

noncomputable def savedDefaults : Lib.Outcome × Process :=
  Process.update defaultsLibrary parseNoon (faultless .completes) noon (fun _ _ => true)
    (.updateConfig defaults) handEdited

/-- The user's file is merged, and is left in a backup beside the older one. -/
theorem exact_update_iff_edited :
    Exact defaultsLibrary parseNoon noon (fun _ _ => true) (.updateConfig defaults) handEdited
        savedDefaults ∧
      savedDefaults.1 = .ok ∧ savedDefaults.2.disk.file = some mergedText := by
  refine ⟨?_, ?_, ?_⟩
  · apply (exact_update_iff (parsesPrinted_bookLibrary (defaultText_ne _ _))).mpr
    intro config isTarget
    cases isTarget
    refine ⟨fun _ => normal_defaults, fun _ _ _ _ => by simp [faultless], ?_⟩
    intro text previous _ _ _ backup _ _ pruned
    have many := pruned.2.1.trans ((List.length_filter_le _ _).trans (List.length_filter_le _ _))
    simp [namesAfter, Disk.names, handEdited, maxBackups] at many
  · exact Process.outcome_saveAndPublish.trans (installs_handEdited.eq_ok_iff.mpr ⟨rfl, rfl⟩)
  · exact (congrArg Disk.file Process.disk_saveAndPublish).trans installs_handEdited.file

def unlimited : AppConfig := defaults.set .rssHistoryLimit none

/-- The setting that is saved is not the one that is loaded, and a save that fails at the directory
has replaced the file. -/
theorem not_exact_update_unlimited :
    ¬Exact (bookLibrary unlimited.stamped (freshText [])) parseNoon noon (fun _ _ => true)
        (.updateConfig unlimited) unsaved
        (Process.update (bookLibrary unlimited.stamped (freshText [])) parseNoon
          (faultless .completes) noon (fun _ _ => true) (.updateConfig unlimited) unsaved) ∧
      ¬Exact defaultsLibrary parseNoon noon (fun _ _ => true) (.updateConfig defaults) unsaved
        (Process.update defaultsLibrary parseNoon (faultless .fails) noon (fun _ _ => true)
          (.updateConfig defaults) unsaved) := by
  constructor
  · intro exact'
    rw [Process.update_eq, target_unsaved] at exact'
    have favourable := favourable_of_exact (parsesPrinted_bookLibrary (defaultText_ne _ _))
      (target_unsaved _) exact'
    have normal := favourable.normal (.inr ⟨_, installs_unsaved (by rfl) _, rfl, rfl⟩)
    exact normal.1 rfl
  · intro exact'
    rw [Process.update_eq, target_unsaved] at exact'
    have favourable := favourable_of_exact (parsesPrinted_bookLibrary (defaultText_ne _ _))
      (target_unsaved _) exact'
    exact favourable.synced _ (installs_unsaved (by decide) _) (by simp [unsaved]) rfl rfl

end Rustnzb.Core.Config
