import Rustnzb.Core.ConfigStore

/-!
# What a save leaves

From what goes wrong it is decided whether the text is put in place, what is left in
`config-backups`, and how the save ends. Nothing else touches the file.
-/

namespace Rustnzb.Core.Config

open Lib

variable {Bare Format : Type} {library : TomlLibrary Bare Format}
  {parseDay : String → Option ℤ} {faults : Faults} {clock : Clock} {config : AppConfig}
  {disk : Disk} {name previous contents text : String}

theorem loadText_mergedDocument (parses : library.ParsesPrinted) {existing : Option String}
    (merged : mergedDocument library existing config = some text) :
    config.writable = true ∧
      loadText library text = AppConfig.loadToml config.tomlDocument := by
  rcases Option.bind_eq_some_iff.mp merged with ⟨fresh, isFresh, merged⟩
  rcases Option.bind_eq_some_iff.mp isFresh with ⟨document, isDocument, printed⟩
  have writable : config.writable = true := by
    by_contra unwritable
    rw [AppConfig.toToml, if_neg unwritable] at isDocument
    cases isDocument
  rw [AppConfig.toToml, if_pos writable, Option.some_inj] at isDocument
  subst isDocument
  rcases parses.fromStr_of_pretty _ _ printed with ⟨read, isRead, same⟩
  refine ⟨writable, ?_⟩
  cases existing with
  | none =>
      cases merged
      rw [loadText, isRead, Option.bind_some, AppConfig.loadToml_congr same]
  | some existing =>
      rcases Option.bind_eq_some_iff.mp merged with ⟨old, isOld, merged⟩
      rcases Option.map_eq_some_iff.mp merged with ⟨new, isNew, rfl⟩
      rcases parses.fromStr_of_parse _ _ isOld with ⟨oldFormed, -⟩
      rcases parses.fromStr_of_parse _ _ isNew with ⟨newFormed, read', isRead', same'⟩
      rcases parses.fromStr_print _ _ _ _ isOld isNew
        (Toml.wellFormed_mergeTable newFormed oldFormed) with ⟨written, isWritten, same''⟩
      have asNew := Toml.same_mergeTable parses.data_of_text old newFormed
      rw [isRead, Option.some_inj] at isRead'
      subst isRead'
      rw [loadText, isWritten, Option.bind_some, AppConfig.loadToml_congr same'',
        ← AppConfig.loadToml_congr same, AppConfig.loadToml_congr same']
      exact AppConfig.loadToml_congr asNew

/-- The new document is written out and takes the place of the file layer. -/
def Faults.renames (faults : Faults) : Prop :=
  faults.openTmp = .completes ∧ faults.protectTmp = .completes ∧ faults.writeTmp = .completes ∧
    faults.syncTmp = .completes ∧ (faults.rename = .completes ∨ faults.rename = .crashes true)

theorem ended_of_not_completes {fault : Fault} {rest : Fallible Disk} (ended : fault ≠ .completes) :
    ((Fallible.step fault id).andThen rest disk).1 ≠ .ok ∧
      ((Fallible.step fault id).andThen rest disk).2 = disk := by
  cases fault with
  | completes => exact absurd rfl ended
  | fails => exact ⟨by simp [Fallible.step, Fallible.andThen], rfl⟩
  | crashes made => cases made <;> exact ⟨by simp [Fallible.step, Fallible.andThen], rfl⟩

theorem writeAtomic_of_renames (renames : faults.renames) :
    (writeAtomic faults contents disk).2 = disk.install contents ∧
      ((writeAtomic faults contents disk).1 = .ok ↔
        faults.rename = .completes ∧ faults.syncDir = .completes) ∧
      ((writeAtomic faults contents disk).1 = .failed ↔
        faults.rename = .completes ∧ faults.syncDir = .fails) := by
  rcases renames with ⟨isOpen, isProtected, written, synced, renamed⟩
  rw [writeAtomic, Fallible.step_id_andThen isOpen, Fallible.step_id_andThen isProtected,
    Fallible.step_id_andThen written, Fallible.step_id_andThen synced]
  rcases renamed with renamed | renamed
  · rw [renamed]
    cases faults.syncDir with
    | completes | fails => simp [Fallible.step, Fallible.andThen]
    | crashes made => cases made <;> simp [Fallible.step, Fallible.andThen]
  · rw [renamed]
    simp [Fallible.step, Fallible.andThen]

theorem writeAtomic_of_not_renames (stays : ¬faults.renames) :
    (writeAtomic faults contents disk).1 ≠ .ok ∧ (writeAtomic faults contents disk).2 = disk := by
  rw [writeAtomic]
  by_cases isOpen : faults.openTmp = .completes
  · rw [Fallible.step_id_andThen isOpen]
    by_cases isProtected : faults.protectTmp = .completes
    · rw [Fallible.step_id_andThen isProtected]
      by_cases written : faults.writeTmp = .completes
      · rw [Fallible.step_id_andThen written]
        by_cases synced : faults.syncTmp = .completes
        · rw [Fallible.step_id_andThen synced]
          have renamed : ¬(faults.rename = .completes ∨ faults.rename = .crashes true) :=
            fun renamed => stays ⟨isOpen, isProtected, written, synced, renamed⟩
          cases isRename : faults.rename with
          | completes => exact absurd (.inl isRename) renamed
          | fails => exact ⟨by simp [Fallible.step, Fallible.andThen], rfl⟩
          | crashes made =>
              cases made with
              | true => exact absurd (.inr isRename) renamed
              | false => exact ⟨by simp [Fallible.step, Fallible.andThen], rfl⟩
        · exact ended_of_not_completes synced
      · exact ended_of_not_completes written
    · exact ended_of_not_completes isProtected
  · exact ended_of_not_completes isOpen

theorem mem_removeBackup {backup : Backup} :
    backup ∈ (disk.removeBackup name).backups ↔ backup ∈ disk.backups ∧ backup.name ≠ name := by
  simp [Disk.removeBackup]

theorem mem_removals {names : List String} {backup : Backup}
    (ended : (Fallible.forEach (fun name => Fallible.attempt (faults.remove name)
      (Disk.removeBackup name)) names disk).1 = .ok) :
    backup ∈ (Fallible.forEach (fun name => Fallible.attempt (faults.remove name)
      (Disk.removeBackup name)) names disk).2.backups ↔
      backup ∈ disk.backups ∧ ¬(backup.name ∈ names ∧ faults.remove backup.name = .completes) := by
  induction names generalizing disk with
  | nil => simp [Fallible.forEach]
  | cons name names ih =>
      rw [Fallible.forEach] at ended ⊢
      rw [Fallible.andThen_eq_ok_iff] at ended
      rw [Fallible.andThen_of_ok ended.1, ih ended.2, List.mem_cons]
      cases isFault : faults.remove name with
      | completes =>
          rw [Fallible.attempt, mem_removeBackup]
          by_cases same : backup.name = name
          · simp [same, isFault]
          · simp [same]
      | fails =>
          rw [Fallible.attempt]
          by_cases same : backup.name = name
          · simp [same, isFault]
          · simp [same]
      | crashes made => exact absurd isFault (Fallible.attempt_eq_ok_iff.mp ended.1 made)

/-- As many newer backups are listed beside it as are kept. -/
def Pruned (parseDay : String → Option ℤ) (faults : Faults) (clock : Clock) (names : List String)
    (name : String) : Prop :=
  Outranked maxBackups (recentDay parseDay clock.today) (listed faults names) name

theorem mem_expired_iff_pruned :
    name ∈ expired maxBackups (recentDay parseDay clock.today) 0 []
      (descending (listed faults disk.names)) ↔ Pruned parseDay faults clock disk.names name :=
  mem_expired_descending_iff (disk.distinct.sublist List.filter_sublist)

theorem pruneBackups_eq_ok_iff : (pruneBackups parseDay faults clock disk).1 = .ok ↔
    faults.listBackups = .completes ∧ ∀ name, Pruned parseDay faults clock disk.names name →
      ∀ made, faults.remove name ≠ .crashes made := by
  rw [pruneBackups, Fallible.andThen_eq_ok_iff, Fallible.step_eq_ok_iff]
  apply and_congr_right
  intro lists
  simp only [lists, Fallible.step, id_eq, Fallible.forEach_attempt_eq_ok_iff,
    mem_expired_iff_pruned]

theorem mem_pruneBackups {backup : Backup}
    (ended : (pruneBackups parseDay faults clock disk).1 = .ok) :
    backup ∈ (pruneBackups parseDay faults clock disk).2.backups ↔ backup ∈ disk.backups ∧
      ¬(Pruned parseDay faults clock disk.names backup.name ∧
        faults.remove backup.name = .completes) := by
  have lists := (pruneBackups_eq_ok_iff.mp ended).1
  rw [pruneBackups, Fallible.step_id_andThen lists] at ended ⊢
  rw [mem_removals ended, mem_expired_iff_pruned]

theorem backupName_injective (stamp : String) : Function.Injective (backupName stamp) := by
  have suffixed : ∀ n, ".toml" ≠ "-" ++ (toString (n + 1) ++ ".toml") := fun n same => by
    have chars := congrArg String.toList same
    simp at chars
  intro first second same
  rcases first with _ | first <;> rcases second with _ | second <;>
    simp only [backupName, String.append_right_inj] at same
  · rfl
  · exact absurd same (suffixed second)
  · exact absurd same.symm (suffixed first)
  · rw [String.append_left_inj] at same
    have digits : Nat.toDigits 10 (first + 1) = Nat.toDigits 10 (second + 1) := by
      rw [← Nat.toList_repr, ← Nat.toList_repr]
      exact congrArg String.toList same
    rw [← @Nat.ofDigitChars_ten_toDigits (first + 1), digits, Nat.ofDigitChars_ten_toDigits]

theorem freshName_not_mem (disk : Disk) (stamp : String) : disk.freshName stamp ∉ disk.names :=
  firstFree_not_mem (backupName_injective stamp)

/-- The disk once the previous file layer is copied to a fresh backup. -/
def Disk.withBackup (disk : Disk) (stamp part previous : String) : Disk :=
  let name := disk.freshName stamp
  ((disk.createBackup name).writeBackup name part).writeBackup name previous

theorem map_fill {content : String} (fresh : name ∉ disk.names) :
    disk.backups.map (Disk.fill name content) = disk.backups := by
  have same : disk.backups.map (Disk.fill name content) = disk.backups.map id := by
    apply List.map_congr_left
    intro backup mem
    rw [Disk.fill, if_neg]
    · rfl
    · rintro rfl
      exact fresh (List.mem_map_of_mem mem)
  rw [same, List.map_id]

theorem backups_withBackup {stamp part : String} :
    (disk.withBackup stamp part previous).backups =
      disk.backups ++ [⟨disk.freshName stamp, previous⟩] := by
  have fresh := freshName_not_mem disk stamp
  have created : (disk.createBackup (disk.freshName stamp)).backups =
      disk.backups ++ [⟨disk.freshName stamp, ""⟩] := by
    rw [Disk.createBackup, dif_pos fresh]
  simp only [Disk.withBackup, Disk.writeBackup, created, List.map_append, map_fill fresh,
    List.map_cons, List.map_nil, Disk.fill, if_true]

theorem file_createBackup : (disk.createBackup name).file = disk.file := by
  unfold Disk.createBackup
  split <;> rfl

def namesAfter (disk : Disk) (stamp : String) : List String := disk.names ++ [disk.freshName stamp]

theorem names_withBackup {stamp part : String} :
    (disk.withBackup stamp part previous).names = namesAfter disk stamp := by
  rw [Disk.names, backups_withBackup, List.map_append]
  rfl

/-- The copy is made, and no removal behind it crashes. -/
def Faults.backsUp (parseDay : String → Option ℤ) (faults : Faults) (clock : Clock) (disk : Disk) :
    Prop :=
  faults.createBackupDir = .completes ∧ faults.openBackup = .completes ∧
    faults.protectBackup = .completes ∧ faults.writePart = .completes ∧
    faults.writeBackup = .completes ∧ faults.syncBackup = .completes ∧
    faults.listBackups = .completes ∧
    ∀ name, Pruned parseDay faults clock (namesAfter disk clock.stamp) name →
      ∀ made, faults.remove name ≠ .crashes made

theorem backup_eq_pruneBackups (isDir : faults.createBackupDir = .completes)
    (isOpen : faults.openBackup = .completes) (isProtected : faults.protectBackup = .completes)
    (begun : faults.writePart = .completes) (written : faults.writeBackup = .completes)
    (synced : faults.syncBackup = .completes) :
    backup parseDay faults clock previous disk =
      pruneBackups parseDay faults clock (disk.withBackup clock.stamp faults.part previous) := by
  rw [backup, Fallible.step_id_andThen isDir]
  simp only [isOpen, isProtected, begun, written, synced, Fallible.step, Fallible.andThen,
    Disk.withBackup, id_eq]

theorem backup_eq_ok_iff : (backup parseDay faults clock previous disk).1 = .ok ↔
    faults.backsUp parseDay clock disk := by
  constructor
  · intro ended
    have copied := ended
    rw [backup, Fallible.andThen_eq_ok_iff] at copied
    simp only [Fallible.andThen_eq_ok_iff, Fallible.step_eq_ok_iff] at copied
    rcases copied with ⟨isDir, isOpen, isProtected, begun, written, synced, -⟩
    rw [backup_eq_pruneBackups isDir isOpen isProtected begun written synced,
      pruneBackups_eq_ok_iff, names_withBackup] at ended
    exact ⟨isDir, isOpen, isProtected, begun, written, synced, ended⟩
  · rintro ⟨isDir, isOpen, isProtected, begun, written, synced, pruned⟩
    rw [backup_eq_pruneBackups isDir isOpen isProtected begun written synced,
      pruneBackups_eq_ok_iff, names_withBackup]
    exact pruned

theorem mem_backup {backup' : Backup} (backsUp : faults.backsUp parseDay clock disk) :
    backup' ∈ (backup parseDay faults clock previous disk).2.backups ↔
      backup' ∈ disk.backups ++ [⟨disk.freshName clock.stamp, previous⟩] ∧
        ¬(Pruned parseDay faults clock (namesAfter disk clock.stamp) backup'.name ∧
          faults.remove backup'.name = .completes) := by
  have ended : (backup parseDay faults clock previous disk).1 = .ok := backup_eq_ok_iff.mpr backsUp
  rcases backsUp with ⟨isDir, isOpen, isProtected, begun, written, synced, -⟩
  rw [backup_eq_pruneBackups isDir isOpen isProtected begun written synced] at ended ⊢
  rw [mem_pruneBackups ended, names_withBackup, backups_withBackup]

theorem keeps_backup (file : Option String) :
    Fallible.Keeps (fun disk : Disk => disk.file = file)
      (backup parseDay faults clock previous) := by
  have removals : ∀ names : List String, Fallible.Keeps (fun disk : Disk => disk.file = file)
      (Fallible.forEach (fun name => Fallible.attempt (faults.remove name)
        (Disk.removeBackup name)) names) :=
    fun _ => .forEach fun _ _ => .attempt fun _ same => same
  have pruning : Fallible.Keeps (fun disk : Disk => disk.file = file)
      (pruneBackups parseDay faults clock) :=
    .andThen (.step fun _ same => same) fun disk => removals _ disk
  have copy : ∀ name, Fallible.Keeps (fun disk : Disk => disk.file = file)
      ((Fallible.step faults.openBackup (Disk.createBackup name)).andThen <|
        (Fallible.step faults.protectBackup id).andThen <|
        (Fallible.step faults.writePart (Disk.writeBackup name faults.part)).andThen <|
        (Fallible.step faults.writeBackup (Disk.writeBackup name previous)).andThen <|
        (Fallible.step faults.syncBackup id).andThen <|
        pruneBackups parseDay faults clock) := by
    intro name
    refine .andThen (.step fun _ same => file_createBackup.trans same) ?_
    refine .andThen (.step fun _ same => same) ?_
    refine .andThen (.step fun _ same => same) ?_
    refine .andThen (.step fun _ same => same) ?_
    exact .andThen (.step fun _ same => same) pruning
  exact .andThen (.step fun _ same => same) fun disk => copy _ disk

def Faults.begins (faults : Faults) : Prop :=
  faults.createDir = .completes ∧ faults.read = .completes

theorem writeFileLayer_of_not_begins (stays : ¬faults.begins) :
    (writeFileLayer parseDay faults clock library config disk).1 ≠ .ok ∧
      (writeFileLayer parseDay faults clock library config disk).2 = disk := by
  rw [writeFileLayer]
  by_cases isDir : faults.createDir = .completes
  · rw [Fallible.step_id_andThen isDir]
    exact ended_of_not_completes fun isRead => stays ⟨isDir, isRead⟩
  · exact ended_of_not_completes isDir

theorem writeFileLayer_eq_writeAtomic (begins : faults.begins)
    (merged : mergedDocument library disk.file config.stamped = some text)
    (alone : disk.file = none ∨
      disk.file = some text ∧ needsPermissionTightening faults disk = true) :
    writeFileLayer parseDay faults clock library config disk = writeAtomic faults text disk := by
  rw [writeFileLayer, Fallible.step_id_andThen begins.1, Fallible.step_id_andThen begins.2, merged]
  rcases alone with isFile | ⟨isFile, tightens⟩
  · simp only [isFile]
  · simp only [isFile, tightens, if_true]

theorem writeFileLayer_of_differs (begins : faults.begins)
    (merged : mergedDocument library disk.file config.stamped = some text)
    (isFile : disk.file = some previous) (differs : previous ≠ text) :
    writeFileLayer parseDay faults clock library config disk =
      (backup parseDay faults clock previous).andThen (writeAtomic faults text) disk := by
  rw [writeFileLayer, Fallible.step_id_andThen begins.1, Fallible.step_id_andThen begins.2, merged]
  simp only [isFile, differs, if_false]

theorem writeFileLayer_of_unmerged (begins : faults.begins)
    (unmerged : mergedDocument library disk.file config.stamped = none) :
    writeFileLayer parseDay faults clock library config disk = (.failed, disk) := by
  rw [writeFileLayer, Fallible.step_id_andThen begins.1, Fallible.step_id_andThen begins.2,
    unmerged]

/-- The merged document is the file layer already, and only its owner may read it. -/
def Unchanged (library : TomlLibrary Bare Format) (faults : Faults) (config : AppConfig)
    (disk : Disk) : Prop :=
  ∃ text, mergedDocument library disk.file config.stamped = some text ∧ disk.file = some text ∧
    needsPermissionTightening faults disk = false

/-- Nothing on the way of a save to the rename of its document goes wrong. -/
structure Installs (library : TomlLibrary Bare Format) (parseDay : String → Option ℤ)
    (faults : Faults) (clock : Clock) (config : AppConfig) (disk : Disk) (text : String) :
    Prop where
  begins : faults.begins
  merged : mergedDocument library disk.file config.stamped = some text
  writes : disk.file = some text → needsPermissionTightening faults disk = true
  backsUp : ∀ previous, disk.file = some previous → previous ≠ text →
    faults.backsUp parseDay clock disk
  renames : faults.renames

section

variable (installs : Installs library parseDay faults clock config disk text)

include installs

theorem Installs.writeFileLayer_eq :
    ∃ now : Disk, writeFileLayer parseDay faults clock library config disk =
        writeAtomic faults text now ∧
      ∀ previous, disk.file = some previous → previous ≠ text →
        now = (backup parseDay faults clock previous disk).2 := by
  by_cases alone : disk.file = none ∨ disk.file = some text
  · refine ⟨disk, ?_, fun previous isFile differs => ?_⟩
    · apply writeFileLayer_eq_writeAtomic installs.begins installs.merged
      exact alone.imp_right fun isFile => ⟨isFile, installs.writes isFile⟩
    · rw [isFile] at alone
      rcases alone with none | same
      · cases none
      · exact absurd (Option.some_inj.mp same) differs
  · rw [not_or] at alone
    rcases Option.ne_none_iff_exists'.mp alone.1 with ⟨previous, isFile⟩
    have differs : previous ≠ text := fun same => alone.2 (same ▸ isFile)
    have ended : (backup parseDay faults clock previous disk).1 = .ok :=
      backup_eq_ok_iff.mpr (installs.backsUp previous isFile differs)
    refine ⟨(backup parseDay faults clock previous disk).2, ?_, fun other isOther _ => ?_⟩
    · rw [writeFileLayer_of_differs installs.begins installs.merged isFile differs,
        Fallible.andThen_of_ok ended]
    · rw [isFile] at isOther
      cases isOther
      rfl

theorem Installs.file :
    (writeFileLayer parseDay faults clock library config disk).2.file = some text := by
  rcases installs.writeFileLayer_eq with ⟨now, same, -⟩
  rw [same, (writeAtomic_of_renames installs.renames).1]
  rfl

theorem Installs.eq_ok_iff :
    (writeFileLayer parseDay faults clock library config disk).1 = .ok ↔
      faults.rename = .completes ∧ faults.syncDir = .completes := by
  rcases installs.writeFileLayer_eq with ⟨now, same, -⟩
  rw [same, (writeAtomic_of_renames installs.renames).2.1]

theorem Installs.eq_failed_iff :
    (writeFileLayer parseDay faults clock library config disk).1 = .failed ↔
      faults.rename = .completes ∧ faults.syncDir = .fails := by
  rcases installs.writeFileLayer_eq with ⟨now, same, -⟩
  rw [same, (writeAtomic_of_renames installs.renames).2.2]

theorem Installs.mem_backups {backup : Backup}
    (isFile : disk.file = some previous) (differs : previous ≠ text) :
    backup ∈ (writeFileLayer parseDay faults clock library config disk).2.backups ↔
      backup ∈ disk.backups ++ [⟨disk.freshName clock.stamp, previous⟩] ∧
        ¬(Pruned parseDay faults clock (namesAfter disk clock.stamp) backup.name ∧
          faults.remove backup.name = .completes) := by
  rcases installs.writeFileLayer_eq with ⟨now, same, isNow⟩
  rw [same, (writeAtomic_of_renames installs.renames).1, Disk.install,
    isNow previous isFile differs]
  exact mem_backup (installs.backsUp previous isFile differs)

end

theorem writeFileLayer_of_idle
    (stays : ∀ text, ¬Installs library parseDay faults clock config disk text)
    (changed : ¬(faults.begins ∧ Unchanged library faults config disk)) :
    (writeFileLayer parseDay faults clock library config disk).1 ≠ .ok ∧
      (writeFileLayer parseDay faults clock library config disk).2.file = disk.file := by
  have idle : ∀ {result : Lib.Outcome × Disk}, result.1 ≠ .ok ∧ result.2 = disk →
      result.1 ≠ .ok ∧ result.2.file = disk.file :=
    fun both => ⟨both.1, congrArg Disk.file both.2⟩
  by_cases begins : faults.begins
  swap
  · exact idle (writeFileLayer_of_not_begins begins)
  cases merged : mergedDocument library disk.file config.stamped with
  | none =>
      rw [writeFileLayer_of_unmerged begins merged]
      exact idle ⟨by simp, rfl⟩
  | some text =>
      by_cases alone : disk.file = none ∨
          disk.file = some text ∧ needsPermissionTightening faults disk = true
      · rw [writeFileLayer_eq_writeAtomic begins merged alone]
        apply idle
        apply writeAtomic_of_not_renames
        intro renames
        refine stays text
          ⟨begins, merged, fun isFile => ?_, fun previous isFile differs => ?_, renames⟩
        · rcases alone with none | ⟨-, tightens⟩
          · rw [isFile] at none
            cases none
          · exact tightens
        · rw [isFile] at alone
          rcases alone with none | ⟨same, -⟩
          · cases none
          · exact absurd (Option.some_inj.mp same) differs
      · rw [not_or] at alone
        rcases Option.ne_none_iff_exists'.mp alone.1 with ⟨previous, isFile⟩
        have differs : previous ≠ text := by
          rintro rfl
          refine changed ⟨begins, previous, merged, isFile, ?_⟩
          exact Bool.of_not_eq_true fun tightens => alone.2 ⟨isFile, tightens⟩
        rw [writeFileLayer_of_differs begins merged isFile differs]
        by_cases ended : (backup parseDay faults clock previous disk).1 = .ok
        · have unrenamed : ¬faults.renames := by
            intro renames
            refine stays text ⟨begins, merged, fun isText => ?_, fun _ _ _ => ?_, renames⟩
            · rw [isFile] at isText
              exact absurd (Option.some_inj.mp isText) differs
            · exact backup_eq_ok_iff.mp ended
          rcases writeAtomic_of_not_renames unrenamed with ⟨notOk, same⟩
          rw [Fallible.andThen_of_ok ended]
          refine ⟨notOk, (congrArg Disk.file same).trans ?_⟩
          exact keeps_backup disk.file disk rfl
        · rw [Fallible.andThen_of_not_ok ended]
          exact ⟨ended, keeps_backup disk.file disk rfl⟩

theorem writeFileLayer_of_unchanged (begins : faults.begins)
    (unchanged : Unchanged library faults config disk) :
    writeFileLayer parseDay faults clock library config disk = (.ok, disk) := by
  rcases unchanged with ⟨text, merged, isFile, stays⟩
  rw [writeFileLayer, Fallible.step_id_andThen begins.1, Fallible.step_id_andThen begins.2, merged]
  simp [isFile, stays]

end Rustnzb.Core.Config
