import Mathlib.Data.String.Basic
import Rustnzb.Core.ConfigOrder
import Rustnzb.Core.Overrides
import Rustnzb.Core.TomlMerge
import Rustnzb.Lib.Fallible
import Rustnzb.Lib.Retention

/-!
# Saving the file layer

The merge into the document that is there, the backup with its rotation, and the replacement of the
file, each step of which may fail or be the last before a crash. The temporary file, which loading
ignores, is not part of the disk here.
-/

namespace Rustnzb.Core.Config

open Lib

variable {Bare Format : Type}

structure TomlLibrary (Bare Format : Type) where
  text : Bare → String
  data : Bare → Json Number
  toStringPretty : Json Number → Option String
  fromStr : String → Option (Json Number)
  parse : String → Option (Toml.Document Bare Format)
  print : Toml.Document Bare Format → String

def TomlLibrary.merged (library : TomlLibrary Bare Format) (old new : Toml.Document Bare Format) :
    Toml.Document Bare Format :=
  ⟨old.trailing, Toml.mergeTable library.text old.entries new.entries⟩

/-- What is printed is parsed. The documents that are printed are merged of two parsed ones. -/
structure TomlLibrary.ParsesPrinted (library : TomlLibrary Bare Format) : Prop where
  data_of_text :
    ∀ old new, library.text old = library.text new → library.data old = library.data new
  fromStr_of_pretty : ∀ data text, library.toStringPretty data = some text →
    ∃ read, library.fromStr text = some read ∧ Json.Same read data
  fromStr_of_parse : ∀ text document, library.parse text = some document →
    document.WellFormed ∧
      ∃ read, library.fromStr text = some read ∧ Json.Same read (document.data library.data)
  fromStr_print : ∀ first second old new, library.parse first = some old →
    library.parse second = some new → (library.merged old new).WellFormed →
      ∃ read, library.fromStr (library.print (library.merged old new)) = some read ∧
        Json.Same read ((library.merged old new).data library.data)

def mergedDocument (library : TomlLibrary Bare Format) (existing : Option String)
    (config : AppConfig) : Option String :=
  (config.toToml.bind library.toStringPretty).bind fun fresh =>
    match existing with
    | none => some fresh
    | some existing =>
        (library.parse existing).bind fun document =>
          (library.parse fresh).map fun new => library.print (library.merged document new)

def loadText (library : TomlLibrary Bare Format) (text : String) : Option AppConfig :=
  (library.fromStr text).bind AppConfig.loadToml

def maxBackups : ℕ := 20

def backupDays : ℤ := 7

def firstBytes : ℕ → List Char → Option (List Char)
  | 0, _ => some []
  | _ + 1, [] => none
  | bytes + 1, char :: chars =>
      if char.utf8Size ≤ bytes + 1 then
        (firstBytes (bytes + 1 - char.utf8Size) chars).map (char :: ·)
      else none

/-- `parseDay` is `NaiveDate::parse_from_str` with `%Y%m%d`. -/
def backupDay (parseDay : String → Option ℤ) (name : String) : Option ℤ :=
  if "config-".toList.isPrefixOf name.toList then
    (firstBytes 8 (name.toList.drop 7)).bind fun digits => parseDay (String.ofList digits)
  else none

def recentDay (parseDay : String → Option ℤ) (today : ℤ) (name : String) : Option ℤ :=
  (backupDay parseDay name).filter fun day => today - (backupDays - 1) ≤ day

def isBackupName (name : String) : Bool :=
  "config-".toList.isPrefixOf name.toList && ".toml".toList.isSuffixOf name.toList

def backupName (stamp : String) : ℕ → String
  | 0 => "config-" ++ (stamp ++ ".toml")
  | n + 1 => "config-" ++ (stamp ++ ("-" ++ (toString (n + 1) ++ ".toml")))

structure Backup where
  name : String
  content : String
  deriving DecidableEq

structure Disk where
  file : Option String
  isPrivate : Bool
  backups : List Backup
  distinct : (backups.map Backup.name).Nodup

namespace Disk

def names (disk : Disk) : List String := disk.backups.map Backup.name

def install (contents : String) (disk : Disk) : Disk :=
  { disk with file := some contents, isPrivate := true }

def createBackup (name : String) (disk : Disk) : Disk :=
  if fresh : name ∉ disk.names then
    { disk with
      backups := disk.backups ++ [⟨name, ""⟩]
      distinct := by
        rw [List.map_append, List.map_singleton, List.nodup_append]
        refine ⟨disk.distinct, List.nodup_singleton _, ?_⟩
        intro old isOld new isNew
        rw [List.mem_singleton.mp isNew]
        rintro rfl
        exact fresh isOld }
  else disk

def fill (name content : String) (backup : Backup) : Backup :=
  if backup.name = name then ⟨name, content⟩ else backup

theorem name_fill (name content : String) (backup : Backup) :
    (fill name content backup).name = backup.name := by
  unfold fill
  split
  next same => exact same.symm
  · rfl

def writeBackup (name content : String) (disk : Disk) : Disk :=
  { disk with
    backups := disk.backups.map (fill name content)
    distinct := by
      rw [List.map_map]
      exact (congrArg List.Nodup (List.map_congr_left fun backup _ =>
        name_fill name content backup)).mpr disk.distinct }

def removeBackup (name : String) (disk : Disk) : Disk :=
  { disk with
    backups := disk.backups.filter fun backup => backup.name ≠ name
    distinct := disk.distinct.sublist (List.filter_sublist.map _) }

def freshName (disk : Disk) (stamp : String) : String := firstFree (backupName stamp) disk.names

end Disk

/-- What goes wrong at the steps of one save. -/
structure Faults where
  createDir : Fault
  read : Fault
  metadataFails : Bool
  createBackupDir : Fault
  openBackup : Fault
  protectBackup : Fault
  writePart : Fault
  part : String
  writeBackup : Fault
  syncBackup : Fault
  listBackups : Fault
  unlisted : String → Bool
  remove : String → Fault
  openTmp : Fault
  protectTmp : Fault
  writeTmp : Fault
  syncTmp : Fault
  rename : Fault
  syncDir : Fault

/-- What `Utc::now` gives: the time of the backup, formatted, and the day of the pruning. -/
structure Clock where
  stamp : String
  today : ℤ

section Save

variable (parseDay : String → Option ℤ) (faults : Faults) (clock : Clock)

def listed (names : List String) : List String :=
  names.filter fun name => isBackupName name && !faults.unlisted name

def pruneBackups : Fallible Disk :=
  (Fallible.step faults.listBackups id).andThen fun disk =>
    Fallible.forEach (fun name => Fallible.attempt (faults.remove name) (Disk.removeBackup name))
      (expired maxBackups (recentDay parseDay clock.today) 0 []
        (descending (listed faults disk.names))) disk

/-- Copy the previous file into `config-backups/` and prune old backups. -/
def backup (previous : String) : Fallible Disk :=
  (Fallible.step faults.createBackupDir id).andThen fun disk =>
    let name := disk.freshName clock.stamp
    ((Fallible.step faults.openBackup (Disk.createBackup name)).andThen <|
      (Fallible.step faults.protectBackup id).andThen <|
      (Fallible.step faults.writePart (Disk.writeBackup name faults.part)).andThen <|
      (Fallible.step faults.writeBackup (Disk.writeBackup name previous)).andThen <|
      (Fallible.step faults.syncBackup id).andThen <|
      pruneBackups parseDay faults clock) disk

def writeAtomic (contents : String) : Fallible Disk :=
  (Fallible.step faults.openTmp id).andThen <|
  (Fallible.step faults.protectTmp id).andThen <|
  (Fallible.step faults.writeTmp id).andThen <|
  (Fallible.step faults.syncTmp id).andThen <|
  (Fallible.step faults.rename (Disk.install contents)).andThen <|
  Fallible.step faults.syncDir id

/-- Whether a save still has to replace the file for its mode alone. -/
def needsPermissionTightening (disk : Disk) : Bool :=
  !disk.isPrivate || faults.metadataFails

def writeFileLayer (library : TomlLibrary Bare Format) (config : AppConfig) : Fallible Disk :=
  (Fallible.step faults.createDir id).andThen <|
  (Fallible.step faults.read id).andThen fun disk =>
    match mergedDocument library disk.file config.stamped with
    | none => (.failed, disk)
    | some contents =>
        match disk.file with
        | none => writeAtomic faults contents disk
        | some previous =>
            if previous = contents then
              if needsPermissionTightening faults disk then writeAtomic faults contents disk
              else (.ok, disk)
            else ((backup parseDay faults clock previous).andThen (writeAtomic faults contents))
              disk

end Save

structure Process where
  state : AppState
  disk : Disk

namespace Process

/-- The two ways to change the configuration. -/
inductive Request where
  | updateConfig (config : AppConfig)
  | updateConfigWith (edit : AppConfig → Option AppConfig)

variable (library : TomlLibrary Bare Format) (parseDay : String → Option ℤ) (faults : Faults)
  (clock : Clock) (allows : AppConfig → AppConfig → Bool)

def saveAndPublish (next : AppConfig) : Fallible Process := fun process =>
  match writeFileLayer parseDay faults clock library next process.disk with
  | (.ok, disk) =>
      (.ok, ⟨{ process.state with
        file := next, config := process.state.overrides.overlay next }, disk⟩)
  | (.failed, disk) => (.failed, ⟨process.state, disk⟩)
  | (.crashed, disk) => (.crashed, ⟨process.state, disk⟩)

def commitConfig (next : AppConfig) : Fallible Process := fun process =>
  saveAndPublish library parseDay faults clock
    (process.state.overrides.keepFileValues next process.state.file) process

def update : Request → Fallible Process
  | .updateConfig config => fun process =>
      let config := process.state.overrides.keepFileValues config process.state.file
      if allows process.state.file config then
        commitConfig library parseDay faults clock config process
      else (.failed, process)
  | .updateConfigWith edit => fun process =>
      match edit process.state.file with
      | none => (.failed, process)
      | some next =>
          let next := process.state.overrides.keepFileValues next process.state.file
          if allows process.state.file next then
            commitConfig library parseDay faults clock next process
          else (.failed, process)

end Process

end Rustnzb.Core.Config
