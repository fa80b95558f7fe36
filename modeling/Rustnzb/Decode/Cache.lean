import Mathlib.Data.List.AList
import Rustnzb.Decode.SliceMap

/-!
# The article cache

A map from article keys to decoded data with a limit on what it holds in memory. A store that
goes over the limit spills the oldest entries to files in their jobs' work directories.

The file system is part of the state, as a map from locations to contents. What the program does
not control is a parameter `Disk`: which location a path resolves to, which paths can be written,
and the directory for temporary files.
-/

namespace Rustnzb.Decode

structure CacheKey where
  jobId : String
  fileId : String
  segmentNumber : ℕ
  deriving DecidableEq

inductive EntryLocation where
  | memory (data : Bytes)
  | disk (path : String)

structure CacheEntry where
  location : EntryLocation
  size : ℕ

structure Disk (Loc : Type) where
  locate : String → Loc
  writable : String → Bool
  tempDir : String

abbrev Entries := AList fun _ : CacheKey => CacheEntry

structure ArticleCache (Loc : Type) where
  entries : Entries
  insertionOrder : List CacheKey
  memoryBytes : ℕ
  maxBytes : ℕ
  workDirs : AList fun _ : String => String
  files : Loc → Option Bytes

def joinPath (base name : String) : String :=
  match base.toList.getLast? with
  | none => name
  | some last => if last = '/' then base ++ name else base ++ "/" ++ name

namespace ArticleCache

variable {Loc : Type} [DecidableEq Loc] (disk : Disk Loc)

def new (files : Loc → Option Bytes) (maxBytes : ℕ) : ArticleCache Loc where
  entries := ∅
  insertionOrder := []
  memoryBytes := 0
  maxBytes := maxBytes
  workDirs := ∅
  files := files

def registerWorkDir (cache : ArticleCache Loc) (jobId workDir : String) : ArticleCache Loc :=
  { cache with workDirs := cache.workDirs.insert jobId workDir }

/-- The spill file of a key. The job's identity is in it only through the work directory. -/
def spillPath (workDirs : AList fun _ : String => String) (key : CacheKey) : String :=
  joinPath ((workDirs.lookup key.jobId).getD disk.tempDir)
    (".cache_" ++ key.fileId ++ "_" ++ toString key.segmentNumber ++ ".tmp")

def forget (cache : ArticleCache Loc) (key : CacheKey) : ArticleCache Loc :=
  match cache.entries.lookup key with
  | none => cache
  | some old =>
      { cache with
        entries := cache.entries.erase key
        memoryBytes :=
          match old.location with
          | .memory _ => cache.memoryBytes - old.size
          | .disk _ => cache.memoryBytes
        insertionOrder := cache.insertionOrder.filter fun k => k ≠ key }

/-- Write the oldest entry to its spill file and move it to the back of the order. -/
def spillEntry (cache : ArticleCache Loc) (evictKey : CacheKey) (rest : List CacheKey)
    (entry : CacheEntry) (data : Bytes) : ArticleCache Loc :=
  let path := spillPath disk cache.workDirs evictKey
  { cache with
    insertionOrder := rest ++ [evictKey]
    entries := cache.entries.insert evictKey { entry with location := .disk path }
    memoryBytes := cache.memoryBytes - entry.size
    files := Function.update cache.files (disk.locate path) (some data) }

/-- One turn of the spill loop of `store`. The flag is false when the loop breaks. -/
def spillOldest (cache : ArticleCache Loc) : ArticleCache Loc × Bool :=
  match cache.insertionOrder with
  | [] => (cache, true)
  | evictKey :: rest =>
      match cache.entries.lookup evictKey with
      | none => ({ cache with insertionOrder := rest }, true)
      | some entry =>
          match entry.location with
          | .disk _ => ({ cache with insertionOrder := rest ++ [evictKey] }, true)
          | .memory data =>
              if disk.writable (spillPath disk cache.workDirs evictKey) then
                (cache.spillEntry disk evictKey rest entry data, true)
              else (cache, false)

/-- The condition of the spill loop of `store`. -/
def OverLimit (cache : ArticleCache Loc) (dataLen : ℕ) : Prop :=
  cache.memoryBytes + dataLen > cache.maxBytes ∧ cache.insertionOrder ≠ []

instance (cache : ArticleCache Loc) (dataLen : ℕ) : Decidable (cache.OverLimit dataLen) :=
  inferInstanceAs (Decidable (_ ∧ _))

/-- The spill loop of `store`, for at most `fuel` turns. `none`: it has not ended. -/
def spill (dataLen : ℕ) : ℕ → ArticleCache Loc → Option (ArticleCache Loc)
  | 0, cache => if cache.OverLimit dataLen then none else some cache
  | fuel + 1, cache =>
      if cache.OverLimit dataLen then
        match spillOldest disk cache with
        | (cache, true) => spill dataLen fuel cache
        | (cache, false) => some cache
      else some cache

def insertNewest (cache : ArticleCache Loc) (key : CacheKey) (data : Bytes) : ArticleCache Loc :=
  { cache with
    memoryBytes := cache.memoryBytes + data.length
    entries := cache.entries.insert key { location := .memory data, size := data.length }
    insertionOrder := cache.insertionOrder ++ [key] }

/-- `store` with at most `fuel` turns of its loop. -/
def store (fuel : ℕ) (cache : ArticleCache Loc) (key : CacheKey) (data : Bytes) :
    Option (ArticleCache Loc) :=
  (spill disk data.length fuel (cache.forget key)).map fun cache => cache.insertNewest key data

/-- `none` is the I/O error of a spill file that is not there. -/
def load (cache : ArticleCache Loc) (key : CacheKey) : Option (Option Bytes) :=
  match cache.entries.lookup key with
  | none => some none
  | some entry =>
      match entry.location with
      | .memory data => some (some data)
      | .disk path => (cache.files (disk.locate path)).map some

def removeEntry (cache : ArticleCache Loc) (key : CacheKey) : ArticleCache Loc :=
  match cache.entries.lookup key with
  | none => cache
  | some entry =>
      match entry.location with
      | .memory _ =>
          { cache with
            entries := cache.entries.erase key
            memoryBytes := cache.memoryBytes - entry.size }
      | .disk path =>
          { cache with
            entries := cache.entries.erase key
            files := Function.update cache.files (disk.locate path) none }

def remove (cache : ArticleCache Loc) (key : CacheKey) : ArticleCache Loc :=
  if key ∈ cache.entries then
    { cache.removeEntry disk key with
      insertionOrder := cache.insertionOrder.filter fun k => k ≠ key }
  else cache

def clearJob (cache : ArticleCache Loc) (jobId : String) : ArticleCache Loc :=
  let keysToRemove := cache.entries.keys.filter fun k => k.jobId = jobId
  let cleared := keysToRemove.foldl (removeEntry disk) cache
  { cleared with
    insertionOrder := cleared.insertionOrder.filter fun k => k.jobId ≠ jobId
    workDirs := cleared.workDirs.erase jobId }

def setLimit (cache : ArticleCache Loc) (bytes : ℕ) : ArticleCache Loc :=
  { cache with maxBytes := bytes }

end ArticleCache

end Rustnzb.Decode
