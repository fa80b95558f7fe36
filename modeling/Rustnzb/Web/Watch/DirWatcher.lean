import Mathlib
import Rustnzb.Lib.Run

/-!
# The watch folder

The files that other processes drop into the folder, where each of them is now, and the watcher:
the scan of what is there when it starts, the events it receives after that, and the file that it is
working on.

A file is a copy if the watcher made it. Which drop it came from, whether more of it is to be
written and whether another drop replaced it before it was claimed is not in the source.
-/

namespace Rustnzb.Web.Watch

open Lib

abbrev Name := List Char
abbrev Content := List UInt8

scoped instance : LawfulBEq Name := inferInstance

def maxWatchedNzbBytes : ℕ := 100 * 1024 * 1024
def claimSuffix : Name := ".processing".toList

inductive Subdir where
  | processed
  | failed
  deriving DecidableEq

inductive Folder where
  | watch
  | subdir (subdir : Subdir)
  deriving DecidableEq

structure Place where
  folder : Folder
  name : Name
  deriving DecidableEq

structure File where
  drop : ℕ
  copy : Bool
  content : Content
  modified : ℕ
  complete : Bool
  withdrawn : Bool
  place : Option Place
  deriving DecidableEq

inductive Phase where
  | off
  | starting
  /-- The entries of `read_dir` that are still to come. -/
  | scanning (rest : List Name)
  | watching
  deriving DecidableEq

inductive Stage where
  /-- `wait_until_stable` with its last snapshot. -/
  | settling (size modified : ℕ)
  | claiming
  | reading
  | enqueueing (drop index count : ℕ)
  | moving (subdir : Subdir)
  | copying (subdir : Subdir)
  | removing (subdir : Subdir)
  deriving DecidableEq

structure Work where
  name : Name
  stage : Stage
  deriving DecidableEq

structure DirWatcher where
  files : List File
  phase : Phase
  work : Option Work
  events : List Name
  claimed : List ℕ
  enqueued : List (ℕ × ℕ)
  deriving DecidableEq

inductive CopyResult where
  | done
  | untouched
  | partly (content : Content)

inductive Label where
  | drop (name : Name) (content : Content) (modified : ℕ) (complete : Bool)
  | write (drop : ℕ) (content : Content) (modified : ℕ) (last : Bool)
  | notify (name : Name)
  | start (ok : Bool)
  | readDir (entries : Option (List Name))
  | entry (ok : Bool)
  | watch
  | recv
  /-- A look after the settle interval; `late` if the longest wait is over. -/
  | settle (late : Bool)
  | claim (ok : Bool)
  | unpack (count : Option ℕ)
  | enqueue (ok : Bool)
  | move (made renamed : Bool)
  | copy (result : CopyResult)
  | remove (ok : Bool)
  | stop

/-- Watched names: `.nzb`, plus `.nzb.gz`, `.nzb.bz2`, and `.zip` archives of NZBs. -/
def isNzbFile (name : Name) : Bool :=
  [".nzb", ".nzb.gz", ".nzb.bz2", ".zip"].any fun suffix => suffix.toList.isSuffixOf name

def File.leave (file : File) (place : Place) : File :=
  if file.place = some place then { file with place := none } else file

def File.rename (file : File) (source destination : Place) : File :=
  if file.place = some source then { file with place := some destination }
  else file.leave destination

def File.withdraw (file : File) (place : Place) : File :=
  if file.place = some place then { file with place := none, withdrawn := true } else file

def File.write (file : File) (drop : ℕ) (content : Content) (modified : ℕ) (last : Bool) : File :=
  if file.drop = drop ∧ file.copy = false then
    { file with content := content, modified := modified, complete := last }
  else file

def Place.claimed (name : Name) : Place := ⟨.watch, name ++ claimSuffix⟩

namespace DirWatcher

def init : DirWatcher where
  files := []
  phase := .off
  work := none
  events := []
  claimed := []
  enqueued := []

def fileAt (state : DirWatcher) (place : Place) : Option File :=
  state.files.find? fun file => file.place = some place

def pathsOf (state : DirWatcher) (drop : ℕ) : List Name :=
  state.files.filterMap fun file =>
    match file.place with
    | some ⟨.watch, name⟩ => if file.drop = drop then some name else none
    | _ => none

/-- The notifier delivers an event for a change once the watch is set up. -/
def notified (state : DirWatcher) (names : List Name) : List Name :=
  if state.phase = .watching then state.events ++ names else state.events

def dropped (state : DirWatcher) (name : Name) (content : Content) (modified : ℕ)
    (complete : Bool) : Option DirWatcher :=
  if isNzbFile name then
    some { state with
      files := state.files.map (fun file => file.withdraw ⟨.watch, name⟩) ++ [{
        drop := state.files.length
        copy := false
        content := content
        modified := modified
        complete := complete
        withdrawn := false
        place := some ⟨.watch, name⟩ }]
      events := state.notified [name] }
  else none

def write (state : DirWatcher) (drop : ℕ) (content : Content) (modified : ℕ) (last : Bool) :
    Option DirWatcher :=
  if ∃ file ∈ state.files, file.drop = drop ∧ file.copy = false ∧ file.complete = false then
    some { state with
      files := state.files.map fun file => file.write drop content modified last
      events := state.notified (state.pathsOf drop) }
  else none

/-- `read_dir` lists at least the files that are there. -/
def readDir (state : DirWatcher) (entries : Option (List Name)) : Option DirWatcher :=
  if state.phase = .starting then
    match entries with
    | none => some { state with phase := .scanning [] }
    | some names =>
        if ∀ file ∈ state.files, ∀ place ∈ file.place, place.folder = .watch →
            place.name ∈ names then
          some { state with phase := .scanning names }
        else none
  else none

/-- `process_file` up to its first look at a watched path. -/
def processFile (state : DirWatcher) (name : Name) : DirWatcher :=
  if isNzbFile name then
    match state.fileAt ⟨.watch, name⟩ with
    | none => state
    | some file => { state with work := some ⟨name, .settling file.content.length file.modified⟩ }
  else state

/-- The next entry of the scan, which is passed over if it cannot be read. -/
def entry (state : DirWatcher) (ok : Bool) : Option DirWatcher :=
  match state.phase, state.work with
  | .scanning (name :: rest), none =>
      if ok then some ({ state with phase := .scanning rest }.processFile name)
      else some { state with phase := .scanning rest }
  | _, _ => none

def watch (state : DirWatcher) : Option DirWatcher :=
  match state.phase, state.work with
  | .scanning [], none => some { state with phase := .watching }
  | _, _ => none

def recv (state : DirWatcher) : Option DirWatcher :=
  match state.phase, state.work, state.events with
  | .watching, none, name :: events => some ({ state with events := events }.processFile name)
  | _, _, _ => none

def settle (state : DirWatcher) (late : Bool) : Option DirWatcher :=
  match state.work with
  | some ⟨name, .settling size modified⟩ =>
      match state.fileAt ⟨.watch, name⟩ with
      | none => some { state with work := none }
      | some file =>
          if (file.content.length = size ∧ file.modified = modified) ∨ late then
            some { state with work := some ⟨name, .claiming⟩ }
          else
            some { state with work := some ⟨name, .settling file.content.length file.modified⟩ }
  | _ => none

def claim (state : DirWatcher) (ok : Bool) : Option DirWatcher :=
  match state.work with
  | some ⟨name, .claiming⟩ =>
      match state.fileAt ⟨.watch, name⟩ with
      | none => some { state with work := none }
      | some file =>
          if ok then
            some { state with
              files := state.files.map fun file => file.rename ⟨.watch, name⟩ (.claimed name)
              work := some ⟨name, .reading⟩
              claimed := state.claimed ++ [file.drop] }
          else some { state with work := none }
  | _ => none

def unpack (state : DirWatcher) (count : Option ℕ) : Option DirWatcher :=
  match state.work with
  | some ⟨name, .reading⟩ =>
      match state.fileAt (.claimed name), count with
      | some file, some (count + 1) =>
          if file.content.length > maxWatchedNzbBytes then
            some { state with work := some ⟨name, .moving .failed⟩ }
          else some { state with work := some ⟨name, .enqueueing file.drop 0 (count + 1)⟩ }
      | _, _ => some { state with work := some ⟨name, .moving .failed⟩ }
  | _ => none

def enqueue (state : DirWatcher) (ok : Bool) : Option DirWatcher :=
  match state.work with
  | some ⟨name, .enqueueing drop index count⟩ =>
      if ok then
        some { state with
          enqueued := state.enqueued ++ [(drop, index)]
          work :=
            if index + 1 < count then some ⟨name, .enqueueing drop (index + 1) count⟩
            else some ⟨name, .moving .processed⟩ }
      else some { state with work := some ⟨name, .moving .failed⟩ }
  | _ => none

def moveInto (state : DirWatcher) (made renamed : Bool) : Option DirWatcher :=
  match state.work with
  | some ⟨name, .moving subdir⟩ =>
      if made = false then some { state with work := none }
      else if renamed = true ∧ (state.fileAt (.claimed name)).isSome then
        some { state with
          files := state.files.map fun file => file.rename (.claimed name) ⟨.subdir subdir, name⟩
          work := none }
      else some { state with work := some ⟨name, .copying subdir⟩ }
  | _ => none

def copied (state : DirWatcher) (file : File) (content : Content) (place : Place) : List File :=
  state.files.map (fun file => file.leave place) ++
    [{ file with copy := true, content := content, place := some place }]

def copy (state : DirWatcher) (result : CopyResult) : Option DirWatcher :=
  match state.work with
  | some ⟨name, .copying subdir⟩ =>
      match state.fileAt (.claimed name), result with
      | some file, .done =>
          some { state with
            files := state.copied file file.content ⟨.subdir subdir, name⟩
            work := some ⟨name, .removing subdir⟩ }
      | some file, .partly content =>
          some { state with
            files := state.copied file content ⟨.subdir subdir, name⟩
            work := none }
      | _, _ => some { state with work := none }
  | _ => none

def removeFile (state : DirWatcher) (ok : Bool) : Option DirWatcher :=
  match state.work with
  | some ⟨name, .removing _⟩ =>
      if ok then
        some { state with
          files := state.files.map fun file => file.leave (.claimed name)
          work := none }
      else some { state with work := none }
  | _ => none

/-- One step. `none`: it cannot happen in this state. -/
def step (state : DirWatcher) : Label → Option DirWatcher
  | .drop name content modified complete => state.dropped name content modified complete
  | .write drop content modified last => state.write drop content modified last
  | .notify name => some { state with events := state.notified [name] }
  | .start ok =>
      if state.phase = .off then
        some { state with phase := if ok then .starting else .off }
      else none
  | .readDir entries => state.readDir entries
  | .entry ok => state.entry ok
  | .watch => state.watch
  | .recv => state.recv
  | .settle late => state.settle late
  | .claim ok => state.claim ok
  | .unpack count => state.unpack count
  | .enqueue ok => state.enqueue ok
  | .move made renamed => state.moveInto made renamed
  | .copy result => state.copy result
  | .remove ok => state.removeFile ok
  | .stop => some { state with phase := .off, work := none, events := [] }

def Step (state : DirWatcher) (label : Label) (next : DirWatcher) : Prop :=
  state.step label = some next

end DirWatcher

end Rustnzb.Web.Watch
