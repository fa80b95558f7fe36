import Mathlib
import Rustnzb.Lib.Run

/-!
# Fetching a group's headers

One newsgroup: its row with the scan watermark, the requests that are being answered, and whoever
holds the in-flight guard. A request reads the row, picks the browse server and reads which server
the watermark belongs to before it takes the guard; the fetch it then starts asks for batches of
article numbers and moves the watermark after each.

Article numbers are a `u64` of the server and the watermark is an `i64` of the table. The log of
what was stored and of the watermarks written since the last clear is not in the source; no
function reads it.
-/

namespace Rustnzb.Groups

open Lib

abbrev ServerId := String

def headerFetchMaxArticles : ℕ := 10000
def headerFetchBatch : ℕ := 2000

def saturatingAdd (left right : ℕ) : ℕ := min (left + right) (2 ^ 64 - 1)

def toI64 (number : ℕ) : ℤ := if number < 2 ^ 63 then number else (number : ℤ) - 2 ^ 64

def planHeaderFetch (lastScanned : Option ℕ) (first last maxArticles : ℕ) : Option (ℕ × ℕ) :=
  if last = 0 ∨ last < first ∨ maxArticles = 0 then none
  else
    let start := match lastScanned with
      | some scanned => max (saturatingAdd scanned 1) first
      | none => first
    if start > last then none
    else some (max start (last - (maxArticles - 1)), last)

/-- Where a request stands before it takes the guard. -/
inductive Request where
  | read (lastScanned : ℤ)
  | chosen (lastScanned : ℤ) (server : ServerId)
  | ready (server : ServerId) (lastScanned : Option ℕ)
  deriving DecidableEq

/-- A batch of the loop of `run_header_fetch`: the range it asks for. -/
structure Batch where
  first : ℕ
  last : ℕ
  start : ℕ
  finish : ℕ
  batchStart : ℕ
  deriving DecidableEq

def Batch.batchEnd (batch : Batch) : ℕ :=
  min (saturatingAdd batch.batchStart (headerFetchBatch - 1)) batch.finish

/-- `batch_end + 1`, which wraps around as it does in a release build. -/
def Batch.nextStart (batch : Batch) : ℕ := (batch.batchEnd + 1) % 2 ^ 64

inductive Stage where
  | connecting
  | requesting (batch : Batch)
  | inserting (batch : Batch)
  | updating (batch : Batch)
  /-- The loop is left; the guard is dropped when the headers are pruned. -/
  | ending
  deriving DecidableEq

structure Fetch where
  server : ServerId
  lastScanned : Option ℕ
  stage : Stage
  requested : List (ℕ × ℕ)
  deriving DecidableEq

inductive Holder where
  | fetch (fetch : Fetch)
  | clear (done : Bool)
  deriving DecidableEq

/-- A range asked of a server by an XOVER whose rows were stored. -/
structure Stored where
  server : ServerId
  first : ℕ
  last : ℕ
  deriving DecidableEq

/-- A watermark written. The numbers from `passedFrom` up to `passedTo` lie above the server's
watermark before and below the batch; the server had the articles from `first` to `last`. -/
structure Mark where
  server : ServerId
  value : ℤ
  passedFrom : ℕ
  passedTo : ℕ
  first : ℕ
  last : ℕ
  deriving DecidableEq

/-- A fetch that went through its whole plan. -/
structure Finished where
  start : ℕ
  finish : ℕ
  requested : List (ℕ × ℕ)
  deriving DecidableEq

structure Group where
  lastScanned : ℤ
  scanServer : Option ServerId
  requests : List Request
  guard : Option Holder
  stored : List Stored
  marks : List Mark
  finished : List Finished

inductive Label where
  | groupGet
  | browseServer (index : ℕ) (server : ServerId)
  | groupScanServer (index : ℕ)
  | refuse (index : ℕ)
  | tryStart (index : ℕ)
  | fail
  | group (first last : ℕ)
  | xover
  | headerInsertBatch
  | groupUpdateWatermark
  | tryStartClear
  | headerClearGroup (ok : Bool)
  | drop
  | restart

namespace Group

def start : Group where
  lastScanned := 0
  scanServer := none
  requests := []
  guard := none
  stored := []
  marks := []
  finished := []

/-- What `h_header_fetch` makes of a watermark that is valid for a server. -/
def lastScannedFor (lastScanned : ℤ) (scanServer : Option ServerId) (server : ServerId) :
    Option ℕ :=
  if scanServer = some server ∧ 0 < lastScanned then some lastScanned.toNat else none

def lastMark (group : Group) (server : ServerId) : Option ℤ :=
  ((group.marks.filter fun mark => mark.server = server).getLast?).map Mark.value

/-- The first number above a server's watermark. -/
def unpassed (group : Group) (server : ServerId) : ℕ :=
  match group.lastMark server with
  | some value => (value + 1).toNat
  | none => 0

def browseServer (group : Group) (index : ℕ) (server : ServerId) : Option Group :=
  match group.requests[index]? with
  | some (.read lastScanned) =>
      some { group with requests := group.requests.set index (.chosen lastScanned server) }
  | _ => none

/-- Article numbers are per server: a watermark taken on another server is not reused. -/
def groupScanServer (group : Group) (index : ℕ) : Option Group :=
  match group.requests[index]? with
  | some (.chosen lastScanned server) =>
      some { group with
        requests := group.requests.set index
          (.ready server (lastScannedFor lastScanned group.scanServer server)) }
  | _ => none

/-- Take the guard and start the fetch, or answer that one is running. -/
def tryStart (group : Group) (index : ℕ) : Option Group :=
  match group.requests[index]? with
  | some (.ready server lastScanned) =>
      if group.guard.isSome then some { group with requests := group.requests.eraseIdx index }
      else
        some { group with
          requests := group.requests.eraseIdx index
          guard := some (.fetch {
            server := server
            lastScanned := lastScanned
            stage := .connecting
            requested := [] }) }
  | _ => none

def withStage (group : Group) (fetch : Fetch) (stage : Stage) : Group :=
  { group with guard := some (.fetch { fetch with stage := stage }) }

def planned (group : Group) (first last : ℕ) : Option Group :=
  match group.guard with
  | some (.fetch ⟨server, lastScanned, .connecting, requested⟩) =>
      if first < 2 ^ 64 ∧ last < 2 ^ 64 then
        match planHeaderFetch lastScanned first last headerFetchMaxArticles with
        | none => some (group.withStage ⟨server, lastScanned, .connecting, requested⟩ .ending)
        | some (start, finish) =>
            some (group.withStage ⟨server, lastScanned, .connecting, requested⟩
              (.requesting {
                first := first
                last := last
                start := start
                finish := finish
                batchStart := start }))
      else none
  | _ => none

def xover (group : Group) : Option Group :=
  match group.guard with
  | some (.fetch ⟨server, lastScanned, .requesting batch, requested⟩) =>
      some { group with
        guard := some (.fetch {
          server := server
          lastScanned := lastScanned
          stage := .inserting batch
          requested := requested ++ [(batch.batchStart, batch.batchEnd)] }) }
  | _ => none

def headerInsertBatch (group : Group) : Option Group :=
  match group.guard with
  | some (.fetch ⟨server, lastScanned, .inserting batch, requested⟩) =>
      some { group.withStage ⟨server, lastScanned, .inserting batch, requested⟩
          (.updating batch) with
        stored := group.stored ++ [{
          server := server
          first := batch.batchStart
          last := batch.batchEnd }] }
  | _ => none

def groupUpdateWatermark (group : Group) : Option Group :=
  match group.guard with
  | some (.fetch ⟨server, lastScanned, .updating batch, requested⟩) =>
      some { group with
        lastScanned := toI64 batch.batchEnd
        scanServer := some server
        marks := group.marks ++ [{
          server := server
          value := toI64 batch.batchEnd
          passedFrom := group.unpassed server
          passedTo := batch.batchStart
          first := batch.first
          last := batch.last }]
        guard := some (.fetch {
          server := server
          lastScanned := lastScanned
          stage :=
            if batch.nextStart ≤ batch.finish then
              .requesting { batch with batchStart := batch.nextStart }
            else .ending
          requested := requested })
        finished :=
          if batch.nextStart ≤ batch.finish then group.finished
          else group.finished ++ [{
            start := batch.start
            finish := batch.finish
            requested := requested }] }
  | _ => none

def headerClearGroup (group : Group) (ok : Bool) : Option Group :=
  match group.guard with
  | some (.clear false) =>
      if ok then
        some { group with
          guard := some (.clear true)
          lastScanned := 0
          scanServer := none
          stored := []
          marks := [] }
      else some { group with guard := some (.clear true) }
  | _ => none

def fail (group : Group) : Option Group :=
  match group.guard with
  | some (.fetch fetch) => some (group.withStage fetch .ending)
  | _ => none

def drop (group : Group) : Option Group :=
  match group.guard with
  | some (.fetch ⟨_, _, .ending, _⟩) => some { group with guard := none }
  | some (.clear true) => some { group with guard := none }
  | _ => none

/-- One step. `none`: it cannot happen in this state. -/
def step (group : Group) : Label → Option Group
  | .groupGet => some { group with requests := group.requests ++ [.read group.lastScanned] }
  | .browseServer index server => group.browseServer index server
  | .groupScanServer index => group.groupScanServer index
  | .refuse index => some { group with requests := group.requests.eraseIdx index }
  | .tryStart index => group.tryStart index
  | .fail => group.fail
  | .group first last => group.planned first last
  | .xover => group.xover
  | .headerInsertBatch => group.headerInsertBatch
  | .groupUpdateWatermark => group.groupUpdateWatermark
  | .tryStartClear =>
      if group.guard.isSome then some group else some { group with guard := some (.clear false) }
  | .headerClearGroup ok => group.headerClearGroup ok
  | .drop => group.drop
  | .restart => some { group with requests := [], guard := none }

def Step (group : Group) (label : Label) (next : Group) : Prop :=
  group.step label = some next

end Group

end Rustnzb.Groups
