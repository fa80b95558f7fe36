import Mathlib.Data.List.Destutter
import Rustnzb.Lib.Overwrite

/-!
# The file assembler

Decoded articles are written at their offsets into the file of their key, and a bitmap of the
expected segments says when the file is complete. A disk maps each path to the bytes of its file; a
write may fail after some of its bytes.
-/

namespace Rustnzb.Decode

open Lib (Write overwrite)

/-- No file has a byte at this offset or past it: an offset is a signed 64-bit number. -/
def maxFileSize : ℕ := 2 ^ 63 - 1

/-- How many bytes `write_all_at` writes. `fault` is where the device fails. -/
def writtenLength (offset : ℕ) (data : List UInt8) (fault : Option ℕ) : ℕ :=
  min (min data.length (fault.getD data.length)) (maxFileSize - offset)

/-- Write `data` at an offset, with zeros before it where the file was shorter, and say whether all
of it was written. -/
def writeAllAt (file : List UInt8) (offset : ℕ) (data : List UInt8) (fault : Option ℕ) :
    List UInt8 × Bool :=
  let written := writtenLength offset data fault
  (overwrite 0 file { offset := offset, block := data.take written }, written = data.length)

/-! ## The state of a file -/

inductive AssemblerError where
  | io
  | fileNotRegistered (jobId fileId : String)
  | segmentOutOfRange (segment total : ℕ)
  | emptySegmentData (segment : ℕ)
  | writeBeyondDeclaredSize (segment begin finish declared : ℕ)
  deriving DecidableEq

structure FileState where
  outputPath : String
  totalSegments : ℕ
  /-- The expected numbers, ascending, unless they are `1..=totalSegments`. -/
  segmentNumbers : Option (List ℕ)
  declaredBytes : Option ℕ
  written : List Bool
  writtenCount : ℕ
  deriving DecidableEq

namespace FileState

def indexOf (state : FileState) (segment : ℕ) : Option ℕ :=
  match state.segmentNumbers with
  | none => if segment ≠ 0 ∧ segment ≤ state.totalSegments then some (segment - 1) else none
  | some numbers => numbers.idxOf? segment

def markWritten (state : FileState) (segment : ℕ) : FileState × Bool :=
  match state.indexOf segment with
  | none => (state, false)
  | some idx =>
      let marked := { state with written := state.written.set idx true }
      if state.written[idx]? = some false then
        ({ marked with writtenCount := state.writtenCount + 1 },
          state.writtenCount + 1 = state.totalSegments)
      else (marked, false)

def new (outputPath : String) (segmentNumbers : Option (List ℕ)) (totalSegments : ℕ)
    (completedSegments : List ℕ) (declaredBytes : Option ℕ) : FileState :=
  completedSegments.foldl (fun state segment => (state.markWritten segment).1)
    { outputPath := outputPath, totalSegments := totalSegments, segmentNumbers := segmentNumbers,
      declaredBytes := declaredBytes, written := List.replicate totalSegments false,
      writtenCount := 0 }

def progress (state : FileState) : ℕ × ℕ := (state.writtenCount, state.totalSegments)

def numberAt (state : FileState) (idx : ℕ) : ℕ :=
  match state.segmentNumbers with
  | none => idx + 1
  | some numbers => numbers.getD idx 0

def missingSegments (state : FileState) : List ℕ :=
  (state.written.zipIdx.filter fun entry => !entry.1).map fun entry => state.numberAt entry.2

end FileState

/-! ## The assembler -/

structure FileKey where
  jobId : String
  fileId : String
  deriving DecidableEq

structure FileAssembler where
  files : FileKey → Option FileState
  disk : String → List UInt8

/-- The arguments of `assemble_article` for a file, and where the device fails during the write. -/
structure Article where
  segment : ℕ
  dataBegin : ℕ
  data : List UInt8
  fault : Option ℕ
  deriving DecidableEq

namespace FileAssembler

/-- `register_inner` where the directory and the file can be made; the file is not truncated. -/
def registerInner (assembler : FileAssembler) (key : FileKey) (outputPath : String)
    (segmentNumbers : Option (List ℕ)) (totalSegments : ℕ) (completedSegments : List ℕ)
    (declaredBytes : Option ℕ) : FileAssembler :=
  { assembler with
    files := Function.update assembler.files key (some (FileState.new outputPath segmentNumbers
      totalSegments completedSegments declaredBytes)) }

def sortedNumbers (segmentNumbers : List ℕ) : List ℕ :=
  ((segmentNumbers.filter (· ≠ 0)).mergeSort (· ≤ ·)).destutter (· ≠ ·)

def registerFileWithSegmentNumbers (assembler : FileAssembler) (key : FileKey) (outputPath : String)
    (segmentNumbers completedSegments : List ℕ) (declaredBytes : Option ℕ) : FileAssembler :=
  let numbers := sortedNumbers segmentNumbers
  let contiguous := numbers.getLast?.all fun last => last = numbers.length
  assembler.registerInner key outputPath (if contiguous then none else some numbers) numbers.length
    completedSegments declaredBytes

/-- The checks of `assemble_article` before it writes. The sum saturates at `u64::MAX`. -/
def check (state : FileState) (article : Article) : Except AssemblerError Unit :=
  if state.indexOf article.segment = none then
    .error (.segmentOutOfRange article.segment state.totalSegments)
  else if article.data = [] then .error (.emptySegmentData article.segment)
  else
    let finish := min (article.dataBegin + article.data.length) (2 ^ 64 - 1)
    match state.declaredBytes with
    | some declared =>
        if declared < finish then
          .error (.writeBeyondDeclaredSize article.segment article.dataBegin finish declared)
        else .ok ()
    | none => .ok ()

def assembleArticle (assembler : FileAssembler) (key : FileKey) (article : Article) :
    Except AssemblerError Bool × FileAssembler :=
  match assembler.files key with
  | none => (.error (.fileNotRegistered key.jobId key.fileId), assembler)
  | some state =>
      match check state article with
      | .error e => (.error e, assembler)
      | .ok () =>
          let (bytes, whole) := writeAllAt (assembler.disk state.outputPath) article.dataBegin
            article.data article.fault
          let wrote := { assembler with
            disk := Function.update assembler.disk state.outputPath bytes }
          if whole then
            let (state, complete) := state.markWritten article.segment
            (.ok complete, { wrote with
              files := Function.update wrote.files key (some state) })
          else (.error .io, wrote)

def getFileProgress (assembler : FileAssembler) (key : FileKey) : ℕ × ℕ :=
  ((assembler.files key).map FileState.progress).getD (0, 0)

def missingSegments (assembler : FileAssembler) (key : FileKey) : List ℕ :=
  ((assembler.files key).map FileState.missingSegments).getD []

def assembleAll (assembler : FileAssembler) (key : FileKey) :
    List Article → List (Except AssemblerError Bool) × FileAssembler
  | [] => ([], assembler)
  | article :: rest =>
      let (result, assembler) := assembler.assembleArticle key article
      let (results, assembler) := assembler.assembleAll key rest
      (result :: results, assembler)

end FileAssembler

end Rustnzb.Decode
