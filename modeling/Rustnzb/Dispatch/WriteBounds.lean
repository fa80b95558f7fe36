import Rustnzb.Decode.Assembly
import Rustnzb.Dispatch.IncompleteNzb

/-!
# Where articles may be written

The offset of a decoded article comes from its own header. `validated_write_offset` accepts it
within the size that the NZB declares for the file, or else within the first size that an article
of the file has claimed. What `decode_yenc` makes of a body is arbitrary, and so is where the device
fails.
-/

namespace Rustnzb.Dispatch.WriteBounds

open Decode (FileAssembler FileKey FileState AssemblerError maxFileSize writtenLength writeAllAt)
open Lib (Write overwrite)

/-! ## Registration -/

structure Article where
  segmentNumber : ℕ
  bytes : ℕ
  downloaded : Bool

structure NzbFile where
  id : FileId
  /-- `job.work_dir.join(&file.filename)`. -/
  outputPath : String
  bytes : ℕ
  articles : List Article

def u32Max : ℕ := 2 ^ 32 - 1

def u64Max : ℕ := 2 ^ 64 - 1

def incompleteNzbMaxSpread : ℕ := 2

/-- The largest size of a file with segments left out. The products and the sum saturate. -/
def incompleteNzbSizeCap (listed highestSegment largestSegmentBytes : ℕ) : ℕ :=
  let counted := min highestSegment (min (listed * incompleteNzbMaxSpread) u32Max)
  let raw := min (counted * largestSegmentBytes) u64Max
  min (raw + raw / 10) u64Max

def NzbFile.segmentNumbers (file : NzbFile) : List ℕ := file.articles.map Article.segmentNumber

def NzbFile.declaredBytes (file : NzbFile) : Option ℕ :=
  let allSized := file.articles.all fun article => 0 < article.bytes
  match nzbSegmentGap file.segmentNumbers with
  | some (listed, highest) =>
      let largest := (file.articles.map Article.bytes).foldl max 0
      if allSized then some (incompleteNzbSizeCap listed highest largest) else none
  | none => if allSized then some file.bytes else none

/-- The assembler of `build_job_submission`. A file whose output cannot be opened is left out. -/
def register (jobId : JobId) (opens : NzbFile → Bool) (assembler : FileAssembler) :
    List NzbFile → FileAssembler
  | [] => assembler
  | file :: rest =>
      let assembler :=
        if opens file then
          assembler.registerFileWithSegmentNumbers { jobId := jobId, fileId := file.id }
            file.outputPath file.segmentNumbers
            ((file.articles.filter Article.downloaded).map Article.segmentNumber)
            file.declaredBytes
        else assembler
      register jobId opens assembler rest

def declaredBytes (assembler : FileAssembler) (key : FileKey) : Option ℕ :=
  (assembler.files key).bind FileState.declaredBytes

def segmentGap (assembler : FileAssembler) (key : FileKey) : Option (ℕ × ℕ) :=
  (assembler.files key).bind fun state =>
    state.segmentNumbers.map fun numbers => (state.totalSegments, numbers.getLast?.getD 0)

/-! ## Decoded articles -/

/-- What `decode_yenc` makes of a body. The numbers are `u64`. -/
structure YencDecodeResult where
  data : List UInt8
  filename : Option String
  partBegin : Option ℕ
  partEnd : Option ℕ
  fileSize : Option ℕ
  fileSize_lt : ∀ size ∈ fileSize, size < 2 ^ 64

/-- `(first, min, max, logged)`. -/
structure YencSizeRange where
  first : ℕ
  min : ℕ
  max : ℕ
  logged : Bool

/-- The checks of `validated_write_offset` against a bound. -/
def withinBound (begin dataLen size : ℕ) (partEnd : Option ℕ) : Except String ℕ :=
  if size = 0 then .error "declared file size is 0"
  else if size ≤ begin then
    .error s!"=ypart begin {begin} is past the declared file size {size}"
  else if begin + dataLen < 2 ^ 64 ∧ begin + dataLen ≤ size then
    let finish := begin + dataLen
    match partEnd with
    | some partEnd =>
        if partEnd ≠ finish then
          .error s!"=ypart end {partEnd} does not match the decoded bytes ending at {finish}"
        else .ok begin
    | none => .ok begin
  else .error s!"part range begin={begin} len={dataLen} exceeds declared file size {size}"

def validatedWriteOffset (segmentNumber : ℕ) (decoded : YencDecodeResult) (dataLen : ℕ)
    (declaredBytes pinnedSize : Option ℕ) : Except String ℕ :=
  match declaredBytes.or pinnedSize with
  | some size =>
      match decoded.partBegin with
      | some begin => withinBound begin dataLen size decoded.partEnd
      | none =>
          if segmentNumber ≤ 1 then withinBound 0 dataLen size decoded.partEnd
          else .error s!"no =ypart header on segment {segmentNumber} of a multi-part file"
  | none =>
      if segmentNumber ≤ 1 then .ok (decoded.partBegin.getD 0)
      else .error s!"no declared file size for multi-segment file (segment {segmentNumber})"

/-- A body that has come in for a segment, and where the device fails while it is written. -/
structure Fetched where
  fileId : FileId
  filename : String
  segmentNumber : ℕ
  decoded : Except String YencDecodeResult
  fault : Option ℕ

inductive ArticleError where
  | decodeError (reason : String)
  | incompleteNzb (reason : String)
  | assemblyError (filename : String) (segment : ℕ) (error : AssemblerError)

structure ProcessResult where
  decodedBytes : ℕ
  writeOffset : ℕ
  fileComplete : Bool
  yencFilename : Option String

structure Job where
  id : JobId
  assembler : FileAssembler
  pinnedFileSizes : FileId → Option YencSizeRange

namespace Job

def key (job : Job) (fetched : Fetched) : FileKey := { jobId := job.id, fileId := fetched.fileId }

def widen (range : YencSizeRange) (size : ℕ) : YencSizeRange :=
  let widened := decide (size < range.min ∨ range.max < size)
  if widened || !range.logged then
    { first := range.first, min := min range.min size, max := max range.max size,
      logged := range.logged || widened }
  else range

def record (job : Job) (fileId : FileId) : Option ℕ → FileId → Option YencSizeRange
  | some size =>
      let range :=
        match job.pinnedFileSizes fileId with
        | some range => widen range size
        | none => { first := size, min := size, max := size, logged := false }
      Function.update job.pinnedFileSizes fileId (some range)
  | none => job.pinnedFileSizes

def decodeAndAssemble (job : Job) (fetched : Fetched) : Except ArticleError ProcessResult × Job :=
  match fetched.decoded with
  | .error e =>
      (.error (.decodeError
        s!"yEnc decode failed for {fetched.filename} seg {fetched.segmentNumber}: {e}"), job)
  | .ok decoded =>
      let key := job.key fetched
      let declared := declaredBytes job.assembler key
      let sizes := job.record fetched.fileId decoded.fileSize
      let pinnedSize := (sizes fetched.fileId).map YencSizeRange.first
      let gap := segmentGap job.assembler key
      let pinnedBound := if declared.isSome then none else pinnedSize
      let decodedLen := decoded.data.length
      let job := { job with pinnedFileSizes := sizes }
      match validatedWriteOffset fetched.segmentNumber decoded decodedLen declared pinnedBound with
      | .error reason =>
          let pastCap := declared.any fun cap => decoded.partBegin.any fun begin =>
            cap ≤ begin || cap < min (begin + decodedLen) u64Max
          match gap with
          | some (listed, highest) =>
              if pastCap then
                (.error (.incompleteNzb (s!"NZB lists {listed} of {highest} segments for " ++
                  s!"{fetched.filename}; seg {fetched.segmentNumber} not placed: {reason}")), job)
              else
                (.error (.decodeError (s!"Corrupt yEnc article for {fetched.filename} seg " ++
                  s!"{fetched.segmentNumber}: {reason}")), job)
          | none =>
              (.error (.decodeError (s!"Corrupt yEnc article for {fetched.filename} seg " ++
                s!"{fetched.segmentNumber}: {reason}")), job)
      | .ok dataBegin =>
          match job.assembler.assembleArticle key
              { segment := fetched.segmentNumber, dataBegin := dataBegin, data := decoded.data,
                fault := fetched.fault } with
          | (.error e, assembler) =>
              (.error (.assemblyError fetched.filename fetched.segmentNumber e),
                { job with assembler := assembler })
          | (.ok fileComplete, assembler) =>
              (.ok { decodedBytes := decodedLen, writeOffset := dataBegin,
                     fileComplete := fileComplete, yencFilename := decoded.filename },
                { job with assembler := assembler })

def process (job : Job) (fetched : List Fetched) : Job :=
  fetched.foldl (fun job fetched => (job.decodeAndAssemble fetched).2) job

end Job

def buildJobSubmission (jobId : JobId) (opens : NzbFile → Bool) (disk : String → List UInt8)
    (files : List NzbFile) : Job where
  id := jobId
  assembler := register jobId opens { files := fun _ => none, disk := disk } files
  pinnedFileSizes := fun _ => none

/-! ## What is written -/

namespace Job

def recordOf (job : Job) (fetched : Fetched) : FileId → Option YencSizeRange :=
  match fetched.decoded with
  | .ok decoded => job.record fetched.fileId decoded.fileSize
  | .error _ => job.pinnedFileSizes

def offsetOf (job : Job) (fetched : Fetched) (decoded : YencDecodeResult) : Except String ℕ :=
  let declared := declaredBytes job.assembler (job.key fetched)
  let pinnedSize := (job.record fetched.fileId decoded.fileSize fetched.fileId).map
    YencSizeRange.first
  validatedWriteOffset fetched.segmentNumber decoded decoded.data.length declared
    (if declared.isSome then none else pinnedSize)

def articleOf (fetched : Fetched) (decoded : YencDecodeResult) (dataBegin : ℕ) : Decode.Article :=
  { segment := fetched.segmentNumber, dataBegin := dataBegin, data := decoded.data,
    fault := fetched.fault }

def written (job : Job) (fetched : Fetched) : Option (Write UInt8) :=
  match fetched.decoded, job.assembler.files (job.key fetched) with
  | .ok decoded, some state =>
      match job.offsetOf fetched decoded with
      | .ok dataBegin =>
          match FileAssembler.check state (articleOf fetched decoded dataBegin) with
          | .ok () => some
              { offset := dataBegin
                block := decoded.data.take
                  (writtenLength dataBegin decoded.data fetched.fault) }
          | .error _ => none
      | .error _ => none
  | _, _ => none

def assemblerAfter (job : Job) (fetched : Fetched) : FileAssembler :=
  match fetched.decoded with
  | .ok decoded =>
      match job.offsetOf fetched decoded with
      | .ok dataBegin =>
          (job.assembler.assembleArticle (job.key fetched) (articleOf fetched decoded dataBegin)).2
      | .error _ => job.assembler
  | .error _ => job.assembler

theorem decodeAndAssemble_snd (job : Job) (fetched : Fetched) :
    (job.decodeAndAssemble fetched).2 =
      { id := job.id
        assembler := job.assemblerAfter fetched
        pinnedFileSizes := job.recordOf fetched } := by
  rcases body : fetched.decoded with e | decoded
  · simp only [decodeAndAssemble, assemblerAfter, recordOf, body]
  · rcases offset : job.offsetOf fetched decoded with reason | dataBegin
    · have offset' := offset
      simp only [offsetOf] at offset'
      simp only [decodeAndAssemble, assemblerAfter, recordOf, body, offset, offset']
      split
      · split
        · rfl
        · rfl
      · rfl
    · have offset' := offset
      simp only [offsetOf] at offset'
      simp only [decodeAndAssemble, assemblerAfter, recordOf, articleOf, body, offset, offset']
      split
      next failed => rw [failed]
      next whole => rw [whole]

theorem assembleArticle_of_assemblyError {job : Job} {fetched : Fetched} {filename : String}
    {segment : ℕ} {error : AssemblerError} {decoded : YencDecodeResult}
    (body : fetched.decoded = .ok decoded)
    (failed : (job.decodeAndAssemble fetched).1 = .error (.assemblyError filename segment error)) :
    ∃ dataBegin, job.offsetOf fetched decoded = .ok dataBegin ∧
      (job.assembler.assembleArticle (job.key fetched) (articleOf fetched decoded dataBegin)).1 =
        .error error := by
  rcases offset : job.offsetOf fetched decoded with reason | dataBegin
  · have offset' := offset
    simp only [offsetOf] at offset'
    simp only [decodeAndAssemble, body, offset'] at failed
    split at failed
    · split at failed
      · simp at failed
      · simp at failed
    · simp at failed
  · have offset' := offset
    simp only [offsetOf] at offset'
    simp only [decodeAndAssemble, body, offset'] at failed
    refine ⟨dataBegin, rfl, ?_⟩
    rw [articleOf]
    split at failed
    next e assembler result =>
      simp only [Except.error.injEq, ArticleError.assemblyError.injEq] at failed
      rw [result, failed.2.2]
    · simp at failed

def sizeBound (job : Job) (fileId : FileId) : Option ℕ :=
  (declaredBytes job.assembler { jobId := job.id, fileId := fileId }).or
    ((job.pinnedFileSizes fileId).map YencSizeRange.first)

end Job

/-- No article grows a file past its bound, all along a sequence of bodies. -/
structure Bounded (job : Job) (fetched : List Fetched) : Prop where
  below : ∀ before one after, fetched = before ++ one :: after →
    ∀ write ∈ (job.process before).written one, write.block ≠ [] →
      ∀ bound ∈ (job.process fetched).sizeBound one.fileId,
        write.offset + write.block.length ≤ bound
  noOverflow : ∀ before one after, fetched = before ++ one :: after →
    ∀ write ∈ (job.process before).written one, write.block ≠ [] →
      write.offset + write.block.length < 2 ^ 64
  ypart : ∀ before one after, fetched = before ++ one :: after →
    ∀ write ∈ (job.process before).written one, one.segmentNumber ≠ 1 →
      ∃ decoded, one.decoded = .ok decoded ∧ decoded.partBegin.isSome
  unbounded : ∀ before one after, fetched = before ++ one :: after →
    ∀ write ∈ (job.process before).written one, write.block ≠ [] →
      (job.process (before ++ [one])).sizeBound one.fileId = none → write.offset = 0
  accepted : ∀ before one after, fetched = before ++ one :: after →
    ∀ decoded dataBegin, one.decoded = .ok decoded →
      (job.process before).offsetOf one decoded = .ok dataBegin →
        ∀ filename segment segment' begin finish declared,
          ((job.process before).decodeAndAssemble one).1 ≠ .error (.assemblyError filename segment
            (.writeBeyondDeclaredSize segment' begin finish declared))

/-! ## Articles without a bound -/

def Fetched.claims (fileId : FileId) (fetched : Fetched) : Option ℕ :=
  match fetched.decoded with
  | .ok decoded => if fetched.fileId = fileId then decoded.fileSize else none
  | .error _ => none

def firstClaim (fileId : FileId) (fetched : List Fetched) : Option ℕ :=
  (fetched.filterMap (Fetched.claims fileId)).head?

/-- A first segment of a file that the NZB declares no size for, and that no article has claimed one
for, of which the device takes some bytes. -/
structure Unsized (job : Job) (before : List Fetched) (one : Fetched) (decoded : YencDecodeResult) :
    Prop where
  body : one.decoded = .ok decoded
  isFirst : one.segmentNumber = 1
  expected : ∃ state, job.assembler.files (job.key one) = some state ∧
    state.declaredBytes = none ∧ state.indexOf 1 ≠ none
  unclaimed : firstClaim one.fileId (before ++ [one]) = none
  taken : writtenLength (decoded.partBegin.getD 0) decoded.data one.fault ≠ 0

/-- Every such segment is placed at the start of its file, and is no longer than the first size that
is claimed for the file later. -/
def UnsizedFit (job : Job) (fetched : List Fetched) : Prop :=
  ∀ before one after decoded, fetched = before ++ one :: after → Unsized job before one decoded →
    decoded.partBegin.getD 0 = 0 ∧
      ∀ size ∈ firstClaim one.fileId fetched, writtenLength 0 decoded.data one.fault ≤ size

/-! ## One article -/

def fixed (state : FileState) : String × ℕ × Option (List ℕ) × Option ℕ :=
  (state.outputPath, state.totalSegments, state.segmentNumbers, state.declaredBytes)

theorem fixed_markWritten (state : FileState) (segment : ℕ) :
    fixed (state.markWritten segment).1 = fixed state := by
  simp only [FileState.markWritten]
  split
  · rfl
  · split
    · rfl
    · rfl

theorem indexOf_congr {state other : FileState} (same : fixed state = fixed other) :
    state.indexOf = other.indexOf := by
  simp only [fixed, Prod.mk.injEq] at same
  funext segment
  rw [FileState.indexOf, FileState.indexOf, same.2.1, same.2.2.1]

theorem fixed_assembleArticle (assembler : FileAssembler) (key other : FileKey)
    (article : Decode.Article) :
    ((assembler.assembleArticle key article).2.files other).map fixed =
      (assembler.files other).map fixed := by
  rw [FileAssembler.assembleArticle]
  rcases registered : assembler.files key with _ | state
  · rfl
  · dsimp only
    rcases FileAssembler.check state article with e | _
    · rfl
    · dsimp only
      split
      · by_cases same : other = key
        · subst same
          simp only [Function.update_self, registered, Option.map_some, fixed_markWritten]
        · simp only [Function.update_of_ne same]
      · rfl

theorem beyond_of_assembleArticle {assembler : FileAssembler} {key : FileKey}
    {article : Decode.Article} {segment begin finish declared : ℕ}
    (failed : (assembler.assembleArticle key article).1 =
      .error (.writeBeyondDeclaredSize segment begin finish declared)) :
    ∃ size, declaredBytes assembler key = some size ∧
      size < article.dataBegin + article.data.length := by
  rw [FileAssembler.assembleArticle] at failed
  rcases registered : assembler.files key with _ | state
  · rw [registered] at failed
    cases failed
  · rw [registered] at failed
    dsimp only at failed
    rcases checked : FileAssembler.check state article with e | _
    · rw [checked] at failed
      cases failed
      rw [FileAssembler.check] at checked
      split at checked
      · cases checked
      · split at checked
        · cases checked
        · dsimp only at checked
          split at checked
          next size isSize =>
            split at checked
            next beyond =>
              refine ⟨size, ?_, by omega⟩
              rw [declaredBytes, registered, Option.bind_some, isSize]
            · cases checked
          · cases checked
    · rw [checked] at failed
      dsimp only at failed
      split at failed
      · cases failed
      · cases failed

def NoZero (assembler : FileAssembler) : Prop :=
  ∀ key state, assembler.files key = some state → state.indexOf 0 = none

theorem fixed_new (outputPath : String) (segmentNumbers : Option (List ℕ)) (totalSegments : ℕ)
    (completedSegments : List ℕ) (declaredBytes : Option ℕ) :
    fixed (FileState.new outputPath segmentNumbers totalSegments completedSegments declaredBytes) =
      (outputPath, totalSegments, segmentNumbers, declaredBytes) := by
  have folded : ∀ (completed : List ℕ) (state : FileState),
      fixed (completed.foldl (fun state segment => (state.markWritten segment).1) state) =
        fixed state := by
    intro completed
    induction completed with
    | nil => exact fun _ => rfl
    | cons segment rest ih => exact fun state => (ih _).trans (fixed_markWritten state segment)
  exact folded _ _

theorem indexOf_zero {state : FileState} {listed : List ℕ} (numbers : state.segmentNumbers = none ∨
      state.segmentNumbers = some (FileAssembler.sortedNumbers listed)) :
    state.indexOf 0 = none := by
  rw [FileState.indexOf]
  rcases numbers with contiguous | sorted
  · rw [contiguous]
    exact if_neg fun held => held.1 rfl
  · rw [sorted]
    apply List.idxOf?_eq_none_iff.mpr
    intro mem
    exact (Decode.mem_sortedNumbers.mp mem).2 rfl

theorem noZero_register {jobId : JobId} {opens : NzbFile → Bool} {assembler : FileAssembler}
    (noZero : NoZero assembler) (files : List NzbFile) :
    NoZero (register jobId opens assembler files) := by
  induction files generalizing assembler with
  | nil => exact noZero
  | cons file rest ih =>
      apply ih
      split
      · intro key state registered
        rw [FileAssembler.registerFileWithSegmentNumbers, FileAssembler.registerInner] at registered
        simp only [Function.update_apply] at registered
        split at registered
        · cases registered
          have numbers := fixed_new file.outputPath
            (if (FileAssembler.sortedNumbers file.segmentNumbers).getLast?.all fun last =>
                last = (FileAssembler.sortedNumbers file.segmentNumbers).length then none
              else some (FileAssembler.sortedNumbers file.segmentNumbers))
            (FileAssembler.sortedNumbers file.segmentNumbers).length
            ((file.articles.filter Article.downloaded).map Article.segmentNumber)
            file.declaredBytes
          simp only [fixed, Prod.mk.injEq] at numbers
          apply @indexOf_zero _ file.segmentNumbers
          rw [numbers.2.2.1]
          split
          · exact .inl rfl
          · exact .inr rfl
        · exact noZero key state registered
      · exact noZero

namespace Job

variable {job : Job} {fetched : Fetched} {fileId : FileId}

theorem fixed_decodeAndAssemble (job : Job) (fetched : Fetched) (key : FileKey) :
    ((job.decodeAndAssemble fetched).2.assembler.files key).map fixed =
      (job.assembler.files key).map fixed := by
  rw [decodeAndAssemble_snd]
  simp only [assemblerAfter]
  split
  · split
    · exact fixed_assembleArticle _ _ _ _
    · rfl
  · rfl

theorem first_widen (range : YencSizeRange) (size : ℕ) :
    (widen range size).first = range.first := by
  simp only [widen]
  split
  · rfl
  · rfl

theorem first_recordOf (job : Job) (fetched : Fetched) (fileId : FileId) :
    (job.recordOf fetched fileId).map YencSizeRange.first =
      ((job.pinnedFileSizes fileId).map YencSizeRange.first).or (fetched.claims fileId) := by
  rcases body : fetched.decoded with e | decoded
  · simp only [recordOf, Fetched.claims, body, Option.or_none]
  · simp only [recordOf, Fetched.claims, body]
    rcases decoded.fileSize with _ | size
    · simp only [record, ite_self, Option.or_none]
    · by_cases same : fetched.fileId = fileId
      · subst same
        simp only [record, Function.update_self, Option.map_some, if_true]
        rcases job.pinnedFileSizes fetched.fileId with _ | range
        · rfl
        · simp only [first_widen, Option.map_some, Option.some_or]
      · simp only [record, Function.update_of_ne (Ne.symm same), if_neg same, Option.or_none]

theorem process_append (job : Job) (before : List Fetched) (one : Fetched) :
    job.process (before ++ [one]) = ((job.process before).decodeAndAssemble one).2 := by
  rw [process, List.foldl_append]
  rfl

theorem id_process (job : Job) (fetched : List Fetched) : (job.process fetched).id = job.id := by
  induction fetched using List.reverseRecOn with
  | nil => rfl
  | append_singleton before one ih => rw [process_append, decodeAndAssemble_snd, ih]

theorem fixed_process (job : Job) (fetched : List Fetched) (key : FileKey) :
    ((job.process fetched).assembler.files key).map fixed =
      (job.assembler.files key).map fixed := by
  induction fetched using List.reverseRecOn with
  | nil => rfl
  | append_singleton before one ih => rw [process_append, fixed_decodeAndAssemble, ih]

theorem firstClaim_append (fileId : FileId) (before : List Fetched) (one : Fetched) :
    firstClaim fileId (before ++ [one]) = (firstClaim fileId before).or (one.claims fileId) := by
  rw [firstClaim, firstClaim, List.filterMap_append, List.head?_append]
  rcases claim : one.claims fileId with _ | size
  · simp only [List.filterMap_cons, claim, List.filterMap_nil, List.head?_nil]
  · simp only [List.filterMap_cons, claim, List.filterMap_nil, List.head?_cons]

theorem first_process (fetched : List Fetched) (fileId : FileId) :
    ((job.process fetched).pinnedFileSizes fileId).map YencSizeRange.first =
      ((job.pinnedFileSizes fileId).map YencSizeRange.first).or (firstClaim fileId fetched) := by
  induction fetched using List.reverseRecOn with
  | nil => rw [process, List.foldl_nil, firstClaim, List.filterMap_nil, List.head?_nil,
      Option.or_none]
  | append_singleton before one ih =>
      rw [process_append, decodeAndAssemble_snd, first_recordOf, ih, firstClaim_append,
        Option.or_assoc]

theorem declaredBytes_congr {assembler other : FileAssembler} {key : FileKey}
    (same : (assembler.files key).map fixed = (other.files key).map fixed) :
    declaredBytes assembler key = declaredBytes other key := by
  have through : ∀ files : Option FileState,
      files.bind FileState.declaredBytes = (files.map fixed).bind fun state => state.2.2.2 := by
    intro files
    cases files with
    | none => rfl
    | some state => rfl
  rw [declaredBytes, declaredBytes, through, through, same]

theorem key_process (job : Job) (fetched : List Fetched) (one : Fetched) :
    (job.process fetched).key one = job.key one := by
  rw [key, key, id_process]

theorem sizeBound_process (fetched : List Fetched) (fileId : FileId) :
    (job.process fetched).sizeBound fileId =
      (declaredBytes job.assembler { jobId := job.id, fileId := fileId }).or
        (((job.pinnedFileSizes fileId).map YencSizeRange.first).or
          (firstClaim fileId fetched)) := by
  rw [sizeBound, id_process, declaredBytes_congr (fixed_process job fetched _), first_process]

end Job

/-! ## The accepted offsets -/

section Offset

variable {segment begin offset dataLen size : ℕ} {decoded : YencDecodeResult}
  {declared pinned partEnd : Option ℕ}

theorem withinBound_eq_ok (accepted : withinBound begin dataLen size partEnd = .ok offset) :
    offset = begin ∧ begin + dataLen ≤ size := by
  rw [withinBound] at accepted
  split at accepted
  · nomatch accepted
  · split at accepted
    · nomatch accepted
    · split at accepted
      next fits =>
        split at accepted
        · dsimp only at accepted
          split at accepted
          · nomatch accepted
          · cases accepted
            exact ⟨rfl, fits.2⟩
        · cases accepted
          exact ⟨rfl, fits.2⟩
      · nomatch accepted

section

variable (accepted : validatedWriteOffset segment decoded dataLen declared pinned = .ok offset)

include accepted

theorem offset_of_bound (bound : declared.or pinned = some size) : offset + dataLen ≤ size := by
  rw [validatedWriteOffset, bound] at accepted
  dsimp only at accepted
  split at accepted
  next begin _ =>
    rcases withinBound_eq_ok accepted with ⟨rfl, fits⟩
    exact fits
  · split at accepted
    · rcases withinBound_eq_ok accepted with ⟨rfl, fits⟩
      exact fits
    · nomatch accepted

theorem offset_of_unbounded (unbounded : declared.or pinned = none) :
    segment ≤ 1 ∧ offset = decoded.partBegin.getD 0 := by
  rw [validatedWriteOffset, unbounded] at accepted
  dsimp only at accepted
  split at accepted
  next isFirst =>
    cases accepted
    exact ⟨isFirst, rfl⟩
  · nomatch accepted

theorem partBegin_of_accepted (later : 1 < segment) : decoded.partBegin.isSome := by
  have notFirst : ¬segment ≤ 1 := by omega
  rw [validatedWriteOffset] at accepted
  split at accepted
  · split at accepted
    next begin given => rw [given, Option.isSome_some]
    · rw [if_neg notFirst] at accepted
      nomatch accepted
  · rw [if_neg notFirst] at accepted
    nomatch accepted

end

end Offset

namespace Job

variable {job : Job} {fetched : List Fetched} {before : List Fetched} {one : Fetched}
  {write : Write UInt8}

theorem written_eq_some (wrote : job.written one = some write) :
    ∃ decoded state, one.decoded = .ok decoded ∧ job.assembler.files (job.key one) = some state ∧
      job.offsetOf one decoded = .ok write.offset ∧
      FileAssembler.check state (articleOf one decoded write.offset) = .ok () ∧
      write.block =
        decoded.data.take (writtenLength write.offset decoded.data one.fault) := by
  rw [written] at wrote
  split at wrote
  next decoded state body registered =>
    split at wrote
    next dataBegin offset =>
      split at wrote
      next checked =>
        cases wrote
        exact ⟨decoded, state, body, registered, offset, checked, rfl⟩
      · nomatch wrote
    · nomatch wrote
  · nomatch wrote

theorem or_unless (declared pinned : Option ℕ) :
    declared.or (if declared.isSome then none else pinned) = declared.or pinned := by
  cases declared with
  | none => rfl
  | some size => rfl

theorem bound_offsetOf {decoded : YencDecodeResult} (body : one.decoded = .ok decoded) :
    (declaredBytes job.assembler (job.key one)).or
        (if (declaredBytes job.assembler (job.key one)).isSome then none
          else (job.record one.fileId decoded.fileSize one.fileId).map YencSizeRange.first) =
      (job.decodeAndAssemble one).2.sizeBound one.fileId := by
  rw [sizeBound, declaredBytes_congr (fixed_decodeAndAssemble job one _), decodeAndAssemble_snd]
  simp only [recordOf, body, key]
  exact or_unless _ _

theorem length_written {decoded : YencDecodeResult}
    (block : write.block = decoded.data.take (writtenLength write.offset decoded.data one.fault)) :
    write.block.length = writtenLength write.offset decoded.data one.fault := by
  have short : writtenLength write.offset decoded.data one.fault ≤ decoded.data.length := by
    rw [writtenLength]
    omega
  rw [block, List.length_take, Nat.min_eq_left short]

theorem written_below {size : ℕ} (wrote : job.written one = some write)
    (bound : (job.decodeAndAssemble one).2.sizeBound one.fileId = some size) :
    write.offset + write.block.length ≤ size := by
  rcases written_eq_some wrote with ⟨decoded, state, body, -, offset, -, block⟩
  rw [← bound_offsetOf body] at bound
  have fits := offset_of_bound offset bound
  have length := congrArg List.length block
  rw [List.length_take] at length
  omega

theorem written_unbounded (noZero : NoZero job.assembler) (wrote : job.written one = some write)
    (unbounded : (job.decodeAndAssemble one).2.sizeBound one.fileId = none) :
    one.segmentNumber = 1 ∧ (∃ state, job.assembler.files (job.key one) = some state ∧
      state.declaredBytes = none ∧ state.indexOf 1 ≠ none) ∧
      ∃ decoded, one.decoded = .ok decoded ∧ write.offset = decoded.partBegin.getD 0 ∧
        write.block.length = writtenLength (decoded.partBegin.getD 0) decoded.data one.fault := by
  rcases written_eq_some wrote with ⟨decoded, state, body, registered, offset, checked, block⟩
  rw [← bound_offsetOf body] at unbounded
  have free := offset_of_unbounded offset unbounded
  have noSize : declaredBytes job.assembler (job.key one) = none :=
    (Option.or_eq_none_iff.mp unbounded).1
  rw [declaredBytes, registered, Option.bind_some] at noSize
  have index : state.indexOf one.segmentNumber ≠ none := by
    intro missing
    rw [FileAssembler.check, articleOf, if_pos missing] at checked
    cases checked
  have positive : one.segmentNumber ≠ 0 := by
    intro isZero
    rw [isZero] at index
    exact index (noZero _ state registered)
  have isFirst : one.segmentNumber = 1 := by omega
  rw [isFirst] at index
  refine ⟨isFirst, ⟨state, registered, noSize, index⟩, decoded, body, free.2, ?_⟩
  rw [length_written block, free.2]

theorem noZero_process (noZero : NoZero job.assembler) (fetched : List Fetched) :
    NoZero (job.process fetched).assembler := by
  intro key state registered
  have same := fixed_process job fetched key
  rw [registered, Option.map_some] at same
  rcases Option.map_eq_some_iff.mp same.symm with ⟨first, wasRegistered, sameFixed⟩
  rw [← indexOf_congr sameFixed]
  exact noZero key first wasRegistered

end Job

section Submitted

variable {job : Job} {fetched before after : List Fetched} {one : Fetched} {write : Write UInt8}
  {decoded : YencDecodeResult}

theorem firstClaim_append_list (fileId : FileId) (before after : List Fetched) :
    firstClaim fileId (before ++ after) =
      (firstClaim fileId before).or (firstClaim fileId after) := by
  rw [firstClaim, firstClaim, firstClaim, List.filterMap_append, List.head?_append]

variable (noZero : NoZero job.assembler) (nothingSeen : ∀ fileId, job.pinnedFileSizes fileId = none)

include nothingSeen

theorem sizeBound_submitted (fetched : List Fetched) (fileId : FileId) :
    (job.process fetched).sizeBound fileId =
      (declaredBytes job.assembler { jobId := job.id, fileId := fileId }).or
        (firstClaim fileId fetched) := by
  rw [Job.sizeBound_process, nothingSeen, Option.map_none, Option.none_or]

theorem sizeBound_later {size : ℕ} {fileId : FileId}
    (bound : (job.process before).sizeBound fileId = some size) :
    (job.process (before ++ after)).sizeBound fileId = some size := by
  rw [sizeBound_submitted nothingSeen] at bound ⊢
  rw [firstClaim_append_list, ← Option.or_assoc, bound, Option.some_or]

include noZero

theorem unsized_of_written (wrote : (job.process before).written one = some write)
    (some : write.block ≠ [])
    (unbounded : (job.process (before ++ [one])).sizeBound one.fileId = none) :
    ∃ decoded, Unsized job before one decoded ∧ write.offset = decoded.partBegin.getD 0 ∧
      write.block.length = writtenLength (decoded.partBegin.getD 0) decoded.data one.fault := by
  have unbounded' := unbounded
  rw [Job.process_append] at unbounded'
  rcases Job.written_unbounded (Job.noZero_process noZero before) wrote unbounded' with
    ⟨isFirst, ⟨state, registered, noSize, index⟩, decoded, body, offset, length⟩
  refine ⟨decoded, ⟨body, isFirst, ?_, ?_, ?_⟩, offset, length⟩
  · have same := Job.fixed_process job before (job.key one)
    rw [Job.key_process] at registered
    rw [registered, Option.map_some] at same
    rcases Option.map_eq_some_iff.mp same.symm with ⟨first, wasRegistered, sameFixed⟩
    refine ⟨first, wasRegistered, ?_, ?_⟩
    · simp only [fixed, Prod.mk.injEq] at sameFixed
      rw [sameFixed.2.2.2, noSize]
    · rwa [indexOf_congr sameFixed]
  · rw [sizeBound_submitted nothingSeen] at unbounded
    exact (Option.or_eq_none_iff.mp unbounded).2
  · rw [← length]
    exact fun none => some (List.length_eq_zero_iff.mp none)

omit noZero in
theorem written_of_unsized (unsized : Unsized job before one decoded) :
    (job.process (before ++ [one])).sizeBound one.fileId = none ∧
      ∃ write, (job.process before).written one = some write ∧ write.block ≠ [] ∧
        write.offset = decoded.partBegin.getD 0 ∧
        write.block.length = writtenLength (decoded.partBegin.getD 0) decoded.data one.fault := by
  rcases unsized with ⟨body, isFirst, ⟨first, wasRegistered, noSize, index⟩, unclaimed, taken⟩
  have declared : declaredBytes job.assembler (job.key one) = none := by
    rw [declaredBytes, wasRegistered, Option.bind_some, noSize]
  have unbounded : (job.process (before ++ [one])).sizeBound one.fileId = none := by
    rw [sizeBound_submitted nothingSeen, unclaimed, Option.or_none]
    exact declared
  refine ⟨unbounded, ?_⟩
  have same := Job.fixed_process job before (job.key one)
  rw [wasRegistered, Option.map_some] at same
  rcases Option.map_eq_some_iff.mp same with ⟨state, registered, sameFixed⟩
  rw [← Job.key_process job before one] at registered
  have noBound := @Job.bound_offsetOf (job.process before) one decoded body
  rw [← Job.process_append, unbounded] at noBound
  have offset : (job.process before).offsetOf one decoded =
      .ok (decoded.partBegin.getD 0) := by
    rw [Job.offsetOf, validatedWriteOffset, noBound]
    simp only [isFirst, le_refl, if_true]
  have nonempty : decoded.data ≠ [] := by
    intro none
    apply taken
    rw [none, writtenLength]
    simp
  have checked : FileAssembler.check state
      (Job.articleOf one decoded (decoded.partBegin.getD 0)) = .ok () := by
    have noDeclared : state.declaredBytes = none := by
      simp only [fixed, Prod.mk.injEq] at sameFixed
      rw [sameFixed.2.2.2, noSize]
    have found : ¬state.indexOf one.segmentNumber = none := by
      rw [isFirst, indexOf_congr sameFixed]
      exact index
    simp only [FileAssembler.check, Job.articleOf, if_neg found, if_neg nonempty, noDeclared]
  let write : Write UInt8 :=
    { offset := decoded.partBegin.getD 0
      block := decoded.data.take
        (writtenLength (decoded.partBegin.getD 0) decoded.data one.fault) }
  have length : write.block.length =
      writtenLength (decoded.partBegin.getD 0) decoded.data one.fault := Job.length_written rfl
  refine ⟨write, ?_, ?_, rfl, length⟩
  · simp only [Job.written, body, registered, offset, checked, write]
  · intro none
    rw [none] at length
    exact taken length.symm

end Submitted

/-- No article of a submitted job grows a file past its bound exactly if every first segment that
has no bound when it is written fits. -/
theorem bounded_iff (jobId : JobId) (opens : NzbFile → Bool) (disk : String → List UInt8)
    (files : List NzbFile) (fetched : List Fetched) :
    Bounded (buildJobSubmission jobId opens disk files) fetched ↔
      UnsizedFit (buildJobSubmission jobId opens disk files) fetched := by
  have noZero : NoZero (buildJobSubmission jobId opens disk files).assembler :=
    noZero_register (fun _ _ registered => by simp at registered) files
  have nothingSeen : ∀ fileId,
      (buildJobSubmission jobId opens disk files).pinnedFileSizes fileId = none := fun _ => rfl
  generalize buildJobSubmission jobId opens disk files = job at *
  constructor
  · rintro bounded before one after decoded split unsized
    rcases written_of_unsized nothingSeen unsized with
      ⟨unbounded, write, wrote, some, offset, length⟩
    have start := bounded.unbounded before one after split write wrote some unbounded
    have begin : decoded.partBegin.getD 0 = 0 := by rw [← offset, start]
    refine ⟨begin, fun size claimed => ?_⟩
    have bound : (job.process fetched).sizeBound one.fileId = Option.some size := by
      rw [sizeBound_submitted nothingSeen] at unbounded ⊢
      rw [(Option.or_eq_none_iff.mp unbounded).1, Option.none_or]
      exact claimed
    have below := bounded.below before one after split write wrote some size bound
    rw [begin] at length
    omega
  · intro fit
    have fits : ∀ before one after, fetched = before ++ one :: after →
        ∀ write, (job.process before).written one = some write → write.block ≠ [] →
          (job.process (before ++ [one])).sizeBound one.fileId = none →
            write.offset = 0 ∧ ∀ size ∈ firstClaim one.fileId fetched,
              write.block.length ≤ size := by
      intro before one after split write wrote some unbounded
      rcases unsized_of_written noZero nothingSeen wrote some unbounded with
        ⟨decoded, unsized, offset, length⟩
      have fit := fit before one after decoded split unsized
      rw [fit.1] at offset length
      exact ⟨offset, fun size claimed => length.le.trans (fit.2 size claimed)⟩
    refine ⟨?below, ?noOverflow, ?ypart, ?unbounded, ?accepted⟩
    case below =>
      intro before one after split write wrote some bound isBound
      rcases here : (job.process (before ++ [one])).sizeBound one.fileId with _ | size
      · have free := fits before one after split write wrote some here
        rw [sizeBound_submitted nothingSeen] at here isBound
        rw [(Option.or_eq_none_iff.mp here).1, Option.none_or] at isBound
        rw [free.1, Nat.zero_add]
        exact free.2 bound isBound
      · have later := @sizeBound_later job (before ++ [one]) after nothingSeen size _ here
        rw [List.append_assoc, List.singleton_append, ← split] at later
        rw [Option.mem_def, later] at isBound
        cases isBound
        rw [Job.process_append] at here
        exact Job.written_below wrote here
    case noOverflow =>
      intro before one after split write wrote some
      rcases Job.written_eq_some wrote with ⟨decoded, state, -, -, -, -, block⟩
      have length := Job.length_written block
      have positive := List.length_pos_of_ne_nil some
      rw [length, writtenLength, maxFileSize] at positive ⊢
      omega
    case ypart =>
      intro before one after split write wrote notFirst
      rcases Job.written_eq_some wrote with
        ⟨decoded, state, body, registered, offset, checked, -⟩
      have positive : one.segmentNumber ≠ 0 := by
        intro isZero
        have missing := Job.noZero_process noZero before _ state registered
        rw [FileAssembler.check, Job.articleOf, isZero, if_pos missing] at checked
        cases checked
      exact ⟨decoded, body, partBegin_of_accepted offset (by omega)⟩
    case unbounded =>
      intro before one after split write wrote some unbounded
      exact (fits before one after split write wrote some unbounded).1
    case accepted =>
      intro before one after split decoded dataBegin body offset
        filename segment segment' begin finish declared failed
      rcases Job.assembleArticle_of_assemblyError body failed with ⟨dataBegin', offset', result⟩
      rw [offset] at offset'
      cases offset'
      rcases beyond_of_assembleArticle result with ⟨size, isDeclared, beyond⟩
      rw [Job.offsetOf, isDeclared] at offset
      have fits := offset_of_bound offset (Option.some_or)
      rw [Job.articleOf] at beyond
      dsimp only at beyond
      omega

def unsizedFile : NzbFile where
  id := "file"
  outputPath := "work/file"
  bytes := 0
  articles := [{ segmentNumber := 1, bytes := 0, downloaded := false }]

/-- A body that claims to begin at a terabyte, and claims no size. -/
def forgedBody : YencDecodeResult where
  data := [1]
  filename := none
  partBegin := some (10 ^ 12)
  partEnd := none
  fileSize := none
  fileSize_lt := nofun

def forged : Fetched where
  fileId := "file"
  filename := "file"
  segmentNumber := 1
  decoded := .ok forgedBody
  fault := none

/-- The forged body is written where it says. -/
theorem not_bounded_forged :
    ¬Bounded (buildJobSubmission "job" (fun _ => true) (fun _ => []) [unsizedFile]) [forged] := by
  intro bounded
  have nothingSeen : ∀ fileId,
      (buildJobSubmission "job" (fun _ => true) (fun _ => [])
        [unsizedFile]).pinnedFileSizes fileId = none := fun _ => rfl
  have unsized : Unsized (buildJobSubmission "job" (fun _ => true) (fun _ => []) [unsizedFile])
      [] forged forgedBody := by
    refine ⟨rfl, rfl, ?_, rfl, by decide⟩
    simp only [buildJobSubmission, register, FileAssembler.registerFileWithSegmentNumbers,
      FileAssembler.registerInner, Job.key, forged, unsizedFile, NzbFile.segmentNumbers,
      FileAssembler.sortedNumbers, List.map_cons, List.map_nil]
    simp only [if_true, ne_eq, decide_not, one_ne_zero, decide_false, Bool.not_false,
      List.filter_cons_of_pos, List.filter_nil, List.mergeSort_singleton,
      List.destutter_singleton, List.length_cons, List.length_nil, zero_add,
      List.getLast?_singleton, Option.all_some, decide_true, Bool.false_eq_true,
      not_false_eq_true, List.filter_cons_of_neg, List.map_nil, Function.update_self,
      Option.some.injEq, exists_eq_left']
    exact ⟨rfl, by decide⟩
  rcases written_of_unsized nothingSeen unsized with
    ⟨unbounded, write, wrote, some, offset, -⟩
  have start := bounded.unbounded [] forged [] rfl write wrote some unbounded
  rw [offset] at start
  exact absurd start (by decide)

end Rustnzb.Dispatch.WriteBounds
