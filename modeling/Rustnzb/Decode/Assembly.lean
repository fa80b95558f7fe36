import Rustnzb.Decode.Assembler
import Rustnzb.Lib.SortDedup

/-!
# What the file assembler keeps track of

The bitmap and the count of a file stand for the set of its expected segments that are written.
-/

namespace Rustnzb.Decode

open Lib (Write overwrite overwriteAll Agree sortDedup mem_sortDedup ascending_sortDedup)

theorem sortedNumbers_eq (numbers : List ℕ) :
    FileAssembler.sortedNumbers numbers = sortDedup (numbers.filter (· ≠ 0)) := rfl

theorem mem_sortedNumbers {numbers : List ℕ} {number : ℕ} :
    number ∈ FileAssembler.sortedNumbers numbers ↔ number ∈ numbers ∧ number ≠ 0 := by
  rw [sortedNumbers_eq, mem_sortDedup]
  simp

theorem ascending_sortedNumbers (numbers : List ℕ) :
    (FileAssembler.sortedNumbers numbers).Pairwise (· < ·) :=
  ascending_sortDedup _

theorem eq_range'_of_ascending {numbers : List ℕ} {start : ℕ} (ascending : numbers.Pairwise (· < ·))
    (inRange : ∀ number ∈ numbers, start ≤ number ∧ number < start + numbers.length) :
    numbers = List.range' start numbers.length := by
  induction numbers generalizing start with
  | nil => rfl
  | cons first rest ih =>
      rcases List.pairwise_cons.mp ascending with ⟨least, ascendingRest⟩
      have low := (inRange first List.mem_cons_self).1
      have restIsRange : rest = List.range' (start + 1) rest.length := by
        apply ih ascendingRest
        intro number mem
        have above := least number mem
        have high := (inRange number (List.mem_cons_of_mem _ mem)).2
        rw [List.length_cons] at high
        omega
      have isFirst : first = start := by
        cases rest with
        | nil =>
            have high := (inRange first List.mem_cons_self).2
            simp only [List.length_singleton] at high
            omega
        | cons second rest =>
            have below := least second List.mem_cons_self
            rw [List.length_cons, List.range'_succ, List.cons.injEq] at restIsRange
            omega
      rw [List.length_cons, List.range'_succ, ← restIsRange, isFirst]

theorem eq_range'_of_contiguous {numbers : List ℕ}
    (contiguous : ((FileAssembler.sortedNumbers numbers).getLast?.all fun last =>
      last = (FileAssembler.sortedNumbers numbers).length) = true) :
    FileAssembler.sortedNumbers numbers =
      List.range' 1 (FileAssembler.sortedNumbers numbers).length := by
  apply eq_range'_of_ascending (ascending_sortedNumbers numbers)
  intro number mem
  have positive := (mem_sortedNumbers.mp mem).2
  have isLast := List.getLast?_eq_some_getLast (List.ne_nil_of_mem mem)
  rw [isLast, Option.all_some, decide_eq_true_eq] at contiguous
  have atMost : number ≤ (FileAssembler.sortedNumbers numbers).getLast (List.ne_nil_of_mem mem) :=
    ((ascending_sortedNumbers numbers).imp le_of_lt).rel_getLast mem
  omega

/-! ## The written segments -/

/-- The state stands for the expected segments, ascending, of which those in `done` are written. -/
structure FileState.Tracks (state : FileState) (expected : List ℕ) (done : Finset ℕ) : Prop where
  total : state.totalSegments = expected.length
  numbers : state.segmentNumbers = some expected ∨
    state.segmentNumbers = none ∧ expected = List.range' 1 expected.length
  ascending : expected.Pairwise (· < ·)
  written : state.written = expected.map fun number => decide (number ∈ done)
  subset : done ⊆ expected.toFinset
  count : state.writtenCount = done.card

namespace FileState.Tracks

variable {state : FileState} {expected : List ℕ} {done : Finset ℕ} {segment : ℕ}

section

variable (tracks : state.Tracks expected done)

include tracks

theorem indexOf_eq (segment : ℕ) : state.indexOf segment = expected.idxOf? segment := by
  rcases tracks.numbers with isSome | ⟨isNone, isRange⟩
  · simp [indexOf, isSome]
  · simp only [indexOf, isNone, tracks.total]
    rw [isRange, List.length_range']
    symm
    split
    next bounds =>
      rw [List.idxOf?_eq_some_iff]
      refine ⟨by simp only [List.length_range']; omega, by simp only [List.getElem_range']; omega,
        ?_⟩
      intro j before
      simp only [List.getElem_range']
      omega
    next bounds =>
      rw [List.idxOf?_eq_none_iff, List.mem_range'_1]
      omega

theorem numberAt_eq {idx number : ℕ}
    (found : expected[idx]? = some number) : state.numberAt idx = number := by
  rcases tracks.numbers with isSome | ⟨isNone, isRange⟩
  · simp [numberAt, isSome, List.getD, found]
  · rw [isRange] at found
    rcases List.getElem?_eq_some_iff.mp found with ⟨_, same⟩
    simp only [List.getElem_range'] at same
    simp only [numberAt, isNone]
    omega

theorem missingSegments_eq :
    state.missingSegments = expected.filter fun number => number ∉ done := by
  have numbered : ∀ entry ∈ expected.zipIdx, state.numberAt entry.2 = entry.1 := by
    intro entry mem
    exact tracks.numberAt_eq (List.mem_zipIdx_iff_getElem?.mp mem)
  calc state.missingSegments
      = (expected.zipIdx.filter fun entry => entry.1 ∉ done).map fun entry =>
          state.numberAt entry.2 := by
        simp only [missingSegments, tracks.written, List.zipIdx_map, List.filter_map, List.map_map]
        congr 1
        apply List.filter_congr
        intro entry _
        simp
    _ = (expected.zipIdx.filter fun entry => entry.1 ∉ done).map Prod.fst := by
        apply List.map_congr_left
        intro entry mem
        exact numbered entry (List.mem_of_mem_filter mem)
    _ = (expected.zipIdx.map Prod.fst).filter fun number => number ∉ done := by
        rw [List.filter_map]
        rfl
    _ = expected.filter fun number => number ∉ done := by
        rw [List.zipIdx_map_fst]

theorem progress_eq :
    state.progress = (done.card, expected.length) := by
  simp [progress, tracks.count, tracks.total]

theorem markWritten_of_unexpected
    (unexpected : segment ∉ expected) : state.markWritten segment = (state, false) := by
  have noIndex : state.indexOf segment = none := by
    rw [tracks.indexOf_eq, List.idxOf?_eq_none_iff]
    exact unexpected
  simp [markWritten, noIndex]

theorem markWritten (isExpected : segment ∈ expected) :
    (state.markWritten segment).1.Tracks expected (insert segment done) ∧
      ((state.markWritten segment).2 = true ↔
        segment ∉ done ∧ insert segment done = expected.toFinset) := by
  have nodup : expected.Nodup := tracks.ascending.imp ne_of_lt
  have isSome : (expected.idxOf? segment).isSome := List.isSome_idxOf?.mpr isExpected
  rcases Option.isSome_iff_exists.mp isSome with ⟨idx, hasIndex⟩
  rcases List.idxOf?_eq_some_iff.mp hasIndex with ⟨inside, found, _⟩
  have marked : state.written.set idx true =
      expected.map fun number => decide (number ∈ insert segment done) := by
    rw [tracks.written]
    apply List.ext_getElem (by simp)
    intro other _ otherInside
    rw [List.length_map] at otherInside
    have same : expected[other] = segment ↔ idx = other := by
      rw [← found, nodup.getElem_inj_iff]
      exact eq_comm
    simp only [List.getElem_set, List.getElem_map, Finset.mem_insert, same]
    split <;> simp [*]
  have subset : insert segment done ⊆ expected.toFinset :=
    Finset.insert_subset (List.mem_toFinset.mpr isExpected) tracks.subset
  have isWritten : state.written[idx]? = some (decide (segment ∈ done)) := by
    rw [tracks.written, List.getElem?_map, List.getElem?_eq_getElem inside, found]
    rfl
  have index : state.indexOf segment = some idx := by
    rw [tracks.indexOf_eq, hasIndex]
  simp only [FileState.markWritten, index, isWritten, Option.some.injEq, decide_eq_false_iff_not]
  by_cases already : segment ∈ done
  · simp only [already, not_true, if_false, false_and, Bool.false_eq_true, iff_self, and_true]
    refine ⟨tracks.total, tracks.numbers, tracks.ascending, marked, subset, ?_⟩
    rw [Finset.insert_eq_of_mem already]
    exact tracks.count
  · have grown : (insert segment done).card = done.card + 1 := Finset.card_insert_of_notMem already
    simp only [already, not_false_eq_true, if_true, true_and, decide_eq_true_eq]
    refine ⟨⟨tracks.total, tracks.numbers, tracks.ascending, marked, subset, ?_⟩, ?_⟩
    · rw [grown, ← tracks.count]
    · rw [tracks.count, tracks.total, ← grown, ← List.toFinset_card_of_nodup nodup]
      exact ⟨fun same => Finset.eq_of_subset_of_card_le subset same.ge, fun same => by rw [same]⟩

theorem seed (completed : List ℕ) :
    (completed.foldl (fun state segment => (state.markWritten segment).1) state).Tracks expected
      (done ∪ completed.toFinset ∩ expected.toFinset) := by
  induction completed generalizing state done with
  | nil => simpa using tracks
  | cons segment completed ih =>
      rw [List.foldl_cons]
      by_cases isExpected : segment ∈ expected
      · have seeded := ih (tracks.markWritten isExpected).1
        have same : insert segment done ∪ completed.toFinset ∩ expected.toFinset =
            done ∪ (segment :: completed).toFinset ∩ expected.toFinset := by
          ext number
          by_cases isSegment : number = segment <;> simp [isSegment, isExpected]
        rwa [same] at seeded
      · rw [tracks.markWritten_of_unexpected isExpected]
        have seeded := ih tracks
        have same : done ∪ completed.toFinset ∩ expected.toFinset =
            done ∪ (segment :: completed).toFinset ∩ expected.toFinset := by
          ext number
          by_cases isSegment : number = segment <;> simp [isSegment, isExpected]
        rwa [same] at seeded

end

end FileState.Tracks

theorem FileState.tracks_new {segmentNumbers : Option (List ℕ)} {expected : List ℕ}
    (numbers : segmentNumbers = some expected ∨
      segmentNumbers = none ∧ expected = List.range' 1 expected.length)
    (ascending : expected.Pairwise (· < ·)) (outputPath : String) (completed : List ℕ)
    (declaredBytes : Option ℕ) :
    (FileState.new outputPath segmentNumbers expected.length completed declaredBytes).Tracks
      expected (completed.toFinset ∩ expected.toFinset) := by
  have empty : FileState.Tracks
      { outputPath := outputPath, totalSegments := expected.length,
        segmentNumbers := segmentNumbers, declaredBytes := declaredBytes,
        written := List.replicate expected.length false, writtenCount := 0 } expected ∅ :=
    ⟨rfl, numbers, ascending, by simp, by simp, rfl⟩
  have seeded := empty.seed completed
  rwa [Finset.empty_union] at seeded

/-! ## One article -/

def Article.Accepted (article : Article) (expected : List ℕ) (declaredBytes : Option ℕ) : Prop :=
  article.segment ∈ expected ∧ article.data ≠ [] ∧
    ∀ declared ∈ declaredBytes,
      min (article.dataBegin + article.data.length) (2 ^ 64 - 1) ≤ declared

instance (article : Article) (expected : List ℕ) (declaredBytes : Option ℕ) :
    Decidable (article.Accepted expected declaredBytes) :=
  inferInstanceAs (Decidable (_ ∧ _ ∧ _))

def Article.writeOf (expected : List ℕ) (declaredBytes : Option ℕ)
    (article : Article) : Write UInt8 where
  offset := article.dataBegin
  block :=
    if article.Accepted expected declaredBytes then
      article.data.take (writtenLength article.dataBegin article.data article.fault)
    else []

/-- The file of `key` is registered with its output and bound, and `done` is written of it. -/
def FileAssembler.Assembling (assembler : FileAssembler) (key : FileKey) (outputPath : String)
    (declaredBytes : Option ℕ) (expected : List ℕ) (done : Finset ℕ) : Prop :=
  ∃ state, assembler.files key = some state ∧ state.outputPath = outputPath ∧
    state.declaredBytes = declaredBytes ∧ state.Tracks expected done

section Step

variable {assembler : FileAssembler} {key : FileKey} {outputPath : String}
  {declaredBytes : Option ℕ} {expected : List ℕ} {done : Finset ℕ} {article : Article}

@[simp] theorem FileState.outputPath_markWritten (state : FileState) (segment : ℕ) :
    (state.markWritten segment).1.outputPath = state.outputPath := by
  simp only [FileState.markWritten]
  split
  · rfl
  · split <;> rfl

@[simp] theorem FileState.declaredBytes_markWritten (state : FileState) (segment : ℕ) :
    (state.markWritten segment).1.declaredBytes = state.declaredBytes := by
  simp only [FileState.markWritten]
  split
  · rfl
  · split <;> rfl

theorem check_of_accepted {state : FileState} (tracks : state.Tracks expected done)
    (accepted : article.Accepted expected state.declaredBytes) :
    FileAssembler.check state article = .ok () := by
  rcases accepted with ⟨isExpected, some, bounded⟩
  have index : ¬state.indexOf article.segment = none := by
    rw [tracks.indexOf_eq, List.idxOf?_eq_none_iff]
    exact not_not.mpr isExpected
  simp only [FileAssembler.check, index, some, if_false]
  split
  next declared isDeclared => rw [if_neg (not_lt.mpr (bounded declared isDeclared))]
  · rfl

theorem check_of_not_accepted {state : FileState} (tracks : state.Tracks expected done)
    (rejected : ¬article.Accepted expected state.declaredBytes) :
    ∃ e, FileAssembler.check state article = .error e ∧ e ≠ .io := by
  have index : state.indexOf article.segment = none ↔ article.segment ∉ expected := by
    rw [tracks.indexOf_eq, List.idxOf?_eq_none_iff]
  simp only [FileAssembler.check, index]
  split
  · exact ⟨_, rfl, by simp⟩
  next isExpected =>
    split
    · exact ⟨_, rfl, by simp⟩
    next some =>
      split
      next declared isDeclared =>
        split
        · exact ⟨_, rfl, by simp⟩
        next bounded =>
          refine absurd ⟨not_not.mp isExpected, some, ?_⟩ rejected
          intro other isOther
          rw [isDeclared, Option.mem_some_iff] at isOther
          omega
      next isNone =>
        refine absurd ⟨not_not.mp isExpected, some, ?_⟩ rejected
        simp [isNone]

theorem assembleArticle_of_rejected
    (assembling : assembler.Assembling key outputPath declaredBytes expected done)
    (rejected : ¬article.Accepted expected declaredBytes) :
    ∃ e, assembler.assembleArticle key article = (.error e, assembler) ∧ e ≠ .io := by
  rcases assembling with ⟨state, registered, _, rfl, tracks⟩
  rcases check_of_not_accepted tracks rejected with ⟨e, failed, notIo⟩
  exact ⟨e, by simp [FileAssembler.assembleArticle, registered, failed], notIo⟩

theorem assembleArticle_of_accepted {state : FileState}
    (registered : assembler.files key = some state) (tracks : state.Tracks expected done)
    (accepted : article.Accepted expected state.declaredBytes) :
    let wrote := { assembler with
      disk := Function.update assembler.disk state.outputPath
        (overwrite 0 (assembler.disk state.outputPath)
          (article.writeOf expected state.declaredBytes)) }
    assembler.assembleArticle key article =
      if writtenLength article.dataBegin article.data article.fault = article.data.length then
        (.ok (state.markWritten article.segment).2,
          { wrote with
            files := Function.update assembler.files key
              (some (state.markWritten article.segment).1) })
      else (.error .io, wrote) := by
  simp only [FileAssembler.assembleArticle, registered, check_of_accepted tracks accepted,
    writeAllAt, Article.writeOf, accepted, if_true, decide_eq_true_eq]

section

variable (assembling : assembler.Assembling key outputPath declaredBytes expected done)

include assembling

theorem disk_assembleArticle (article : Article) :
    (assembler.assembleArticle key article).2.disk outputPath =
      overwrite 0 (assembler.disk outputPath) (article.writeOf expected declaredBytes) := by
  by_cases accepted : article.Accepted expected declaredBytes
  · rcases assembling with ⟨state, registered, rfl, rfl, tracks⟩
    rw [assembleArticle_of_accepted registered tracks accepted]
    split <;> simp
  · rcases assembleArticle_of_rejected assembling accepted with ⟨e, same, _⟩
    rw [same, Lib.overwrite_nil (by simp [Article.writeOf, accepted])]

theorem assembleArticle_of_whole (accepted : article.Accepted expected declaredBytes)
    (whole : writtenLength article.dataBegin article.data article.fault = article.data.length) :
    (assembler.assembleArticle key article).2.Assembling key outputPath declaredBytes expected
        (insert article.segment done) ∧
      ∃ complete, (assembler.assembleArticle key article).1 = .ok complete ∧
        (complete = true ↔
          article.segment ∉ done ∧ insert article.segment done = expected.toFinset) := by
  rcases assembling with ⟨state, registered, rfl, rfl, tracks⟩
  rcases tracks.markWritten accepted.1 with ⟨marked, completes⟩
  rw [assembleArticle_of_accepted registered tracks accepted, if_pos whole]
  exact ⟨⟨_, Function.update_self .., by simp, by simp, marked⟩, _, rfl, completes⟩

theorem assembleArticle_of_fault (accepted : article.Accepted expected declaredBytes)
    (fault : writtenLength article.dataBegin article.data article.fault ≠ article.data.length) :
    (assembler.assembleArticle key article).2.Assembling key outputPath declaredBytes expected
      done ∧
      (assembler.assembleArticle key article).1 = .error .io := by
  rcases assembling with ⟨state, registered, rfl, rfl, tracks⟩
  rw [assembleArticle_of_accepted registered tracks accepted, if_neg fault]
  exact ⟨⟨state, registered, rfl, rfl, tracks⟩, rfl⟩

end

end Step

end Rustnzb.Decode
