import Rustnzb.Decode.Assembly

/-!
# Assembling a file

Over any sequence of articles the written segments are the seeded ones and those of the articles
that were written as a whole, and the file is the base under what the accepted articles wrote.
-/

namespace Rustnzb.Decode

open Lib (Write overwrite overwriteAll Agree)

def completes : Except AssemblerError Bool → Bool
  | .ok complete => complete
  | .error _ => false

/-- `assemble_article` refused the article before writing. -/
def rejects : Except AssemblerError Bool → Bool
  | .ok _ => false
  | .error e => e ≠ .io

def succeeded : List Article → List (Except AssemblerError Bool) → List ℕ
  | article :: articles, result :: results =>
      if result.isOk then article.segment :: succeeded articles results
      else succeeded articles results
  | _, _ => []

def accepted : List Article → List (Except AssemblerError Bool) → List Article
  | article :: articles, result :: results =>
      if rejects result then accepted articles results else article :: accepted articles results
  | _, _ => []

def Article.whole (article : Article) : Write UInt8 where
  offset := article.dataBegin
  block := article.data

namespace FileAssembler

section Run

variable {assembler : FileAssembler} {key : FileKey} {outputPath : String}
  {declaredBytes : Option ℕ} {expected : List ℕ} {done : Finset ℕ}

section

variable (assembling : assembler.Assembling key outputPath declaredBytes expected done)

include assembling

theorem Assembling.step (article : Article) :
    let result := (assembler.assembleArticle key article).1
    let marked := if result.isOk then insert article.segment done else done
    (assembler.assembleArticle key article).2.Assembling key outputPath declaredBytes expected
        marked ∧
      (rejects result = true ↔ ¬article.Accepted expected declaredBytes) ∧
      (result.isOk = true → article.writeOf expected declaredBytes = article.whole) ∧
      (completes result = true ↔
        result.isOk = true ∧ done ≠ expected.toFinset ∧ marked = expected.toFinset) := by
  by_cases accepted : article.Accepted expected declaredBytes
  · by_cases whole :
      writtenLength article.dataBegin article.data article.fault = article.data.length
    · rcases assembleArticle_of_whole assembling accepted whole with
        ⟨next, complete, result, completes_iff⟩
      have new : article.segment ∉ done ∧ insert article.segment done = expected.toFinset ↔
          done ≠ expected.toFinset ∧ insert article.segment done = expected.toFinset := by
        apply and_congr_left
        intro all
        rw [not_iff_comm, not_not, ← all]
        exact ⟨fun same => same ▸ Finset.mem_insert_self _ _, fun mem =>
          (Finset.insert_eq_of_mem mem).symm⟩
      have written : article.writeOf expected declaredBytes = article.whole := by
        simp [Article.writeOf, Article.whole, accepted, whole]
      simp only [result]
      simp [next, written, rejects, completes, accepted, completes_iff, new, Except.isOk,
        Except.toBool]
    · rcases assembleArticle_of_fault assembling accepted whole with ⟨next, result⟩
      simp only [result]
      simp [next, rejects, completes, accepted, Except.isOk, Except.toBool]
  · rcases assembleArticle_of_rejected assembling accepted with ⟨e, same, notIo⟩
    simp only [same]
    simp [assembling, rejects, completes, accepted, notIo, Except.isOk, Except.toBool]

theorem Assembling.subset :
    done ⊆ expected.toFinset := by
  rcases assembling with ⟨state, _, _, _, tracks⟩
  exact tracks.subset

theorem Assembling.missingSegments_eq :
    assembler.missingSegments key = expected.filter fun number => number ∉ done := by
  rcases assembling with ⟨state, registered, _, _, tracks⟩
  simp [FileAssembler.missingSegments, registered, tracks.missingSegments_eq]

theorem Assembling.missingSegments_eq_nil_iff :
    assembler.missingSegments key = [] ↔ done = expected.toFinset := by
  rw [assembling.missingSegments_eq, List.filter_eq_nil_iff]
  constructor
  · intro none
    apply Finset.Subset.antisymm assembling.subset
    intro number isExpected
    simpa using none number (List.mem_toFinset.mp isExpected)
  · rintro rfl number isExpected
    simpa using isExpected

theorem Assembling.progress_eq :
    assembler.getFileProgress key = (done.card, expected.length) := by
  rcases assembling with ⟨state, registered, _, _, tracks⟩
  simp [getFileProgress, registered, tracks.progress_eq]

theorem Assembling.run (articles : List Article) :
    let results := (assembler.assembleAll key articles).1
    let final := (assembler.assembleAll key articles).2
    final.Assembling key outputPath declaredBytes expected
        (done ∪ (succeeded articles results).toFinset) ∧
      final.disk outputPath = overwriteAll 0 (assembler.disk outputPath)
        (articles.map (Article.writeOf expected declaredBytes)) ∧
      accepted articles results =
        articles.filter fun article => article.Accepted expected declaredBytes := by
  induction articles generalizing assembler done with
  | nil => simpa [assembleAll, succeeded, accepted, overwriteAll] using assembling
  | cons article articles ih =>
      rcases assembling.step article with ⟨next, rejected, _, _⟩
      rcases ih next with ⟨final, disk, kept⟩
      have bytes := disk_assembleArticle assembling article
      simp only [assembleAll, succeeded, accepted]
      refine ⟨?_, ?_, ?_⟩
      · cases isOk : (assembler.assembleArticle key article).1.isOk with
        | true =>
            simp only [isOk, if_true] at final ⊢
            rwa [List.toFinset_cons, Finset.union_insert, ← Finset.insert_union]
        | false => simpa [isOk] using final
      · rw [disk, bytes]
        rfl
      · rw [kept, List.filter_cons]
        by_cases isAccepted : article.Accepted expected declaredBytes <;>
          simp [rejected, isAccepted]

/-- At most one article completes the file, and one does if some segment was missing before and
none is after. -/
theorem Assembling.countP_completes (articles : List Article) :
    (assembler.assembleAll key articles).1.countP completes =
      if done ≠ expected.toFinset ∧
        done ∪ (succeeded articles (assembler.assembleAll key articles).1).toFinset =
          expected.toFinset then 1 else 0 := by
  induction articles generalizing assembler done with
  | nil => simp [assembleAll, succeeded]
  | cons article articles ih =>
      rcases assembling.step article with ⟨next, _, _, completes_iff⟩
      have rest := ih next
      have final := (next.run articles).1.subset
      set result := (assembler.assembleArticle key article).1 with isResult
      set marked := if result.isOk then insert article.segment done else done with isMarked
      set later := (assembler.assembleArticle key article).2.assembleAll key articles with isLater
      have grows : done ⊆ marked := by
        rw [isMarked]
        split
        · exact Finset.subset_insert _ _
        · exact subset_rfl
      have written : done ∪ (succeeded (article :: articles) (result :: later.1)).toFinset =
          marked ∪ (succeeded articles later.1).toFinset := by
        simp only [succeeded, isMarked]
        cases result.isOk <;> simp [Finset.union_insert, Finset.insert_union]
      have turn : (assembler.assembleAll key (article :: articles)).1 = result :: later.1 := rfl
      rw [turn, written, List.countP_cons, rest]
      by_cases all : marked = expected.toFinset
      · have allLater : marked ∪ (succeeded articles later.1).toFinset = expected.toFinset :=
          Finset.Subset.antisymm final (all ▸ Finset.subset_union_left)
        have completes_iff' : completes result = true ↔ done ≠ expected.toFinset := by
          rw [completes_iff]
          constructor
          · exact fun completes => completes.2.1
          · intro missing
            refine ⟨?_, missing, all⟩
            by_contra failed
            simp only [isMarked, failed, if_false] at all
            exact missing all
        simp only [allLater, completes_iff', ne_eq, and_true]
        simp [all]
      · have missing : done ≠ expected.toFinset := by
          rintro rfl
          exact all (Finset.Subset.antisymm next.subset grows)
        have notComplete : ¬completes result = true := fun completes =>
          all (completes_iff.mp completes).2.2
        simp [all, missing, notComplete]

end

end Run

theorem assembling_register (assembler : FileAssembler) (key : FileKey) (outputPath : String)
    (numbers completed : List ℕ) (declaredBytes : Option ℕ) :
    (assembler.registerFileWithSegmentNumbers key outputPath numbers completed
      declaredBytes).Assembling key outputPath declaredBytes (sortedNumbers numbers)
        (completed.toFinset ∩ (sortedNumbers numbers).toFinset) := by
  have fields : ∀ segmentNumbers total, (FileState.new outputPath segmentNumbers total completed
      declaredBytes).outputPath = outputPath ∧ (FileState.new outputPath segmentNumbers total
        completed declaredBytes).declaredBytes = declaredBytes := by
    intro segmentNumbers total
    simp only [FileState.new]
    induction completed using List.reverseRecOn with
    | nil => exact ⟨rfl, rfl⟩
    | append_singleton completed segment ih => simpa [List.foldl_append] using ih
  refine ⟨_, Function.update_self .., (fields _ _).1, (fields _ _).2, ?_⟩
  apply FileState.tracks_new _ (ascending_sortedNumbers numbers)
  split
  next contiguous => exact .inr ⟨rfl, eq_range'_of_contiguous contiguous⟩
  · exact .inl rfl

end FileAssembler

structure Assembled (start : FileAssembler) (key : FileKey) (outputPath : String)
    (numbers completed : List ℕ) (declaredBytes : Option ℕ) (articles : List Article) : Prop where
  /-- An article is refused by the checks, or it is written, unless the device fails. -/
  accepts : ∀ earlier article later, articles = earlier ++ article :: later →
    let result := ((start.assembleAll key earlier).2.assembleArticle key article).1
    (rejects result = true ↔
      ¬article.Accepted (FileAssembler.sortedNumbers numbers) declaredBytes) ∧
      (article.Accepted (FileAssembler.sortedNumbers numbers) declaredBytes →
        writtenLength article.dataBegin article.data article.fault = article.data.length →
          result.isOk = true)
  rejected : ∀ earlier article later, articles = earlier ++ article :: later →
    let mid := (start.assembleAll key earlier).2
    rejects (mid.assembleArticle key article).1 = true →
      (mid.assembleArticle key article).2 = mid
  progress :
    let results := (start.assembleAll key articles).1
    let final := (start.assembleAll key articles).2
    final.getFileProgress key =
      (((numbers.toFinset.erase 0).filter fun number =>
        number ∈ completed ∨ number ∈ succeeded articles results).card,
        (numbers.toFinset.erase 0).card)
  missing :
    let results := (start.assembleAll key articles).1
    let final := (start.assembleAll key articles).2
    (final.missingSegments key).Pairwise (· < ·) ∧
      ∀ number, number ∈ final.missingSegments key ↔
        (number ∈ numbers ∧ number ≠ 0) ∧
          ¬(number ∈ completed ∨ number ∈ succeeded articles results)
  /-- The call that says so makes the last missing segment written. -/
  completes : ∀ earlier article later, articles = earlier ++ article :: later →
    let mid := (start.assembleAll key earlier).2
    let result := (mid.assembleArticle key article).1
    let next := (mid.assembleArticle key article).2
    Decode.completes result = true ↔
      result.isOk = true ∧ mid.missingSegments key ≠ [] ∧ next.missingSegments key = []
  once :
    let results := (start.assembleAll key articles).1
    let final := (start.assembleAll key articles).2
    results.countP Decode.completes =
      if start.missingSegments key ≠ [] ∧ final.missingSegments key = [] then 1 else 0
  bounded : ∀ declared ∈ declaredBytes, ∀ position, declared ≤ position →
    ((start.assembleAll key articles).2.disk outputPath)[position]? =
      (start.disk outputPath)[position]?
  /-- Where the accepted articles agree, the file has the bytes of those that were written. -/
  contents :
    let results := (start.assembleAll key articles).1
    let final := (start.assembleAll key articles).2
    Agree ((accepted articles results).map Article.whole) →
      ∀ entry ∈ articles.zip results, entry.2.isOk = true →
        ∀ i byte, entry.1.data[i]? = some byte →
          (final.disk outputPath)[entry.1.dataBegin + i]? = some byte
  anyOrder :
    let results := (start.assembleAll key articles).1
    let final := (start.assembleAll key articles).2
    Agree ((accepted articles results).map Article.whole) →
      ∀ articles', articles'.Perm articles →
        (start.assembleAll key articles').2.disk outputPath = final.disk outputPath

section Bytes

variable {assembler : FileAssembler} {key : FileKey} {outputPath : String}
  {declaredBytes : Option ℕ} {expected : List ℕ} {done : Finset ℕ} {articles : List Article}
  {article : Article}

theorem value_writeOf {position : ℕ} {byte : UInt8}
    (isValue : (article.writeOf expected declaredBytes).value position = some byte) :
    article.Accepted expected declaredBytes ∧ article.whole.value position = some byte := by
  rcases Write.value_eq_some_iff.mp isValue with ⟨before, found⟩
  simp only [Article.writeOf] at before found
  split at found
  next isAccepted =>
    rw [List.getElem?_take] at found
    split at found
    · exact ⟨isAccepted, Write.value_eq_some_iff.mpr ⟨before, found⟩⟩
    · simp at found
  · simp at found

theorem agree_writeOf (agree : Agree ((articles.filter fun article =>
      article.Accepted expected declaredBytes).map Article.whole)) :
    Agree (articles.map (Article.writeOf expected declaredBytes)) := by
  intro write mem write' mem' position byte byte' isValue isValue'
  rcases List.mem_map.mp mem with ⟨article, isArticle, rfl⟩
  rcases List.mem_map.mp mem' with ⟨article', isArticle', rfl⟩
  rcases value_writeOf isValue with ⟨isAccepted, whole⟩
  rcases value_writeOf isValue' with ⟨isAccepted', whole'⟩
  exact agree _ (List.mem_map_of_mem (List.mem_filter.mpr ⟨isArticle, by simpa using isAccepted⟩))
    _ (List.mem_map_of_mem (List.mem_filter.mpr ⟨isArticle', by simpa using isAccepted'⟩))
    position byte byte' whole whole'

theorem not_reaches_writeOf {declared position : ℕ} (past : declared ≤ position) :
    ¬(article.writeOf expected (some declared)).Reaches position := by
  rintro ⟨some, reached⟩
  simp only [Article.writeOf] at some reached
  split at some
  next isAccepted =>
    have bound := isAccepted.2.2 declared rfl
    rw [if_pos isAccepted] at reached
    have atMost : writtenLength article.dataBegin article.data article.fault ≤
        maxFileSize - article.dataBegin := min_le_right _ _
    simp only [List.length_take] at reached
    have positive := List.length_pos_iff.mpr some
    simp only [List.length_take] at positive
    simp only [maxFileSize] at atMost
    omega
  · simp at some

theorem writeOf_of_isOk
    (assembling : assembler.Assembling key outputPath declaredBytes expected done)
    {entry : Article × Except AssemblerError Bool}
    (mem : entry ∈ articles.zip (assembler.assembleAll key articles).1)
    (isOk : entry.2.isOk = true) :
    entry.1.writeOf expected declaredBytes = entry.1.whole := by
  induction articles generalizing assembler done with
  | nil => simp at mem
  | cons article articles ih =>
      rcases assembling.step article with ⟨next, _, whole, _⟩
      rcases List.mem_cons.mp mem with rfl | later
      · exact whole isOk
      · exact ih next later

end Bytes

namespace FileAssembler

theorem assembled (assembler : FileAssembler) (key : FileKey) (outputPath : String)
    (numbers completed : List ℕ) (declaredBytes : Option ℕ) (articles : List Article) :
    Assembled (assembler.registerFileWithSegmentNumbers key outputPath numbers completed
      declaredBytes) key outputPath numbers completed declaredBytes articles := by
  have registered := assembling_register assembler key outputPath numbers completed declaredBytes
  set start := assembler.registerFileWithSegmentNumbers key outputPath numbers completed
    declaredBytes
  have isExpected : (sortedNumbers numbers).toFinset = numbers.toFinset.erase 0 := by
    ext number
    simp [mem_sortedNumbers, and_comm]
  rcases registered.run articles with ⟨final, disk, kept⟩
  have written : ∀ number, number ∈ completed.toFinset ∩ (sortedNumbers numbers).toFinset ∪
      (succeeded articles (start.assembleAll key articles).1).toFinset ↔
        (number ∈ numbers ∧ number ≠ 0) ∧
          (number ∈ completed ∨
            number ∈ succeeded articles (start.assembleAll key articles).1) := by
    intro number
    have isExpected := Finset.subset_union_right.trans final.subset
    simp only [Finset.subset_iff, List.mem_toFinset, mem_sortedNumbers] at isExpected
    have expectedHere := @isExpected number
    simp only [Finset.mem_union, Finset.mem_inter, List.mem_toFinset, mem_sortedNumbers]
    tauto
  constructor
  case accepts =>
    rintro earlier article later rfl
    have assembling := (registered.run earlier).1
    refine ⟨(assembling.step article).2.1, fun isAccepted whole => ?_⟩
    rcases (assembleArticle_of_whole assembling isAccepted whole).2 with ⟨complete, result, -⟩
    rw [result]
    rfl
  case rejected =>
    rintro earlier article later rfl mid isRejected
    have assembling := (registered.run earlier).1
    have notAccepted := (assembling.step article).2.1.mp isRejected
    rcases assembleArticle_of_rejected assembling notAccepted with ⟨e, same, _⟩
    simp only [mid, same]
  case progress =>
    intro results last
    have nodup : (sortedNumbers numbers).Nodup :=
      (ascending_sortedNumbers numbers).imp ne_of_lt
    rw [final.progress_eq, ← isExpected, List.toFinset_card_of_nodup nodup]
    congr 2
    ext number
    rw [written]
    simp [mem_sortedNumbers, results]
  case missing =>
    intro results last
    rw [final.missingSegments_eq]
    refine ⟨(ascending_sortedNumbers numbers).filter _, ?_⟩
    intro number
    simp only [List.mem_filter, mem_sortedNumbers, decide_eq_true_eq, written]
    tauto
  case completes =>
    rintro earlier article later rfl mid result next
    have assembling := (registered.run earlier).1
    rcases assembling.step article with ⟨stepped, _, _, completes_iff⟩
    rw [completes_iff, ne_eq, ne_eq, assembling.missingSegments_eq_nil_iff,
      stepped.missingSegments_eq_nil_iff]
  case once =>
    intro results last
    simp only [results, last, registered.countP_completes articles, ne_eq,
      registered.missingSegments_eq_nil_iff, final.missingSegments_eq_nil_iff]
  case bounded =>
    intro declared isDeclared position past
    rw [disk]
    apply Lib.getElem?_overwriteAll_of_unreached
    intro write mem
    rcases List.mem_map.mp mem with ⟨article, _, rfl⟩
    rw [Option.mem_def.mp isDeclared]
    exact not_reaches_writeOf past
  case contents =>
    intro results last agree entry mem isOk i byte found
    simp only [results, kept] at agree
    rw [disk]
    apply Lib.getElem?_overwriteAll_of_agree (agree_writeOf agree)
    · exact List.mem_map_of_mem (List.of_mem_zip mem).1
    · rw [writeOf_of_isOk registered mem isOk]
      simp [Write.value, Article.whole, found]
  case anyOrder =>
    intro results last agree articles' perm
    simp only [results, kept] at agree
    rw [(registered.run articles').2.1, disk]
    exact Lib.overwriteAll_perm (agree_writeOf agree) (perm.map _)

/-- The second segment of a file comes first. -/
def secondFirst : List Article :=
  [{ segment := 2, dataBegin := 3, data := [4, 5], fault := none },
    { segment := 1, dataBegin := 0, data := [1, 2, 3], fault := none }]

theorem assembled_second_first :
    let start := registerFileWithSegmentNumbers ⟨fun _ => none, fun _ => []⟩ ⟨"job", "file"⟩ "out"
      [1, 2] [] (some 5)
    (start.assembleAll ⟨"job", "file"⟩ secondFirst).1.countP completes = 1 ∧
      (start.assembleAll ⟨"job", "file"⟩ secondFirst).2.disk "out" = [1, 2, 3, 4, 5] := by
  have sorted : sortedNumbers [1, 2] = [1, 2] := by
    have ordered : [1, 2].mergeSort (· ≤ ·) = [1, 2] := List.mergeSort_of_pairwise (by decide)
    exact (congrArg _ ordered).trans rfl
  refine ⟨(assembled _ _ _ _ _ _ _).once.trans ?_, ?_⟩ <;>
    simp only [registerFileWithSegmentNumbers, sorted] <;> decide +kernel

section Resume

variable {assembler other : FileAssembler} {key : FileKey} {outputPath : String}
  {declaredBytes : Option ℕ} {expected : List ℕ}

/-- Two assemblers that have the same of a file, in memory and on the disk. -/
def Alike (assembler other : FileAssembler) (key : FileKey) (outputPath : String)
    (declaredBytes : Option ℕ) (expected : List ℕ) : Prop :=
  ∃ done, assembler.Assembling key outputPath declaredBytes expected done ∧
    other.Assembling key outputPath declaredBytes expected done ∧
    assembler.disk outputPath = other.disk outputPath

theorem check_congr {state state' : FileState} {done : Finset ℕ}
    (tracks : state.Tracks expected done) (tracks' : state'.Tracks expected done)
    (same : state.declaredBytes = state'.declaredBytes) (article : Article) :
    check state article = check state' article := by
  simp only [check, tracks.indexOf_eq, tracks'.indexOf_eq, tracks.total, tracks'.total, same]

section

variable (alike : Alike assembler other key outputPath declaredBytes expected)

include alike

theorem Alike.result_eq (article : Article) :
    (assembler.assembleArticle key article).1 = (other.assembleArticle key article).1 := by
  rcases alike with ⟨done, ⟨state, registered, -, bound, tracks⟩,
    ⟨state', registered', -, bound', tracks'⟩, -⟩
  have checks := check_congr tracks tracks' (bound.trans bound'.symm) article
  by_cases accepted : article.Accepted expected declaredBytes
  · have complete : (state.markWritten article.segment).2 =
        (state'.markWritten article.segment).2 := by
      rw [Bool.eq_iff_iff, (tracks.markWritten accepted.1).2, (tracks'.markWritten accepted.1).2]
    rw [assembleArticle_of_accepted registered tracks (bound ▸ accepted),
      assembleArticle_of_accepted registered' tracks' (bound' ▸ accepted)]
    split
    · rw [complete]
    · rfl
  · rcases check_of_not_accepted tracks (bound ▸ accepted) with ⟨e, failed, _⟩
    rw [failed] at checks
    simp only [assembleArticle, registered, registered', failed, ← checks]

theorem Alike.step (article : Article) : Alike (assembler.assembleArticle key article).2
      (other.assembleArticle key article).2 key outputPath declaredBytes expected := by
  have result := alike.result_eq article
  rcases alike with ⟨done, assembling, assembling', disk⟩
  refine ⟨_, (assembling.step article).1, ?_, ?_⟩
  · rw [result]
    exact (assembling'.step article).1
  · rw [disk_assembleArticle assembling, disk_assembleArticle assembling', disk]

theorem Alike.run (articles : List Article) :
    (assembler.assembleAll key articles).1 = (other.assembleAll key articles).1 ∧
      Alike (assembler.assembleAll key articles).2 (other.assembleAll key articles).2 key
        outputPath declaredBytes expected := by
  induction articles generalizing assembler other with
  | nil => exact ⟨rfl, alike⟩
  | cons article articles ih =>
      rcases ih (alike.step article) with ⟨results, after⟩
      exact ⟨congrArg₂ List.cons (alike.result_eq article) results, after⟩

end

/-- A restart that registers the file with the segments written so far goes on as if the assembler
had not been stopped. -/
theorem resume_agrees (assembler : FileAssembler) (key : FileKey) (outputPath : String)
    (numbers completed saved : List ℕ) (declaredBytes : Option ℕ) (before after : List Article)
    (saves : ∀ number ∈ sortedNumbers numbers, number ∈ saved ↔
      number ∉ ((assembler.registerFileWithSegmentNumbers key outputPath numbers completed
        declaredBytes).assembleAll key before).2.missingSegments key) :
    let stopped := ((assembler.registerFileWithSegmentNumbers key outputPath numbers completed
      declaredBytes).assembleAll key before).2
    let resumed := ({ files := fun _ => none, disk := stopped.disk } :
      FileAssembler).registerFileWithSegmentNumbers key outputPath numbers saved declaredBytes
    (resumed.assembleAll key after).1 = (stopped.assembleAll key after).1 ∧
      (resumed.assembleAll key after).2.disk outputPath =
        (stopped.assembleAll key after).2.disk outputPath ∧
      (resumed.assembleAll key after).2.missingSegments key =
        (stopped.assembleAll key after).2.missingSegments key ∧
      (resumed.assembleAll key after).2.getFileProgress key =
        (stopped.assembleAll key after).2.getFileProgress key := by
  intro stopped resumed
  obtain ⟨done, assembling⟩ : ∃ done,
      stopped.Assembling key outputPath declaredBytes (sortedNumbers numbers) done :=
    ⟨_, ((assembling_register assembler key outputPath numbers completed declaredBytes).run
      before).1⟩
  have registered := assembling_register { files := fun _ => none, disk := stopped.disk } key
    outputPath numbers saved declaredBytes
  have subset := assembling.subset
  have saves : ∀ number ∈ sortedNumbers numbers,
      number ∈ saved ↔ number ∉ stopped.missingSegments key := saves
  rw [assembling.missingSegments_eq] at saves
  have same : saved.toFinset ∩ (sortedNumbers numbers).toFinset = done := by
    ext number
    rw [Finset.mem_inter, List.mem_toFinset, List.mem_toFinset]
    constructor
    · rintro ⟨isSaved, isExpected⟩
      simpa [isExpected] using (saves number isExpected).mp isSaved
    · intro isDone
      have isExpected := List.mem_toFinset.mp (subset isDone)
      exact ⟨(saves number isExpected).mpr (by simp [isDone]), isExpected⟩
  rw [same] at registered
  rcases Alike.run ⟨done, registered, assembling, rfl⟩ after with
    ⟨results, last, resumedLast, stoppedLast, disk⟩
  exact ⟨results, disk, by rw [resumedLast.missingSegments_eq, stoppedLast.missingSegments_eq],
    by rw [resumedLast.progress_eq, stoppedLast.progress_eq]⟩

theorem resume_agrees_secondSegment :
    let first : Article := ⟨1, 0, [5], none⟩
    let key : FileKey := ⟨"job", "file"⟩
    let stopped := ((FileAssembler.mk (fun _ => none) fun _ => []).registerFileWithSegmentNumbers
      key "out" [1, 2] [] none |>.assembleAll key [first]).2
    let resumed := (FileAssembler.mk (fun _ => none) stopped.disk).registerFileWithSegmentNumbers
      key "out" [1, 2] [1] none
    (resumed.assembleAll key [⟨2, 1, [6], none⟩]).1 =
      (stopped.assembleAll key [⟨2, 1, [6], none⟩]).1 :=
  (resume_agrees ⟨fun _ => none, fun _ => []⟩ ⟨"job", "file"⟩ "out" [1, 2] [] [1] none
    [⟨1, 0, [5], none⟩] [⟨2, 1, [6], none⟩] (by
      have sorted : sortedNumbers [1, 2] = [1, 2] := by
        simp [sortedNumbers, List.mergeSort_of_pairwise]
      simp only [registerFileWithSegmentNumbers, sorted]
      decide)).1

end Resume

end FileAssembler

end Rustnzb.Decode
