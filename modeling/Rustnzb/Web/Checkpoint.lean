import Rustnzb.Dispatch.JobDelivery

/-!
# A job's progress and its checkpoint

The queue manager keeps, for each article of a job, whether it was downloaded and which servers
failed it, and saves that under file names, since the ids of files are made anew by each parse of
the NZB. No outcome is kept under an id, so the ids are taken to be the same after each parse here.
Names, sizes and statistics that nothing below reads are left out.
-/

namespace Rustnzb.Web

open Dispatch (Article NzbFile NzbJob FileId ServerId)

structure ArticleCheckpoint where
  messageId : String
  segmentNumber : ℕ
  downloaded : Bool
  dataBegin : Option ℕ
  dataSize : Option ℕ
  triedServers : List ServerId

/-- The maps of the source are lists of what was inserted, oldest first. -/
structure JobCheckpoint where
  files : List (String × List ℕ)
  articlesFailed : ℕ
  articles : List (String × List ArticleCheckpoint)

/-- `HashMap::get`: what was inserted last under `name`. -/
def lookupLast {α : Type} (entries : List (String × α)) (name : String) : Option α :=
  (entries.reverse.find? fun entry => entry.1 = name).map Prod.snd

theorem mem_of_lookupLast {α : Type} {entries : List (String × α)} {name : String} {value : α}
    (found : lookupLast entries name = some value) : (name, value) ∈ entries := by
  rcases Option.map_eq_some_iff.mp found with ⟨⟨entryName, entryValue⟩, isFound, rfl⟩
  have mem := List.mem_reverse.mp (List.mem_of_find?_eq_some isFound)
  have same : entryName = name := by simpa using List.find?_some isFound
  rwa [same] at mem

def checkpointArticle (article : Article) : ArticleCheckpoint where
  messageId := article.messageId
  segmentNumber := article.segmentNumber
  downloaded := article.downloaded
  dataBegin := article.dataBegin
  dataSize := article.dataSize
  triedServers := article.triedServers

def checkpointForJob (job : NzbJob) (articlesFailed : ℕ) : JobCheckpoint where
  files := job.files.map fun file =>
    (file.filename, (file.articles.filter Article.downloaded).map Article.segmentNumber)
  articlesFailed := articlesFailed
  articles := job.files.map fun file => (file.filename, file.articles.map checkpointArticle)

def restoreArticle (outcomes : Option (List ArticleCheckpoint)) (segments : Option (List ℕ))
    (article : Article) : Article :=
  match outcomes.bind fun items => items.find? fun item =>
      item.messageId = article.messageId || item.segmentNumber = article.segmentNumber with
  | some outcome =>
      { article with
        downloaded := outcome.downloaded
        dataBegin := outcome.dataBegin
        dataSize := outcome.dataSize
        triedServers := outcome.triedServers }
  | none =>
      if segments.any fun items => items.contains article.segmentNumber then
        { article with downloaded := true }
      else article

@[simp]
theorem segmentNumber_restoreArticle (outcomes : Option (List ArticleCheckpoint))
    (segments : Option (List ℕ)) (article : Article) :
    (restoreArticle outcomes segments article).segmentNumber = article.segmentNumber := by
  simp only [restoreArticle]
  split
  · rfl
  · split <;> rfl

def restoreFile (checkpoint : JobCheckpoint) (file : NzbFile) : NzbFile :=
  let outcomes := lookupLast checkpoint.articles file.filename
  let segments := (lookupLast checkpoint.files file.filename).or
    (lookupLast checkpoint.files file.id)
  { file with articles := file.articles.map (restoreArticle outcomes segments) }

def applyCheckpoint (job : NzbJob) (checkpoint : JobCheckpoint) : NzbJob :=
  { job with files := job.files.map (restoreFile checkpoint) }

/-- The `ArticleComplete` arm, for the article's flags. -/
def markDownloaded (job : NzbJob) (fileId : FileId) (segmentNumber decodedBytes : ℕ) : NzbJob :=
  { job with
    files := job.files.map fun file =>
      if file.id = fileId then
        { file with
          articles := file.articles.map fun article =>
            if article.segmentNumber = segmentNumber then
              { article with downloaded := true, dataSize := some decodedBytes }
            else article }
      else file }

def modifyFirst {α : Type} (test : α → Bool) (change : α → α) : List α → List α
  | [] => []
  | item :: items =>
      if test item then change item :: items else item :: modifyFirst test change items

theorem map_modifyFirst {α β : Type} {test : α → Bool} {change : α → α} {image : α → β}
    (same : ∀ item, image (change item) = image item) (items : List α) :
    (modifyFirst test change items).map image = items.map image := by
  induction items with
  | nil => rfl
  | cons item items ih =>
      simp only [modifyFirst]
      split
      · simp [same]
      · simp [ih]

theorem mem_modifyFirst {α : Type} {test : α → Bool} {change : α → α} {items : List α} {item : α}
    (mem : item ∈ modifyFirst test change items) :
    item ∈ items ∨ ∃ before ∈ items, item = change before := by
  induction items with
  | nil => simp [modifyFirst] at mem
  | cons first rest ih =>
      simp only [modifyFirst] at mem
      split at mem
      · rcases List.mem_cons.mp mem with rfl | later
        · exact .inr ⟨first, List.mem_cons_self, rfl⟩
        · exact .inl (List.mem_cons_of_mem first later)
      · rcases List.mem_cons.mp mem with rfl | later
        · exact .inl List.mem_cons_self
        · rcases ih later with before | ⟨before, beforeMem, same⟩
          · exact .inl (List.mem_cons_of_mem first before)
          · exact .inr ⟨before, List.mem_cons_of_mem first beforeMem, same⟩

/-- The `ArticleFailed` arm, for the article's flags. -/
def recordFailure (job : NzbJob) (fileId : FileId) (segmentNumber : ℕ) (serverId : ServerId) :
    NzbJob :=
  { job with
    files := modifyFirst (fun file => file.id = fileId)
      (fun file =>
        { file with
          articles := modifyFirst (fun article => article.segmentNumber = segmentNumber)
            (fun article =>
              { article with
                triedServers :=
                  if article.triedServers.contains serverId then article.triedServers
                  else article.triedServers ++ [serverId] })
            file.articles })
      job.files }

/-! ## What the NZB says of a file -/

def listing (file : NzbFile) : FileId × String × List (String × ℕ) :=
  (file.id, file.filename, file.articles.map fun article =>
    (article.messageId, article.segmentNumber))

def Lists (nzb job : NzbJob) : Prop :=
  job.files.map listing = nzb.files.map listing

theorem Lists.refl (nzb : NzbJob) : Lists nzb nzb := rfl

theorem lists_applyCheckpoint (nzb : NzbJob) (checkpoint : JobCheckpoint) :
    Lists nzb (applyCheckpoint nzb checkpoint) := by
  simp only [Lists, applyCheckpoint, List.map_map]
  apply List.map_congr_left
  intro file _
  simp only [Function.comp, listing, restoreFile, List.map_map]
  congr 2
  apply List.map_congr_left
  intro article _
  simp only [Function.comp, restoreArticle]
  split
  · rfl
  · split <;> rfl

theorem Lists.markDownloaded {nzb job : NzbJob} (lists : Lists nzb job) (fileId : FileId)
    (segmentNumber decodedBytes : ℕ) :
    Lists nzb (markDownloaded job fileId segmentNumber decodedBytes) := by
  rw [Lists, ← lists]
  simp only [Web.markDownloaded, List.map_map]
  apply List.map_congr_left
  intro file _
  simp only [Function.comp]
  split
  · simp only [listing, List.map_map]
    congr 2
    apply List.map_congr_left
    intro article _
    simp only [Function.comp]
    split <;> rfl
  · rfl

theorem Lists.recordFailure {nzb job : NzbJob} (lists : Lists nzb job) (fileId : FileId)
    (segmentNumber : ℕ) (serverId : ServerId) :
    Lists nzb (recordFailure job fileId segmentNumber serverId) := by
  rw [Lists, ← lists]
  apply map_modifyFirst
  intro file
  simp only [listing]
  congr 2
  apply map_modifyFirst
  intro article
  rfl

/-! ## Downloaded means written -/

def Truthful (written : List (FileId × ℕ)) (job : NzbJob) : Prop :=
  ∀ file ∈ job.files, ∀ article ∈ file.articles, article.downloaded = true →
    (file.id, article.segmentNumber) ∈ written

def Untried (job : NzbJob) : Prop :=
  ∀ file ∈ job.files, ∀ article ∈ file.articles, article.downloaded = false →
    article.triedServers = []

theorem Truthful.mono {written more : List (FileId × ℕ)} {job : NzbJob}
    (truthful : Truthful written job) (subset : written ⊆ more) : Truthful more job :=
  fun file fileMem article articleMem done => subset (truthful file fileMem article articleMem done)

theorem Truthful.markDownloaded {written : List (FileId × ℕ)} {job : NzbJob}
    (truthful : Truthful written job) {fileId : FileId} {segmentNumber : ℕ} (decodedBytes : ℕ)
    (isWritten : (fileId, segmentNumber) ∈ written) :
    Truthful written (markDownloaded job fileId segmentNumber decodedBytes) := by
  intro file fileMem article articleMem done
  rcases List.mem_map.mp fileMem with ⟨before, beforeMem, rfl⟩
  split at articleMem
  next own =>
    rcases List.mem_map.mp articleMem with ⟨old, oldMem, rfl⟩
    rw [if_pos own]
    split at done
    next same =>
      rw [if_pos same]
      rw [← own, ← same] at isWritten
      exact isWritten
    next differs =>
      rw [if_neg differs]
      exact truthful before beforeMem old oldMem done
  next other =>
    rw [if_neg other]
    exact truthful before beforeMem article articleMem done

theorem Truthful.recordFailure {written : List (FileId × ℕ)} {job : NzbJob}
    (truthful : Truthful written job) (fileId : FileId) (segmentNumber : ℕ) (serverId : ServerId) :
    Truthful written (recordFailure job fileId segmentNumber serverId) := by
  intro file fileMem article articleMem done
  rcases mem_modifyFirst fileMem with before | ⟨before, beforeMem, rfl⟩
  · exact truthful file before article articleMem done
  · rcases mem_modifyFirst articleMem with old | ⟨old, oldMem, rfl⟩
    · exact truthful before beforeMem article old done
    · exact truthful before beforeMem old oldMem done

theorem Untried.markDownloaded {job : NzbJob} (untried : Untried job) (fileId : FileId)
    (segmentNumber decodedBytes : ℕ) :
    Untried (markDownloaded job fileId segmentNumber decodedBytes) := by
  intro file fileMem article articleMem notDone
  rcases List.mem_map.mp fileMem with ⟨before, beforeMem, rfl⟩
  split at articleMem
  · rcases List.mem_map.mp articleMem with ⟨old, oldMem, rfl⟩
    split at notDone
    · simp at notDone
    next differs =>
      rw [if_neg differs]
      exact untried before beforeMem old oldMem notDone
  · exact untried before beforeMem article articleMem notDone

structure JobCheckpoint.Truthful (nzb : NzbJob) (written : List (FileId × ℕ))
    (checkpoint : JobCheckpoint) : Prop where
  articles : ∀ name outcomes, (name, outcomes) ∈ checkpoint.articles → ∀ outcome ∈ outcomes,
    outcome.downloaded = true → ∃ file ∈ nzb.files, file.filename = name ∧
      (∃ article ∈ file.articles, article.messageId = outcome.messageId ∧
        article.segmentNumber = outcome.segmentNumber) ∧
      (file.id, outcome.segmentNumber) ∈ written
  files : ∀ name segments, (name, segments) ∈ checkpoint.files → ∀ segment ∈ segments,
    ∃ file ∈ nzb.files, file.filename = name ∧ (file.id, segment) ∈ written

/-- The checkpoint counts a failure if it names a server that failed a missing article. -/
def JobCheckpoint.Counted (checkpoint : JobCheckpoint) : Prop :=
  checkpoint.articlesFailed = 0 → ∀ name outcomes, (name, outcomes) ∈ checkpoint.articles →
    ∀ outcome ∈ outcomes, outcome.downloaded = false → outcome.triedServers = []

/-- The names and numbers that the NZB gives tell its articles apart. -/
structure Distinguishable (nzb : NzbJob) : Prop where
  names : ∀ file ∈ nzb.files, ∀ other ∈ nzb.files, file.filename = other.filename →
    file.id = other.id
  notIds : ∀ file ∈ nzb.files, ∀ other ∈ nzb.files, file.filename ≠ other.id
  messages : ∀ file ∈ nzb.files, ∀ article ∈ file.articles, ∀ other ∈ file.articles,
    article.messageId = other.messageId → article.segmentNumber = other.segmentNumber

theorem JobCheckpoint.Truthful.mono {nzb : NzbJob} {written more : List (FileId × ℕ)}
    {checkpoint : JobCheckpoint} (truthful : checkpoint.Truthful nzb written)
    (subset : written ⊆ more) : checkpoint.Truthful nzb more where
  articles name outcomes mem outcome outcomeMem done := by
    rcases truthful.articles name outcomes mem outcome outcomeMem done with
      ⟨file, fileMem, same, article, isWritten⟩
    exact ⟨file, fileMem, same, article, subset isWritten⟩
  files name segments mem segment segmentMem := by
    rcases truthful.files name segments mem segment segmentMem with ⟨file, fileMem, same, isWritten⟩
    exact ⟨file, fileMem, same, subset isWritten⟩

section Saved

variable {nzb job : NzbJob} {written : List (FileId × ℕ)}

theorem Lists.exists_file (lists : Lists nzb job) {file : NzbFile} (mem : file ∈ job.files) :
    ∃ original ∈ nzb.files, listing original = listing file := by
  have listed : listing file ∈ job.files.map listing := List.mem_map_of_mem mem
  rw [lists] at listed
  rcases List.mem_map.mp listed with ⟨original, originalMem, same⟩
  exact ⟨original, originalMem, same⟩

theorem Lists.exists_file_of_original (lists : Lists nzb job) {original : NzbFile}
    (mem : original ∈ nzb.files) : ∃ file ∈ job.files, listing file = listing original := by
  have listed : listing original ∈ nzb.files.map listing := List.mem_map_of_mem mem
  rw [← lists] at listed
  rcases List.mem_map.mp listed with ⟨file, fileMem, same⟩
  exact ⟨file, fileMem, same⟩

theorem exists_article_of_listing {file original : NzbFile} (same : listing original = listing file)
    {article : Article} (mem : article ∈ file.articles) :
    ∃ listed ∈ original.articles, listed.messageId = article.messageId ∧
      listed.segmentNumber = article.segmentNumber := by
  simp only [listing, Prod.mk.injEq] at same
  have numbered : (article.messageId, article.segmentNumber) ∈
      file.articles.map fun article => (article.messageId, article.segmentNumber) :=
    List.mem_map_of_mem mem
  rw [← same.2.2] at numbered
  rcases List.mem_map.mp numbered with ⟨listed, listedMem, equal⟩
  simp only [Prod.mk.injEq] at equal
  exact ⟨listed, listedMem, equal⟩

theorem truthful_checkpointForJob (lists : Lists nzb job) (truthful : Truthful written job)
    (articlesFailed : ℕ) : (checkpointForJob job articlesFailed).Truthful nzb written where
  articles name outcomes mem outcome outcomeMem done := by
    rcases List.mem_map.mp mem with ⟨file, fileMem, same⟩
    simp only [Prod.mk.injEq] at same
    rcases same with ⟨rfl, rfl⟩
    rcases List.mem_map.mp outcomeMem with ⟨article, articleMem, rfl⟩
    rcases lists.exists_file fileMem with ⟨original, originalMem, equal⟩
    have isWritten := truthful file fileMem article articleMem done
    have article := exists_article_of_listing equal articleMem
    simp only [listing, Prod.mk.injEq] at equal
    exact ⟨original, originalMem, equal.2.1, article, by rw [equal.1]; exact isWritten⟩
  files name segments mem segment segmentMem := by
    rcases List.mem_map.mp mem with ⟨file, fileMem, same⟩
    simp only [Prod.mk.injEq] at same
    rcases same with ⟨rfl, rfl⟩
    rcases List.mem_map.mp segmentMem with ⟨article, articleMem, rfl⟩
    rcases List.mem_filter.mp articleMem with ⟨articleMem, done⟩
    rcases lists.exists_file fileMem with ⟨original, originalMem, equal⟩
    have isWritten := truthful file fileMem article articleMem done
    simp only [listing, Prod.mk.injEq] at equal
    exact ⟨original, originalMem, equal.2.1, by rw [equal.1]; exact isWritten⟩

theorem counted_checkpointForJob {articlesFailed : ℕ} (untried : articlesFailed = 0 → Untried job) :
    (checkpointForJob job articlesFailed).Counted := by
  intro none name outcomes mem outcome outcomeMem notDone
  rcases List.mem_map.mp mem with ⟨file, fileMem, same⟩
  simp only [Prod.mk.injEq] at same
  rcases same with ⟨rfl, rfl⟩
  rcases List.mem_map.mp outcomeMem with ⟨article, articleMem, rfl⟩
  exact untried none file fileMem article articleMem notDone

structure Fresh (nzb : NzbJob) : Prop where
  ids : (nzb.files.map NzbFile.id).Nodup
  missing : ∀ file ∈ nzb.files, ∀ article ∈ file.articles, article.downloaded = false
  untried : Untried nzb

theorem Fresh.eq_of_id (fresh : Fresh nzb) {file other : NzbFile} (mem : file ∈ nzb.files)
    (otherMem : other ∈ nzb.files) (same : file.id = other.id) : file = other :=
  List.inj_on_of_nodup_map fresh.ids mem otherMem same

theorem truthful_applyCheckpoint (fresh : Fresh nzb) (apart : Distinguishable nzb)
    {checkpoint : JobCheckpoint} (truthful : checkpoint.Truthful nzb written) :
    Truthful written (applyCheckpoint nzb checkpoint) := by
  intro file fileMem article articleMem done
  rcases List.mem_map.mp fileMem with ⟨original, originalMem, rfl⟩
  rcases List.mem_map.mp articleMem with ⟨listed, listedMem, rfl⟩
  simp only [restoreFile, segmentNumber_restoreArticle]
  simp only [restoreArticle] at done
  split at done
  next outcome found =>
    rcases Option.bind_eq_some_iff.mp found with ⟨outcomes, saved, isFound⟩
    have outcomeMem := List.mem_of_find?_eq_some isFound
    rcases truthful.articles _ outcomes (mem_of_lookupLast saved) outcome outcomeMem done with
      ⟨other, otherMem, sameName, ⟨named, namedMem, message, segment⟩, isWritten⟩
    have sameId := apart.names other otherMem original originalMem sameName
    have same := fresh.eq_of_id otherMem originalMem sameId
    subst same
    have matched : outcome.messageId = listed.messageId ∨
        outcome.segmentNumber = listed.segmentNumber := by
      simpa using List.find?_some isFound
    rcases matched with sameMessage | sameSegment
    · have sameSegment := apart.messages other otherMem named namedMem listed listedMem
        (message.trans sameMessage)
      rw [← sameSegment, segment]
      exact isWritten
    · rw [← sameSegment]
      exact isWritten
  · split at done
    next any =>
      rcases (Option.any_eq_true _ _).mp any with ⟨segments, saved, contains⟩
      have segmentMem := List.contains_iff_mem.mp contains
      rcases Option.or_eq_some_iff.mp saved with byName | ⟨-, byId⟩
      · rcases truthful.files _ segments (mem_of_lookupLast byName) _ segmentMem with
          ⟨other, otherMem, sameName, isWritten⟩
        rw [← apart.names other otherMem original originalMem sameName]
        exact isWritten
      · -- no file is named by an id
        rcases truthful.files _ segments (mem_of_lookupLast byId) _ segmentMem with
          ⟨other, otherMem, sameName, -⟩
        exact absurd sameName (apart.notIds other otherMem original originalMem)
    · rw [fresh.missing original originalMem listed listedMem] at done
      simp at done

theorem untried_applyCheckpoint (fresh : Fresh nzb) {checkpoint : JobCheckpoint}
    (counted : checkpoint.Counted) (none : checkpoint.articlesFailed = 0) :
    Untried (applyCheckpoint nzb checkpoint) := by
  intro file fileMem article articleMem notDone
  rcases List.mem_map.mp fileMem with ⟨original, originalMem, rfl⟩
  rcases List.mem_map.mp articleMem with ⟨listed, listedMem, rfl⟩
  simp only [restoreArticle] at notDone ⊢
  split at notDone
  next outcome found =>
    rcases Option.bind_eq_some_iff.mp found with ⟨outcomes, saved, isFound⟩
    exact counted none _ outcomes (mem_of_lookupLast saved) outcome
      (List.mem_of_find?_eq_some isFound) notDone
  · split at notDone
    · simp at notDone
    next differs =>
      rw [if_neg differs]
      exact fresh.untried original originalMem listed listedMem notDone

end Saved

end Rustnzb.Web
