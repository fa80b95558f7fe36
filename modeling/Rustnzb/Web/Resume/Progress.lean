import Mathlib.Data.Finmap
import Rustnzb.Core.NzbParser
import Rustnzb.Lib.Path
import Rustnzb.Web.Checkpoint

/-!
# The progress of a job, saved and restored

All that the queue manager counts of a job while its articles arrive, and the whole of the
checkpoint that it saves as JSON. The files come from a parse of the NZB, which gives them new ids
each time. Times are milliseconds, sums of bytes wrap as they do in a release build, and numbers of
articles and files have no bound. Folders, texts and the tracker of hopeless jobs are left out.
-/

namespace Rustnzb.Web.Resume

open Dispatch (FileId ServerId ArticleFailure)

structure Article where
  messageId : String
  segmentNumber : ℕ
  bytes : UInt64
  downloaded : Bool
  dataBegin : Option UInt64
  dataSize : Option UInt64
  crc32 : Option UInt32
  triedServers : List ServerId
  tries : ℕ
  deriving DecidableEq

structure NzbFile where
  id : FileId
  filename : String
  bytesDownloaded : UInt64
  isPar2 : Bool
  par2SetName : Option (List Char)
  par2Vol : Option ℕ
  par2Blocks : Option ℕ
  assembled : Bool
  articles : List Article
  deriving DecidableEq

structure ServerArticleStats where
  serverId : ServerId
  serverName : String
  articlesDownloaded : ℕ
  articlesFailed : ℕ
  bytesDownloaded : UInt64
  deriving DecidableEq

structure NzbJob where
  files : List NzbFile
  downloadedBytes : UInt64
  filesCompleted : ℕ
  articlesDownloaded : ℕ
  articlesFailed : ℕ
  serverStats : List ServerArticleStats
  deriving DecidableEq

/-! ## A fresh parse -/

def freshArticle (segment : Core.Segment) : Article where
  messageId := segment.messageId
  segmentNumber := segment.number
  bytes := .ofNat segment.bytes
  downloaded := false
  dataBegin := none
  dataSize := none
  crc32 := none
  triedServers := []
  tries := 0

def freshFile (id : FileId) (file : Core.NzbFile) : NzbFile :=
  let par2 :=
    if file.isPar2 then Core.parsePar2Filename file.filename.toList else (none, none, none)
  { id := id
    filename := file.filename
    bytesDownloaded := 0
    isPar2 := file.isPar2
    par2SetName := par2.1
    par2Vol := par2.2.1
    par2Blocks := par2.2.2
    assembled := false
    articles := file.articles.map freshArticle }

def freshJob (ids : List FileId) (parsed : Core.NzbJob) : NzbJob where
  files := List.zipWith freshFile ids parsed.files
  downloadedBytes := 0
  filesCompleted := 0
  articlesDownloaded := 0
  articlesFailed := 0
  serverStats := []

structure NewIds (parsed : Core.NzbJob) (ids : List FileId) : Prop where
  length_eq : ids.length = parsed.files.length
  nodup : ids.Nodup

/-! ## Updates -/

inductive ProgressUpdate where
  | articleComplete (fileId : FileId) (segmentNumber : ℕ) (decodedBytes : UInt64)
      (fileComplete : Bool) (serverId : Option ServerId) (yencFilename : Option String)
  | articleFailed (fileId : FileId) (segmentNumber : ℕ) (failure : ArticleFailure)
  deriving DecidableEq

/-- `Path::file_name`, or the whole where there is none. -/
def cleanName (yencName : List Char) : List Char :=
  match (Lib.components yencName).getLast? with
  | some (.name name) => name
  | _ => yencName

/-- What a yEnc header shows of a file that was not known to be PAR2. -/
def NzbFile.reveal (file : NzbFile) (yencFilename : Option String) : NzbFile :=
  match yencFilename with
  | none => file
  | some yencName =>
      let name := cleanName yencName.toList
      if ".par2".toList.isSuffixOf (name.map Char.toLower) && !file.isPar2 then
        let par2 := Core.parsePar2Filename name
        { file with
          isPar2 := true, par2SetName := par2.1, par2Vol := par2.2.1, par2Blocks := par2.2.2 }
      else file

/-- Count something for a server, which is listed from then on. `servers` are the configured ones
with their names. -/
def countServer (servers : List (ServerId × String)) (serverId : ServerId)
    (count : ServerArticleStats → ServerArticleStats) (stats : List ServerArticleStats) :
    List ServerArticleStats :=
  if stats.any fun entry => entry.serverId = serverId then
    modifyFirst (fun entry => entry.serverId = serverId) count stats
  else
    stats ++ [count {
      serverId := serverId
      serverName := ((servers.find? fun server => server.1 = serverId).map Prod.snd).getD serverId
      articlesDownloaded := 0
      articlesFailed := 0
      bytesDownloaded := 0 }]

def Article.markDownloaded (article : Article) (decodedBytes : UInt64) : Article :=
  { article with downloaded := true, dataSize := some decodedBytes }

def Article.recordFailure (article : Article) (serverId : ServerId) : Article :=
  { article with
    tries := min (article.tries + 1) (2 ^ 32 - 1)
    triedServers :=
      if article.triedServers.contains serverId then article.triedServers
      else article.triedServers ++ [serverId] }

def NzbFile.recordDecoded (file : NzbFile) (segmentNumber : ℕ) (decodedBytes : UInt64)
    (fileComplete : Bool) : NzbFile :=
  { file with
    bytesDownloaded := file.bytesDownloaded + decodedBytes
    articles := file.articles.map fun article =>
      if article.segmentNumber = segmentNumber then article.markDownloaded decodedBytes else article
    assembled := file.assembled || fileComplete }

def NzbFile.recordFailure (file : NzbFile) (segmentNumber : ℕ) (serverId : ServerId) : NzbFile :=
  { file with
    articles := modifyFirst (fun article => article.segmentNumber = segmentNumber)
      (fun article => article.recordFailure serverId) file.articles }

def articleComplete (servers : List (ServerId × String)) (job : NzbJob) (fileId : FileId)
    (segmentNumber : ℕ) (decodedBytes : UInt64) (fileComplete : Bool) (serverId : Option ServerId)
    (yencFilename : Option String) : NzbJob where
  files := modifyFirst (fun file => file.id = fileId)
    (fun file =>
      (file.reveal yencFilename).recordDecoded segmentNumber decodedBytes fileComplete) job.files
  downloadedBytes := job.downloadedBytes + decodedBytes
  filesCompleted :=
    if (job.files.find? fun file => file.id = fileId).any fun file =>
      fileComplete && !file.assembled
    then job.filesCompleted + 1
    else job.filesCompleted
  articlesDownloaded := job.articlesDownloaded + 1
  articlesFailed := job.articlesFailed
  serverStats := match serverId with
    | none => job.serverStats
    | some serverId =>
        countServer servers serverId
          (fun entry => { entry with
            articlesDownloaded := entry.articlesDownloaded + 1
            bytesDownloaded := entry.bytesDownloaded + decodedBytes }) job.serverStats

def articleFailed (servers : List (ServerId × String)) (job : NzbJob) (fileId : FileId)
    (segmentNumber : ℕ) (failure : ArticleFailure) : NzbJob :=
  { job with
    files := modifyFirst (fun file => file.id = fileId)
      (fun file => file.recordFailure segmentNumber failure.serverId) job.files
    articlesFailed := job.articlesFailed + 1
    serverStats := countServer servers failure.serverId
      (fun entry => { entry with articlesFailed := entry.articlesFailed + 1 }) job.serverStats }

def handleProgress (servers : List (ServerId × String)) (job : NzbJob) : ProgressUpdate → NzbJob
  | .articleComplete fileId segmentNumber decodedBytes fileComplete serverId yencFilename =>
      articleComplete servers job fileId segmentNumber decodedBytes fileComplete serverId
        yencFilename
  | .articleFailed fileId segmentNumber failure =>
      articleFailed servers job fileId segmentNumber failure

/-! ## The checkpoint -/

structure ArticleCheckpoint where
  messageId : String
  segmentNumber : ℕ
  bytes : UInt64
  downloaded : Bool
  dataBegin : Option UInt64
  dataSize : Option UInt64
  crc32 : Option UInt32
  triedServers : List ServerId
  tries : ℕ
  deriving DecidableEq

structure JobCheckpoint where
  files : Finmap fun _ : String => List ℕ
  downloadedBytes : UInt64
  articlesDownloaded : ℕ
  articlesFailed : ℕ
  filesCompleted : ℕ
  articles : Finmap fun _ : String => List ArticleCheckpoint
  downloadTime : ℕ
  carriedBytes : UInt64
  serverStats : List ServerArticleStats

/-- `collect`: what is inserted later under a key replaces what is there. -/
def collect {α : Type} (entries : List (String × α)) : Finmap fun _ : String => α :=
  entries.foldl (fun map entry => map.insert entry.1 entry.2) ∅

theorem lookup_collect {α : Type} (entries : List (String × α)) (name : String) :
    (collect entries).lookup name = lookupLast entries name := by
  induction entries using List.reverseRecOn with
  | nil => rfl
  | append_singleton entries entry ih =>
      simp only [collect, List.foldl_append, List.foldl_cons, List.foldl_nil]
      by_cases same : entry.1 = name
      · subst same
        simp [lookupLast]
      · rw [Finmap.lookup_insert_of_ne _ (Ne.symm same)]
        rw [collect] at ih
        rw [ih]
        simp [lookupLast, same]

def checkpointArticle (article : Article) : ArticleCheckpoint where
  messageId := article.messageId
  segmentNumber := article.segmentNumber
  bytes := article.bytes
  downloaded := article.downloaded
  dataBegin := article.dataBegin
  dataSize := article.dataSize
  crc32 := article.crc32
  triedServers := article.triedServers
  tries := article.tries

def checkpointForJob (job : NzbJob) : JobCheckpoint where
  files := collect (job.files.map fun file =>
    (file.filename, (file.articles.filter Article.downloaded).map Article.segmentNumber))
  downloadedBytes := job.downloadedBytes
  articlesDownloaded := job.articlesDownloaded
  articlesFailed := job.articlesFailed
  filesCompleted := job.filesCompleted
  articles := collect (job.files.map fun file =>
    (file.filename, file.articles.map checkpointArticle))
  downloadTime := 0
  carriedBytes := 0
  serverStats := job.serverStats

/-- Also gives the time and the bytes that the job had before. -/
def restoreCheckpointAccounting (job : NzbJob) (checkpoint : JobCheckpoint) : NzbJob × ℕ × UInt64 :=
  ({ job with serverStats := checkpoint.serverStats },
    checkpoint.downloadTime, checkpoint.carriedBytes)

def saturatingAdd (total bytes : UInt64) : UInt64 :=
  .ofNat (min (total.toNat + bytes.toNat) (2 ^ 64 - 1))

def restoreArticle (outcomes : Option (List ArticleCheckpoint)) (segments : Option (List ℕ))
    (article : Article) : Article :=
  match outcomes.bind fun items => items.find? fun item =>
      item.messageId = article.messageId || item.segmentNumber = article.segmentNumber with
  | some outcome =>
      { article with
        downloaded := outcome.downloaded
        dataBegin := outcome.dataBegin
        dataSize := outcome.dataSize
        crc32 := outcome.crc32
        triedServers := outcome.triedServers
        tries := outcome.tries }
  | none =>
      if segments.any fun items => items.contains article.segmentNumber then
        { article with downloaded := true }
      else article

def recordedBytes (articles : List Article) : UInt64 :=
  articles.foldl (fun total article =>
    if article.downloaded then saturatingAdd total (article.dataSize.getD article.bytes)
    else total) 0

def restoreFile (checkpoint : JobCheckpoint) (file : NzbFile) : NzbFile :=
  let outcomes := checkpoint.articles.lookup file.filename
  let segments := (checkpoint.files.lookup file.filename).or (checkpoint.files.lookup file.id)
  let articles := file.articles.map (restoreArticle outcomes segments)
  { file with
    articles := articles
    bytesDownloaded := recordedBytes articles
    assembled := articles.all Article.downloaded }

def applyCheckpoint (job : NzbJob) (checkpoint : JobCheckpoint) : NzbJob :=
  { job with
    downloadedBytes := checkpoint.downloadedBytes
    articlesDownloaded := checkpoint.articlesDownloaded
    articlesFailed := checkpoint.articlesFailed
    filesCompleted := checkpoint.filesCompleted
    files := job.files.map (restoreFile checkpoint) }

end Rustnzb.Web.Resume
