import Rustnzb.Lib.Run
import Rustnzb.Lib.Since
import Rustnzb.Web.Rss.ItemStore

/-!
# The RSS monitor

A check of a feed looks its entries up, stores their rows, and then goes through them one by one:
it fetches and enqueues an entry, and marks its row. In between, the settings may prune the table
at any time, and the process may stop. The network, the filter and the rules of a check and what
becomes of a fetch are inputs, and so is what the database fails at. The legacy list of seen
entries is left out: a run starts with any table. The log is a ghost field.
-/

namespace Rustnzb.Web.Rss

structure RssFeedConfig where
  name : String
  url : String
  category : Option String
  autoDownload : Bool
  maxAgeDays : Option ℕ

/-- A download rule, with its expression as the test it compiles to. -/
structure RssRule where
  feedNames : List String
  category : Option String
  priority : ℤ
  isMatch : String → Bool
  enabled : Bool

/-- An entry of a parsed feed, with the link to its NZB. -/
structure Entry where
  id : String
  title : String
  nzbUrl : Option String
  sizeBytes : ℕ
  publishedAt : Option ℕ

structure Poll where
  feed : RssFeedConfig
  now : ℕ
  entries : List Entry
  filter : String → Bool
  ruleList : List RssRule
  unread : String → Bool
  insertFails : Bool

def autoDownloadTarget (feed : RssFeedConfig) (matchedRule : Option RssRule) :
    Option (Option String × ℤ) :=
  match matchedRule with
  | some rule => some (rule.category.or feed.category, rule.priority)
  | none => if feed.autoDownload then some (feed.category, 1) else none

namespace Poll

variable (poll : Poll)

def rules : List RssRule :=
  poll.ruleList.filter fun rule =>
    rule.enabled && (rule.feedNames.isEmpty || rule.feedNames.any fun name => name = poll.feed.name)

def tooOld (entry : Entry) : Bool :=
  match poll.feed.maxAgeDays, entry.publishedAt with
  | some maxAgeDays, some publishedAt => maxAgeDays * 86400 < poll.now - publishedAt
  | _, _ => false

def item (entry : Entry) : RssItem where
  id := entry.id
  feedName := poll.feed.name
  title := entry.title
  url := entry.nzbUrl
  publishedAt := entry.publishedAt
  firstSeenAt := poll.now
  downloaded := false
  downloadedAt := none
  category := poll.feed.category
  sizeBytes := entry.sizeBytes

def pending : List RssItem :=
  (poll.entries.filter fun entry => !poll.tooOld entry).map poll.item

/-- The category and the priority of an entry that the filter and the rules accept. -/
def target (item : RssItem) : Option (Option String × ℤ) :=
  if poll.filter item.title then
    autoDownloadTarget poll.feed (poll.rules.find? fun rule => rule.isMatch item.title)
  else none

def seesDownloaded (items : Items) (id : String) : Bool :=
  !poll.unread id && (items.get id).any RssItem.downloaded

def downloadedIds (items : Items) : List String :=
  (poll.pending.filter fun item => poll.seesDownloaded items item.id).map RssItem.id

def accepts (item : RssItem) : Bool := item.url.isSome && (poll.target item).isSome

end Poll

/-- What becomes of `fetch_and_enqueue`. -/
inductive Outcome where
  | enqueued
  | duplicate
  | failed
  deriving DecidableEq

structure Check where
  poll : Poll
  downloadedIds : List String
  handledIds : List String
  rest : List RssItem
  unmarked : Option (String × Option String × Outcome)

structure FeedKey where
  name : String
  url : String
  deriving DecidableEq

inductive RssEvent where
  | polled (feed : FeedKey) (listed accepted : List String)
  | tried (feed : FeedKey) (id : String) (outcome : Outcome)
  deriving DecidableEq

structure Monitor where
  items : Items
  checking : Option Check
  log : List RssEvent

namespace Monitor

inductive RssStep where
  | check (poll : Poll)
  | entry (outcome : Outcome)
  | mark (now : ℕ) (fails : Bool)
  | finish
  | pruneItems (historyLimit expiryDays : Option ℕ) (now : ℕ) (keep : List String)
  | applyHistoryLimit (limit : ℕ) (keep : List String)
  | restart

def key (feed : RssFeedConfig) : FeedKey := ⟨feed.name, feed.url⟩

/-- `check_feed` up to its loop. -/
def check (monitor : Monitor) (poll : Poll) : Monitor where
  items := if poll.insertFails then monitor.items else monitor.items.batchUpsert poll.pending
  checking := some ⟨poll, poll.downloadedIds monitor.items, [], poll.pending, none⟩
  log := .polled (key poll.feed) (poll.entries.map Entry.id)
    ((poll.pending.filter poll.accepts).map RssItem.id) :: monitor.log

/-- One round of the loop of `check_feed`, up to the mark. -/
def entry (monitor : Monitor) (check : Check) (item : RssItem) (outcome : Outcome) : Monitor :=
  let skipped := { monitor with checking := some { check with rest := check.rest.tail } }
  match item.url with
  | none => skipped
  | some _ =>
      if item.id ∈ check.downloadedIds ∨ item.id ∈ check.handledIds then skipped
      else
        let check :=
          { check with rest := check.rest.tail, handledIds := item.id :: check.handledIds }
        match check.poll.target item with
        | none => { monitor with checking := some check }
        | some (category, _) =>
            { monitor with
              checking := some { check with
                unmarked := if outcome = .failed then none else some (item.id, category, outcome) }
              log := .tried (key check.poll.feed) item.id outcome :: monitor.log }

def mark (monitor : Monitor) (check : Check) (id : String) (category : Option String) (now : ℕ)
    (fails : Bool) : Monitor :=
  { monitor with
    items := if fails then monitor.items else monitor.items.markDownloaded id category now
    checking := some { check with unmarked := none } }

/-- The number of rows that `prune_items` keeps. -/
def historyLimit (limit : Option ℕ) : ℕ := limit.getD 500

def pruneItems (items : Items) (limit expiryDays : Option ℕ) (now : ℕ) (keep : List String) :
    Items :=
  let pruned := if historyLimit limit < items.length then items.prune keep else items
  match expiryDays with
  | none => pruned
  | some days => pruned.expireDownloaded (now - min days 36500 * 86400)

def step (monitor : Monitor) : RssStep → Option Monitor
  | .check poll => if monitor.checking.isNone then some (monitor.check poll) else none
  | .entry outcome =>
      match monitor.checking with
      | some check =>
          match check.unmarked, check.rest with
          | none, item :: _ => some (monitor.entry check item outcome)
          | _, _ => none
      | none => none
  | .mark now fails =>
      match monitor.checking with
      | some check =>
          match check.unmarked with
          | some (id, category, _) => some (monitor.mark check id category now fails)
          | none => none
      | none => none
  | .finish =>
      match monitor.checking with
      | some check =>
          if check.rest.isEmpty && check.unmarked.isNone then some { monitor with checking := none }
          else none
      | none => none
  | .pruneItems limit expiryDays now keep =>
      if historyLimit limit < monitor.items.length →
          monitor.items.Newest (historyLimit limit) keep then
        some { monitor with items := pruneItems monitor.items limit expiryDays now keep }
      else none
  | .applyHistoryLimit limit keep =>
      if monitor.items.Newest limit keep then
        some { monitor with items := monitor.items.prune keep }
      else none
  | .restart => some { monitor with checking := none }

def Step (monitor : Monitor) (label : RssStep) (next : Monitor) : Prop :=
  monitor.step label = some next

def start (items : Items) : Monitor := ⟨items, none, []⟩

end Monitor

end Rustnzb.Web.Rss
