import Mathlib.Tactic

/-!
# The table of RSS items

What the monitor remembers of the entries of its feeds: one row for an id, with the mark that the
entry was downloaded. Times are seconds; they are only compared. Of several rows with one time the
database may keep any, so a prune is told which rows it keeps.
-/

namespace Rustnzb.Web.Rss

structure RssItem where
  id : String
  feedName : String
  title : String
  url : Option String
  publishedAt : Option ℕ
  firstSeenAt : ℕ
  downloaded : Bool
  downloadedAt : Option ℕ
  category : Option String
  sizeBytes : ℕ
  deriving DecidableEq

abbrev Items := List RssItem

namespace Items

def get (items : Items) (id : String) : Option RssItem :=
  items.find? fun item => item.id = id

def insertOrIgnore (items : Items) (item : RssItem) : Items :=
  if item.id ∈ items.map RssItem.id then items else items ++ [item]

def batchUpsert (items : Items) (batch : List RssItem) : Items :=
  batch.foldl insertOrIgnore items

def markDownloaded (items : Items) (id : String) (category : Option String) (now : ℕ) : Items :=
  items.map fun item =>
    if item.id = id then
      { item with downloaded := true, downloadedAt := some now, category := category }
    else item

/-- The rows with these ids may be the newest ones, up to a number. -/
def Newest (items : Items) (count : ℕ) (keep : List String) : Prop :=
  (items.filter fun item => item.id ∈ keep).length = min count items.length ∧
    ∀ kept ∈ items, kept.id ∈ keep → ∀ dropped ∈ items, dropped.id ∉ keep →
      dropped.firstSeenAt ≤ kept.firstSeenAt

instance (items : Items) (count : ℕ) (keep : List String) :
    Decidable (items.Newest count keep) :=
  inferInstanceAs (Decidable (_ ∧ _))

def prune (items : Items) (keep : List String) : Items :=
  items.filter fun item => item.id ∈ keep

def expireDownloaded (items : Items) (cutoff : ℕ) : Items :=
  items.filter fun item =>
    !(item.downloaded && item.downloadedAt.any fun downloadedAt => downloadedAt < cutoff)

def Downloaded (items : Items) (id : String) : Prop :=
  ∃ item ∈ items, item.id = id ∧ item.downloaded = true

def Has (items : Items) (id : String) : Prop :=
  id ∈ items.map RssItem.id

def Distinct (items : Items) : Prop :=
  (items.map RssItem.id).Nodup

section

variable {items : Items} {id : String}

theorem distinct_insertOrIgnore {item : RssItem} (distinct : items.Distinct) :
    (items.insertOrIgnore item).Distinct := by
  unfold insertOrIgnore
  split
  · exact distinct
  next unknown =>
    rw [Distinct, List.map_append, List.nodup_append]
    refine ⟨distinct, List.nodup_singleton _, ?_⟩
    rintro known here _ isNew rfl
    exact unknown (List.mem_singleton.mp isNew ▸ here)

theorem distinct_batchUpsert (distinct : items.Distinct) (batch : List RssItem) :
    (items.batchUpsert batch).Distinct := by
  induction batch generalizing items with
  | nil => exact distinct
  | cons item batch ih => exact ih (distinct_insertOrIgnore distinct)

theorem mem_insertOrIgnore {item known : RssItem} (here : known ∈ items) :
    known ∈ items.insertOrIgnore item := by
  unfold insertOrIgnore
  split
  · exact here
  · exact List.mem_append_left _ here

theorem mem_batchUpsert {known : RssItem} (here : known ∈ items) (batch : List RssItem) :
    known ∈ items.batchUpsert batch := by
  induction batch generalizing items with
  | nil => exact here
  | cons item batch ih => exact ih (mem_insertOrIgnore here)

theorem of_mem_insertOrIgnore {item known : RssItem} (here : known ∈ items.insertOrIgnore item) :
    known ∈ items ∨ known = item := by
  unfold insertOrIgnore at here
  split at here
  · exact .inl here
  · simpa using here

theorem of_mem_batchUpsert {known : RssItem} {batch : List RssItem}
    (here : known ∈ items.batchUpsert batch) : known ∈ items ∨ known ∈ batch := by
  induction batch generalizing items with
  | nil => exact .inl here
  | cons item batch ih =>
      rcases ih here with inside | inBatch
      · rcases of_mem_insertOrIgnore inside with known | rfl
        · exact .inl known
        · exact .inr List.mem_cons_self
      · exact .inr (List.mem_cons_of_mem _ inBatch)

theorem downloaded_batchUpsert {batch : List RssItem}
    (unmarked : ∀ item ∈ batch, item.downloaded = false) :
    (items.batchUpsert batch).Downloaded id ↔ items.Downloaded id := by
  constructor
  · rintro ⟨item, here, same, marked⟩
    rcases of_mem_batchUpsert here with known | isNew
    · exact ⟨item, known, same, marked⟩
    · rw [unmarked item isNew] at marked
      cases marked
  · rintro ⟨item, here, same, marked⟩
    exact ⟨item, mem_batchUpsert here batch, same, marked⟩

theorem downloaded_markDownloaded {other : String} {category : Option String} {now : ℕ} :
    (items.markDownloaded id category now).Downloaded other ↔
      items.Downloaded other ∨ (other = id ∧ items.Has id) := by
  constructor
  · rintro ⟨marked, here, same, isMarked⟩
    rcases List.mem_map.mp here with ⟨item, inItems, rfl⟩
    split at same
    next isId =>
      exact .inr ⟨same.symm.trans isId, List.mem_map.mpr ⟨item, inItems, isId⟩⟩
    next isOther =>
      rw [if_neg isOther] at isMarked
      exact .inl ⟨item, inItems, same, isMarked⟩
  · rintro (⟨item, here, same, marked⟩ | ⟨rfl, has⟩)
    · refine ⟨_, List.mem_map.mpr ⟨item, here, rfl⟩, ?_, ?_⟩
      · split <;> exact same
      · split
        · rfl
        · exact marked
    · rcases List.mem_map.mp has with ⟨item, here, same⟩
      exact ⟨_, List.mem_map.mpr ⟨item, here, rfl⟩, by simp [same]⟩

theorem distinct_markDownloaded {category : Option String} {now : ℕ} (distinct : items.Distinct) :
    (items.markDownloaded id category now).Distinct := by
  have ids : (items.markDownloaded id category now).map RssItem.id = items.map RssItem.id := by
    rw [markDownloaded, List.map_map]
    refine List.map_congr_left fun item _ => ?_
    by_cases same : item.id = id <;> simp [same]
  rw [Distinct, ids]
  exact distinct

theorem get_of_downloaded (distinct : items.Distinct) (marked : items.Downloaded id) :
    ∃ item, items.get id = some item ∧ item.downloaded = true := by
  rcases marked with ⟨item, here, same, isMarked⟩
  refine ⟨item, ?_, isMarked⟩
  induction items with
  | nil => cases here
  | cons first others ih =>
      rw [Distinct, List.map_cons, List.nodup_cons] at distinct
      rcases List.mem_cons.mp here with rfl | inOthers
      · simp [get, same]
      · have other : first.id ≠ id := by
          intro isId
          exact distinct.1 (List.mem_map.mpr ⟨item, inOthers, same.trans isId.symm⟩)
        rw [get, List.find?_cons_of_neg (by simpa using other)]
        exact ih distinct.2 inOthers

theorem downloaded_of_get {item : RssItem} (found : items.get id = some item)
    (marked : item.downloaded = true) : items.Downloaded id :=
  ⟨item, List.mem_of_find?_eq_some found, by simpa using List.find?_some found, marked⟩

end

end Items

end Rustnzb.Web.Rss
