import Rustnzb.Web.Rss.Monitor

/-!
# An entry is enqueued once while its feed lists it

The monitor is to enqueue no entry again that its feed has kept listing, and to try an entry again
that it could not enqueue. It remembers what it enqueued by the mark of a row only.
-/

namespace Rustnzb.Web.Rss

open Lib (Since Throughout)
open Lib (Run execute)

/-! ## What the log says -/

def HeldBy (feed : FeedKey) (id : String) : List RssEvent → Prop :=
  Since
    (fun event => ∀ listed accepted, event = .polled feed listed accepted → id ∈ listed)
    fun event _ => event = .tried feed id .enqueued

def FailedLast (id : String) : List RssEvent → Prop :=
  Since (fun event => ∀ feed outcome, event ≠ .tried feed id outcome)
    fun event _ => ∃ feed, event = .tried feed id .failed

/-- The last check has accepted an entry whose last try before had failed, and has not tried it. -/
def Owed (id : String) : List RssEvent → Prop :=
  Since
    (fun event => (∀ feed outcome, event ≠ .tried feed id outcome) ∧
      ∀ feed listed accepted, event ≠ .polled feed listed accepted)
    fun event older => ∃ feed listed accepted, event = .polled feed listed accepted ∧
      id ∈ accepted ∧ FailedLast id older

def Lawful (event : RssEvent) (older : List RssEvent) : Prop :=
  match event with
  | .polled _ _ _ => ∀ id, ¬Owed id older
  | .tried _ id .enqueued => ∀ feed, ¬HeldBy feed id older
  | .tried _ _ _ => True

/-- No entry is enqueued that a feed has enqueued before and listed ever since, and a check has
tried again what it accepted and what had failed. -/
structure Once (log : List RssEvent) : Prop where
  once : ∀ newer feed id older, log = newer ++ .tried feed id .enqueued :: older →
    ∀ first, ¬HeldBy first id older
  retried : ∀ newer feed listed accepted older,
    log = newer ++ .polled feed listed accepted :: older → ∀ id, ¬Owed id older

section Log

variable {feed other : FeedKey} {id tried : String} {listed accepted : List String}
  {outcome : Outcome} {log : List RssEvent}

@[simp]
theorem heldBy_polled :
    HeldBy feed id (.polled other listed accepted :: log) ↔
      (other = feed → id ∈ listed) ∧ HeldBy feed id log := by
  simp only [HeldBy, Lib.since_cons, reduceCtorEq, false_or, RssEvent.polled.injEq]
  refine and_congr_left fun _ => ⟨fun all same => all _ _ ⟨same, rfl, rfl⟩, ?_⟩
  rintro all _ _ ⟨same, rfl, rfl⟩
  exact all same

@[simp]
theorem heldBy_tried :
    HeldBy feed id (.tried other tried outcome :: log) ↔
      (other = feed ∧ tried = id ∧ outcome = .enqueued) ∨ HeldBy feed id log := by
  simp [HeldBy]

@[simp]
theorem failedLast_polled :
    FailedLast id (.polled other listed accepted :: log) ↔ FailedLast id log := by
  simp [FailedLast]

@[simp]
theorem failedLast_tried :
    FailedLast id (.tried other tried outcome :: log) ↔
      (tried = id ∧ outcome = .failed) ∨ (tried ≠ id ∧ FailedLast id log) := by
  simp [FailedLast]

@[simp]
theorem owed_polled :
    Owed id (.polled other listed accepted :: log) ↔ id ∈ accepted ∧ FailedLast id log := by
  simp [Owed]

@[simp]
theorem owed_tried :
    Owed id (.tried other tried outcome :: log) ↔ tried ≠ id ∧ Owed id log := by
  simp [Owed]

theorem Once.of_lawful (lawful : Throughout Lawful log) : Once log := by
  rw [Lib.throughout_iff] at lawful
  exact ⟨fun newer feed id older whole => lawful newer _ older whole,
    fun newer feed listed accepted older whole => lawful newer _ older whole⟩

end Log

/-! ## The condition -/

namespace Monitor

def FirstAccepted (poll : Poll) (rest : List RssItem) (id : String) : Prop :=
  ∃ item, rest.find? (fun item => item.url.isSome && item.id = id) = some item ∧
    poll.accepts item = true

/-- The step drops no row of an entry that its feed has listed since it was enqueued. -/
def Keeps (monitor : Monitor) (items : Items) : Prop :=
  ∀ item ∈ monitor.items, ∀ feed, HeldBy feed item.id monitor.log → item ∈ items

/-- The step loses neither a mark nor a try that is due. -/
def Kept (monitor : Monitor) : RssStep → Prop
  | .check poll => ∀ item ∈ poll.pending, poll.accepts item = true →
      (poll.unread item.id = true → ¬monitor.items.Downloaded item.id) ∧
        (FailedLast item.id monitor.log → FirstAccepted poll poll.pending item.id)
  | .entry _ => True
  | .mark _ fails => ∀ check id category, monitor.checking = some check →
      check.unmarked = some (id, category, .enqueued) → fails = false ∧ monitor.items.Has id
  | .finish => True
  | .pruneItems limit expiryDays now keep =>
      monitor.Keeps (pruneItems monitor.items limit expiryDays now keep)
  | .applyHistoryLimit _ keep => monitor.Keeps (monitor.items.prune keep)
  | .restart => (∀ check id category, monitor.checking = some check →
      check.unmarked ≠ some (id, category, .enqueued)) ∧ ∀ id, ¬Owed id monitor.log

/-! ## The invariant -/

/-- A check knows what it must not try, and finds what it still owes. -/
structure CheckSound (monitor : Monitor) (check : Check) : Prop where
  unmarked : ∀ id category outcome, check.unmarked = some (id, category, outcome) →
    id ∈ check.handledIds ∧ ¬FailedLast id monitor.log
  known : ∀ item ∈ check.rest, check.poll.accepts item = true →
    monitor.items.Downloaded item.id →
      item.id ∈ check.downloadedIds ∨ item.id ∈ check.handledIds
  owed : ∀ id, Owed id monitor.log → id ∉ check.downloadedIds ∧ id ∉ check.handledIds ∧
    FirstAccepted check.poll check.rest id

structure Sound (monitor : Monitor) : Prop where
  distinct : monitor.items.Distinct
  lawful : Throughout Lawful monitor.log
  held : ∀ feed id, HeldBy feed id monitor.log → monitor.items.Downloaded id ∨
    ∃ check category, monitor.checking = some check ∧
      check.unmarked = some (id, category, .enqueued)
  failed : ∀ id, FailedLast id monitor.log → ¬monitor.items.Downloaded id
  idle : monitor.checking = none → ∀ id, ¬Owed id monitor.log
  checking : ∀ check, monitor.checking = some check → CheckSound monitor check

variable {monitor next : Monitor}

theorem sound_start {items : Items} (distinct : items.Distinct) : Sound (start items) where
  distinct := distinct
  lawful := trivial
  held _ _ held := held.elim
  failed _ failed := failed.elim
  idle _ _ owed := owed.elim
  checking check here := by cases here

theorem downloaded_pending (poll : Poll) : ∀ item ∈ poll.pending, item.downloaded = false := by
  intro item here
  rcases List.mem_map.mp here with ⟨entry, -, rfl⟩
  rfl

theorem Sound.check (sound : Sound monitor) {poll : Poll} (idle : monitor.checking = none)
    (kept : monitor.Kept (.check poll)) : Sound (monitor.check poll) := by
  have marks : ∀ id, (monitor.check poll).items.Downloaded id ↔ monitor.items.Downloaded id := by
    intro id
    unfold Monitor.check
    split
    · rfl
    · exact Items.downloaded_batchUpsert (downloaded_pending poll)
  constructor
  case distinct =>
    unfold Monitor.check
    split
    · exact sound.distinct
    · exact Items.distinct_batchUpsert sound.distinct _
  case lawful => exact ⟨sound.idle idle, sound.lawful⟩
  case held =>
    intro feed id held
    rcases sound.held feed id (heldBy_polled.mp held).2 with marked | ⟨check, _, here, _⟩
    · exact .inl ((marks id).mpr marked)
    · rw [idle] at here
      cases here
  case failed =>
    intro id failed
    rw [marks]
    exact sound.failed id (failedLast_polled.mp failed)
  case idle => exact fun none => nomatch none
  case checking =>
    rintro _ ⟨⟩
    refine ⟨fun _ _ _ none => (nomatch none), ?_, ?_⟩
    · intro item here accepts marked
      left
      have before := (marks item.id).mp marked
      rcases Items.get_of_downloaded sound.distinct before with ⟨row, found, isMarked⟩
      have read : poll.unread item.id = false := by
        by_contra unread
        exact (kept item here accepts).1 (by simpa using unread) before
      refine List.mem_map.mpr ⟨item, List.mem_filter.mpr ⟨here, ?_⟩, rfl⟩
      simp [Poll.seesDownloaded, read, found, isMarked]
    · intro id owed
      rcases owed_polled.mp owed with ⟨accepted, failed⟩
      rcases List.mem_map.mp accepted with ⟨item, inAccepted, rfl⟩
      rcases List.mem_filter.mp inAccepted with ⟨here, accepts⟩
      refine ⟨?_, List.not_mem_nil, (kept item here accepts).2 failed⟩
      intro known
      rcases List.mem_map.mp known with ⟨row, inDownloaded, same⟩
      have sees := (List.mem_filter.mp inDownloaded).2
      simp only [Poll.seesDownloaded, Bool.and_eq_true, Option.any_eq_true] at sees
      rcases sees with ⟨-, stored, found, isMarked⟩
      refine sound.failed item.id failed ?_
      rw [← same]
      exact Items.downloaded_of_get found isMarked

theorem find?_tail {item : RssItem} {rest : List RssItem} {id : String}
    (passed : item.url = none ∨ item.id ≠ id) :
    (item :: rest).find? (fun item => item.url.isSome && item.id = id) =
      rest.find? fun item => item.url.isSome && item.id = id := by
  rw [List.find?_cons_of_neg]
  rcases passed with none | other
  · simp [none]
  · simp [other]

theorem CheckSound.pass {check : Check} (sound : CheckSound monitor check) {item : RssItem}
    {rest : List RssItem} (shape : check.rest = item :: rest) (handled : List String)
    (more : ∀ id ∈ check.handledIds, id ∈ handled) (unmarked : check.unmarked = none)
    (passed : ∀ id, Owed id monitor.log → (item.url = none ∨ item.id ≠ id) ∧ id ∉ handled) :
    CheckSound monitor { check with rest := rest, handledIds := handled } where
  unmarked id category outcome here := by
    rw [unmarked] at here
    cases here
  known other here accepts marked := by
    have inRest : other ∈ check.rest := by
      rw [shape]
      exact List.mem_cons_of_mem _ here
    exact (sound.known other inRest accepts marked).imp_right (more _)
  owed id isOwed := by
    rcases sound.owed id isOwed with ⟨notDownloaded, -, first, found, accepts⟩
    refine ⟨notDownloaded, (passed id isOwed).2, first, ?_, accepts⟩
    rw [shape, find?_tail (passed id isOwed).1] at found
    exact found

theorem entry_cases (monitor : Monitor) (check : Check) (item : RssItem) (outcome : Outcome) :
    ((item.url = none ∨ item.id ∈ check.downloadedIds ∨ item.id ∈ check.handledIds) ∧
      monitor.entry check item outcome =
        { monitor with checking := some { check with rest := check.rest.tail } }) ∨
    (check.poll.accepts item = false ∧ item.url.isSome ∧
      monitor.entry check item outcome =
        { monitor with
          checking := some { check with
            rest := check.rest.tail, handledIds := item.id :: check.handledIds } }) ∨
    (∃ category, check.poll.accepts item = true ∧ item.id ∉ check.downloadedIds ∧
      item.id ∉ check.handledIds ∧
      monitor.entry check item outcome =
        { monitor with
          checking := some { check with
            rest := check.rest.tail
            handledIds := item.id :: check.handledIds
            unmarked := if outcome = .failed then none else some (item.id, category, outcome) }
          log := .tried (key check.poll.feed) item.id outcome :: monitor.log }) := by
  cases url : item.url with
  | none => exact .inl ⟨.inl rfl, by simp [Monitor.entry, url]⟩
  | some link =>
      by_cases known : item.id ∈ check.downloadedIds ∨ item.id ∈ check.handledIds
      · exact .inl ⟨.inr known, by simp only [Monitor.entry, url, if_pos known]⟩
      · right
        simp only [not_or] at known
        cases target : check.poll.target item with
        | none => exact .inl (by simp [Monitor.entry, Poll.accepts, url, known, target])
        | some pair =>
            exact .inr ⟨pair.1, by simp [Monitor.entry, Poll.accepts, url, known, target]⟩

theorem Sound.entry (sound : Sound monitor) {check : Check} {item : RssItem} {rest : List RssItem}
    (checking : monitor.checking = some check) (unmarked : check.unmarked = none)
    (shape : check.rest = item :: rest) (outcome : Outcome) :
    Sound (monitor.entry check item outcome) := by
  have checkSound := sound.checking check checking
  have tail : check.rest.tail = rest := by rw [shape, List.tail_cons]
  have held : ∀ feed id, HeldBy feed id monitor.log → monitor.items.Downloaded id := by
    intro feed id held
    rcases sound.held feed id held with marked | ⟨other, category, here, pending⟩
    · exact marked
    · rw [checking] at here
      cases here
      rw [unmarked] at pending
      cases pending
  rcases entry_cases monitor check item outcome with
    ⟨skips, result⟩ | ⟨refused, link, result⟩ |
      ⟨category, accepts, notDownloaded, notHandled, result⟩
  · have passed : CheckSound monitor { check with rest := rest } := by
      refine checkSound.pass shape check.handledIds (fun _ => id) unmarked fun id owed => ?_
      rcases checkSound.owed id owed with ⟨notDownloaded, notHandled, -⟩
      refine ⟨?_, notHandled⟩
      rcases skips with noUrl | downloaded | handled
      · exact .inl noUrl
      · exact .inr fun same => notDownloaded (same ▸ downloaded)
      · exact .inr fun same => notHandled (same ▸ handled)
    rw [result, tail]
    exact { sound with
      held := fun feed id isHeld => .inl (held feed id isHeld)
      idle := fun none => (nomatch none)
      checking := by rintro _ ⟨⟩; exact ⟨passed.unmarked, passed.known, passed.owed⟩ }
  · have passed : CheckSound monitor
        { check with rest := rest, handledIds := item.id :: check.handledIds } := by
      refine checkSound.pass shape _ (fun _ => List.mem_cons_of_mem _) unmarked fun id owed => ?_
      rcases checkSound.owed id owed with ⟨-, notHandled, first, found, firstAccepted⟩
      -- The first entry of an id that is owed is accepted, so this one is of another id.
      have other : item.id ≠ id := by
        rintro rfl
        rw [shape, List.find?_cons_of_pos (by simp [link])] at found
        cases found
        rw [refused] at firstAccepted
        cases firstAccepted
      refine ⟨.inr other, ?_⟩
      simp [notHandled, Ne.symm other]
    rw [result, tail]
    exact { sound with
      held := fun feed id isHeld => .inl (held feed id isHeld)
      idle := fun none => (nomatch none)
      checking := by rintro _ ⟨⟩; exact ⟨passed.unmarked, passed.known, passed.owed⟩ }
  · have here : item ∈ check.rest := by
      rw [shape]
      exact List.mem_cons_self
    have notMarked : ¬monitor.items.Downloaded item.id := by
      intro marked
      exact (checkSound.known item here accepts marked).elim notDownloaded notHandled
    rw [result, tail]
    constructor
    case distinct => exact sound.distinct
    case lawful =>
      refine ⟨?_, sound.lawful⟩
      cases outcome with
      | enqueued => exact fun feed isHeld => notMarked (held feed item.id isHeld)
      | duplicate => trivial
      | failed => trivial
    case held =>
      intro feed id isHeld
      rcases heldBy_tried.mp isHeld with ⟨-, same, rfl⟩ | before
      · exact .inr ⟨_, category, rfl, by simp [same]⟩
      · exact .inl (held feed id before)
    case failed =>
      intro id failed
      rcases failedLast_tried.mp failed with ⟨rfl, -⟩ | ⟨-, before⟩
      · exact notMarked
      · exact sound.failed id before
    case idle => exact fun none => nomatch none
    case checking =>
      rintro _ ⟨⟩
      refine ⟨?_, ?_, ?_⟩
      · intro id category outcome' pending
        simp only [Option.ite_none_left_eq_some] at pending
        rcases pending with ⟨notFailed, pair⟩
        cases pair
        refine ⟨List.mem_cons_self, ?_⟩
        simp [notFailed]
      · intro other inRest otherAccepts marked
        have inCheck : other ∈ check.rest := by
          rw [shape]
          exact List.mem_cons_of_mem _ inRest
        exact (checkSound.known other inCheck otherAccepts marked).imp_right
          (List.mem_cons_of_mem _)
      · intro id owed
        rcases owed_tried.mp owed with ⟨other, before⟩
        rcases checkSound.owed id before with ⟨unknown, unhandled, first, found, firstAccepted⟩
        rw [shape, find?_tail (.inr other)] at found
        refine ⟨unknown, ?_, first, found, firstAccepted⟩
        simp [unhandled, Ne.symm other]

theorem Sound.mark (sound : Sound monitor) {check : Check} {id : String} {category : Option String}
    {outcome : Outcome} (checking : monitor.checking = some check)
    (unmarked : check.unmarked = some (id, category, outcome)) {now : ℕ} {fails : Bool}
    (kept : monitor.Kept (.mark now fails)) : Sound (monitor.mark check id category now fails) := by
  have checkSound := sound.checking check checking
  rcases checkSound.unmarked id category outcome unmarked with ⟨handled, notFailed⟩
  have marks : ∀ other, (monitor.mark check id category now fails).items.Downloaded other →
      monitor.items.Downloaded other ∨ other = id := by
    intro other marked
    unfold Monitor.mark at marked
    split at marked
    · exact .inl marked
    · exact (Items.downloaded_markDownloaded.mp marked).imp_right And.left
  have stays : ∀ other, monitor.items.Downloaded other →
      (monitor.mark check id category now fails).items.Downloaded other := by
    intro other marked
    unfold Monitor.mark
    split
    · exact marked
    · exact Items.downloaded_markDownloaded.mpr (.inl marked)
  constructor
  case distinct =>
    unfold Monitor.mark
    split
    · exact sound.distinct
    · exact Items.distinct_markDownloaded sound.distinct
  case lawful => exact sound.lawful
  case held =>
    intro feed other held
    left
    rcases sound.held feed other held with marked | ⟨current, category', here, pending⟩
    · exact stays other marked
    · rcases kept current other category' here pending with ⟨rfl, has⟩
      rw [checking] at here
      cases here
      rw [unmarked] at pending
      cases pending
      exact Items.downloaded_markDownloaded.mpr (.inr ⟨rfl, has⟩)
  case failed =>
    intro other failed marked
    rcases marks other marked with before | rfl
    · exact sound.failed other failed before
    · exact notFailed failed
  case idle => exact fun none => nomatch none
  case checking =>
    rintro _ ⟨⟩
    refine ⟨fun _ _ _ none => (nomatch none), ?_, checkSound.owed⟩
    intro item here accepts marked
    rcases marks item.id marked with before | same
    · exact checkSound.known item here accepts before
    · exact .inr (same ▸ handled)

theorem Sound.drop (sound : Sound monitor) {items : Items} (sublist : items.Sublist monitor.items)
    (keeps : monitor.Keeps items) : Sound { monitor with items := items } where
  distinct := sound.distinct.sublist (sublist.map _)
  lawful := sound.lawful
  held feed id held := by
    refine (sound.held feed id held).imp_left ?_
    rintro ⟨item, here, rfl, marked⟩
    exact ⟨item, keeps item here feed held, rfl, marked⟩
  failed id failed := by
    rintro ⟨item, here, same, marked⟩
    exact sound.failed id failed ⟨item, sublist.subset here, same, marked⟩
  idle := sound.idle
  checking check here := by
    have checkSound := sound.checking check here
    refine ⟨checkSound.unmarked, ?_, checkSound.owed⟩
    rintro item inRest accepts ⟨row, inItems, same, marked⟩
    exact checkSound.known item inRest accepts ⟨row, sublist.subset inItems, same, marked⟩

theorem sublist_pruneItems (items : Items) (limit expiryDays : Option ℕ) (now : ℕ)
    (keep : List String) : (pruneItems items limit expiryDays now keep).Sublist items := by
  have pruned : ((if historyLimit limit < items.length then items.prune keep else items) : Items)
      |>.Sublist items := by
    split
    · exact List.filter_sublist
    · exact List.Sublist.refl _
  cases expiryDays with
  | none => exact pruned
  | some days => exact List.filter_sublist.trans pruned

theorem Sound.step (sound : Sound monitor) {label : RssStep} (kept : monitor.Kept label)
    (move : Step monitor label next) : Sound next := by
  cases label with
  | check poll =>
      simp only [Step, Monitor.step, Option.isNone_iff_eq_none] at move
      split at move
      next idle =>
        cases move
        exact sound.check idle kept
      · cases move
  | entry outcome =>
      simp only [Step, Monitor.step] at move
      split at move
      next check checking =>
        split at move
        next item rest unmarked shape =>
          cases move
          exact sound.entry checking unmarked shape outcome
        · cases move
      · cases move
  | mark now fails =>
      simp only [Step, Monitor.step] at move
      split at move
      next check checking =>
        split at move
        next id category outcome unmarked =>
          cases move
          exact sound.mark checking unmarked kept
        · cases move
      · cases move
  | finish =>
      simp only [Step, Monitor.step] at move
      split at move
      next check checking =>
        split at move
        next ended =>
          cases move
          simp only [Bool.and_eq_true, List.isEmpty_iff, Option.isNone_iff_eq_none] at ended
          have owed : ∀ id, ¬Owed id monitor.log := by
            intro id owed
            rcases ((sound.checking check checking).owed id owed).2.2 with ⟨item, found, -⟩
            rw [ended.1] at found
            cases found
          exact { sound with
            held := fun feed id held => by
              refine (sound.held feed id held).imp_right ?_
              rintro ⟨current, category, here, pending⟩
              rw [checking] at here
              cases here
              rw [ended.2] at pending
              cases pending
            idle := fun _ => owed
            checking := fun _ here => (nomatch here) }
        · cases move
      · cases move
  | pruneItems limit expiryDays now keep =>
      rcases Option.ite_none_right_eq_some.mp move with ⟨-, result⟩
      cases result
      exact sound.drop (sublist_pruneItems _ _ _ _ _) kept
  | applyHistoryLimit limit keep =>
      rcases Option.ite_none_right_eq_some.mp move with ⟨-, result⟩
      cases result
      exact sound.drop List.filter_sublist kept
  | restart =>
      cases move
      exact { sound with
        held := fun feed id held => by
          refine (sound.held feed id held).imp_right ?_
          rintro ⟨check, category, here, pending⟩
          exact absurd pending (kept.1 check id category here)
        idle := fun _ => kept.2
        checking := fun _ here => (nomatch here) }

/-- In a run that keeps the marks of the entries still listed, no entry is enqueued again that its
feed has kept listing, and every entry that could not be enqueued is tried again. -/
theorem once_of_kept {items : Items} (distinct : items.Distinct) {labels : List RssStep}
    (run : Run Step (start items) labels monitor)
    (kept : Run.Always Step (start items) (fun _ => Kept) labels) : Once monitor.log := by
  have sound : Sound monitor :=
    run.invariant_of_steps (fun _ => Sound) kept (sound_start distinct)
      fun _ _ _ _ _ sound kept move => sound.step kept move
  exact Once.of_lawful sound.lawful

/-! ## Runs -/

/-- A check that reads and accepts all it lists, a mark that is written, and a prune that drops
nothing. -/
def calm (monitor : Monitor) : RssStep → Bool
  | .check poll => poll.pending.all fun item => !poll.unread item.id &&
      (poll.pending.find? fun other => other.url.isSome && other.id = item.id).any poll.accepts
  | .entry _ => true
  | .mark _ fails => !fails && monitor.checking.all fun check =>
      check.unmarked.all fun unmarked => unmarked.1 ∈ monitor.items.map RssItem.id
  | .finish => true
  | .pruneItems limit expiryDays now keep =>
      pruneItems monitor.items limit expiryDays now keep = monitor.items
  | .applyHistoryLimit _ keep => monitor.items.prune keep = monitor.items
  | .restart => false

def calmStep (monitor : Monitor) (label : RssStep) : Option Monitor :=
  if monitor.calm label then monitor.step label else none

theorem kept_of_calm {label : RssStep} (calm : monitor.calm label = true) : monitor.Kept label := by
  cases label with
  | check poll =>
      intro item here _
      have each := List.all_eq_true.mp calm item here
      simp only [Bool.and_eq_true, Bool.not_eq_true', Option.any_eq_true] at each
      rcases each with ⟨read, first, found, accepts⟩
      exact ⟨fun unread => by simp [read] at unread, fun _ => ⟨first, found, accepts⟩⟩
  | entry outcome => trivial
  | mark now fails =>
      intro check id category checking unmarked
      simp only [Monitor.calm, checking, Option.all_some, unmarked, Bool.and_eq_true,
        Bool.not_eq_true', decide_eq_true_eq] at calm
      exact calm
  | finish => trivial
  | pruneItems limit expiryDays now keep =>
      intro item here _ _
      rw [of_decide_eq_true calm]
      exact here
  | applyHistoryLimit limit keep =>
      intro item here _ _
      rw [of_decide_eq_true calm]
      exact here
  | restart => cases calm

theorem step_functional (monitor : Monitor) (label : RssStep) (next other : Monitor)
    (move : Step monitor label next) (again : Step monitor label other) : next = other :=
  Option.some.inj (move.symm.trans again)

theorem kept_calmStep (monitor : Monitor) (label : RssStep) (next : Monitor)
    (move : monitor.calmStep label = some next) : Step monitor label next ∧ monitor.Kept label := by
  rcases Option.ite_none_right_eq_some.mp move with ⟨calm, step⟩
  exact ⟨step, kept_of_calm calm⟩

def feed : RssFeedConfig := ⟨"tv", "https://indexer/rss", none, true, none⟩

def poll (now : ℕ) : Poll where
  feed := feed
  now := now
  entries := [⟨"a", "Show", some "https://indexer/a.nzb", 0, none⟩]
  filter := fun _ => true
  ruleList := []
  unread := fun _ => false
  insertFails := false

def triedTwice : List RssStep :=
  [.check (poll 0), .entry .failed, .finish, .check (poll 900), .entry .enqueued, .mark 901 false,
    .finish, .pruneItems none (some 30) 902 [], .check (poll 1800), .entry .enqueued, .finish]

theorem once_of_kept_triedTwice : ∃ monitor, Run Step (start []) triedTwice monitor ∧
    monitor.items.length = 1 ∧ Once monitor.log := by
  have ends : (execute calmStep (start []) triedTwice).map (·.items.length) = some 1 := by decide
  rcases Option.map_eq_some_iff.mp ends with ⟨monitor, executed, one⟩
  rcases Run.always_of_execute step_functional kept_calmStep Run.start Run.Always.nil executed with
    ⟨run, kept⟩
  have distinct : Items.Distinct [] := List.nodup_nil
  exact ⟨monitor, run, one, once_of_kept distinct run kept⟩

/-- Downloaded items are never to be forgotten: the expiry is set to zero days. -/
def forgotten : List RssStep :=
  [.check (poll 0), .entry .enqueued, .mark 1 false, .finish, .pruneItems none (some 0) 2 [],
    .check (poll 900), .entry .enqueued]

theorem not_once_forgotten : ∃ monitor, Run Step (start []) forgotten monitor ∧
    ¬Once monitor.log := by
  have ends : (execute step (start []) forgotten).map Monitor.log =
      some [.tried (key feed) "a" .enqueued, .polled (key feed) ["a"] ["a"],
        .tried (key feed) "a" .enqueued, .polled (key feed) ["a"] ["a"]] := by decide
  rcases Option.map_eq_some_iff.mp ends with ⟨monitor, executed, log⟩
  refine ⟨monitor, Run.of_execute (fun _ _ _ move => move) .start executed, ?_⟩
  intro once
  exact once.once [] (key feed) "a" _ log (key feed) (by simp)

end Monitor

end Rustnzb.Web.Rss
