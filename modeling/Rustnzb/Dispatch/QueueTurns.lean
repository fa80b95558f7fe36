import Rustnzb.Dispatch.WorkQueue
import Rustnzb.Lib.Turns

/-!
# The shared queue over a run of calls

Nothing gets lost in the queue and a pop takes what it may. It prefers another job than the last
one, which gives each of two jobs its turn. With a third one the item in front decides, and two
jobs whose items stand before its own can keep it waiting.
-/

namespace Rustnzb.Dispatch.SharedWorkQueue

open Lib (Serving)

inductive Call where
  | submitItems (items : List WorkItem)
  | pushFront (item : WorkItem)
  | pushBack (item : WorkItem)
  | drainJob (jobId : JobId)
  | takeWhere (predicate : WorkItem → Bool)
  | popWorkable (serverId : ServerId) (higherPriority : List ServerId)

/-- What a call puts into the queue. -/
def Call.given : Call → List WorkItem
  | .submitItems items => items
  | .pushFront item | .pushBack item => [item]
  | _ => []

def perform (queue : SharedWorkQueue) : Call → List WorkItem × SharedWorkQueue
  | .submitItems items => ([], queue.submitItems items)
  | .pushFront item => ([], queue.pushFront item)
  | .pushBack item => ([], queue.pushBack item)
  | .drainJob jobId => queue.drainJob jobId
  | .takeWhere predicate => queue.takeWhere predicate
  | .popWorkable serverId higherPriority =>
      match queue.popWorkable serverId higherPriority with
      | some (item, next) => ([item], next)
      | none => ([], queue)

def after (queue : SharedWorkQueue) (calls : List Call) : SharedWorkQueue :=
  calls.foldl (fun queue call => (queue.perform call).2) queue

/-- What the calls take out. -/
def taken (queue : SharedWorkQueue) : List Call → List WorkItem
  | [] => []
  | call :: calls => (queue.perform call).1 ++ taken (queue.perform call).2 calls

section Turns

variable (queue : SharedWorkQueue) (serverId : ServerId) (higherPriority : List ServerId)

/-- The jobs with an item that the server may take. -/
def waitingJobs : Finset JobId :=
  ((queue.items.filter (isEligible serverId higherPriority)).map WorkItem.jobId).toFinset

/-- The turn that a pop of the server gives. -/
def turn : Serving JobId where
  waiting := queue.waitingJobs serverId higherPriority
  served := (queue.popWorkable serverId higherPriority).map fun popped => popped.1.jobId

def turnAt : Call → List (Serving JobId)
  | .popWorkable server higherPriority =>
      if server = serverId then [queue.turn serverId higherPriority] else []
  | _ => []

def turns (queue : SharedWorkQueue) : List Call → List (Serving JobId)
  | [] => []
  | call :: calls => queue.turnAt serverId call ++ turns (queue.perform call).2 calls

/-- The first item the server may take of another job than it served last. -/
def InFront (item : WorkItem) : Prop :=
  ∃ front back, queue.items = front ++ item :: back ∧ isEligible serverId higherPriority item ∧
    queue.lastServed.lookup serverId ≠ some item.jobId ∧
    ∀ other ∈ front, isEligible serverId higherPriority other →
      queue.lastServed.lookup serverId = some other.jobId

/-- At each pop of the server, the item in front is of a job that has had no turn since another
job waits, as long as the same jobs have waited. -/
def InTurn : List (Serving JobId) → SharedWorkQueue → List Call → Prop
  | _, _, [] => True
  | earlier, queue, call :: calls =>
      (∀ higherPriority item, call = .popWorkable serverId higherPriority →
        queue.InFront serverId higherPriority item →
        ∀ jobId ∈ queue.waitingJobs serverId higherPriority,
          ¬Serving.Overtaken earlier (queue.waitingJobs serverId higherPriority) jobId item.jobId) ∧
      InTurn (earlier ++ queue.turnAt serverId call) (queue.perform call).2 calls

end Turns

/-- A queue whose items have the number of the call that submitted them, if none was returned. -/
structure Ticketed where
  queue : SharedWorkQueue
  tickets : List (WorkItem × Option ℕ)
  calls : ℕ

def Ticketed.perform (state : Ticketed) (call : Call) : Ticketed where
  queue := (state.queue.perform call).2
  calls := state.calls + 1
  tickets := match call with
    | .submitItems items =>
        state.tickets ++ (items.insertionSort fun left right =>
          par2SortKey left.filename ≤ par2SortKey right.filename).map
            fun item => (item, some state.calls)
    | .pushFront item => (item, none) :: state.tickets
    | .pushBack item => state.tickets ++ [(item, none)]
    | .drainJob jobId => state.tickets.filter fun ticket => ticket.1.jobId ≠ jobId
    | .takeWhere predicate => state.tickets.filter fun ticket => !predicate ticket.1
    | .popWorkable serverId higherPriority =>
        match state.queue.select serverId higherPriority with
        | some index => state.tickets.eraseIdx index
        | none => state.tickets

/-- The queue after a run from the empty one, with its tickets. -/
def ticketed (calls : List Call) : Ticketed := calls.foldl Ticketed.perform ⟨new, [], 0⟩

/-- What the queue promises after a run of calls. -/
structure ServesInTurn (calls : List Call) : Prop where
  workable : ∀ serverId higherPriority,
    ((new.after calls).popWorkable serverId higherPriority).isSome ↔
      ∃ item ∈ (new.after calls).items, serverId ∉ item.triedServers ∧
        ∀ server ∈ higherPriority, server ∈ item.triedServers
  takes : ∀ serverId higherPriority item next,
    (new.after calls).popWorkable serverId higherPriority = some (item, next) →
      (serverId ∉ item.triedServers ∧ ∀ server ∈ higherPriority, server ∈ item.triedServers) ∧
      ∃ front back, (new.after calls).items = front ++ item :: back ∧ next.items = front ++ back
  kept : (taken new calls ++ (new.after calls).items).Perm (calls.flatMap Call.given)
  inTurn : ∀ serverId, Serving.RoundRobin (turns serverId new calls) ∧
    Serving.Ordered (turns serverId new calls)
  tickets : (ticketed calls).tickets.map Prod.fst = (new.after calls).items
  par2First : ∀ serverId higherPriority item next,
    (new.after calls).popWorkable serverId higherPriority = some (item, next) →
      ∃ front ticket back, (ticketed calls).tickets = front ++ (item, ticket) :: back ∧
        (ticketed (calls ++ [.popWorkable serverId higherPriority])).tickets = front ++ back ∧
        ∀ submission ∈ ticket, ∀ other, (other, some submission) ∈ (ticketed calls).tickets →
          other.jobId = item.jobId → isEligible serverId higherPriority other →
            par2SortKey item.filename ≤ par2SortKey other.filename

/-! ## What a pop takes -/

section Pop

theorem exists_split_of_findIdx? {α : Type*} {test : α → Bool} {list : List α} {index : ℕ}
    (found : list.findIdx? test = some index) : ∃ front first back,
      list = front ++ first :: back ∧ front.length = index ∧ test first ∧
        ∀ other ∈ front, ¬test other := by
  rcases List.findIdx?_eq_some_iff_getElem.mp found with ⟨bound, holds, before⟩
  refine ⟨list.take index, list[index], list.drop (index + 1), by simp, by simp [bound.le], holds,
    fun other mem => ?_⟩
  rcases List.mem_take_iff_getElem.mp mem with ⟨position, lt, rfl⟩
  exact before position (lt_of_lt_of_le lt (Nat.min_le_left ..))

theorem findIdx?_split {α : Type*} {test : α → Bool} {front back : List α} {first : α}
    (holds : test first) (before : ∀ other ∈ front, ¬test other) :
    (front ++ first :: back).findIdx? test = some front.length := by
  have none : front.findIdx? test = none := List.findIdx?_eq_none_iff.mpr (by simpa using before)
  simp [List.findIdx?_append, none, List.findIdx?_cons, holds]

variable {queue next : SharedWorkQueue} {serverId : ServerId} {higherPriority : List ServerId}

theorem select_eq (queue : SharedWorkQueue) (serverId : ServerId)
    (higherPriority : List ServerId) : queue.select serverId higherPriority =
      (queue.items.findIdx? fun item => isEligible serverId higherPriority item &&
        decide (queue.lastServed.lookup serverId ≠ some item.jobId)).or
      (queue.items.findIdx? (isEligible serverId higherPriority)) := by
  rw [select]
  cases queue.lastServed.lookup serverId with
  | none => simp
  | some lastJob => simp [eq_comm]

theorem select_of_inFront {item : WorkItem} (inFront : queue.InFront serverId higherPriority item) :
    ∃ front back, queue.items = front ++ item :: back ∧
      queue.select serverId higherPriority = some front.length := by
  rcases inFront with ⟨front, back, items, eligible, notLast, before⟩
  refine ⟨front, back, items, ?_⟩
  rw [select_eq, items, findIdx?_split]
  · rfl
  · simp [eligible, notLast]
  · intro other mem
    simpa using before other mem

/-- The position that is taken, and why: the item there is in front, or all that the server may
take is of one job. -/
theorem select_spec {index : ℕ} (selected : queue.select serverId higherPriority = some index) :
    ∃ front item back, queue.items = front ++ item :: back ∧ front.length = index ∧
      isEligible serverId higherPriority item ∧
      (∀ other ∈ front, isEligible serverId higherPriority other → other.jobId ≠ item.jobId) ∧
      (queue.InFront serverId higherPriority item ∨
        ∀ other ∈ queue.items, isEligible serverId higherPriority other →
          other.jobId = item.jobId) := by
  rw [select_eq, Option.or_eq_some_iff] at selected
  rcases selected with found | ⟨absent, found⟩
  · rcases exists_split_of_findIdx? found with ⟨front, item, back, items, length, holds, before⟩
    simp only [Bool.and_eq_true, decide_eq_true_eq, not_and, not_not] at holds before
    refine ⟨front, item, back, items, length, holds.1, fun other mem eligible same => ?_,
      .inl ⟨front, back, items, holds.1, holds.2, before⟩⟩
    exact holds.2 (same ▸ before other mem eligible)
  · rcases exists_split_of_findIdx? found with ⟨front, item, back, items, length, holds, before⟩
    simp only [List.findIdx?_eq_none_iff, Bool.and_eq_false_imp, decide_eq_false_iff_not,
      not_not] at absent
    refine ⟨front, item, back, items, length, holds,
      fun other mem eligible => absurd eligible (before other mem),
      .inr fun other mem eligible => ?_⟩
    have last := absent other mem eligible
    rw [absent item (by simp [items]) holds, Option.some.injEq] at last
    exact last.symm

theorem popWorkable_of_select {front back : List WorkItem} {item : WorkItem}
    (items : queue.items = front ++ item :: back)
    (selected : queue.select serverId higherPriority = some front.length) :
    ∃ next, queue.popWorkable serverId higherPriority = some (item, next) ∧
      next.items = front ++ back := by
  refine ⟨⟨front ++ back, queue.lastServed.insert serverId item.jobId⟩, ?_, rfl⟩
  simp [popWorkable, selected, items, List.eraseIdx_append_of_length_le]

theorem popWorkable_spec {item : WorkItem}
    (popped : queue.popWorkable serverId higherPriority = some (item, next)) :
    ∃ front back, queue.items = front ++ item :: back ∧ next.items = front ++ back ∧
      queue.select serverId higherPriority = some front.length ∧
      isEligible serverId higherPriority item ∧
      (∀ other ∈ front, isEligible serverId higherPriority other → other.jobId ≠ item.jobId) ∧
      (queue.InFront serverId higherPriority item ∨
        ∀ other ∈ queue.items, isEligible serverId higherPriority other →
          other.jobId = item.jobId) := by
  cases selected : queue.select serverId higherPriority with
  | none => simp [popWorkable, selected] at popped
  | some index =>
      rcases select_spec selected with ⟨front, found, back, items, rfl, rest⟩
      rcases popWorkable_of_select items selected with ⟨after, isPopped, afterItems⟩
      rw [popped, Option.some.injEq, Prod.mk.injEq] at isPopped
      rcases isPopped with ⟨rfl, rfl⟩
      exact ⟨front, back, items, afterItems, rfl, rest⟩

theorem lastServed_of_pop {popped : WorkItem × SharedWorkQueue}
    (isPopped : queue.popWorkable serverId higherPriority = some popped) :
    popped.2.lastServed = queue.lastServed.insert serverId popped.1.jobId := by
  rw [popWorkable] at isPopped
  split at isPopped
  · cases isPopped
  · split at isPopped <;> cases isPopped
    rfl

end Pop

/-! ## Nothing gets lost -/

theorem perform_perm (queue : SharedWorkQueue) (call : Call) :
    ((queue.perform call).1 ++ (queue.perform call).2.items).Perm (call.given ++ queue.items) := by
  cases call with
  | submitItems items =>
      simp only [perform, submitItems, Call.given, List.nil_append]
      exact List.perm_append_comm.trans ((List.perm_insertionSort _ items).append_right queue.items)
  | pushFront item => exact .refl _
  | pushBack item =>
      simp only [perform, pushBack, Call.given, List.nil_append]
      exact List.perm_append_comm
  | drainJob jobId =>
      have split := List.filter_append_perm (fun item => decide (item.jobId = jobId)) queue.items
      simpa [perform, drainJob, Call.given] using split
  | takeWhere predicate =>
      exact List.filter_append_perm predicate queue.items
  | popWorkable serverId higherPriority =>
      simp only [perform, Call.given, List.nil_append]
      cases popped : queue.popWorkable serverId higherPriority with
      | none => exact .refl _
      | some result => exact (popWorkable_eq_some popped).2.symm

theorem after_perm (queue : SharedWorkQueue) (calls : List Call) :
    (taken queue calls ++ (queue.after calls).items).Perm
      (queue.items ++ calls.flatMap Call.given) := by
  induction calls generalizing queue with
  | nil => simp [taken, after]
  | cons call calls ih =>
      have here := (perform_perm queue call).append_right (calls.flatMap Call.given)
      have rest := (ih (queue.perform call).2).append_left (queue.perform call).1
      rw [taken, List.append_assoc, List.flatMap_cons]
      refine rest.trans ?_
      rw [← List.append_assoc]
      refine here.trans ?_
      rw [← List.append_assoc]
      exact List.perm_append_comm.append_right _

/-! ## Turns -/

section InTurn

variable {queue : SharedWorkQueue} {serverId : ServerId} {higherPriority : List ServerId}

theorem mem_waitingJobs {jobId : JobId} :
    jobId ∈ queue.waitingJobs serverId higherPriority ↔
      ∃ item ∈ queue.items, isEligible serverId higherPriority item ∧ item.jobId = jobId := by
  simp [waitingJobs, and_assoc]

theorem sound_turn (queue : SharedWorkQueue) (serverId : ServerId)
    (higherPriority : List ServerId) : (queue.turn serverId higherPriority).Sound := by
  constructor
  case waits =>
    intro jobId served
    rcases Option.map_eq_some_iff.mp served with ⟨⟨item, next⟩, popped, rfl⟩
    rcases popWorkable_eq_some popped with ⟨eligible, perm⟩
    exact mem_waitingJobs.mpr ⟨item, perm.mem_iff.mpr List.mem_cons_self, eligible, rfl⟩
  case serves =>
    intro jobId waits
    rcases mem_waitingJobs.mp waits with ⟨item, mem, eligible, _⟩
    have popped := popWorkable_isSome_iff.mpr ⟨item, mem, eligible⟩
    rw [← Option.isSome_iff_ne_none, turn, Option.isSome_map, popped]

theorem turn_served_iff {jobId other : JobId} (differs : jobId ≠ other)
    (waits : jobId ∈ queue.waitingJobs serverId higherPriority) :
    (queue.turn serverId higherPriority).served = some other ↔
      ∃ item, queue.InFront serverId higherPriority item ∧ item.jobId = other := by
  constructor
  · intro served
    rcases Option.map_eq_some_iff.mp served with ⟨⟨item, next⟩, popped, same⟩
    rcases popWorkable_spec popped with ⟨_, _, _, _, _, _, _, inFront | only⟩
    · exact ⟨item, inFront, same⟩
    · rcases mem_waitingJobs.mp waits with ⟨waiting, mem, eligible, rfl⟩
      exact absurd ((only waiting mem eligible).trans same) differs
  · rintro ⟨item, inFront, rfl⟩
    rcases select_of_inFront inFront with ⟨front, back, items, selected⟩
    rcases popWorkable_of_select items selected with ⟨next, popped, _⟩
    rw [turn, popped]
    rfl

theorem overtakes_iff (earlier : List (Serving JobId)) :
    (∀ item, queue.InFront serverId higherPriority item →
      ∀ jobId ∈ queue.waitingJobs serverId higherPriority,
        ¬Serving.Overtaken earlier (queue.waitingJobs serverId higherPriority) jobId item.jobId) ↔
    ∀ jobId ∈ (queue.turn serverId higherPriority).waiting,
      ∀ other ∈ (queue.turn serverId higherPriority).served,
        ¬Serving.Overtaken earlier (queue.turn serverId higherPriority).waiting jobId other := by
  have differs : ∀ {waiting : Finset JobId} {jobId other : JobId},
      Serving.Overtaken earlier waiting jobId other → jobId ≠ other := by
    rintro waiting jobId other ⟨since, _, ⟨turn, mem, served⟩, kept⟩ rfl
    exact (kept turn mem).2 served
  constructor
  · intro inTurn jobId waits other served overtaken
    rcases (turn_served_iff (differs overtaken) waits).mp served with ⟨item, inFront, rfl⟩
    exact inTurn item inFront jobId waits overtaken
  · intro overtakes item inFront jobId waits overtaken
    exact overtakes jobId waits item.jobId
      ((turn_served_iff (differs overtaken) waits).mpr ⟨item, inFront, rfl⟩) overtaken

theorem sound_turnAt (queue : SharedWorkQueue) (serverId : ServerId) (call : Call) :
    ∀ turn ∈ queue.turnAt serverId call, turn.Sound := by
  intro turn mem
  cases call with
  | popWorkable server higherPriority =>
      simp only [turnAt, List.mem_ite_nil_right, List.mem_singleton] at mem
      rw [mem.2]
      exact sound_turn queue serverId higherPriority
  | _ => simp [turnAt] at mem

theorem sound_turns (serverId : ServerId) (queue : SharedWorkQueue) (calls : List Call) :
    ∀ turn ∈ turns serverId queue calls, turn.Sound := by
  induction calls generalizing queue with
  | nil => simp [turns]
  | cons call calls ih =>
      exact List.forall_mem_append.mpr ⟨sound_turnAt queue serverId call, ih _⟩

/-- While at most two jobs wait at a time, the item in front is of a job whose turn it is. -/
theorem inTurn_of_card_le_two {earlier : List (Serving JobId)}
    (sound : ∀ turn ∈ earlier, turn.Sound) (last : ∀ turn ∈ earlier.getLast?, ∀ jobId ∈ turn.served,
      queue.lastServed.lookup serverId = some jobId) (calls : List Call)
    (few : ∀ turn ∈ turns serverId queue calls, turn.waiting.card ≤ 2) :
    InTurn serverId earlier queue calls := by
  induction calls generalizing queue earlier with
  | nil => trivial
  | cons call calls ih =>
      rw [turns, List.forall_mem_append] at few
      refine ⟨?_, ih ?_ ?_ few.2⟩
      · rintro higherPriority item rfl ⟨front, back, items, eligible, notLast, -⟩ jobId waits
        have two := few.1 (queue.turn serverId higherPriority) (by simp [turnAt])
        have itemWaits := mem_waitingJobs.mpr
          ⟨item, items ▸ List.mem_append_right front List.mem_cons_self, eligible, rfl⟩
        exact Serving.not_overtaken_of_card_le_two sound two waits itemWaits
          fun turn isLast served => notLast (last turn isLast _ served)
      · exact List.forall_mem_append.mpr ⟨sound, sound_turnAt queue serverId call⟩
      · intro turn isLast jobId served
        cases call with
        | popWorkable server higherPriority =>
            by_cases same : server = serverId
            · subst same
              rw [turnAt, if_pos rfl, List.getLast?_concat] at isLast
              cases isLast
              rcases Option.map_eq_some_iff.mp served with ⟨result, popped, rfl⟩
              simp only [perform, popped, lastServed_of_pop popped, AList.lookup_insert]
            · rw [turnAt, if_neg same, List.append_nil] at isLast
              cases popped : queue.popWorkable server higherPriority with
              | none => simpa only [perform, popped] using last turn isLast jobId served
              | some result =>
                  simp only [perform, popped, lastServed_of_pop popped,
                    AList.lookup_insert_ne (Ne.symm same)]
                  exact last turn isLast jobId served
        | _ => exact last turn (by simpa [turnAt] using isLast) jobId served

/-- One call after another, from turns that were in order. -/
theorem ordered_turns_iff {earlier : List (Serving JobId)} (ordered : Serving.Ordered earlier)
    (calls : List Call) : Serving.Ordered (earlier ++ turns serverId queue calls) ↔
      InTurn serverId earlier queue calls := by
  induction calls generalizing queue earlier with
  | nil => simp [turns, InTurn, ordered]
  | cons call calls ih =>
      rw [turns, InTurn, ← List.append_assoc]
      by_cases isPop : ∃ higherPriority, call = .popWorkable serverId higherPriority
      · rcases isPop with ⟨higherPriority, rfl⟩
        have here := Serving.ordered_concat_iff ordered (sound_turn queue serverId higherPriority)
        rw [← overtakes_iff] at here
        simp only [turnAt, if_pos]
        constructor
        · intro after
          refine ⟨?_, (ih after.of_append).mp after⟩
          rintro _ item ⟨⟩
          exact here.mp after.of_append item
        · rintro ⟨inTurn, rest⟩
          exact (ih (here.mpr fun item => inTurn higherPriority item rfl)).mpr rest
      · have noTurn : queue.turnAt serverId call = [] := by
          cases call with
          | popWorkable server higherPriority =>
              exact if_neg fun same => isPop ⟨higherPriority, by rw [same]⟩
          | _ => rfl
        rw [noTurn, List.append_nil, ih ordered]
        refine (and_iff_right fun higherPriority item same => ?_).symm
        exact absurd ⟨higherPriority, same⟩ isPop

end InTurn

/-! ## The items of one submission -/

namespace Ticketed

/-- The tickets belong to the items, no call has given one out twice, and the items of one
submission stand in their order. -/
structure Sound (state : Ticketed) : Prop where
  items : state.tickets.map Prod.fst = state.queue.items
  given : ∀ ticket ∈ state.tickets, ∀ call ∈ ticket.2, call < state.calls
  sorted : state.tickets.Pairwise fun left right => ∀ call ∈ left.2, right.2 = some call →
    par2SortKey left.1.filename ≤ par2SortKey right.1.filename

variable {state : Ticketed}

theorem Sound.keep (sound : state.Sound) {kept : List (WorkItem × Option ℕ)}
    {queue : SharedWorkQueue} (sublist : kept.Sublist state.tickets)
    (items : kept.map Prod.fst = queue.items) :
    Sound { queue := queue, tickets := kept, calls := state.calls + 1 } where
  items := items
  given ticket mem call isCall :=
    Nat.lt_succ_of_lt (sound.given ticket (sublist.subset mem) call isCall)
  sorted := sound.sorted.sublist sublist

theorem Sound.filter (sound : state.Sound) (test : WorkItem → Bool) :
    (state.tickets.filter fun ticket => test ticket.1).map Prod.fst =
      state.queue.items.filter test := by
  rw [← sound.items, List.filter_map]
  rfl

theorem Sound.returned (sound : state.Sound) (item : WorkItem) :
    (∀ ticket ∈ state.tickets, ∀ call ∈ ticket.2, call < state.calls + 1) ∧
      ∀ call ∈ (item, (none : Option ℕ)).2, call < state.calls + 1 :=
  ⟨fun ticket mem call isCall => Nat.lt_succ_of_lt (sound.given ticket mem call isCall), by simp⟩

theorem Sound.submit (sound : state.Sound) (items : List WorkItem) :
    (state.perform (.submitItems items)).Sound := by
  have total : ∀ left right : WorkItem, par2SortKey left.filename ≤ par2SortKey right.filename ∨
      par2SortKey right.filename ≤ par2SortKey left.filename := fun _ _ => Nat.le_total ..
  constructor
  case items =>
    simp only [Ticketed.perform, SharedWorkQueue.perform, submitItems, List.map_append,
      List.map_map, sound.items]
    exact congrArg _ (List.map_id _)
  case given =>
    intro ticket mem call isCall
    rcases List.mem_append.mp mem with mem | mem
    · exact Nat.lt_succ_of_lt (sound.given ticket mem call isCall)
    · rcases List.mem_map.mp mem with ⟨item, _, rfl⟩
      exact Option.mem_some.mp isCall ▸ Nat.lt_succ_self state.calls
  case sorted =>
    rw [Ticketed.perform, List.pairwise_append]
    refine ⟨sound.sorted, ?_, ?_⟩
    · rw [List.pairwise_map]
      exact (List.pairwise_insertionSort _ items).imp fun le _ _ _ => le
    · intro old oldMem fresh freshMem call isCall same
      rcases List.mem_map.mp freshMem with ⟨item, _, rfl⟩
      have issued := sound.given old oldMem call isCall
      rw [Option.some.inj same] at issued
      exact absurd issued (Nat.lt_irrefl _)

theorem Sound.perform (sound : state.Sound) (call : Call) : (state.perform call).Sound := by
  cases call with
  | submitItems items => exact sound.submit items
  | pushFront item =>
      refine ⟨?_, ?_, List.pairwise_cons.mpr ⟨by simp, sound.sorted⟩⟩
      · simp [Ticketed.perform, SharedWorkQueue.perform, pushFront, sound.items]
      · exact List.forall_mem_cons.mpr (sound.returned item).symm
  | pushBack item =>
      refine ⟨?_, ?_, List.pairwise_append.mpr ⟨sound.sorted, List.pairwise_singleton .., ?_⟩⟩
      · simp [Ticketed.perform, SharedWorkQueue.perform, pushBack, sound.items]
      · exact List.forall_mem_append.mpr
          ⟨(sound.returned item).1, List.forall_mem_singleton.mpr (sound.returned item).2⟩
      · simp
  | drainJob jobId =>
      exact sound.keep List.filter_sublist (sound.filter fun item => decide (item.jobId ≠ jobId))
  | takeWhere predicate =>
      exact sound.keep List.filter_sublist (sound.filter fun item => !predicate item)
  | popWorkable serverId higherPriority =>
      have eq : state.perform (.popWorkable serverId higherPriority) =
          { queue := (state.queue.perform (.popWorkable serverId higherPriority)).2
            tickets := match state.queue.select serverId higherPriority with
              | some index => state.tickets.eraseIdx index
              | none => state.tickets
            calls := state.calls + 1 } := rfl
      rw [eq]
      cases selected : state.queue.select serverId higherPriority with
      | none =>
          refine sound.keep (List.Sublist.refl _) (sound.items.trans ?_)
          simp [SharedWorkQueue.perform, popWorkable, selected]
      | some index =>
          rcases select_spec selected with ⟨front, item, back, items, rfl, _⟩
          rcases popWorkable_of_select items selected with ⟨next, popped, nextItems⟩
          refine sound.keep (List.eraseIdx_sublist ..) ?_
          rw [← List.eraseIdx_map, sound.items, items]
          simp [SharedWorkQueue.perform, popped, nextItems, List.eraseIdx_append_of_length_le]

end Ticketed

theorem ticketed_sound (calls : List Call) :
    (ticketed calls).Sound ∧ (ticketed calls).queue = new.after calls := by
  induction calls using List.reverseRecOn with
  | nil => exact ⟨⟨rfl, by simp [ticketed], .nil⟩, rfl⟩
  | append_singleton calls call ih =>
      rw [ticketed, List.foldl_concat, after, List.foldl_concat]
      exact ⟨ih.1.perform call, congrArg (fun queue => (queue.perform call).2) ih.2⟩

/-- A pop takes the first of the items of one submission that it may take of a job. -/
theorem par2First (calls : List Call) {serverId : ServerId} {higherPriority : List ServerId}
    {item : WorkItem} {next : SharedWorkQueue}
    (popped : (new.after calls).popWorkable serverId higherPriority = some (item, next)) :
    ∃ front ticket back, (ticketed calls).tickets = front ++ (item, ticket) :: back ∧
      (ticketed (calls ++ [.popWorkable serverId higherPriority])).tickets = front ++ back ∧
      ∀ submission ∈ ticket, ∀ other, (other, some submission) ∈ (ticketed calls).tickets →
        other.jobId = item.jobId → isEligible serverId higherPriority other →
          par2SortKey item.filename ≤ par2SortKey other.filename := by
  rcases ticketed_sound calls with ⟨sound, same⟩
  rcases popWorkable_spec popped with ⟨front, back, items, _, selected, _, before, _⟩
  rw [← same] at selected
  rw [← same, ← sound.items, List.map_eq_append_iff] at items
  rcases items with ⟨frontTickets, rest, tickets, rfl, mapped⟩
  rcases List.map_eq_cons_iff.mp mapped with ⟨⟨item, ticket⟩, backTickets, rfl, rfl, rfl⟩
  refine ⟨frontTickets, ticket, backTickets, tickets, ?_, ?_⟩
  · rw [ticketed, List.foldl_concat, ← ticketed, Ticketed.perform, selected]
    simp [tickets, List.eraseIdx_append_of_length_le]
  · intro submission isTicket other mem sameJob eligible
    rw [tickets] at mem
    rcases List.mem_append.mp mem with inFront | mem
    · exact absurd sameJob (before other (List.mem_map_of_mem inFront) eligible)
    · rcases List.mem_cons.mp mem with eq | inBack
      · rw [(Prod.mk.injEq ..).mp eq |>.1]
      · have sorted := sound.sorted
        rw [tickets] at sorted
        rcases List.pairwise_cons.mp (List.pairwise_append.mp sorted).2.1 with ⟨first, -⟩
        exact first (other, some submission) inBack submission isTicket rfl

/-- The queue keeps its promises exactly in the runs in which at each pop the item in front is of
a job whose turn it is. -/
theorem servesInTurn_iff (calls : List Call) :
    ServesInTurn calls ↔ ∀ serverId, InTurn serverId [] new calls := by
  have turnsOrdered := fun serverId =>
    @ordered_turns_iff new serverId [] (fun window inTurns => by simp_all) calls
  simp only [List.nil_append] at turnsOrdered
  constructor
  · exact fun serves serverId => (turnsOrdered serverId).mp (serves.inTurn serverId).2
  · intro inTurn
    rcases ticketed_sound calls with ⟨sound, same⟩
    constructor
    case workable =>
      intro serverId higherPriority
      simp only [popWorkable_isSome_iff, isEligible_iff]
    case takes =>
      intro serverId higherPriority item next popped
      rcases popWorkable_spec popped with ⟨front, back, items, nextItems, _, eligible, _⟩
      exact ⟨isEligible_iff.mp eligible, front, back, items, nextItems⟩
    case kept => exact after_perm new calls
    case inTurn =>
      intro serverId
      have ordered := (turnsOrdered serverId).mpr (inTurn serverId)
      exact ⟨ordered.roundRobin (sound_turns serverId new calls), ordered⟩
    case tickets => rw [sound.items, same]
    case par2First => exact fun serverId higherPriority item next => par2First calls

def untried (jobId : JobId) (segmentNumber : ℕ) : WorkItem where
  jobId := jobId
  fileId := jobId
  filename := "data.bin"
  messageId := jobId
  segmentNumber := segmentNumber
  triedServers := []
  providerOutcomes := ∅
  triesOnCurrent := 0
  outageTries := 0
  confirmRounds := 0
  asked := []

/-- Two jobs with a backlog take turns, and the third one waits. -/
theorem not_servesInTurn : ¬∀ calls, ServesInTurn calls := by
  intro serves
  let calls : List Call := [.submitItems [untried "a" 1], .submitItems [untried "a" 2],
    .submitItems [untried "b" 1], .submitItems [untried "b" 2], .submitItems [untried "c" 1],
    .popWorkable "s" [], .popWorkable "s" [], .popWorkable "s" []]
  have served := ((serves calls).inTurn "s").1 (turns "s" new calls) List.infix_rfl {"a", "b", "c"}
    (by decide) (by decide) "c" (by decide)
  revert served
  decide

end Rustnzb.Dispatch.SharedWorkQueue
