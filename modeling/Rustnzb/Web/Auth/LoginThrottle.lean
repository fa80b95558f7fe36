import Rustnzb.Core.IpNetwork
import Rustnzb.Lib.Registry

/-!
# The delay of wrong passwords

`LoginThrottle` counts the wrong passwords of each client. Instants and durations are numbers of
nanoseconds. The order in which a hash map is gone over, which decides between entries that are
equally old, is that of the registry.
-/

namespace Rustnzb.Web.FailedLogins

open Core (IpAddr)
open Lib (Registry)

def failureBaseDelay : ℕ := 500 * 10 ^ 6

def failureMaxDelay : ℕ := 30 * 10 ^ 9

def failureWindow : ℕ := 15 * 60 * 10 ^ 9

def maxTrackedClients : ℕ := 4096

def u32Max : ℕ := 2 ^ 32 - 1

def clientKey (client : Option IpAddr) : Option IpAddr :=
  client.map fun ip =>
    match ip.toCanonical with
    | .v6 v6 => .v6 (v6 &&& ~~~((1#128 <<< 64) - 1))
    | .v4 v4 => .v4 v4

structure ClientFailures where
  count : ℕ
  last : ℕ
  deriving DecidableEq

abbrev Clients := Registry (Option IpAddr) ClientFailures

structure LoginThrottle where
  clients : Clients := ∅
  baseDelay : ℕ := failureBaseDelay

/-- What a new client that finds the table full evicts. -/
def makeRoom (clients : Clients) (client : Option IpAddr) (now : ℕ) : Clients :=
  if client ∉ clients ∧ maxTrackedClients ≤ clients.keys.length then
    let clients := clients.retain fun _ entry => now - entry.last < failureWindow
    if maxTrackedClients ≤ clients.keys.length then
      match clients.entries.argmin fun entry => entry.2.last with
      | some oldest => clients.erase oldest.1
      | none => clients
    else clients
  else clients

namespace LoginThrottle

variable (throttle : LoginThrottle)

def recordFailure (client : Option IpAddr) (now : ℕ) : ℕ × LoginThrottle :=
  let client := clientKey client
  let clients := makeRoom throttle.clients client now
  let entry := (clients.lookup client).getD { count := 0, last := now }
  let count := if failureWindow ≤ now - entry.last then 0 else entry.count
  let count := min (count + 1) u32Max
  let doublings := min (count - 1) 16
  (min (throttle.baseDelay * 2 ^ doublings) failureMaxDelay,
    { throttle with clients := clients.insert client { count := count, last := now } })

def recordSuccess (client : Option IpAddr) : LoginThrottle :=
  { throttle with clients := throttle.clients.erase (clientKey client) }

end LoginThrottle

/-! ## Runs -/

inductive Event where
  | failure (client : Option IpAddr) (now : ℕ)
  | success (client : Option IpAddr)

def step (throttle : LoginThrottle) : Event → LoginThrottle
  | .failure client now => (throttle.recordFailure client now).2
  | .success client => throttle.recordSuccess client

def after (baseDelay : ℕ) (events : List Event) : LoginThrottle :=
  events.foldl step { baseDelay := baseDelay }

inductive OwnEvent where
  | failed (instant : ℕ)
  | succeeded
  deriving DecidableEq

def ownEvents (key : Option IpAddr) (events : List Event) : List OwnEvent :=
  events.filterMap fun
    | .failure client now => if clientKey client = key then some (.failed now) else none
    | .success client => if clientKey client = key then some .succeeded else none

/-- The failures, the latest first, until one is a window before the next or there was a success. -/
def failuresSince (now : ℕ) : List OwnEvent → ℕ
  | [] => 0
  | .succeeded :: _ => 0
  | .failed before :: rest =>
      if failureWindow ≤ now - before then 0 else failuresSince before rest + 1

def failureTimes (events : List Event) : List ℕ :=
  events.filterMap fun
    | .failure _ now => some now
    | .success _ => none

/-- The clients that failed less than a window ago. -/
def recentKeys (events : List Event) (now : ℕ) : List (Option IpAddr) :=
  events.filterMap fun
    | .failure client before =>
        if now - before < failureWindow then some (clientKey client) else none
    | .success _ => none

/-- Whenever a client fails, fewer than the table holds have failed within the window. -/
def UnderLoad (events : List Event) : Prop :=
  ∀ before client now after, events = before ++ .failure client now :: after →
    (recentKeys before now).toFinset.card < maxTrackedClients

def failures (client : Option IpAddr) (events : List Event) (now : ℕ) : ℕ :=
  failuresSince now (ownEvents (clientKey client) events).reverse + 1

/-- One address of IPv4, mapped or not, or one network of 64 bits. -/
def SameClient : Option IpAddr → Option IpAddr → Prop
  | none, none => True
  | some ip, some other =>
      match ip.toCanonical, other.toCanonical with
      | .v4 first, .v4 second => first = second
      | .v6 first, .v6 second => Lib.AgreeUpTo 64 first second
      | _, _ => False
  | _, _ => False

/-! ## Keys -/

theorem lowBits_eq : ~~~((1#128 <<< 64) - 1) = Lib.highMask 128 64 := by decide

theorem clientKey_eq_iff {client other : Option IpAddr} :
    clientKey client = clientKey other ↔ SameClient client other := by
  rcases client with _ | ip <;> rcases other with _ | ip'
  · simp [clientKey, SameClient]
  · simp [clientKey, SameClient]
  · simp [clientKey, SameClient]
  · rw [clientKey, clientKey, Option.map_some, Option.map_some, Option.some.injEq, SameClient]
    cases ip.toCanonical <;> cases ip'.toCanonical
    · simp
    · simp
    · simp
    · rw [lowBits_eq, IpAddr.v6.injEq]
      exact Lib.and_highMask_eq_iff (by decide)

/-! ## What the table knows -/

section Table

variable {clients : Clients} {events : List Event} {key : Option IpAddr} {now : ℕ}

theorem ownEvents_append_failure (client : Option IpAddr) :
    ownEvents key (events ++ [.failure client now]) =
      ownEvents key events ++ if clientKey client = key then [.failed now] else [] := by
  rw [ownEvents, List.filterMap_append]
  congr 1
  split
  next same => simp [same]
  next other => simp [other]

theorem ownEvents_append_success (client : Option IpAddr) :
    ownEvents key (events ++ [.success client]) =
      ownEvents key events ++ if clientKey client = key then [.succeeded] else [] := by
  rw [ownEvents, List.filterMap_append]
  congr 1
  split
  next same => simp [same]
  next other => simp [other]

theorem mem_ownEvents_failed {instant : ℕ} :
    .failed instant ∈ ownEvents key events ↔
      ∃ client, .failure client instant ∈ events ∧ clientKey client = key := by
  rw [ownEvents, List.mem_filterMap]
  constructor
  · rintro ⟨event, mem, isOwn⟩
    cases event with
    | failure client now =>
        rw [Option.ite_none_right_eq_some, Option.some.injEq, OwnEvent.failed.injEq] at isOwn
        exact ⟨client, isOwn.2 ▸ mem, isOwn.1⟩
    | success client =>
        rw [Option.ite_none_right_eq_some, Option.some.injEq] at isOwn
        cases isOwn.2
  · rintro ⟨client, mem, same⟩
    exact ⟨_, mem, by simp [same]⟩

/-- An entry is the failures since the last success or gap; a client without one has none, or its
last one is forgotten by `now`. -/
structure Knows (clients : Clients) (events : List Event) (now : ℕ) : Prop where
  entry : ∀ key entry, clients.lookup key = some entry →
    ∃ rest, (ownEvents key events).reverse = .failed entry.last :: rest ∧
      entry.count = min (failuresSince entry.last rest + 1) u32Max
  absent : ∀ key, clients.lookup key = none → failuresSince now (ownEvents key events).reverse = 0

theorem failuresSince_eq_zero_mono {later : ℕ} {own : List OwnEvent}
    (none : failuresSince now own = 0) (le : now ≤ later) : failuresSince later own = 0 := by
  rcases own with _ | ⟨_ | _, rest⟩
  · rfl
  · rw [failuresSince] at none ⊢
    split at none
    next expired => exact if_pos (expired.trans (Nat.sub_le_sub_right le _))
    · cases none
  · rfl

section

variable (knows : Knows clients events now)

include knows

theorem Knows.mono {later : ℕ} (le : now ≤ later) :
    Knows clients events later where
  entry := knows.entry
  absent key isAbsent := failuresSince_eq_zero_mono (knows.absent key isAbsent) le

theorem Knows.retain :
    Knows (clients.retain fun _ entry => now - entry.last < failureWindow) events now where
  entry key entry found := by
    rw [Registry.lookup_retain, Option.filter_eq_some_iff] at found
    exact knows.entry key entry found.1
  absent key isAbsent := by
    rw [Registry.lookup_retain] at isAbsent
    cases found : clients.lookup key with
    | none => exact knows.absent key found
    | some entry =>
        rcases knows.entry key entry found with ⟨rest, own, -⟩
        rw [found] at isAbsent
        rw [own, failuresSince]
        apply if_pos
        by_contra recent
        simp [Option.filter, not_le.mp recent] at isAbsent

theorem Knows.length_retain_le :
    (clients.retain fun _ entry => now - entry.last < failureWindow).keys.length ≤
      (recentKeys events now).toFinset.card := by
  rw [← List.toFinset_card_of_nodup (AList.keys_nodup _)]
  apply Finset.card_le_card
  intro key mem
  rw [List.mem_toFinset] at mem ⊢
  obtain ⟨entry, found⟩ := Option.isSome_iff_exists.mp (AList.lookup_isSome.mpr mem)
  rw [Registry.lookup_retain, Option.filter_eq_some_iff] at found
  rcases knows.entry key entry found.1 with ⟨rest, own, -⟩
  have last : .failed entry.last ∈ ownEvents key events := by
    rw [← List.mem_reverse, own]
    exact List.mem_cons_self
  rcases mem_ownEvents_failed.mp last with ⟨client, isFailure, same⟩
  rw [recentKeys, List.mem_filterMap]
  refine ⟨_, isFailure, ?_⟩
  have recent : now - entry.last < failureWindow := by simpa using found.2
  simp [recent, same]

theorem Knows.makeRoom (load : (recentKeys events now).toFinset.card < maxTrackedClients)
    (client : Option IpAddr) : Knows (makeRoom clients client now) events now := by
  rw [FailedLogins.makeRoom]
  split
  · have room := knows.length_retain_le.trans_lt load
    dsimp only
    rw [if_neg (not_le.mpr room)]
    exact knows.retain
  · exact knows

theorem Knows.count_eq :
    min ((if failureWindow ≤ now - ((clients.lookup key).getD ⟨0, now⟩).last then 0
      else ((clients.lookup key).getD ⟨0, now⟩).count) + 1) u32Max =
      min (failuresSince now (ownEvents key events).reverse + 1) u32Max := by
  cases found : clients.lookup key with
  | none =>
      rw [knows.absent key found]
      simp
  | some entry =>
      rcases knows.entry key entry found with ⟨rest, own, count⟩
      rw [own, failuresSince, Option.getD_some]
      split
      · rfl
      · rw [count]
        omega

theorem Knows.insert (client : Option IpAddr) :
    Knows (clients.insert (clientKey client)
        ⟨min (failuresSince now (ownEvents (clientKey client) events).reverse + 1) u32Max, now⟩)
      (events ++ [.failure client now]) now where
  entry key entry found := by
    rw [ownEvents_append_failure]
    by_cases same : clientKey client = key
    · subst same
      rw [AList.lookup_insert, Option.some.injEq] at found
      subst found
      rw [if_pos rfl, List.reverse_concat]
      exact ⟨_, rfl, rfl⟩
    · rw [AList.lookup_insert_ne (Ne.symm same)] at found
      rw [if_neg same, List.append_nil]
      exact knows.entry key entry found
  absent key isAbsent := by
    rw [ownEvents_append_failure]
    by_cases same : clientKey client = key
    · subst same
      rw [AList.lookup_insert] at isAbsent
      cases isAbsent
    · rw [AList.lookup_insert_ne (Ne.symm same)] at isAbsent
      rw [if_neg same, List.append_nil]
      exact knows.absent key isAbsent

theorem Knows.erase (client : Option IpAddr) :
    Knows (clients.erase (clientKey client)) (events ++ [.success client]) now where
  entry key entry found := by
    rw [ownEvents_append_success]
    by_cases same : clientKey client = key
    · subst same
      rw [AList.lookup_erase] at found
      cases found
    · rw [AList.lookup_erase_ne (Ne.symm same)] at found
      rw [if_neg same, List.append_nil]
      exact knows.entry key entry found
  absent key isAbsent := by
    rw [ownEvents_append_success]
    by_cases same : clientKey client = key
    · rw [if_pos same, List.reverse_concat]
      rfl
    · rw [AList.lookup_erase_ne (Ne.symm same)] at isAbsent
      rw [if_neg same, List.append_nil]
      exact knows.absent key isAbsent

end

end Table

/-! ## Every delay -/

section Delays

variable {baseDelay : ℕ} {events : List Event}

theorem after_append (event : Event) :
    after baseDelay (events ++ [event]) = step (after baseDelay events) event :=
  List.foldl_concat ..

theorem baseDelay_after : (after baseDelay events).baseDelay = baseDelay := by
  induction events using List.reverseRecOn with
  | nil => rfl
  | append_singleton events event ih =>
      rw [after_append]
      cases event <;> exact ih

theorem UnderLoad.of_append {event : Event} (load : UnderLoad (events ++ [event])) :
    UnderLoad events := by
  rintro before client now after rfl
  exact load before client now (after ++ [event]) (by simp)

theorem knows_after (ordered : (failureTimes events).Pairwise (· ≤ ·)) (load : UnderLoad events)
    {now : ℕ} (latest : ∀ time ∈ failureTimes events, time ≤ now) :
    Knows (after baseDelay events).clients events now := by
  induction events using List.reverseRecOn generalizing now with
  | nil =>
      constructor
      · intro key entry found
        cases found
      · intro key isAbsent
        rfl
  | append_singleton events event ih =>
      rw [failureTimes, List.filterMap_append, ← failureTimes, List.pairwise_append] at ordered
      have latestBefore : ∀ time ∈ failureTimes events, time ≤ now := fun time mem =>
        latest time (by rw [failureTimes, List.filterMap_append]; exact List.mem_append_left _ mem)
      rw [after_append]
      cases event with
      | success client => exact (ih ordered.1 load.of_append latestBefore).erase client
      | failure client time =>
          have le : time ≤ now := latest time (by simp [failureTimes])
          have knows := (ih ordered.1 load.of_append fun before mem =>
            ordered.2.2 before mem time (by simp)).makeRoom
              (load events client time [] rfl) (clientKey client)
          refine Knows.mono ?_ le
          rw [step, LoginThrottle.recordFailure]
          dsimp only
          rw [knows.count_eq]
          exact knows.insert client

theorem delay_eq {client : Option IpAddr} {now : ℕ}
    (ordered : (failureTimes events).Pairwise (· ≤ ·)) (load : UnderLoad events)
    (latest : ∀ time ∈ failureTimes events, time ≤ now)
    (room : (recentKeys events now).toFinset.card < maxTrackedClients) :
    ((after baseDelay events).recordFailure client now).1 =
      min (baseDelay * 2 ^ min (failures client events now - 1) 16) failureMaxDelay := by
  have knows := (@knows_after baseDelay events ordered load now latest).makeRoom room
    (clientKey client)
  rw [LoginThrottle.recordFailure]
  dsimp only
  rw [knows.count_eq, baseDelay_after, failures, u32Max]
  congr 3
  omega

theorem delay_in_run {before rest : List Event} {client : Option IpAddr} {now : ℕ}
    (split : events = before ++ .failure client now :: rest)
    (ordered : (failureTimes events).Pairwise (· ≤ ·)) (load : UnderLoad events) :
    ((after baseDelay before).recordFailure client now).1 =
      min (baseDelay * 2 ^ min (failures client before now - 1) 16) failureMaxDelay := by
  subst split
  rw [failureTimes, List.filterMap_append, List.pairwise_append, ← failureTimes] at ordered
  refine delay_eq ordered.1 ?_ (fun time mem => ordered.2.2 time mem now (by simp))
    (load before client now rest rfl)
  rintro earlier other time later rfl
  exact load earlier other time (later ++ .failure client now :: rest) (by simp)

end Delays

/-! ## The size of the table -/

/-- A client that is not in the table finds room in it. -/
theorem length_makeRoom {clients : Clients} (atMost : clients.keys.length ≤ maxTrackedClients)
    (client : Option IpAddr) (now : ℕ) :
    (makeRoom clients client now).keys.length ≤ maxTrackedClients ∧
      (client ∉ makeRoom clients client now →
        (makeRoom clients client now).keys.length < maxTrackedClients) := by
  rw [makeRoom]
  split
  next full =>
    set kept := clients.retain fun _ entry => now - entry.last < failureWindow
    have fewer : kept.keys.length ≤ clients.keys.length := clients.length_keys_retain_le _
    dsimp only
    split
    next still =>
      cases oldest : kept.entries.argmin fun entry => entry.2.last with
      | none =>
          rw [AList.keys, List.argmin_eq_none.mp oldest] at still
          exact absurd still (by decide)
      | some entry =>
          have mem : entry.1 ∈ kept :=
            AList.mem_keys.mpr (List.mem_map_of_mem (List.argmin_mem oldest))
          have erased := kept.length_keys_erase entry.1
          rw [if_pos mem] at erased
          exact ⟨by dsimp only; omega, fun _ => by dsimp only; omega⟩
    next room => exact ⟨by omega, fun _ => by omega⟩
  next room =>
    refine ⟨atMost, fun absent => ?_⟩
    rw [not_and, Nat.not_le] at room
    exact room absent

/-- Who has to leave for a new client: an expired one, or the oldest of those that are not. -/
theorem of_evicted {clients : Clients} {client key : Option IpAddr} {now : ℕ}
    {entry : ClientFailures} (found : clients.lookup key = some entry)
    (evicted : key ∉ makeRoom clients client now) :
    client ∉ clients ∧ maxTrackedClients ≤ clients.keys.length ∧
      (failureWindow ≤ now - entry.last ∨ ∀ other otherEntry,
        clients.lookup other = some otherEntry → now - otherEntry.last < failureWindow →
          entry.last ≤ otherEntry.last) := by
  rw [makeRoom] at evicted
  split at evicted
  next full =>
    refine ⟨full.1, full.2, or_iff_not_imp_left.mpr fun recent other otherEntry isOther young => ?_⟩
    have own : (clients.retain fun _ entry => now - entry.last < failureWindow).lookup key =
        some entry := by
      rw [Registry.lookup_retain, found]
      simpa [Option.filter] using recent
    have stays : (clients.retain fun _ entry => now - entry.last < failureWindow).lookup other =
        some otherEntry := by
      rw [Registry.lookup_retain, isOther]
      simp [young]
    generalize (clients.retain fun _ entry => now - entry.last < failureWindow) = kept at *
    dsimp only at evicted
    have isKept : key ∈ kept := AList.lookup_isSome.mp (by simp [own])
    split at evicted
    · cases oldest : kept.entries.argmin fun entry => entry.2.last with
      | none => simp [oldest, isKept] at evicted
      | some first =>
          simp only [oldest, AList.mem_erase, isKept, and_true, not_not] at evicted
          subst evicted
          have isFirst := AList.mem_lookup_iff.mpr (List.argmin_mem oldest)
          rw [own, Option.mem_some_iff] at isFirst
          have le := List.not_lt_of_mem_argmin (AList.mem_lookup_iff.mp stays) oldest
          rw [isFirst]
          exact not_lt.mp le
    · exact absurd isKept evicted
  · exact absurd (AList.lookup_isSome.mp (by simp [found])) evicted

/-- Whatever clients fail, the table does not grow past its bound, and the next client that fails is
in it: a new client that finds it full takes the place of expired ones or of the oldest. -/
theorem table_bounded (baseDelay : ℕ) (events : List Event) (client : Option IpAddr) (now : ℕ) :
    let throttle := after baseDelay events
    let next := (throttle.recordFailure client now).2
    throttle.clients.keys.length ≤ maxTrackedClients ∧ clientKey client ∈ next.clients ∧
      ∀ key entry, throttle.clients.lookup key = some entry → key ∉ next.clients →
        clientKey client ∉ throttle.clients ∧
          throttle.clients.keys.length = maxTrackedClients ∧
          (failureWindow ≤ now - entry.last ∨ ∀ other otherEntry,
            throttle.clients.lookup other = some otherEntry →
              now - otherEntry.last < failureWindow → entry.last ≤ otherEntry.last) := by
  intro throttle next
  have bounded : throttle.clients.keys.length ≤ maxTrackedClients := by
    induction events using List.reverseRecOn with
    | nil => exact Nat.zero_le _
    | append_singleton events event ih =>
        rw [show throttle = _ from after_append event]
        cases event with
        | success client =>
            have erased := (after baseDelay events).clients.length_keys_erase (clientKey client)
            exact (Nat.le_of_add_right_le erased.le).trans ih
        | failure client now =>
            rcases length_makeRoom ih (clientKey client) now with ⟨atMost, room⟩
            rw [step, LoginThrottle.recordFailure]
            dsimp only
            rw [Registry.length_keys_insert]
            split
            · exact atMost
            next absent => exact room absent
  refine ⟨bounded, (AList.mem_insert _).mpr (.inl rfl), fun key entry found evicted => ?_⟩
  simp only [next, LoginThrottle.recordFailure, AList.mem_insert, not_or] at evicted
  rcases of_evicted found evicted.2 with ⟨isNew, full, leaves⟩
  exact ⟨isNew, le_antisymm bounded full, leaves⟩

end Rustnzb.Web.FailedLogins
