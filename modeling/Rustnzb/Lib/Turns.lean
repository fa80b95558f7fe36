import Mathlib.Data.Finset.Card

/-!
# Taking turns

A scheduler serves one client after the other. Who waits may change between two turns, but while
the same clients wait, none of them is to be served twice before another is served once.
-/

namespace Rustnzb.Lib

variable {Client : Type*}

/-- One turn: who waits, and who of them is served. -/
structure Serving (Client : Type*) where
  waiting : Finset Client
  served : Option Client

namespace Serving

/-- Somebody who waits is served, unless nobody does. -/
structure Sound (turn : Serving Client) : Prop where
  waits : ∀ client ∈ turn.served, client ∈ turn.waiting
  serves : ∀ client ∈ turn.waiting, turn.served ≠ none

/-- While the same clients wait, nobody is served twice before one who is not served. -/
def Ordered (turns : List (Serving Client)) : Prop :=
  ∀ window, window <:+: turns → ∀ waiting, (∀ turn ∈ window, turn.waiting = waiting) →
    ∀ client ∈ waiting, (∀ turn ∈ window, turn.served ≠ some client) →
      (window.map served).Nodup

/-- While the same clients wait, each is served in as many turns as there are clients. -/
def RoundRobin (turns : List (Serving Client)) : Prop :=
  ∀ window, window <:+: turns → ∀ waiting, (∀ turn ∈ window, turn.waiting = waiting) →
    window.length = waiting.card → ∀ client ∈ waiting, ∃ turn ∈ window, turn.served = some client

/-- Since `other` was served, the same clients have waited and `client` was not among the served. -/
def Overtaken (turns : List (Serving Client)) (waiting : Finset Client) (client other : Client) :
    Prop :=
  ∃ since, since <:+ turns ∧ (∃ turn ∈ since, turn.served = some other) ∧
    ∀ turn ∈ since, turn.waiting = waiting ∧ turn.served ≠ some client

variable {turns : List (Serving Client)}

/-- As many turns as there are clients cannot all go to different ones without one of them. -/
theorem Ordered.roundRobin [DecidableEq Client] (ordered : Ordered turns)
    (sound : ∀ turn ∈ turns, turn.Sound) : RoundRobin turns := by
  intro window inTurns waiting same length client waits
  by_contra! missed
  have distinct := ordered window inTurns waiting same client waits missed
  have others : (window.map served).toFinset ⊆ (waiting.erase client).image some := by
    intro served mem
    rcases List.mem_map.mp (List.mem_toFinset.mp mem) with ⟨turn, inWindow, rfl⟩
    have soundTurn := sound turn (inTurns.subset inWindow)
    cases found : turn.served with
    | none => exact absurd found (soundTurn.serves client (same turn inWindow ▸ waits))
    | some other =>
        refine Finset.mem_image_of_mem some (Finset.mem_erase.mpr ⟨fun eq => ?_, ?_⟩)
        · exact missed turn inWindow (eq ▸ found)
        · exact same turn inWindow ▸ soundTurn.waits other found
  have card := (Finset.card_le_card others).trans Finset.card_image_le
  rw [List.toFinset_card_of_nodup distinct, List.length_map, length,
    Finset.card_erase_of_mem waits] at card
  have positive := Finset.card_pos.mpr ⟨client, waits⟩
  omega

/-- Of two clients none is overtaken by one that was not served last. -/
theorem not_overtaken_of_card_le_two {waiting : Finset Client} {client other : Client}
    (sound : ∀ turn ∈ turns, turn.Sound) (few : waiting.card ≤ 2) (waits : client ∈ waiting)
    (otherWaits : other ∈ waiting) (notLast : ∀ turn ∈ turns.getLast?, turn.served ≠ some other) :
    ¬Overtaken turns waiting client other := by
  rintro ⟨since, ⟨before, rfl⟩, ⟨turn, inSince, served⟩, kept⟩
  rcases List.eq_nil_or_concat' since with rfl | ⟨front, last, rfl⟩
  · cases inSince
  have isLast : last ∈ front ++ [last] := by simp
  have soundLast := sound last (List.mem_append_right before isLast)
  rcases kept last isLast with ⟨same, notClient⟩
  cases found : last.served with
  | none => exact soundLast.serves client (same ▸ waits) found
  | some third =>
      have three : 2 < waiting.card := by
        refine Finset.two_lt_card.mpr ⟨client, waits, other, otherWaits, third,
          same ▸ soundLast.waits third found, ?_, ?_, ?_⟩ <;> rintro rfl
        · exact (kept turn inSince).2 served
        · exact notClient found
        · exact notLast last (by simp) found
      omega

theorem Ordered.of_append {more : List (Serving Client)} (ordered : Ordered (turns ++ more)) :
    Ordered turns :=
  fun window inTurns => ordered window (inTurns.trans (List.prefix_append turns more).isInfix)

/-- A turn keeps the order if it does not overtake anyone who waits. -/
theorem ordered_concat_iff {turn : Serving Client} (ordered : Ordered turns) (sound : turn.Sound) :
    Ordered (turns ++ [turn]) ↔ ∀ client ∈ turn.waiting, ∀ other ∈ turn.served,
      ¬Overtaken turns turn.waiting client other := by
  constructor
  · rintro after client waits other served
      ⟨since, isSuffix, ⟨earlier, inSince, servedEarlier⟩, kept⟩
    have notClient : turn.served ≠ some client := by
      intro same
      rw [Option.mem_def, same, Option.some.injEq] at served
      exact (kept earlier inSince).2 (served ▸ servedEarlier)
    have distinct := after (since ++ [turn]) ?window turn.waiting ?same client waits ?missed
    · rw [List.map_append, List.nodup_append] at distinct
      exact distinct.2.2 _ (List.mem_map_of_mem inSince) _ (by simp)
        (servedEarlier.trans served.symm)
    case window =>
      rcases isSuffix with ⟨front, rfl⟩
      exact ⟨front, [], by simp⟩
    case same =>
      intro some mem
      rcases List.mem_append.mp mem with mem | mem
      · exact (kept some mem).1
      · rw [List.mem_singleton.mp mem]
    case missed =>
      intro some mem
      rcases List.mem_append.mp mem with mem | mem
      · exact (kept some mem).2
      · rwa [List.mem_singleton.mp mem]
  · intro overtakes window inTurns waiting same client waits missed
    rcases List.infix_concat_iff.mp inTurns with isSuffix | inside
    · rcases List.suffix_concat_iff.mp isSuffix with rfl | ⟨since, rfl, sinceSuffix⟩
      · exact List.nodup_nil
      · have sameTurn := same turn (by simp)
        have distinct := ordered since sinceSuffix.isInfix waiting
          (fun earlier mem => same earlier (by simp [mem])) client waits
          fun earlier mem => missed earlier (by simp [mem])
        rw [List.map_append, List.nodup_append]
        refine ⟨distinct, List.nodup_singleton _, ?_⟩
        rintro _ mem _ memTurn rfl
        rcases List.mem_map.mp mem with ⟨earlier, inSince, eq⟩
        rw [List.map_singleton, List.mem_singleton] at memTurn
        cases found : turn.served with
        | none => exact sound.serves client (sameTurn ▸ waits) found
        | some other =>
            refine overtakes client (sameTurn ▸ waits) other found
              ⟨since, sinceSuffix, ⟨earlier, inSince, eq.trans (memTurn.trans found)⟩, ?_⟩
            intro later mem
            exact ⟨(same later (by simp [mem])).trans sameTurn.symm, missed later (by simp [mem])⟩
    · exact ordered window inside waiting same client waits missed

end Serving

end Rustnzb.Lib
