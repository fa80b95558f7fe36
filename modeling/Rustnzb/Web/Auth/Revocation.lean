import Rustnzb.Web.Auth.TokenStore

/-!
# A revoked session stays revoked

`refresh` takes the old token out under one lock and puts the new ones in under two others. A
revocation that removes the session in between misses them.
-/

namespace Rustnzb.Web

open Lib (Run execute)

namespace TokenStore

variable {Token : Type} [DecidableEq Token] {store next : TokenStore Token}

/-- What the revocations and rotations that have returned guarantee. -/
structure Final (store : TokenStore Token) : Prop where
  revoked : ∀ session ∈ store.ended, ∀ token,
    store.sessionOf token ≠ some session ∧ store.redeems token ≠ some session
  once : store.redeemed.Nodup
  attributed : ∀ token session, store.sessionOf token = some session →
    store.issuedFor token = some session

/-- No token goes into a map from which a revocation has already removed its session, and a token
that was live when its revocation began is still stored when the revocation looks it up. -/
def MayAdvance (store : TokenStore Token) : TokenCall Token → Prop
  | .insertAccess session _ _ _ => session ∉ store.sweptAccess
  | .insertRefresh session _ _ => session ∉ store.sweptRefresh
  | .revokeSession token (some _) .lookupRefresh => (store.refreshTokens token).isSome
  | _ => True

def InTime (store : TokenStore Token) : TokenEvent Token → Prop
  | .advance index => ∀ call ∈ store.calls[index]?, store.MayAdvance call
  | _ => True

/-! ## What a call relies on -/

def unstored : TokenCall Token → Option Token
  | .insertAccess _ _ refresh _ | .insertRefresh _ refresh _ => some refresh
  | _ => none

def Found (store : TokenStore Token) (live : Option ℕ) : Revoking → Prop
  | .lookupAccess | .lookupRefresh => True
  | .removeAccess session | .removeRefresh session => ∀ own ∈ live, session = some own
  | .retainAccess session => ∀ own ∈ live, session = own
  | .retainRefresh session => (∀ own ∈ live, session = own) ∧ session ∈ store.sweptAccess

def Relies (store : TokenStore Token) : TokenCall Token → Prop
  | .insertAccess session access refresh _ =>
      store.issuedFor access = some session ∧ store.issuedFor refresh = some session
  | .insertRefresh session refresh _ => store.issuedFor refresh = some session
  | .revokeSession token live stage =>
      (∀ own ∈ live, store.issuedFor token = some own) ∧ Found store live stage
  | .clearRefresh below => ∀ session < below, session ∈ store.sweptAccess
  | .issue _ | .clearAccess _ | .cleanAccess _ | .cleanRefresh _ => True

omit [DecidableEq Token] in
theorem Relies.mono {call : TokenCall Token} (relies : Relies store call)
    (issued : ∀ token session, store.issuedFor token = some session →
      next.issuedFor token = some session)
    (swept : ∀ session ∈ store.sweptAccess, session ∈ next.sweptAccess) : Relies next call := by
  rcases call with _ | _ | _ | ⟨token, live, stage⟩ | _ | _ | _ | _
  case issue => trivial
  case insertAccess => exact ⟨issued _ _ relies.1, issued _ _ relies.2⟩
  case insertRefresh => exact issued _ _ relies
  case revokeSession =>
    refine ⟨fun own isLive => issued _ _ (relies.1 own isLive), ?_⟩
    rcases stage with _ | _ | _ | _ | _ | session
    case retainRefresh => exact ⟨relies.2.1, swept session relies.2.2⟩
    all_goals exact relies.2
  case clearAccess => trivial
  case clearRefresh => exact fun session isBelow => swept session (relies session isBelow)
  case cleanAccess => trivial
  case cleanRefresh => trivial

structure Sound (store : TokenStore Token) : Prop where
  access : ∀ token entry, store.accessTokens token = some entry →
    store.issuedFor token = some entry.session ∧ entry.session ∉ store.sweptAccess
  refresh : ∀ token entry, store.refreshTokens token = some entry →
    store.issuedFor token = some entry.session ∧ entry.session ∉ store.sweptRefresh
  calls : ∀ call ∈ store.calls, Relies store call
  distinct : (store.calls.filterMap unstored).Nodup
  absent : ∀ token ∈ store.calls.filterMap unstored,
    store.refreshTokens token = none ∧ token ∉ store.redeemed
  once : store.redeemed.Nodup
  gone : ∀ token ∈ store.redeemed,
    store.refreshTokens token = none ∧ (store.issuedFor token).isSome
  ended : ∀ session ∈ store.ended, session ∈ store.sweptAccess ∧ session ∈ store.sweptRefresh

omit [DecidableEq Token] in
theorem liveSession_eq_some {entry : TokenEntry} {session : ℕ}
    (live : store.liveSession entry = some session) : entry.session = session := by
  simp only [liveSession, Option.ite_none_right_eq_some, Option.some.injEq] at live
  exact live.2

namespace Sound

omit [DecidableEq Token] in
theorem new : Sound (new : TokenStore Token) where
  access token entry found := by simp [TokenStore.new] at found
  refresh token entry found := by simp [TokenStore.new] at found
  calls call mem := by simp [TokenStore.new] at mem
  distinct := by simp [TokenStore.new]
  absent token mem := by simp [TokenStore.new] at mem
  once := List.nodup_nil
  gone token mem := by simp [TokenStore.new] at mem
  ended session mem := by simp [TokenStore.new] at mem

omit [DecidableEq Token] in
theorem final (sound : Sound store) : store.Final where
  revoked session ended token := by
    rcases sound.ended session ended with ⟨sweptAccess, sweptRefresh⟩
    constructor
    · intro accepted
      rcases Option.bind_eq_some_iff.mp accepted with ⟨entry, found, live⟩
      exact (sound.access token entry found).2 (liveSession_eq_some live ▸ sweptAccess)
    · intro accepted
      rcases Option.bind_eq_some_iff.mp accepted with ⟨entry, found, live⟩
      exact (sound.refresh token entry found).2 (liveSession_eq_some live ▸ sweptRefresh)
  once := sound.once
  attributed token session accepted := by
    rcases Option.bind_eq_some_iff.mp accepted with ⟨entry, found, live⟩
    rw [← liveSession_eq_some live]
    exact (sound.access token entry found).1

/-! ## What the steps keep -/

omit [DecidableEq Token] in
theorem shrink (sound : Sound store) {access refresh : Token → Option TokenEntry}
    (sweptAccess sweptRefresh : List ℕ) (fewerAccess : ∀ token entry, access token = some entry →
      store.accessTokens token = some entry ∧ entry.session ∉ sweptAccess)
    (fewerRefresh : ∀ token entry, refresh token = some entry →
      store.refreshTokens token = some entry ∧ entry.session ∉ sweptRefresh) :
    Sound { store with
      accessTokens := access
      refreshTokens := refresh
      sweptAccess := sweptAccess ++ store.sweptAccess
      sweptRefresh := sweptRefresh ++ store.sweptRefresh } := by
  have stillAbsent (token : Token) (absent : store.refreshTokens token = none) :
      refresh token = none := by
    apply Option.eq_none_iff_forall_ne_some.mpr
    intro entry found
    simp [(fewerRefresh token entry found).1] at absent
  constructor
  case access =>
    intro token entry found
    rcases fewerAccess token entry found with ⟨stored, notSwept⟩
    rcases sound.access token entry stored with ⟨issued, notBefore⟩
    exact ⟨issued, by simp [notSwept, notBefore]⟩
  case refresh =>
    intro token entry found
    rcases fewerRefresh token entry found with ⟨stored, notSwept⟩
    rcases sound.refresh token entry stored with ⟨issued, notBefore⟩
    exact ⟨issued, by simp [notSwept, notBefore]⟩
  case calls =>
    intro call mem
    exact (sound.calls call mem).mono (fun _ _ => id) fun session => List.mem_append_right _
  case distinct => exact sound.distinct
  case absent =>
    intro token mem
    exact ⟨stillAbsent token (sound.absent token mem).1, (sound.absent token mem).2⟩
  case once => exact sound.once
  case gone =>
    intro token mem
    exact ⟨stillAbsent token (sound.gone token mem).1, (sound.gone token mem).2⟩
  case ended =>
    intro session mem
    rcases sound.ended session mem with ⟨inAccess, inRefresh⟩
    exact ⟨List.mem_append_right _ inAccess, List.mem_append_right _ inRefresh⟩

theorem removeAccess (sound : Sound store) (token : Token) : Sound (store.removeAccess token) := by
  apply sound.shrink [] []
  · intro other entry found
    rw [Function.update_apply] at found
    split at found
    · cases found
    · exact ⟨found, by simp⟩
  · exact fun other entry found => ⟨found, by simp⟩

theorem removeRefresh (sound : Sound store) (token : Token) :
    Sound (store.removeRefresh token) := by
  apply sound.shrink [] []
  · exact fun other entry found => ⟨found, by simp⟩
  · intro other entry found
    rw [Function.update_apply] at found
    split at found
    · cases found
    · exact ⟨found, by simp⟩

omit [DecidableEq Token] in
theorem retainAccess (sound : Sound store) (keep : TokenEntry → Bool) (sessions : List ℕ)
    (removes : ∀ entry, keep entry = true → entry.session ∉ sessions) :
    Sound { store.retainAccess keep with sweptAccess := sessions ++ store.sweptAccess } := by
  apply sound.shrink sessions []
  · intro token entry found
    rcases Option.filter_eq_some_iff.mp found with ⟨stored, kept⟩
    exact ⟨stored, removes entry kept⟩
  · exact fun other entry found => ⟨found, by simp⟩

omit [DecidableEq Token] in
theorem retainRefresh (sound : Sound store) (keep : TokenEntry → Bool) (sessions : List ℕ)
    (removes : ∀ entry, keep entry = true → entry.session ∉ sessions) :
    Sound { store.retainRefresh keep with sweptRefresh := sessions ++ store.sweptRefresh } := by
  apply sound.shrink [] sessions
  · exact fun other entry found => ⟨found, by simp⟩
  · intro token entry found
    rcases Option.filter_eq_some_iff.mp found with ⟨stored, kept⟩
    exact ⟨stored, removes entry kept⟩

omit [DecidableEq Token] in
theorem endSessions (sound : Sound store) (sessions : List ℕ)
    (swept : ∀ session ∈ sessions, session ∈ store.sweptAccess ∧ session ∈ store.sweptRefresh) :
    Sound { store with ended := sessions ++ store.ended } :=
  { sound with
    calls := fun call mem => (sound.calls call mem).mono (fun _ _ => id) fun _ => id
    ended := by
      intro session mem
      rcases List.mem_append.mp mem with isNew | before
      · exact swept session isNew
      · exact sound.ended session before }

omit [DecidableEq Token] in
theorem begin (sound : Sound store) {call : TokenCall Token} (relies : Relies store call)
    (nothing : unstored call = none) : Sound (store.begin call) where
  access := sound.access
  refresh := sound.refresh
  calls other mem := by
    refine Relies.mono (?_ : Relies store other) (fun _ _ => id) fun _ => id
    rcases List.mem_append.mp mem with before | isNew
    · exact sound.calls other before
    · rw [List.mem_singleton.mp isNew]
      exact relies
  distinct := by simpa [TokenStore.begin, nothing] using sound.distinct
  absent token mem := by
    simp only [TokenStore.begin, List.filterMap_append, List.filterMap_cons, nothing,
      List.filterMap_nil, List.append_nil] at mem
    exact sound.absent token mem
  once := sound.once
  gone := sound.gone
  ended := sound.ended

omit [DecidableEq Token] in
theorem unstored_perm {index : ℕ} {call : TokenCall Token}
    (found : store.calls[index]? = some call) :
    ((unstored call).toList ++ (store.calls.eraseIdx index).filterMap unstored).Perm
      (store.calls.filterMap unstored) := by
  rcases List.getElem?_eq_some_iff.mp found with ⟨bound, rfl⟩
  have perm := (List.getElem_cons_eraseIdx_perm bound).filterMap unstored
  rw [List.filterMap_cons] at perm
  split at perm
  next none => simpa [none] using perm
  next token isSome => simpa [isSome] using perm

omit [DecidableEq Token] in
theorem follow (sound : Sound store) {index : ℕ} {call : TokenCall Token}
    {rest : Option (TokenCall Token)} (found : store.calls[index]? = some call)
    (relies : ∀ after ∈ rest, Relies store after)
    (same : ∀ after ∈ rest, unstored after = unstored call) : Sound (store.follow index rest) := by
  have remaining : ((store.follow index rest).calls.filterMap unstored).Subperm
      (store.calls.filterMap unstored) := by
    refine (?_ : List.Subperm _ _).trans (unstored_perm found).subperm
    rw [TokenStore.follow, List.filterMap_append]
    rcases rest with _ | after
    · simpa using (List.sublist_append_right _ _).subperm
    · have isSame := same after rfl
      apply List.Perm.subperm
      rw [← isSame]
      refine List.perm_append_comm.trans (List.Perm.append_right _ ?_)
      rcases held : unstored after with _ | token <;> simp [held]
  constructor
  case access => exact sound.access
  case refresh => exact sound.refresh
  case calls =>
    intro other mem
    refine Relies.mono (?_ : Relies store other) (fun _ _ => id) fun _ => id
    rcases List.mem_append.mp mem with before | isNew
    · exact sound.calls other (List.mem_of_mem_eraseIdx before)
    · exact relies other (Option.mem_toList.mp isNew)
  case distinct =>
    rcases remaining with ⟨list, perm, sublist⟩
    exact perm.nodup_iff.mp (sublist.nodup sound.distinct)
  case absent => exact fun token mem => sound.absent token (remaining.subset mem)
  case once => exact sound.once
  case gone => exact sound.gone
  case ended => exact sound.ended

theorem insertAccess (sound : Sound store) {token : Token} {entry : TokenEntry}
    (issued : store.issuedFor token = some entry.session)
    (inTime : entry.session ∉ store.sweptAccess) : Sound (store.insertAccess token entry) :=
  { sound with
    access := by
      intro other found stored
      simp only [TokenStore.insertAccess, Function.update_apply] at stored
      split at stored
      next same =>
        cases stored
        rw [same]
        exact ⟨issued, inTime⟩
      · exact sound.access other found stored
    calls := fun call mem => (sound.calls call mem).mono (fun _ _ => id) fun _ => id }

theorem insertRefresh (sound : Sound store) {token : Token} {entry : TokenEntry}
    (issued : store.issuedFor token = some entry.session)
    (inTime : entry.session ∉ store.sweptRefresh) (stored : token ∉ store.calls.filterMap unstored)
    (notRedeemed : token ∉ store.redeemed) : Sound (store.insertRefresh token entry) :=
  { sound with
    refresh := by
      intro other found stored
      simp only [TokenStore.insertRefresh, Function.update_apply] at stored
      split at stored
      next same =>
        cases stored
        rw [same]
        exact ⟨issued, inTime⟩
      · exact sound.refresh other found stored
    calls := fun call mem => (sound.calls call mem).mono (fun _ _ => id) fun _ => id
    absent := by
      intro other mem
      have differs : other ≠ token := fun same => stored (same ▸ mem)
      simp only [TokenStore.insertRefresh, Function.update_of_ne differs]
      exact sound.absent other mem
    gone := by
      intro other mem
      have differs : other ≠ token := fun same => notRedeemed (same ▸ mem)
      simp only [TokenStore.insertRefresh, Function.update_of_ne differs]
      exact sound.gone other mem }

theorem redeem (sound : Sound store) {token : Token} {entry : TokenEntry}
    (found : store.refreshTokens token = some entry) :
    Sound { store.removeRefresh token with redeemed := token :: store.redeemed } := by
  have removed := sound.removeRefresh token
  constructor
  case access => exact removed.access
  case refresh => exact removed.refresh
  case calls => exact fun call mem => (removed.calls call mem).mono (fun _ _ => id) fun _ => id
  case distinct => exact removed.distinct
  case absent =>
    intro other mem
    refine ⟨(removed.absent other mem).1, ?_⟩
    rw [List.mem_cons, not_or]
    refine ⟨?_, (removed.absent other mem).2⟩
    rintro rfl
    simpa [found] using (sound.absent other mem).1
  case once =>
    refine List.nodup_cons.mpr ⟨?_, sound.once⟩
    intro again
    simpa [found] using (sound.gone token again).1
  case gone =>
    intro other mem
    rcases List.mem_cons.mp mem with rfl | before
    · refine ⟨Function.update_self .., ?_⟩
      exact Option.isSome_of_mem (sound.refresh other entry found).1
    · exact removed.gone other before
  case ended => exact removed.ended

/-- A call of `issue_tokens` draws tokens that nobody has. -/
theorem draw (sound : Sound store) (index session : ℕ) {access refresh : Token}
    (freshAccess : store.issuedFor access = none) (freshRefresh : store.issuedFor refresh = none)
    (differ : access ≠ refresh) :
    Sound ({ store with
      issuedFor := Function.update (Function.update store.issuedFor access (some session))
        refresh (some session) }.follow index
          (some (.insertAccess session access refresh store.now))) := by
  have issued (token : Token) (own : ℕ) (isOwn : store.issuedFor token = some own) :
      Function.update (Function.update store.issuedFor access (some session)) refresh
        (some session) token = some own := by
    rw [Function.update_of_ne, Function.update_of_ne, isOwn]
    · rintro rfl
      simp [freshAccess] at isOwn
    · rintro rfl
      simp [freshRefresh] at isOwn
  have unstoredIssued (token : Token) (mem : token ∈ store.calls.filterMap unstored) :
      (store.issuedFor token).isSome := by
    rcases List.mem_filterMap.mp mem with ⟨call, isCall, holds⟩
    have relies := sound.calls call isCall
    rcases call with _ | _ | _ | _ | _ | _ | _ | _ <;> cases holds
    case insertAccess => exact Option.isSome_of_mem relies.2
    case insertRefresh => exact Option.isSome_of_mem relies
  have calls : (store.calls.eraseIdx index).filterMap unstored ++ [refresh] =
      (({ store with
        issuedFor := Function.update (Function.update store.issuedFor access (some session))
          refresh (some session) }.follow index
            (some (.insertAccess session access refresh store.now))).calls.filterMap unstored) := by
    simp [TokenStore.follow, unstored]
  have sublist : List.Sublist ((store.calls.eraseIdx index).filterMap unstored)
      (store.calls.filterMap unstored) := (List.eraseIdx_sublist ..).filterMap _
  constructor
  case access =>
    intro token entry stored
    exact ⟨issued _ _ (sound.access token entry stored).1, (sound.access token entry stored).2⟩
  case refresh =>
    intro token entry stored
    exact ⟨issued _ _ (sound.refresh token entry stored).1, (sound.refresh token entry stored).2⟩
  case calls =>
    intro call mem
    rcases List.mem_append.mp mem with before | isNew
    · exact (sound.calls call (List.mem_of_mem_eraseIdx before)).mono issued fun _ => id
    · simp only [Option.toList_some, List.mem_singleton] at isNew
      subst isNew
      constructor
      · simp only [TokenStore.follow, Function.update_of_ne differ, Function.update_self]
      · exact Function.update_self ..
  case distinct =>
    rw [← calls]
    refine List.nodup_append.mpr ⟨sublist.nodup sound.distinct, by simp, ?_⟩
    intro token mem other isOther
    rw [List.mem_singleton.mp isOther]
    rintro rfl
    simpa [freshRefresh] using unstoredIssued token (sublist.subset mem)
  case absent =>
    intro token mem
    rw [← calls] at mem
    rcases List.mem_append.mp mem with before | isNew
    · exact sound.absent token (sublist.subset before)
    · rw [List.mem_singleton.mp isNew]
      constructor
      · apply Option.eq_none_iff_forall_ne_some.mpr
        intro entry stored
        simpa [freshRefresh] using (sound.refresh refresh entry stored).1
      · intro redeemed
        simpa [freshRefresh] using (sound.gone refresh redeemed).2
  case once => exact sound.once
  case gone =>
    intro token mem
    rcases Option.isSome_iff_exists.mp (sound.gone token mem).2 with ⟨own, isOwn⟩
    exact ⟨(sound.gone token mem).1, Option.isSome_of_mem (issued token own isOwn)⟩
  case ended => exact sound.ended

theorem advance (sound : Sound store) {index : ℕ} {call : TokenCall Token}
    (found : store.calls[index]? = some call) (inTime : store.InTime (.advance index))
    (move : store.advance index call = some next) : Sound next := by
  have relies := sound.calls call (List.mem_of_getElem? found)
  replace inTime : store.MayAdvance call := inTime call found
  rcases call with _ | ⟨session, access, refresh, now⟩ | ⟨session, refresh, now⟩ |
    ⟨token, live, stage⟩ | below | below | now | now
  case issue => cases move
  case insertAccess =>
    cases move
    have notSwept : session ∉ store.sweptAccess := inTime
    apply (sound.insertAccess relies.1 notSwept).follow found
    · rintro _ ⟨⟩
      exact relies.2
    · rintro _ ⟨⟩
      rfl
  case insertRefresh =>
    cases move
    have isUnstored : refresh ∈ store.calls.filterMap unstored :=
      List.mem_filterMap.mpr ⟨_, List.mem_of_getElem? found, rfl⟩
    have distinct := (unstored_perm found).nodup_iff.mpr sound.distinct
    have followed : Sound (store.follow _ none) :=
      sound.follow found (by rintro _ ⟨⟩) (by rintro _ ⟨⟩)
    refine followed.insertRefresh relies inTime ?_ ?_
    · simpa [TokenStore.follow] using (List.nodup_cons.mp distinct).1
    · exact (sound.absent refresh isUnstored).2
  case revokeSession =>
    rcases stage with _ | _ | session | session | session | session
    case lookupAccess =>
      cases move
      apply sound.follow found
      · rintro _ ⟨⟩
        refine ⟨relies.1, ?_⟩
        split
        next entry stored =>
          intro own isLive
          rw [← (sound.access token entry stored).1]
          exact relies.1 own isLive
        · trivial
      · rintro _ ⟨⟩
        rfl
    case lookupRefresh =>
      cases move
      apply sound.follow found
      · rintro _ ⟨⟩
        refine ⟨relies.1, ?_⟩
        rintro own ⟨⟩
        rcases Option.isSome_iff_exists.mp inTime with ⟨entry, stored⟩
        rw [stored, Option.map_some, ← (sound.refresh token entry stored).1]
        exact relies.1 own rfl
      · rintro _ ⟨⟩
        rfl
    case removeAccess =>
      cases move
      apply (sound.removeAccess token).follow found
      · rintro _ ⟨⟩
        exact relies
      · rintro _ ⟨⟩
        rfl
    case removeRefresh =>
      rcases session with _ | session
      · cases move
        -- a revocation of a live token has found its session
        rcases live with _ | own
        · apply ((sound.removeRefresh token).endSessions [] _).follow found
          · rintro _ ⟨⟩
          · rintro _ ⟨⟩
          · simp
        · cases relies.2 own rfl
      · cases move
        apply (sound.removeRefresh token).follow found
        · rintro _ ⟨⟩
          exact ⟨relies.1, fun own isLive => Option.some.inj (relies.2 own isLive)⟩
        · rintro _ ⟨⟩
          rfl
    case retainAccess =>
      cases move
      refine Sound.follow (sound.retainAccess _ [session] ?_) found ?_ ?_
      · simp
      · rintro _ ⟨⟩
        exact ⟨relies.1, relies.2, by simp⟩
      · rintro _ ⟨⟩
        rfl
    case retainRefresh =>
      cases move
      refine Sound.follow (Sound.endSessions (sound.retainRefresh _ [session] ?_) _ ?_) found ?_ ?_
      · simp
      · intro own isLive
        rw [Option.mem_toList] at isLive
        rw [← relies.2.1 own isLive]
        exact ⟨relies.2.2, by simp⟩
      · rintro _ ⟨⟩
      · rintro _ ⟨⟩
  case clearAccess =>
    cases move
    refine Sound.follow (sound.retainAccess _ (List.range below) ?_) found ?_ ?_
    · simp
    · rintro _ ⟨⟩
      exact fun session isBelow => List.mem_append_left _ (List.mem_range.mpr isBelow)
    · rintro _ ⟨⟩
      rfl
  case clearRefresh =>
    cases move
    refine Sound.follow (Sound.endSessions (sound.retainRefresh _ (List.range below) ?_) _ ?_)
      found ?_ ?_
    · simp
    · intro session mem
      exact ⟨relies session (List.mem_range.mp mem), List.mem_append_left _ mem⟩
    · rintro _ ⟨⟩
    · rintro _ ⟨⟩
  case cleanAccess =>
    cases move
    refine Sound.follow (sound.retainAccess _ [] ?_) found ?_ ?_
    · simp
    · rintro _ ⟨⟩
      trivial
    · rintro _ ⟨⟩
      rfl
  case cleanRefresh =>
    cases move
    refine Sound.follow (sound.retainRefresh _ [] ?_) found ?_ ?_
    · simp
    · rintro _ ⟨⟩
    · rintro _ ⟨⟩

theorem refreshStep (sound : Sound store) (token : Token) : Sound (store.refresh token) := by
  rw [TokenStore.refresh]
  split
  · exact sound
  next entry found =>
    split
    · exact sound.removeRefresh token
    · exact (sound.redeem found).begin trivial rfl

omit [DecidableEq Token] in
theorem issued_of_live (sound : Sound store) {token : Token} {session : ℕ}
    (live : session ∈ (store.sessionOf token).or (store.redeems token)) :
    store.issuedFor token = some session := by
  rcases Option.or_eq_some_iff.mp live with inAccess | ⟨-, inRefresh⟩
  · exact sound.final.attributed token session inAccess
  · rcases Option.bind_eq_some_iff.mp inRefresh with ⟨entry, found, isLive⟩
    rw [← liveSession_eq_some isLive]
    exact (sound.refresh token entry found).1

theorem step (sound : Sound store) {event : TokenEvent Token} (inTime : store.InTime event)
    (move : Step store event next) : Sound next := by
  rcases event with elapsed | _ | token | token | token | _ | _ | ⟨call, access, refresh⟩ | call
  case tick =>
    cases move
    exact { sound with
      calls := fun call mem => (sound.calls call mem).mono (fun _ _ => id) fun _ => id }
  case createTokens =>
    cases move
    refine Sound.begin (?_ : Sound { store with nextSession := _ }) trivial rfl
    exact { sound with
      calls := fun call mem => (sound.calls call mem).mono (fun _ _ => id) fun _ => id }
  case refresh =>
    cases move
    exact sound.refreshStep token
  case revokeRefreshToken =>
    cases move
    exact sound.removeRefresh token
  case revokeSessionOf =>
    cases move
    exact sound.begin ⟨fun own live => sound.issued_of_live live, trivial⟩ rfl
  case revokeAll =>
    cases move
    exact sound.begin trivial rfl
  case cleanupExpired =>
    cases move
    exact sound.begin trivial rfl
  case draw =>
    simp only [Step, TokenStore.step] at move
    split at move
    next session found =>
      rcases Option.ite_none_right_eq_some.mp move with ⟨⟨freshAccess, freshRefresh, differ⟩, ⟨⟩⟩
      exact sound.draw call session freshAccess freshRefresh differ
    · cases move
  case advance =>
    rcases Option.bind_eq_some_iff.mp move with ⟨current, found, moved⟩
    exact sound.advance found inTime moved

end Sound

/-- Revocation is final in every run in which no token is stored behind a revocation. -/
theorem final_of_inTime {events : List (TokenEvent Token)} (run : Run Step new events store)
    (inTime : Run.Always Step (new : TokenStore Token) (fun _ => InTime) events) : store.Final := by
  apply Sound.final
  apply run.invariant_of_steps (fun _ => Sound) inTime Sound.new
  intro _ before event after _ sound meets move
  exact sound.step meets move

theorem step_functional (store : TokenStore Token) (event : TokenEvent Token)
    (next other : TokenStore Token) (move : Step store event next)
    (move' : Step store event other) : next = other :=
  Option.some.inj (move.symm.trans move')

instance (store : TokenStore Token) : (call : TokenCall Token) → Decidable (store.MayAdvance call)
  | .insertAccess session _ _ _ => inferInstanceAs (Decidable (session ∉ store.sweptAccess))
  | .insertRefresh session _ _ => inferInstanceAs (Decidable (session ∉ store.sweptRefresh))
  | .revokeSession token (some _) .lookupRefresh =>
      inferInstanceAs (Decidable ((store.refreshTokens token).isSome = true))
  | .revokeSession _ none _ | .revokeSession _ (some _) .lookupAccess
  | .revokeSession _ (some _) (.removeAccess _) | .revokeSession _ (some _) (.removeRefresh _)
  | .revokeSession _ (some _) (.retainAccess _) | .revokeSession _ (some _) (.retainRefresh _)
  | .issue _ | .clearAccess _ | .clearRefresh _ | .cleanAccess _ | .cleanRefresh _ =>
    .isTrue trivial

instance (store : TokenStore Token) : (event : TokenEvent Token) → Decidable (store.InTime event)
  | .advance index =>
    inferInstanceAs (Decidable (∀ call ∈ store.calls[index]?, store.MayAdvance call))
  | .tick _ | .createTokens | .refresh _ | .revokeRefreshToken _ | .revokeSessionOf _
  | .revokeAll | .cleanupExpired | .draw .. => .isTrue trivial

def inTimeStep (store : TokenStore Token) (event : TokenEvent Token) : Option (TokenStore Token) :=
  if store.InTime event then store.step event else none

theorem sound_inTimeStep (store : TokenStore Token) (event : TokenEvent Token)
    (next : TokenStore Token) (move : store.inTimeStep event = some next) :
    Step store event next ∧ store.InTime event := by
  rcases Option.ite_none_right_eq_some.mp move with ⟨inTime, step⟩
  exact ⟨step, inTime⟩

def logout : List (TokenEvent ℕ) :=
  [.createTokens, .draw 0 1 2, .advance 0, .advance 0, .refresh 2, .draw 0 3 4, .advance 0,
    .advance 0, .revokeSessionOf 3, .advance 0, .advance 0, .advance 0, .advance 0, .advance 0]

theorem final_of_inTime_logout : ∃ store, Run Step (new : TokenStore ℕ) logout store ∧
    store.ended = [0] ∧ store.issuedFor 4 = some 0 ∧ store.Final := by
  rcases executed : execute inTimeStep (new : TokenStore ℕ) logout with _ | store
  · cases executed
  · rcases Run.always_of_execute step_functional sound_inTimeStep Run.start Run.Always.nil
      executed with ⟨run, inTime⟩
    cases executed
    exact ⟨_, run, by decide, by decide, final_of_inTime run inTime⟩

/-- The session is revoked between the two halves of its rotation. -/
def revokedInGap : List (TokenEvent ℕ) :=
  [.createTokens, .draw 0 1 2, .advance 0, .advance 0, .refresh 2, .draw 0 3 4,
    .revokeSessionOf 1, .advance 1, .advance 1, .advance 1, .advance 1, .advance 1, .advance 0]

theorem not_final_revokedInGap :
    ∃ store, Run Step (new : TokenStore ℕ) revokedInGap store ∧ ¬store.Final := by
  have ends : execute step (new : TokenStore ℕ) revokedInGap = some _ := rfl
  refine ⟨_, Run.of_execute (fun _ _ _ move => move) .start ends, ?_⟩
  intro final
  exact (final.revoked 0 (by decide) 3).1 (by decide)

end TokenStore

end Rustnzb.Web
