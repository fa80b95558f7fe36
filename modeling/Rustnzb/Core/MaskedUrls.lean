import Mathlib.Data.Bool.AllAny
import Rustnzb.Core.SecretMasks

/-!
# What a masked URL gives away

The parts of a URL are those of RFC 3986. The code looks for the login up to the next slash only, so
an `@` in the query or the fragment of a URL without a path is taken for the end of a login.
-/

namespace Rustnzb.Core

open Lib (Authority Url part splitScheme userinfoPart)

def hideUserinfo (url : Url) : Url :=
  { url with
    authority := url.authority.map fun authority =>
      { authority with userinfo := authority.userinfo.map fun _ => [] } }

def hideQuery (url : Url) : Url :=
  { url with query := url.query.map fun _ => [] }

def SameProxyUrl (url other : List Char) : Prop :=
  hideUserinfo (Url.parse url) = hideUserinfo (Url.parse other)

def SameFeedUrl (url other : List Char) : Prop :=
  hideQuery (hideUserinfo (Url.parse url)) = hideQuery (hideUserinfo (Url.parse other))

def place (url : List Char) : Option (List Char × List Char) × List Char :=
  ((Url.parse url).authority.map fun authority => (authority.scheme, authority.host),
    (Url.parse url).path)

/-- The masks of two URLs are the same, still say which place they name, and are masked by
themselves. -/
structure ConcealsUrl (mask : List Char → List Char) (url other : List Char) : Prop where
  same : mask url = mask other
  place : ∀ text, text = url ∨ text = other → place (mask text) = place text
  again : ∀ text, text = url ∨ text = other → mask (mask text) = mask text

/-- An `@` behind a host without a path, and before the next slash, has the same host behind it. -/
def Astray (parts : Url) (authority : Authority) (after : List Char) : Prop :=
  parts.authority = some authority ∧ parts.path = [] ∧ pastLogin parts.tail = some after

structure ProxySafe (parts : Url) : Prop where
  astray : ∀ authority after, Astray parts authority after → (Url.parse after).base = authority.host

structure FeedSafe (parts : Url) : Prop where
  noQuery : ∀ authority, parts.authority = some authority → parts.path = [] → parts.query = none
  astray : ∀ authority after, Astray parts authority after →
    (Url.parse after).base = authority.host ∧
      ((Url.parse after).query = none ∨ pastLogin (part '#' (Url.parse after).fragment) = none)
  fragment : parts.authority = none → parts.query ≠ none → ∀ fragment,
    parts.fragment = some fragment →
      maskProxyUserinfo fragment = fragment ∧ pastLogin fragment = none

/-! ## Masked parts -/

def maskUserinfoPart (url : Url) : Url :=
  { url with
    authority := url.authority.map fun authority =>
      { authority with userinfo := maskSecret authority.userinfo } }

section Parts

variable {parts : Url} {authority : Authority} {after : List Char}

theorem plain_secretMask : ∀ char ∈ secretMask, char ≠ '/' ∧ char ≠ '?' ∧ char ≠ '#' :=
  List.all_iff_forall_prop.mp (by decide)

theorem wellFormed_maskUserinfoPart (wellFormed : parts.WellFormed) :
    (maskUserinfoPart parts).WellFormed :=
  wellFormed.relogin plain_secretMask

theorem wellFormed_maskQueryPart (wellFormed : parts.WellFormed) :
    (maskQueryPart parts).WellFormed := by
  refine ⟨wellFormed.authority, wellFormed.plain, wellFormed.path, ?_⟩
  intro query found
  rcases Option.map_eq_some_iff.mp found with ⟨secret, -, rfl⟩
  exact fun here => (plain_secretMask _ here).2.2 rfl

theorem parse_maskQueryString (text : List Char) :
    Url.parse (maskQueryString text) = maskQueryPart (Url.parse text) := by
  rw [maskQueryString_eq]
  exact Url.parse_render (wellFormed_maskQueryPart (Url.wellFormed_parse text))

theorem place_maskUrlSecrets (url : List Char) :
    place (maskUrlSecrets url) = place (maskProxyUserinfo url) := by
  rw [place, place, maskUrlSecrets, parse_maskQueryString]
  rfl

section

variable (wellFormed : parts.WellFormed)

include wellFormed

section

variable (here : parts.authority = some authority)

include here

theorem noSlash_tail :
    '/' ∉ authority.tail := fun slash =>
  ((wellFormed.authority _ here).1.delimited _ slash).1 rfl

theorem maskProxyUserinfo_render :
    maskProxyUserinfo parts.render =
      authority.scheme ++ maskLogin (authority.tail ++ (parts.path ++ parts.tail)) := by
  have split := Lib.splitScheme_append (wellFormed.authority _ here).1.scheme
    (authority.tail ++ (parts.path ++ parts.tail))
  rw [← maskProxyUserinfo_of_some split]
  simp [Url.render, Url.base, here]

theorem maskProxyUserinfo_delimited (delimited : pastLogin (parts.path ++ parts.tail) = none) :
    maskProxyUserinfo parts.render = (maskUserinfoPart parts).render := by
  have formed := (wellFormed.authority _ here).1
  have hostNone : pastLogin authority.host = none :=
    pastLogin_eq_none.mpr fun inside => formed.host ((List.takeWhile_prefix _).subset inside)
  have masked : maskLogin authority.tail =
      Authority.tail { authority with userinfo := maskSecret authority.userinfo } := by
    have noSlash := noSlash_tail wellFormed here
    cases userinfo : authority.userinfo with
    | none => simp [maskLogin, Authority.tail, userinfo, userinfoPart, hostNone, maskSecret]
    | some login =>
        simp only [Authority.tail, userinfo, userinfoPart, List.append_assoc,
          List.singleton_append, List.mem_append, not_or] at noSlash ⊢
        simp [maskLogin, pastLogin_login login noSlash.1 hostNone, maskSecret]
  rw [maskProxyUserinfo_render wellFormed here, maskLogin_append delimited, masked]
  simp [Url.render, Url.base, Url.tail, maskUserinfoPart, here]

theorem pastLogin_of_path
    (path : parts.path ≠ []) : pastLogin (parts.path ++ parts.tail) = none := by
  rw [pastLogin_eq_none]
  rcases (wellFormed.authority _ here).2 with empty | first
  · exact absurd empty path
  · cases shape : parts.path with
    | nil => exact absurd shape path
    | cons char rest =>
        rw [shape] at first
        cases first
        simp

end

/-- Past an `@` astray, the code has forgotten the authority. -/
theorem parse_maskProxyUserinfo_astray (astray : Astray parts authority after) :
    Url.parse (maskProxyUserinfo parts.render) =
      ⟨some ⟨authority.scheme, some secretMask, (Url.parse after).base.takeWhile (· ≠ '/')⟩,
        (Url.parse after).base.dropWhile (· ≠ '/'), (Url.parse after).query,
        (Url.parse after).fragment⟩ := by
  rcases astray with ⟨here, path, found⟩
  have formed := (wellFormed.authority _ here).1
  rcases of_pastLogin found with ⟨login, -, -, last⟩
  have masked : maskProxyUserinfo parts.render =
      (authority.scheme ++ (secretMask ++ ['@'])) ++ after := by
    rw [maskProxyUserinfo_render wellFormed here, path, List.nil_append, maskLogin,
      pastLogin_append_of_some (noSlash_tail wellFormed here) found]
    simp
  have plain : ∀ char ∈ authority.scheme ++ (secretMask ++ ['@']), char ≠ '?' ∧ char ≠ '#' := by
    intro char inside
    rw [List.mem_append] at inside
    rcases inside with inScheme | inMask
    · exact formed.plain char inScheme
    · revert char
      exact List.all_iff_forall_prop.mp (by decide)
  have noSlash : '/' ∉ secretMask ++ ['@'] := by decide
  have hostPlain : '@' ∉ (Url.parse after).base.takeWhile (· ≠ '/') := by
    intro inside
    refine pastLogin_eq_none.mp last ?_
    rw [← Url.render_parse after, Url.render, List.takeWhile_append]
    split
    · exact List.mem_append_left _ ((List.takeWhile_prefix _).subset inside)
    · exact inside
  rw [masked, Url.parse_append plain, Url.parseBase, List.append_assoc,
    Lib.splitScheme_append formed.scheme]
  simp only [Lib.takeWhile_append_of_notMem noSlash, Lib.dropWhile_append_of_notMem noSlash]
  rw [Authority.parse, List.append_assoc, List.singleton_append, Lib.rsplitOnce_append hostPlain]

theorem place_astray_iff (astray : Astray parts authority after) :
    place (maskProxyUserinfo parts.render) = place parts.render ↔
      (Url.parse after).base = authority.host := by
  have here := astray.1
  have noSlash : '/' ∉ authority.host := fun slash =>
    noSlash_tail wellFormed here (List.mem_append_right _ slash)
  rw [place, place, parse_maskProxyUserinfo_astray wellFormed astray, Url.parse_render wellFormed,
    here, astray.2.1]
  simp only [Option.map_some, Prod.mk.injEq, Option.some.injEq, true_and]
  constructor
  · rintro ⟨host, path⟩
    rw [← host, ← List.append_nil ((Url.parse after).base.takeWhile _), ← path,
      List.takeWhile_append_dropWhile]
  · intro same
    rw [same]
    exact ⟨Lib.takeWhile_of_notMem noSlash, Lib.dropWhile_of_notMem noSlash⟩

theorem place_maskUserinfoPart :
    place (maskUserinfoPart parts).render = place parts.render := by
  rw [place, place, Url.parse_render wellFormed,
    Url.parse_render (wellFormed_maskUserinfoPart wellFormed)]
  cases here : parts.authority <;> simp [maskUserinfoPart, here]

theorem maskProxyUserinfo_plain (here : parts.authority = none)
    {delimiter : Char} (noColon : delimiter ≠ ':') (noSlash : delimiter ≠ '/') {behind : List Char}
    (tail : parts.tail = delimiter :: behind) :
    maskProxyUserinfo parts.render = parts.path ++ delimiter :: maskProxyUserinfo behind := by
  rw [Url.render, Url.base, here, tail]
  exact maskProxyUserinfo_separator noColon noSlash (wellFormed.plain here) behind

end

theorem place_plain {path behind : List Char} {delimiter : Char} (none : splitScheme path = none)
    (plain : ∀ char ∈ path, char ≠ '?' ∧ char ≠ '#')
    (isDelimiter : delimiter = '?' ∨ delimiter = '#') :
    place (path ++ delimiter :: behind) = (Option.none, path) := by
  have empty : (Url.parse (delimiter :: behind)).base = [] := by
    have whole := Url.render_parse (delimiter :: behind)
    have basePlain := (Url.wellFormed_parse (delimiter :: behind)).base_plain
    rw [Url.render] at whole
    cases shape : (Url.parse (delimiter :: behind)).base with
    | nil => rfl
    | cons char rest =>
        rw [shape] at whole basePlain
        simp only [List.cons_append, List.cons.injEq] at whole
        have notDelimiter := basePlain delimiter (by simp [whole.1])
        rcases isDelimiter with rfl | rfl
        · exact absurd rfl notDelimiter.1
        · exact absurd rfl notDelimiter.2
  rw [place, Url.parse_append plain, empty, List.append_nil, Url.parseBase, none]
  rfl

end Parts

/-! ## Proxies and collectors -/

section Proxy

variable {parts : Url}

theorem tail_cases (parts : Url) :
    parts.tail = [] ∨ ∃ delimiter behind, parts.tail = delimiter :: behind ∧
      (delimiter = '?' ∨ delimiter = '#') := by
  rcases parts with ⟨authority, path, _ | query, _ | fragment⟩
  · exact .inl rfl
  · exact .inr ⟨'#', fragment, rfl, .inr rfl⟩
  · exact .inr ⟨'?', query, by simp [Url.tail, part], .inl rfl⟩
  · exact .inr ⟨'?', query ++ part '#' (some fragment), by simp [Url.tail, part], .inl rfl⟩

theorem place_maskProxyUserinfo_iff (wellFormed : parts.WellFormed) :
    place (maskProxyUserinfo parts.render) = place parts.render ↔ ProxySafe parts := by
  constructor
  · intro kept
    exact ⟨fun authority after astray => (place_astray_iff wellFormed astray).mp kept⟩
  · intro safe
    cases here : parts.authority with
    | none =>
        rcases tail_cases parts with empty | ⟨delimiter, behind, tail, isDelimiter⟩
        · have bare : parts.render = parts.path := by simp [Url.render, Url.base, here, empty]
          rw [bare, maskProxyUserinfo_of_none (wellFormed.plain here)]
        · have noColon : delimiter ≠ ':' := by rcases isDelimiter with rfl | rfl <;> decide
          have noSlash : delimiter ≠ '/' := by rcases isDelimiter with rfl | rfl <;> decide
          rw [maskProxyUserinfo_plain wellFormed here noColon noSlash tail, Url.render, Url.base,
            here, tail]
          simp only
          rw [place_plain (wellFormed.plain here) wellFormed.path isDelimiter,
            place_plain (wellFormed.plain here) wellFormed.path isDelimiter]
    | some authority =>
        cases found : pastLogin (parts.path ++ parts.tail) with
        | none =>
            rw [maskProxyUserinfo_delimited wellFormed here found,
              place_maskUserinfoPart wellFormed]
        | some after =>
            have path : parts.path = [] := by
              by_contra path
              rw [pastLogin_of_path wellFormed here path] at found
              cases found
            rw [path, List.nil_append] at found
            have astray : Astray parts authority after := ⟨here, path, found⟩
            exact (place_astray_iff wellFormed astray).mpr (safe.astray _ _ astray)

theorem maskUserinfoPart_hide (parts : Url) :
    maskUserinfoPart (hideUserinfo parts) = maskUserinfoPart parts := by
  simp [maskUserinfoPart, hideUserinfo, maskSecret, Function.comp_def]

theorem wellFormed_hideUserinfo (wellFormed : parts.WellFormed) : (hideUserinfo parts).WellFormed :=
  wellFormed.relogin fun _ => nofun

theorem maskProxyUserinfo_hide (wellFormed : parts.WellFormed) :
    maskProxyUserinfo parts.render = maskProxyUserinfo (hideUserinfo parts).render := by
  have hidden := wellFormed_hideUserinfo wellFormed
  cases here : parts.authority with
  | none =>
      have same : hideUserinfo parts = parts := by
        rcases parts with ⟨authority, path, query, fragment⟩
        cases here
        rfl
      rw [same]
  | some authority =>
      have hiddenHere : (hideUserinfo parts).authority = some
          { authority with userinfo := authority.userinfo.map fun _ => [] } := by
        simp [hideUserinfo, here]
      have behind : (hideUserinfo parts).path ++ (hideUserinfo parts).tail =
          parts.path ++ parts.tail := rfl
      cases found : pastLogin (parts.path ++ parts.tail) with
      | none =>
          rw [maskProxyUserinfo_delimited wellFormed here found,
            maskProxyUserinfo_delimited hidden hiddenHere (by rw [behind]; exact found),
            maskUserinfoPart_hide]
      | some after =>
          rw [maskProxyUserinfo_render wellFormed here, maskProxyUserinfo_render hidden hiddenHere,
            behind, maskLogin, maskLogin,
            pastLogin_append_of_some (noSlash_tail wellFormed here) found,
            pastLogin_append_of_some (noSlash_tail hidden hiddenHere) found]

theorem maskProxyUserinfo_same {url other : List Char} (same : SameProxyUrl url other) :
    maskProxyUserinfo url = maskProxyUserinfo other := by
  have first := maskProxyUserinfo_hide (Url.wellFormed_parse url)
  have second := maskProxyUserinfo_hide (Url.wellFormed_parse other)
  rw [Url.render_parse] at first second
  rw [first, second, same]

theorem proxySafe_hideUserinfo : ProxySafe (hideUserinfo parts) ↔ ProxySafe parts := by
  constructor
  · rintro ⟨safe⟩
    refine ⟨?_⟩
    rintro authority after ⟨here, path, found⟩
    refine safe { authority with userinfo := authority.userinfo.map fun _ => [] } after
      ⟨?_, path, found⟩
    simp [hideUserinfo, here]
  · rintro ⟨safe⟩
    refine ⟨?_⟩
    rintro authority after ⟨here, path, found⟩
    rcases Option.map_eq_some_iff.mp here with ⟨former, formerHere, rfl⟩
    exact safe former after ⟨formerHere, path, found⟩

theorem ProxySafe.of_same {url other : List Char} (safe : ProxySafe (Url.parse url))
    (same : SameProxyUrl url other) : ProxySafe (Url.parse other) := by
  rw [← proxySafe_hideUserinfo, ← same, proxySafe_hideUserinfo]
  exact safe

theorem place_maskProxyUserinfo_iff_parse (url : List Char) :
    place (maskProxyUserinfo url) = place url ↔ ProxySafe (Url.parse url) := by
  have kept := place_maskProxyUserinfo_iff (Url.wellFormed_parse url)
  rwa [Url.render_parse] at kept

end Proxy

/-! ## Feeds -/

section Feed

variable {parts : Url}

variable {authority : Authority}

theorem maskUrlSecrets_delimited (wellFormed : parts.WellFormed)
    (here : parts.authority = some authority)
    (delimited : pastLogin (parts.path ++ parts.tail) = none) :
    maskUrlSecrets parts.render = (maskQueryPart (maskUserinfoPart parts)).render := by
  rw [maskUrlSecrets, maskProxyUserinfo_delimited wellFormed here delimited, maskQueryString_eq,
    Url.parse_render (wellFormed_maskUserinfoPart wellFormed)]

/-- A query without an authority before it keeps to itself, if the fragment holds no login. -/
theorem maskUrlSecrets_query {path query : List Char} {fragment : Option (List Char)}
    (none : splitScheme path = none) (plain : ∀ char ∈ path, char ≠ '?' ∧ char ≠ '#')
    (noHash : '#' ∉ query) (bare : ∀ text, fragment = some text →
      maskProxyUserinfo text = text ∧ pastLogin text = Option.none) :
    maskUrlSecrets (path ++ '?' :: (query ++ part '#' fragment)) =
      path ++ '?' :: (secretMask ++ part '#' fragment) := by
  have tailNone : pastLogin (part '#' fragment) = Option.none := by
    cases fragment with
    | none => rfl
    | some text =>
        have hash : pastLogin ['#'] = Option.none := rfl
        exact pastLogin_append_eq_none hash (bare text rfl).2
  have masked : ∃ left, '#' ∉ left ∧
      maskProxyUserinfo (query ++ part '#' fragment) = left ++ part '#' fragment := by
    cases split : splitScheme query with
    | none =>
        refine ⟨query, noHash, ?_⟩
        cases fragment with
        | none => simp [part, maskProxyUserinfo_of_none split]
        | some text =>
            rw [part, maskProxyUserinfo_separator (by decide) (by decide) split, (bare text rfl).1]
    | some pieces =>
        rcases pieces with ⟨scheme, rest⟩
        have whole := Lib.append_of_splitScheme split
        have found := Lib.splitScheme_append split (rest ++ part '#' fragment)
        rw [← List.append_assoc, ← whole] at found
        refine ⟨scheme ++ maskLogin rest, ?_, ?_⟩
        · rw [whole, List.mem_append, not_or] at noHash
          rw [List.mem_append, not_or]
          refine ⟨noHash.1, ?_⟩
          cases past : pastLogin rest with
          | none => simpa [maskLogin, past] using noHash.2
          | some after =>
              rcases of_pastLogin past with ⟨login, rfl, -⟩
              have notAfter : '#' ∉ after := fun here => noHash.2 (by simp [here])
              have notMask : '#' ∉ secretMask := by decide
              simp [maskLogin, past, notAfter, notMask]
        · rw [maskProxyUserinfo_of_some found, maskLogin_append tailNone, List.append_assoc]
  rcases masked with ⟨left, leftPlain, masked⟩
  have formed : Url.WellFormed ⟨Option.none, path, some left, fragment⟩ :=
    ⟨fun _ here => (by cases here), fun _ => none, plain, by rintro _ ⟨⟩; exact leftPlain⟩
  have text : path ++ '?' :: (left ++ part '#' fragment) =
      Url.render ⟨Option.none, path, some left, fragment⟩ := by
    simp [Url.render, Url.base, Url.tail, part]
  rw [maskUrlSecrets, maskProxyUserinfo_separator (by decide) (by decide) none, masked, text,
    maskQueryString_eq, Url.parse_render formed]
  simp [Url.render, Url.base, Url.tail, part, maskQueryPart, maskSecret]

theorem maskUrlSecrets_noQuery (wellFormed : parts.WellFormed) (here : parts.authority = none)
    (noQuery : parts.query = none) :
    maskUrlSecrets parts.render =
      Url.render { parts with fragment := parts.fragment.map maskProxyUserinfo } := by
  have formed : Url.WellFormed { parts with fragment := parts.fragment.map maskProxyUserinfo } :=
    ⟨wellFormed.authority, wellFormed.plain, wellFormed.path, wellFormed.query⟩
  have masked : maskProxyUserinfo parts.render =
      Url.render { parts with fragment := parts.fragment.map maskProxyUserinfo } := by
    cases found : parts.fragment with
    | none =>
        have bare : parts.render = parts.path := by
          simp [Url.render, Url.base, Url.tail, here, noQuery, found, part]
        rw [bare, maskProxyUserinfo_of_none (wellFormed.plain here)]
        simp [Url.render, Url.base, Url.tail, here, noQuery, part]
    | some fragment =>
        have tail : parts.tail = '#' :: fragment := by simp [Url.tail, noQuery, found, part]
        rw [maskProxyUserinfo_plain wellFormed here (by decide) (by decide) tail]
        simp [Url.render, Url.base, Url.tail, here, noQuery, part]
  rw [maskUrlSecrets, masked, maskQueryString_eq, Url.parse_render formed]
  congr 1
  simp [maskQueryPart, noQuery, maskSecret]

theorem maskUrlSecrets_astray {after : List Char} (wellFormed : parts.WellFormed)
    (astray : Astray parts authority after) (host : (Url.parse after).base = authority.host) :
    maskUrlSecrets parts.render =
      Url.render ⟨some ⟨authority.scheme, some secretMask, authority.host⟩, [],
        maskSecret (Url.parse after).query, (Url.parse after).fragment⟩ := by
  have noSlash : '/' ∉ authority.host := fun slash =>
    noSlash_tail wellFormed astray.1 (List.mem_append_right _ slash)
  rw [maskUrlSecrets, maskQueryString_eq, parse_maskProxyUserinfo_astray wellFormed astray, host,
    Lib.takeWhile_of_notMem noSlash, Lib.dropWhile_of_notMem noSlash]
  rfl

theorem wellFormed_hideQuery (wellFormed : parts.WellFormed) : (hideQuery parts).WellFormed := by
  refine ⟨wellFormed.authority, wellFormed.plain, wellFormed.path, ?_⟩
  intro query found
  rcases Option.map_eq_some_iff.mp found with ⟨secret, -, rfl⟩
  exact List.not_mem_nil

def hideSecrets (parts : Url) : Url := hideQuery (hideUserinfo parts)

theorem wellFormed_hideSecrets (wellFormed : parts.WellFormed) : (hideSecrets parts).WellFormed :=
  wellFormed_hideQuery (wellFormed_hideUserinfo wellFormed)

theorem authority_hideSecrets (here : parts.authority = some authority) :
    (hideSecrets parts).authority =
      some { authority with userinfo := authority.userinfo.map fun _ => [] } := by
  simp [hideSecrets, hideQuery, hideUserinfo, here]

theorem tail_hideSecrets (noQuery : parts.query = none) :
    (hideSecrets parts).tail = parts.tail := by
  simp [hideSecrets, hideQuery, hideUserinfo, Url.tail, noQuery]

theorem FeedSafe.of_hideSecrets (safe : FeedSafe (hideSecrets parts)) : FeedSafe parts := by
  have noQuery : ∀ authority, parts.authority = some authority → parts.path = [] →
      parts.query = none := fun authority here path =>
    Option.map_eq_none_iff.mp (safe.noQuery _ (authority_hideSecrets here) path)
  refine ⟨noQuery, ?_, ?_⟩
  · rintro authority after ⟨here, path, found⟩
    refine safe.astray { authority with userinfo := authority.userinfo.map fun _ => [] } after
      ⟨authority_hideSecrets here, path, ?_⟩
    rw [tail_hideSecrets (noQuery _ here path)]
    exact found
  · intro here query
    refine safe.fragment ?_ ?_
    · simp [hideSecrets, hideQuery, hideUserinfo, here]
    · simpa [hideSecrets, hideQuery, hideUserinfo] using query

theorem FeedSafe.hideSecrets (safe : FeedSafe parts) : FeedSafe (hideSecrets parts) := by
  have unhide : ∀ authority, (Core.hideSecrets parts).authority = some authority →
      ∃ former, parts.authority = some former ∧ authority.host = former.host := by
    intro authority found
    rcases Option.map_eq_some_iff.mp found with ⟨former, here, rfl⟩
    exact ⟨former, here, rfl⟩
  refine ⟨?_, ?_, ?_⟩
  · intro authority found path
    rcases unhide authority found with ⟨former, here, -⟩
    exact Option.map_eq_none_iff.mpr (safe.noQuery former here path)
  · rintro authority after ⟨found, path, past⟩
    rcases unhide authority found with ⟨former, here, host⟩
    rw [tail_hideSecrets (safe.noQuery former here path)] at past
    rw [host]
    exact safe.astray former after ⟨here, path, past⟩
  · intro here query
    refine safe.fragment (Option.map_eq_none_iff.mp here) ?_
    intro none
    exact query (Option.map_eq_none_iff.mpr none)

theorem maskUrlSecrets_hide (wellFormed : parts.WellFormed) (safe : FeedSafe parts) :
    maskUrlSecrets parts.render = maskUrlSecrets (hideSecrets parts).render := by
  have hidden := wellFormed_hideSecrets wellFormed
  cases here : parts.authority with
  | none =>
      have hiddenHere : (hideSecrets parts).authority = none := by
        simp [hideSecrets, hideQuery, hideUserinfo, here]
      cases query : parts.query with
      | none =>
          have same : hideSecrets parts = parts := by
            rcases parts with ⟨authority, path, secret, fragment⟩
            cases here
            cases query
            rfl
          rw [same]
      | some secret =>
          have none := wellFormed.plain here
          have bare := safe.fragment here (by simp [query])
          have text : parts.render = parts.path ++ '?' :: (secret ++ part '#' parts.fragment) := by
            simp [Url.render, Url.base, Url.tail, here, query, part]
          have hiddenText : (hideSecrets parts).render =
              parts.path ++ '?' :: ([] ++ part '#' parts.fragment) := by
            simp [hideSecrets, hideQuery, hideUserinfo, Url.render, Url.base, Url.tail, here,
              query, part]
          rw [text, hiddenText,
            maskUrlSecrets_query none wellFormed.path (wellFormed.query _ query) bare,
            maskUrlSecrets_query none wellFormed.path List.not_mem_nil bare]
  | some authority =>
      have hiddenHere := authority_hideSecrets here
      by_cases path : parts.path = []
      · have noQuery := safe.noQuery authority here path
        have sameTail := tail_hideSecrets noQuery
        have plain : hideSecrets parts = hideUserinfo parts := by
          simp [hideSecrets, hideQuery, hideUserinfo, noQuery]
        rw [maskUrlSecrets, maskUrlSecrets, maskProxyUserinfo_hide wellFormed, plain]
      · rw [maskUrlSecrets_delimited wellFormed here (pastLogin_of_path wellFormed here path),
          maskUrlSecrets_delimited hidden hiddenHere (pastLogin_of_path hidden hiddenHere path)]
        congr 1
        simp [maskQueryPart, maskUserinfoPart, hideSecrets, hideQuery, hideUserinfo, maskSecret,
          Function.comp_def]

theorem maskSecret_maskSecret (secret : Option (List Char)) :
    maskSecret (maskSecret secret) = maskSecret secret := by
  simp [maskSecret, Function.comp_def]

def maskParts (parts : Url) : Url := maskQueryPart (maskUserinfoPart parts)

theorem wellFormed_maskParts (wellFormed : parts.WellFormed) : (maskParts parts).WellFormed :=
  wellFormed_maskQueryPart (wellFormed_maskUserinfoPart wellFormed)

theorem maskParts_maskParts (parts : Url) : maskParts (maskParts parts) = maskParts parts := by
  simp [maskParts, maskQueryPart, maskUserinfoPart, maskSecret, Function.comp_def]

theorem maskUrlSecrets_maskParts (wellFormed : parts.WellFormed)
    (here : (maskParts parts).authority = some authority)
    (delimited : pastLogin ((maskParts parts).path ++ (maskParts parts).tail) = none) :
    maskUrlSecrets (maskParts parts).render = (maskParts parts).render := by
  have again := maskUrlSecrets_delimited (wellFormed_maskParts wellFormed) here delimited
  rwa [← maskParts, maskParts_maskParts] at again

theorem authority_maskParts (here : parts.authority = some authority) :
    (maskParts parts).authority =
      some { authority with userinfo := maskSecret authority.userinfo } := by
  simp [maskParts, maskQueryPart, maskUserinfoPart, here]

theorem tail_maskParts (noQuery : parts.query = none) : (maskParts parts).tail = parts.tail := by
  simp [maskParts, maskQueryPart, maskUserinfoPart, maskSecret, Url.tail, noQuery]

theorem FeedSafe.proxySafe (safe : FeedSafe parts) : ProxySafe parts :=
  ⟨fun authority after astray => (safe.astray authority after astray).1⟩

theorem FeedSafe.place (wellFormed : parts.WellFormed) (safe : FeedSafe parts) :
    place (maskUrlSecrets parts.render) = Core.place parts.render := by
  rw [place_maskUrlSecrets]
  exact (place_maskProxyUserinfo_iff wellFormed).mpr safe.proxySafe

theorem pastLogin_tail {query fragment : Option (List Char)}
    (calm : query = none ∨ pastLogin (part '#' fragment) = none)
    (bare : pastLogin (part '?' query ++ part '#' fragment) = none) :
    pastLogin (part '?' (maskSecret query) ++ part '#' fragment) = none := by
  cases query with
  | none => exact bare
  | some secret =>
      rcases calm with none | calm
      · cases none
      · have mask : pastLogin ('?' :: secretMask) = none := by decide
        exact pastLogin_append_eq_none mask calm

/-- What an `@` astray makes of the parts, once the host has survived it. -/
def astrayParts (authority : Authority) (after : Url) : Url :=
  ⟨some ⟨authority.scheme, some secretMask, authority.host⟩, [], after.query, after.fragment⟩

theorem wellFormed_astrayParts {after : Url} (formed : authority.WellFormed)
    (afterFormed : after.WellFormed) : (astrayParts authority after).WellFormed := by
  refine ⟨?_, fun none => (nomatch none), by simp [astrayParts], afterFormed.query⟩
  rintro _ ⟨⟩
  exact ⟨formed.relogin plain_secretMask, .inl rfl⟩

theorem FeedSafe.again (wellFormed : parts.WellFormed) (safe : FeedSafe parts) :
    maskUrlSecrets (maskUrlSecrets parts.render) = maskUrlSecrets parts.render := by
  cases here : parts.authority with
  | none =>
      cases query : parts.query with
      | none =>
          have formed : Url.WellFormed
              { parts with fragment := parts.fragment.map maskProxyUserinfo } :=
            ⟨wellFormed.authority, wellFormed.plain, wellFormed.path, wellFormed.query⟩
          rw [maskUrlSecrets_noQuery wellFormed here query,
            maskUrlSecrets_noQuery formed here query]
          simp [Function.comp_def, maskProxyUserinfo_idempotent]
      | some secret =>
          have none := wellFormed.plain here
          have bare := safe.fragment here (by simp [query])
          have noHash : '#' ∉ secretMask := by decide
          have text : parts.render = parts.path ++ '?' :: (secret ++ part '#' parts.fragment) := by
            simp [Url.render, Url.base, Url.tail, here, query, part]
          rw [text, maskUrlSecrets_query none wellFormed.path (wellFormed.query _ query) bare,
            maskUrlSecrets_query none wellFormed.path noHash bare]
  | some authority =>
      have maskedHere := authority_maskParts here
      by_cases path : parts.path = []
      · have noQuery := safe.noQuery authority here path
        cases found : pastLogin parts.tail with
        | none =>
            have delimited : pastLogin (parts.path ++ parts.tail) = none := by
              rw [path]
              exact found
            rw [maskUrlSecrets_delimited wellFormed here delimited, ← maskParts]
            refine maskUrlSecrets_maskParts wellFormed maskedHere ?_
            rw [tail_maskParts noQuery]
            exact delimited
        | some after =>
            have astray : Astray parts authority after := ⟨here, path, found⟩
            rcases safe.astray authority after astray with ⟨host, calm⟩
            rcases of_pastLogin found with ⟨-, -, -, last⟩
            have formed := (wellFormed.authority authority here).1
            have noSlash : '/' ∉ (Url.parse after).base := by
              rw [host]
              exact fun slash => noSlash_tail wellFormed here (List.mem_append_right _ slash)
            have bare : pastLogin (Url.parse after).tail = none := by
              rw [← Url.render_parse after, Url.render] at last
              cases other : pastLogin (Url.parse after).tail with
              | none => rfl
              | some rest =>
                  rw [pastLogin_append_of_some noSlash other] at last
                  cases last
            have again := maskUrlSecrets_maskParts
              (wellFormed_astrayParts formed (Url.wellFormed_parse after)) rfl
              (pastLogin_tail calm bare)
            rw [maskUrlSecrets_astray wellFormed astray host]
            exact again
      · have delimited := pastLogin_of_path wellFormed here path
        rw [maskUrlSecrets_delimited wellFormed here delimited, ← maskParts]
        exact maskUrlSecrets_maskParts wellFormed maskedHere
          (pastLogin_of_path (wellFormed_maskParts wellFormed) maskedHere path)

theorem FeedSafe.of_same {url other : List Char} (safe : FeedSafe (Url.parse url))
    (same : SameFeedUrl url other) : FeedSafe (Url.parse other) := by
  refine FeedSafe.of_hideSecrets ?_
  rw [Core.hideSecrets, ← same]
  exact safe.hideSecrets

theorem concealsUrl_of_feedSafe {url other : List Char} (safe : FeedSafe (Url.parse url))
    (same : SameFeedUrl url other) : ConcealsUrl maskUrlSecrets url other := by
  have otherSafe := safe.of_same same
  have formed := Url.wellFormed_parse url
  have otherFormed := Url.wellFormed_parse other
  refine ⟨?_, ?_, ?_⟩
  · rw [← Url.render_parse url, ← Url.render_parse other, maskUrlSecrets_hide formed safe,
      maskUrlSecrets_hide otherFormed otherSafe, hideSecrets, hideSecrets, same]
  · rintro text (rfl | rfl)
    · simpa only [Url.render_parse] using safe.place formed
    · simpa only [Url.render_parse] using otherSafe.place otherFormed
  · rintro text (rfl | rfl)
    · simpa only [Url.render_parse] using safe.again formed
    · simpa only [Url.render_parse] using otherSafe.again otherFormed

/-! ### Which feed URLs give something away -/

theorem sameFeedUrl_query {query : List Char} (wellFormed : parts.WellFormed)
    (some : parts.query ≠ none) (noHash : '#' ∉ query) :
    SameFeedUrl parts.render (Url.render { parts with query := .some query }) := by
  have formed : Url.WellFormed { parts with query := .some query } :=
    ⟨wellFormed.authority, wellFormed.plain, wellFormed.path, by rintro _ ⟨⟩; exact noHash⟩
  rw [SameFeedUrl, Url.parse_render wellFormed, Url.parse_render formed]
  cases found : parts.query with
  | none => exact absurd found some
  | some secret => simp [hideQuery, hideUserinfo, found]

theorem query_eq_none_of_short {text : List Char} {fragment : Option (List Char)}
    (short : text.length ≤ (part '#' fragment).length)
    (same : (Url.parse text).fragment = fragment) : (Url.parse text).query = none := by
  cases found : (Url.parse text).query with
  | none => rfl
  | some query =>
      have long := Url.length_tail_le (Url.parse text)
      rw [Url.render_parse, Url.tail, found, same] at long
      simp only [part, List.length_append, List.length_cons] at long short
      omega

theorem length_of_pastLogin {rest after : List Char} (found : pastLogin rest = some after) :
    after.length < rest.length := by
  rcases of_pastLogin found with ⟨login, rfl, -⟩
  simp only [List.length_append, List.length_cons]
  omega

def FeedConceals (url : List Char) : Prop :=
  ∀ first second, SameFeedUrl url first → SameFeedUrl url second →
    ConcealsUrl maskUrlSecrets first second

theorem FeedConceals.noQuery (wellFormed : parts.WellFormed) (conceals : FeedConceals parts.render)
    (here : parts.authority = some authority) (path : parts.path = []) : parts.query = none := by
  by_contra some
  -- A slash in the query hides what follows it from the search; an `@` does the opposite.
  have slashFormed : Url.WellFormed { parts with query := .some ['/'] } :=
    ⟨wellFormed.authority, wellFormed.plain, wellFormed.path, by rintro _ ⟨⟩; decide⟩
  have atFormed : Url.WellFormed { parts with query := .some ['@'] } :=
    ⟨wellFormed.authority, wellFormed.plain, wellFormed.path, by rintro _ ⟨⟩; decide⟩
  have same := (conceals _ _ (sameFeedUrl_query wellFormed some (by decide : '#' ∉ ['@']))
    (sameFeedUrl_query wellFormed some (by decide : '#' ∉ ['/']))).same
  have slash : maskUrlSecrets (Url.render { parts with query := .some ['/'] }) =
      (maskParts { parts with query := .some ['/'] }).render := by
    refine maskUrlSecrets_delimited slashFormed here ?_
    simp [path, Url.tail, part, pastLogin_eq_none]
  have past : ∃ after, pastLogin (Url.tail { parts with query := .some ['@'] }) = .some after ∧
      after.length ≤ (part '#' parts.fragment).length := by
    have tail : Url.tail { parts with query := .some ['@'] } =
        ['?'] ++ '@' :: part '#' parts.fragment := by simp [Url.tail, part]
    rw [tail]
    cases found : pastLogin (part '#' parts.fragment) with
    | none => exact ⟨_, pastLogin_login ['?'] (by decide) found, le_rfl⟩
    | some after =>
        have noSlash : '/' ∉ ['?', '@'] := by decide
        have later : pastLogin (['?', '@'] ++ part '#' parts.fragment) = .some after :=
          pastLogin_append_of_some noSlash found
        exact ⟨after, later, (length_of_pastLogin found).le⟩
  rcases past with ⟨after, found, short⟩
  have astray : Astray { parts with query := .some ['@'] } authority after := ⟨here, path, found⟩
  have parsed := congrArg Url.parse same
  rw [slash, Url.parse_render (wellFormed_maskParts slashFormed), maskUrlSecrets,
    parse_maskQueryString, parse_maskProxyUserinfo_astray atFormed astray] at parsed
  have query := congrArg Url.query parsed
  have fragment := congrArg Url.fragment parsed
  simp only [maskQueryPart, maskParts, maskUserinfoPart, maskSecret, Option.map_some,
    Option.map_eq_some_iff] at query
  rcases query with ⟨secret, found, -⟩
  rw [query_eq_none_of_short short fragment] at found
  cases found

theorem FeedConceals.astray (wellFormed : parts.WellFormed) (conceals : FeedConceals parts.render)
    {after : List Char} (astray : Astray parts authority after) :
    (Url.parse after).base = authority.host ∧
      ((Url.parse after).query = none ∨
        pastLogin (part '#' (Url.parse after).fragment) = none) := by
  have itself := conceals parts.render parts.render rfl rfl
  have host : (Url.parse after).base = authority.host := by
    have kept := itself.place parts.render (.inl rfl)
    rw [place_maskUrlSecrets] at kept
    exact (place_astray_iff wellFormed astray).mp kept
  refine ⟨host, ?_⟩
  cases query : (Url.parse after).query with
  | none => exact .inl rfl
  | some secret =>
      right
      cases found : pastLogin (part '#' (Url.parse after).fragment) with
      | none => rfl
      | some rest =>
          have formed := wellFormed_maskParts (wellFormed_astrayParts
            (wellFormed.authority authority astray.1).1 (Url.wellFormed_parse after))
          have masked : maskUrlSecrets parts.render =
              (maskParts (astrayParts authority (Url.parse after))).render := by
            rw [maskUrlSecrets_astray wellFormed astray host]
            rfl
          have further : Astray (maskParts (astrayParts authority (Url.parse after)))
              ⟨authority.scheme, some secretMask, authority.host⟩ rest := by
            refine ⟨rfl, rfl, ?_⟩
            have noSlash : '/' ∉ '?' :: secretMask := by decide
            have tail : (maskParts (astrayParts authority (Url.parse after))).tail =
                ('?' :: secretMask) ++ part '#' (Url.parse after).fragment := by
              simp [maskParts, maskQueryPart, maskUserinfoPart, astrayParts, Url.tail, query,
                maskSecret, part]
            rw [tail]
            exact pastLogin_append_of_some noSlash found
          have again := congrArg Url.parse (itself.again parts.render (.inl rfl))
          rw [masked, Url.parse_render formed, maskUrlSecrets, parse_maskQueryString,
            parse_maskProxyUserinfo_astray formed further] at again
          have kept := congrArg Url.query again
          have fragment := congrArg Url.fragment again
          simp only [maskQueryPart, maskParts, maskUserinfoPart, astrayParts, query, maskSecret,
            Option.map_some, Option.map_eq_some_iff] at kept
          rcases kept with ⟨login, restQuery, -⟩
          rw [query_eq_none_of_short (length_of_pastLogin found).le fragment] at restQuery
          cases restQuery

theorem FeedConceals.fragment (wellFormed : parts.WellFormed)
    (conceals : FeedConceals parts.render) (here : parts.authority = none)
    (query : parts.query ≠ none) {fragment : List Char} (found : parts.fragment = some fragment) :
    maskProxyUserinfo fragment = fragment ∧ pastLogin fragment = none := by
  have none := wellFormed.plain here
  have masks : ∀ first second, '#' ∉ first → '#' ∉ second →
      maskUrlSecrets (parts.path ++ '?' :: (first ++ '#' :: fragment)) =
        maskUrlSecrets (parts.path ++ '?' :: (second ++ '#' :: fragment)) := by
    intro first second firstPlain secondPlain
    have same := (conceals _ _ (sameFeedUrl_query wellFormed query firstPlain)
      (sameFeedUrl_query wellFormed query secondPlain)).same
    simpa [Url.render, Url.base, Url.tail, here, found, part] using same
  have mask : ∀ query rest text, '#' ∉ query →
      maskProxyUserinfo (rest ++ '#' :: fragment) = query ++ part '#' text →
      Url.parse (maskUrlSecrets (parts.path ++ '?' :: (rest ++ '#' :: fragment))) =
        ⟨Option.none, parts.path, some secretMask, text⟩ := by
    intro query rest text plain masked
    have formed : Url.WellFormed ⟨Option.none, parts.path, some query, text⟩ :=
      ⟨fun _ here => (by cases here), fun _ => none, wellFormed.path, by rintro _ ⟨⟩; exact plain⟩
    have rendered : parts.path ++ '?' :: (query ++ part '#' text) =
        Url.render ⟨Option.none, parts.path, some query, text⟩ := by
      simp [Url.render, Url.base, Url.tail, part]
    rw [maskUrlSecrets, maskProxyUserinfo_separator (by decide) (by decide) none, masked, rendered,
      parse_maskQueryString, Url.parse_render formed]
    rfl
  -- An empty query leaves the login of the fragment to be masked, `:///` hides the fragment.
  have empty := mask [] [] (some (maskProxyUserinfo fragment)) (by decide)
    (maskProxyUserinfo_separator (by decide) (by decide)
    (show splitScheme [] = Option.none from rfl)
      fragment)
  have mark : splitScheme [':', '/', '/'] = some ([':', '/', '/'], []) := rfl
  have hidden : maskProxyUserinfo ([':', '/', '/', '/'] ++ '#' :: fragment) =
      [':', '/', '/', '/'] ++ part '#' (some fragment) := by
    have split : splitScheme ([':', '/', '/'] ++ '/' :: '#' :: fragment) =
        some ([':', '/', '/'], '/' :: '#' :: fragment) := Lib.splitScheme_append mark _
    have noLogin : pastLogin ('/' :: '#' :: fragment) = Option.none := by
      simp [pastLogin_eq_none]
    have masked := maskProxyUserinfo_of_some split
    rwa [maskLogin, noLogin] at masked
  have slashes := mask [':', '/', '/', '/'] [':', '/', '/', '/'] (some fragment) (by decide) hidden
  have bare : maskProxyUserinfo fragment = fragment := by
    have same := congrArg Url.parse (masks [] [':', '/', '/', '/'] (by decide) (by decide))
    rw [empty, slashes] at same
    simpa using congrArg Url.fragment same
  refine ⟨bare, ?_⟩
  cases past : pastLogin fragment with
  | none => rfl
  | some after =>
      have later : pastLogin (['#'] ++ fragment) = some after :=
        pastLogin_append_of_some (by decide) past
      -- The fragment itself is searched, and only its end is left.
      have masked : maskProxyUserinfo ([':', '/', '/'] ++ '#' :: fragment) =
          [':', '/', '/'] ++ (secretMask ++ '@' :: after) := by
        have split : splitScheme ([':', '/', '/'] ++ '#' :: fragment) =
            some ([':', '/', '/'], '#' :: fragment) := Lib.splitScheme_append mark _
        have found := maskProxyUserinfo_of_some split
        rwa [maskLogin, show '#' :: fragment = ['#'] ++ fragment from rfl, later] at found
      have pieces : ∃ left text, '#' ∉ left ∧ after = left ++ part '#' text := by
        cases split : Lib.splitOnce '#' after with
        | none => exact ⟨after, .none, Lib.splitOnce_eq_none.mp split, by simp [part]⟩
        | some pieces =>
            rcases Lib.of_splitOnce split with ⟨whole, plain⟩
            exact ⟨pieces.1, some pieces.2, plain, whole⟩
      rcases pieces with ⟨left, text, plain, rfl⟩
      have noHash : '#' ∉ [':', '/', '/'] ++ (secretMask ++ '@' :: left) := by
        have notMask : '#' ∉ secretMask := by decide
        simp [plain, notMask]
      have cut := mask _ [':', '/', '/'] text noHash (by simpa using masked)
      have same := congrArg Url.parse (masks [':', '/', '/'] [':', '/', '/', '/'] (by decide)
        (by decide))
      rw [cut, slashes] at same
      have text_eq : text = some fragment := congrArg Url.fragment same
      have short := length_of_pastLogin past
      simp only [text_eq, part, List.length_append, List.length_cons] at short
      omega

theorem feedConceals_iff (url : List Char) : FeedConceals url ↔ FeedSafe (Url.parse url) := by
  have formed := Url.wellFormed_parse url
  constructor
  · intro conceals
    rw [← Url.render_parse url] at conceals
    exact ⟨fun authority here path => conceals.noQuery formed here path,
      fun authority after astray => conceals.astray formed astray,
      fun here query fragment found => conceals.fragment formed here query found⟩
  · intro safe first second toFirst toSecond
    exact concealsUrl_of_feedSafe (safe.of_same toFirst) (toFirst.symm.trans toSecond)

end Feed

end Rustnzb.Core
