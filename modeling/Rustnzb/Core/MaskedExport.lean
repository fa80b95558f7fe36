import Rustnzb.Core.MaskedUrls

/-!
# What a masked backup gives away

A masked backup is to be the same for all configurations that differ in their secrets only. It is,
for the configurations whose URLs keep their delimiters apart.
-/

namespace Rustnzb.Core

open Lib (Url)

variable {Rest : Type}

/-! ## Configurations that differ in their secrets only -/

structure SameServer (server other : ServerConfig Rest) : Prop where
  id : server.id = other.id
  name : server.name = other.name
  password : server.password.isSome = other.password.isSome
  proxyUrl : Option.Rel SameProxyUrl server.proxyUrl other.proxyUrl
  rest : server.rest = other.rest

structure SameFeed (feed other : RssFeedConfig Rest) : Prop where
  name : feed.name = other.name
  url : SameFeedUrl feed.url other.url
  rest : feed.rest = other.rest

/-- A secret is absent when its text is empty. -/
structure SameNotifications (notifications other : NotificationConfig Rest) : Prop where
  webhookUrl : notifications.webhookUrl = [] ↔ other.webhookUrl = []
  appriseApiUrl : notifications.appriseApiUrl = [] ↔ other.appriseApiUrl = []
  appriseUrls : notifications.appriseUrls = [] ↔ other.appriseUrls = []
  ntfyToken : notifications.ntfyToken = [] ↔ other.ntfyToken = []
  ntfyTopic : notifications.ntfyTopic = [] ↔ other.ntfyTopic = []
  rest : notifications.rest = other.rest

structure SameOtel (otel other : OtelConfig Rest) : Prop where
  endpoint : SameProxyUrl otel.endpoint other.endpoint
  logsEndpoint : Option.Rel SameProxyUrl otel.logsEndpoint other.logsEndpoint
  metricsEndpoint : Option.Rel SameProxyUrl otel.metricsEndpoint other.metricsEndpoint
  rest : otel.rest = other.rest

structure SameButSecrets (config other : AppConfig Rest) : Prop where
  apiKey : config.general.apiKey.isSome = other.general.apiKey.isSome
  general : config.general.rest = other.general.rest
  davPassword : config.dav.password.isSome = other.dav.password.isSome
  davApiKey : config.dav.apiKey.isSome = other.dav.apiKey.isSome
  dav : config.dav.rest = other.dav.rest
  notifications : SameNotifications config.notifications other.notifications
  otel : SameOtel config.otel other.otel
  servers : List.Forall₂ SameServer config.servers other.servers
  rssFeeds : List.Forall₂ SameFeed config.rssFeeds other.rssFeeds
  rest : config.rest = other.rest

/-- The scheme, host, port and path of every proxy, collector and feed URL. -/
structure Places where
  proxies : List (Option (Option (List Char × List Char) × List Char))
  endpoint : Option (List Char × List Char) × List Char
  logsEndpoint : Option (Option (List Char × List Char) × List Char)
  metricsEndpoint : Option (Option (List Char × List Char) × List Char)
  feeds : List (Option (List Char × List Char) × List Char)

def places (config : AppConfig Rest) : Places where
  proxies := config.servers.map fun server => server.proxyUrl.map place
  endpoint := place config.otel.endpoint
  logsEndpoint := config.otel.logsEndpoint.map place
  metricsEndpoint := config.otel.metricsEndpoint.map place
  feeds := config.rssFeeds.map fun feed => place feed.url

structure Conceals (config other : AppConfig Rest) : Prop where
  same : maskSecrets config = maskSecrets other
  places : ∀ either, either = config ∨ either = other → places (maskSecrets either) = places either
  again : ∀ either, either = config ∨ either = other →
    maskSecrets (maskSecrets either) = maskSecrets either

/-- Every URL keeps its delimiters apart. -/
structure ExportSafe (config : AppConfig Rest) : Prop where
  proxies : ∀ server ∈ config.servers, ∀ url, server.proxyUrl = some url → ProxySafe (Url.parse url)
  endpoint : ProxySafe (Url.parse config.otel.endpoint)
  logsEndpoint : ∀ url, config.otel.logsEndpoint = some url → ProxySafe (Url.parse url)
  metricsEndpoint : ∀ url, config.otel.metricsEndpoint = some url → ProxySafe (Url.parse url)
  feeds : ∀ feed ∈ config.rssFeeds, FeedSafe (Url.parse feed.url)

theorem maskSecret_same {secret other : Option (List Char)} (same : secret.isSome = other.isSome) :
    maskSecret secret = maskSecret other := by
  cases secret <;> cases other <;> simp_all [maskSecret]

theorem maskText_same {secret other : List Char} (same : secret = [] ↔ other = []) :
    maskText secret = maskText other := by
  by_cases empty : secret = []
  · rw [empty, same.mp empty]
  · rw [maskText, maskText, if_neg empty, if_neg fun none => empty (same.mpr none)]

theorem maskText_maskText (secret : List Char) : maskText (maskText secret) = maskText secret := by
  by_cases empty : secret = []
  · simp [maskText, empty]
  · have masked : maskText secret = secretMask := if_neg empty
    rw [masked]
    rfl

theorem mapProxy_same {url other : Option (List Char)} (same : Option.Rel SameProxyUrl url other) :
    url.map maskProxyUserinfo = other.map maskProxyUserinfo := by
  cases same with
  | none => rfl
  | some same => rw [Option.map_some, Option.map_some, maskProxyUserinfo_same same]

theorem mapProxy_again (url : Option (List Char)) :
    (url.map maskProxyUserinfo).map maskProxyUserinfo = url.map maskProxyUserinfo := by
  cases url with
  | none => rfl
  | some url => simp [maskProxyUserinfo_idempotent]

theorem mapProxy_safe {url other : Option (List Char)} (same : Option.Rel SameProxyUrl url other)
    (safe : ∀ text, url = some text → ProxySafe (Url.parse text)) :
    ∀ text, other = some text → ProxySafe (Url.parse text) := by
  rintro text rfl
  cases same with
  | some same => exact (safe _ rfl).of_same same

theorem mapProxy_place_iff (url : Option (List Char)) :
    (url.map maskProxyUserinfo).map place = url.map place ↔
      ∀ text, url = some text → ProxySafe (Url.parse text) := by
  cases url with
  | none => simp
  | some url => simp [place_maskProxyUserinfo_iff_parse]

theorem maskServer_same {server other : ServerConfig Rest} (same : SameServer server other) :
    maskServer server = maskServer other := by
  simp [maskServer, same.id, same.name, same.rest, maskSecret_same same.password,
    mapProxy_same same.proxyUrl]

theorem maskServer_again (server : ServerConfig Rest) :
    maskServer (maskServer server) = maskServer server := by
  simp only [maskServer, maskSecret_maskSecret, mapProxy_again]

theorem maskFeed_same {feed other : RssFeedConfig Rest} (safe : FeedSafe (Url.parse feed.url))
    (same : SameFeed feed other) : maskFeed feed = maskFeed other := by
  simp [maskFeed, same.name, same.rest, (concealsUrl_of_feedSafe safe same.url).same]

theorem maskFeed_again {feed : RssFeedConfig Rest} (safe : FeedSafe (Url.parse feed.url)) :
    maskFeed (maskFeed feed) = maskFeed feed := by
  simp [maskFeed, (concealsUrl_of_feedSafe safe rfl).again feed.url (.inl rfl)]

theorem maskNotifications_same {notifications other : NotificationConfig Rest}
    (same : SameNotifications notifications other) :
    maskNotifications notifications = maskNotifications other := by
  simp [maskNotifications, same.rest, maskText_same same.webhookUrl,
    maskText_same same.appriseApiUrl, maskText_same same.appriseUrls,
    maskText_same same.ntfyToken, maskText_same same.ntfyTopic]

theorem maskNotifications_again (notifications : NotificationConfig Rest) :
    maskNotifications (maskNotifications notifications) = maskNotifications notifications := by
  simp [maskNotifications, maskText_maskText]

theorem maskOtel_same {otel other : OtelConfig Rest} (same : SameOtel otel other) :
    maskOtel otel = maskOtel other := by
  simp [maskOtel, same.rest, maskProxyUserinfo_same same.endpoint,
    mapProxy_same same.logsEndpoint, mapProxy_same same.metricsEndpoint]

theorem maskOtel_again (otel : OtelConfig Rest) : maskOtel (maskOtel otel) = maskOtel otel := by
  simp only [maskOtel, maskProxyUserinfo_idempotent, mapProxy_again]

section Lists

variable {α β : Type} {relation : α → α → Prop}

theorem map_eq_of_forall₂ {list other : List α} (f : α → β)
    (related : List.Forall₂ relation list other)
    (same : ∀ item ∈ list, ∀ item', relation item item' → f item = f item') :
    list.map f = other.map f := by
  induction related with
  | nil => rfl
  | cons here others ih =>
      simp only [List.mem_cons, forall_eq_or_imp] at same
      rw [List.map_cons, List.map_cons, same.1 _ here, ih same.2]

theorem forall_of_forall₂ {list other : List α} {p : α → Prop}
    (related : List.Forall₂ relation list other)
    (transfer : ∀ item item', relation item item' → p item → p item')
    (all : ∀ item ∈ list, p item) : ∀ item ∈ other, p item := by
  induction related with
  | nil => simp
  | cons here others ih =>
      simp only [List.mem_cons, forall_eq_or_imp] at all ⊢
      exact ⟨transfer _ _ here all.1, ih all.2⟩

end Lists

/-! ## Safe configurations -/

section Safe

variable {config other : AppConfig Rest}

theorem ExportSafe.of_same (safe : ExportSafe config) (same : SameButSecrets config other) :
    ExportSafe other where
  proxies := forall_of_forall₂ same.servers
    (fun _ _ here => mapProxy_safe here.proxyUrl) safe.proxies
  endpoint := safe.endpoint.of_same same.otel.endpoint
  logsEndpoint := mapProxy_safe same.otel.logsEndpoint safe.logsEndpoint
  metricsEndpoint := mapProxy_safe same.otel.metricsEndpoint safe.metricsEndpoint
  feeds := forall_of_forall₂ same.rssFeeds (fun _ _ here feed => feed.of_same here.url) safe.feeds

theorem ExportSafe.mask_eq (safe : ExportSafe config) (same : SameButSecrets config other) :
    maskSecrets config = maskSecrets other := by
  have servers := map_eq_of_forall₂ maskServer same.servers fun _ _ _ => maskServer_same
  have feeds := map_eq_of_forall₂ maskFeed same.rssFeeds fun _ here _ =>
    maskFeed_same (safe.feeds _ here)
  simp only [maskSecrets, AppConfig.mk.injEq]
  refine ⟨?_, ?_, maskNotifications_same same.notifications, maskOtel_same same.otel, servers,
    feeds, same.rest⟩
  · rw [maskSecret_same same.apiKey, same.general]
  · simp [maskDav, maskSecret_same same.davPassword, maskSecret_same same.davApiKey, same.dav]

theorem ExportSafe.again (safe : ExportSafe config) :
    maskSecrets (maskSecrets config) = maskSecrets config := by
  have feeds : (config.rssFeeds.map maskFeed).map maskFeed = config.rssFeeds.map maskFeed := by
    rw [List.map_map]
    exact List.map_congr_left fun feed here => maskFeed_again (safe.feeds feed here)
  have servers :
      (config.servers.map maskServer).map maskServer = config.servers.map maskServer := by
    rw [List.map_map]
    exact List.map_congr_left fun server _ => maskServer_again server
  simp only [maskSecrets, maskDav, maskSecret_maskSecret, maskNotifications_again, maskOtel_again,
    servers, feeds]

theorem places_maskSecrets_iff :
    places (maskSecrets config) = places config ↔
      (∀ server ∈ config.servers, ∀ url, server.proxyUrl = some url →
        ProxySafe (Url.parse url)) ∧
      ProxySafe (Url.parse config.otel.endpoint) ∧
      (∀ url, config.otel.logsEndpoint = some url → ProxySafe (Url.parse url)) ∧
      (∀ url, config.otel.metricsEndpoint = some url → ProxySafe (Url.parse url)) ∧
      ∀ feed ∈ config.rssFeeds, place (maskUrlSecrets feed.url) = place feed.url := by
  simp only [places, maskSecrets, maskOtel, Places.mk.injEq, List.map_map, List.map_inj_left,
    Function.comp_apply, maskServer, maskFeed, mapProxy_place_iff,
    place_maskProxyUserinfo_iff_parse]

theorem ExportSafe.conceals (safe : ExportSafe config) (same : SameButSecrets config other) :
    Conceals config other := by
  have kept : ∀ either : AppConfig Rest, ExportSafe either →
      places (maskSecrets either) = places either := fun either safe =>
    places_maskSecrets_iff.mpr ⟨safe.proxies, safe.endpoint, safe.logsEndpoint,
      safe.metricsEndpoint, fun feed here =>
        (concealsUrl_of_feedSafe (safe.feeds feed here) rfl).place _ (.inl rfl)⟩
  refine ⟨safe.mask_eq same, ?_, ?_⟩
  · rintro either (rfl | rfl)
    · exact kept _ safe
    · exact kept _ (safe.of_same same)
  · rintro either (rfl | rfl)
    · exact safe.again
    · exact (safe.of_same same).again

end Safe

section Necessary

variable {config : AppConfig Rest}

theorem SameFeed.refl (feed : RssFeedConfig Rest) : SameFeed feed feed := ⟨rfl, rfl, rfl⟩

theorem optionRel_refl (url : Option (List Char)) : Option.Rel SameProxyUrl url url := by
  cases url with
  | none => exact .none
  | some url => exact .some rfl

theorem SameServer.refl (server : ServerConfig Rest) : SameServer server server :=
  ⟨rfl, rfl, rfl, optionRel_refl _, rfl⟩

def withFeedUrl (config : AppConfig Rest) (front : List (RssFeedConfig Rest))
    (feed : RssFeedConfig Rest) (back : List (RssFeedConfig Rest)) (url : List Char) :
    AppConfig Rest :=
  { config with rssFeeds := front ++ { feed with url := url } :: back }

theorem sameButSecrets_withFeedUrl {front back : List (RssFeedConfig Rest)}
    {feed : RssFeedConfig Rest} (shape : config.rssFeeds = front ++ feed :: back) {url : List Char}
    (same : SameFeedUrl feed.url url) :
    SameButSecrets config (withFeedUrl config front feed back url) := by
  refine ⟨rfl, rfl, rfl, rfl, rfl, ⟨.rfl, .rfl, .rfl, .rfl, .rfl, rfl⟩,
    ⟨rfl, optionRel_refl _, optionRel_refl _, rfl⟩, ?_, ?_, rfl⟩
  · exact List.forall₂_same.mpr fun server _ => SameServer.refl server
  · rw [shape]
    exact List.rel_append (List.forall₂_same.mpr fun feed _ => SameFeed.refl feed)
      (.cons ⟨rfl, same, rfl⟩ (List.forall₂_same.mpr fun feed _ => SameFeed.refl feed))

theorem exportSafe_of_conceals
    (conceals : ∀ first second, SameButSecrets config first → SameButSecrets config second →
      Conceals first second) : ExportSafe config := by
  have itself : SameButSecrets config config :=
    ⟨rfl, rfl, rfl, rfl, rfl, ⟨.rfl, .rfl, .rfl, .rfl, .rfl, rfl⟩,
      ⟨rfl, optionRel_refl _, optionRel_refl _, rfl⟩,
      List.forall₂_same.mpr fun server _ => SameServer.refl server,
      List.forall₂_same.mpr fun feed _ => SameFeed.refl feed, rfl⟩
  rcases places_maskSecrets_iff.mp ((conceals _ _ itself itself).places config (.inl rfl)) with
    ⟨proxies, endpoint, logsEndpoint, metricsEndpoint, -⟩
  refine ⟨proxies, endpoint, logsEndpoint, metricsEndpoint, ?_⟩
  intro feed here
  rcases List.append_of_mem here with ⟨front, back, shape⟩
  refine (feedConceals_iff feed.url).mp fun first second toFirst toSecond => ?_
  have pair := conceals _ _ (sameButSecrets_withFeedUrl shape toFirst)
    (sameButSecrets_withFeedUrl shape toSecond)
  refine ⟨?_, ?_, ?_⟩
  · have feeds := congrArg AppConfig.rssFeeds pair.same
    simpa [maskSecrets, withFeedUrl, maskFeed] using feeds
  · have each : ∀ url, places (maskSecrets (withFeedUrl config front feed back url)) =
        places (withFeedUrl config front feed back url) →
          place (maskUrlSecrets url) = place url := fun url kept =>
      (places_maskSecrets_iff.mp kept).2.2.2.2 { feed with url := url } (by simp [withFeedUrl])
    rintro text (rfl | rfl)
    · exact each _ (pair.places _ (.inl rfl))
    · exact each _ (pair.places _ (.inr rfl))
  · have each : ∀ url, maskSecrets (maskSecrets (withFeedUrl config front feed back url)) =
        maskSecrets (withFeedUrl config front feed back url) →
          maskUrlSecrets (maskUrlSecrets url) = maskUrlSecrets url := by
      intro url again
      have feeds := congrArg AppConfig.rssFeeds again
      simp only [maskSecrets, withFeedUrl, List.map_append, List.map_cons] at feeds
      have lengths : ((front.map maskFeed).map maskFeed).length = (front.map maskFeed).length := by
        simp
      have middle := (List.append_inj feeds lengths).2
      simp only [List.cons.injEq, maskFeed, RssFeedConfig.mk.injEq] at middle
      exact middle.1.2.1
    rintro text (rfl | rfl)
    · exact each _ (pair.again _ (.inl rfl))
    · exact each _ (pair.again _ (.inr rfl))

end Necessary

/-- A masked backup gives nothing away, whatever the secrets are, exactly if no URL lets an `@` of
its query or fragment pass for the end of a login. -/
theorem conceals_iff_exportSafe (config : AppConfig Rest) :
    (∀ first second, SameButSecrets config first → SameButSecrets config second →
      Conceals first second) ↔ ExportSafe config := by
  constructor
  · exact exportSafe_of_conceals
  · intro safe first second toFirst toSecond
    have one := safe.conceals toFirst
    have two := safe.conceals toSecond
    refine ⟨one.same.symm.trans two.same, ?_, ?_⟩
    · rintro either (rfl | rfl)
      · exact one.places _ (.inr rfl)
      · exact two.places _ (.inr rfl)
    · rintro either (rfl | rfl)
      · exact one.again _ (.inr rfl)
      · exact two.again _ (.inr rfl)

def oneFeed (url : List Char) : AppConfig Unit where
  general := ⟨none, ()⟩
  dav := ⟨none, none, ()⟩
  notifications := ⟨[], [], [], [], [], ()⟩
  otel := ⟨"http://localhost:4317".toList, none, none, ()⟩
  servers := []
  rssFeeds := [⟨"indexer", url, ()⟩]
  rest := ()

theorem sameButSecrets_oneFeed {one other : List Char} (same : SameFeedUrl one other) :
    SameButSecrets (oneFeed one) (oneFeed other) :=
  ⟨rfl, rfl, rfl, rfl, rfl, ⟨.rfl, .rfl, .rfl, .rfl, .rfl, rfl⟩, ⟨rfl, .none, .none, rfl⟩, .nil,
    .cons ⟨rfl, same, rfl⟩ .nil, rfl⟩

/-- The end of an indexer key that holds an `@` is exported as the host. -/
theorem not_conceals_atInQuery :
    ¬∀ first second : AppConfig Unit, SameButSecrets first second → Conceals first second := by
  intro conceals
  have same : SameButSecrets (oneFeed "http://h?apikey=a@bc".toList)
      (oneFeed "http://h?apikey=abc".toList) :=
    sameButSecrets_oneFeed (by rw [SameFeedUrl]; decide)
  have feeds := congrArg AppConfig.rssFeeds (conceals _ _ same).same
  revert feeds
  decide

end Rustnzb.Core
