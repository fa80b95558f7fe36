import Rustnzb.Core.MaskedRestore

/-!
# What becomes of the masks of a document

Whatever document is merged into whatever configuration, each field that the document masks takes a
stored value with this very mask, or is unset or dropped with a warning. A mask that is a stored
value is reported.
-/

namespace Rustnzb.Core

variable {Rest : Type}

/-- The stored value that the mask stands for is restored, or a warning says that there is none. -/
def Settled {α : Type} (mask : α → α) (unset stored document result : α) (warned : Prop) : Prop :=
  (mask stored = document ∧ result = stored) ∨ (result = unset ∧ warned)

theorem Settled.imp {α : Type} {mask : α → α} {unset stored document result : α}
    {warned later : Prop} (settled : Settled mask unset stored document result warned)
    (kept : warned → later) : Settled mask unset stored document result later :=
  settled.imp_right fun dropped => ⟨dropped.1, kept dropped.2⟩

/-- What the masks of a server become. -/
structure ServerSettles (stored : List (ServerConfig Rest)) (warnings : List String)
    (server merged : ServerConfig Rest) : Prop where
  password : server.password = some secretMask →
    (∃ existing ∈ stored, existing.id = server.id ∧
      maskSecret existing.password = server.password ∧ merged.password = existing.password) ∨
    (merged.password = none ∧
      (unknownPasswordWarning server ∈ warnings ∨ passwordWarning server ∈ warnings))
  proxyUrl : ∀ url, server.proxyUrl = some url → loginMask <:+: url →
    (∃ existing ∈ stored, existing.id = server.id ∧
      existing.proxyUrl.map maskProxyUserinfo = some url ∧
        merged.proxyUrl = existing.proxyUrl) ∨
    (merged.proxyUrl = none ∧
      (unknownProxyWarning server ∈ warnings ∨ proxyWarning server ∈ warnings))

/-- The stored feed that the masked feed of a document stands for. -/
def NamesFeed (document storedFeed : RssFeedConfig Rest) : Prop :=
  storedFeed.name = document.name ∧ maskUrlSecrets storedFeed.url = document.url

/-- No feed is made up, and none with a mask is lost without a warning. -/
structure FeedsSettle (incoming stored result : List (RssFeedConfig Rest))
    (warnings : List String) : Prop where
  kept : ∀ feed ∈ result, (feed ∈ incoming ∧ ¬secretMask <:+: feed.url) ∨
    ∃ document ∈ incoming, ∃ storedFeed ∈ stored, NamesFeed document storedFeed ∧
      feed = { document with url := storedFeed.url }
  masked : ∀ document ∈ incoming, secretMask <:+: document.url →
    (∃ storedFeed ∈ stored, NamesFeed document storedFeed ∧
      { document with url := storedFeed.url } ∈ result) ∨
    feedWarning document.name ∈ warnings

def textFields : List (String × (NotificationConfig Rest → List Char)) :=
  [("notifications.webhook_url", NotificationConfig.webhookUrl),
    ("notifications.apprise_api_url", NotificationConfig.appriseApiUrl),
    ("notifications.apprise_urls", NotificationConfig.appriseUrls),
    ("notifications.ntfy_token", NotificationConfig.ntfyToken),
    ("notifications.ntfy_topic", NotificationConfig.ntfyTopic)]

def signalFields : List (String × (OtelConfig Rest → Option (List Char))) :=
  [("otel.logs_endpoint", OtelConfig.logsEndpoint),
    ("otel.metrics_endpoint", OtelConfig.metricsEndpoint)]

/-- What the masks of a whole document become. -/
structure MasksSettle (incoming stored result : AppConfig Rest) (warnings : List String) :
    Prop where
  apiKey : incoming.general.apiKey = some secretMask →
    Settled maskSecret none stored.general.apiKey incoming.general.apiKey result.general.apiKey
      (generalWarning ∈ warnings)
  davPassword : incoming.dav.password = some secretMask →
    Settled maskSecret none stored.dav.password incoming.dav.password result.dav.password
      (davPasswordWarning ∈ warnings)
  davApiKey : incoming.dav.apiKey = some secretMask →
    Settled maskSecret none stored.dav.apiKey incoming.dav.apiKey result.dav.apiKey
      (davApiKeyWarning ∈ warnings)
  texts : ∀ field ∈ textFields, field.2 incoming.notifications = secretMask →
    Settled maskText [] (field.2 stored.notifications) (field.2 incoming.notifications)
      (field.2 result.notifications) (emptyWarning field.1 ∈ warnings)
  endpoint : secretMask <:+: incoming.otel.endpoint →
    Settled maskProxyUserinfo defaultEndpoint stored.otel.endpoint incoming.otel.endpoint
      result.otel.endpoint (endpointWarning ∈ warnings)
  signals : ∀ field ∈ signalFields, ∀ url, field.2 incoming.otel = some url →
    secretMask <:+: url →
      Settled (Option.map maskProxyUserinfo) none (field.2 stored.otel) (field.2 incoming.otel)
        (field.2 result.otel) (signalWarning field.1 ∈ warnings)
  feeds : FeedsSettle incoming.rssFeeds stored.rssFeeds result.rssFeeds warnings
  servers : List.Forall₂ (ServerSettles stored.servers warnings) incoming.servers result.servers

/-- A mask that is left is reported under its field. -/
structure MasksReported (config : AppConfig Rest) : Prop where
  apiKey : config.general.apiKey = some secretMask →
    exactProblem "general.api_key" ∈ checkMasks config
  davPassword : config.dav.password = some secretMask →
    exactProblem "dav.password" ∈ checkMasks config
  davApiKey : config.dav.apiKey = some secretMask →
    exactProblem "dav.api_key" ∈ checkMasks config
  texts : ∀ field ∈ textFields, field.2 config.notifications = secretMask →
    exactProblem field.1 ∈ checkMasks config
  endpoint : loginMask <:+: config.otel.endpoint →
    endpointProblem "otel.endpoint" ∈ checkMasks config
  signals : ∀ field ∈ signalFields, ∀ url, field.2 config.otel = some url →
    loginMask <:+: url → endpointProblem field.1 ∈ checkMasks config
  feeds : ∀ feed index, (feed, index) ∈ config.rssFeeds.zipIdx → secretMask <:+: feed.url →
    feedProblem index feed.name ∈ checkMasks config
  passwords : ∀ server index, (server, index) ∈ config.servers.zipIdx →
    server.password = some secretMask → exactProblem (passwordField index) ∈ checkMasks config
  proxies : ∀ server index url, (server, index) ∈ config.servers.zipIdx →
    server.proxyUrl = some url → loginMask <:+: url → proxyProblem index ∈ checkMasks config

/-! ## One field -/

section Field

variable {incoming stored : Option (List Char)} {summary : RestoreSummary}

theorem subset_warn (warning : String) : summary.warnings ⊆ (summary.warn warning).warnings :=
  List.subset_append_left _ _

theorem mem_warn (warning : String) : warning ∈ (summary.warn warning).warnings :=
  List.mem_append_right _ (List.mem_singleton_self _)

theorem mergeSecret_warnings (warning : String) :
    summary.warnings ⊆ (mergeSecret warning incoming stored summary).2.warnings := by
  unfold mergeSecret
  split
  · split
    · exact List.Subset.refl _
    · exact subset_warn _
  · exact List.Subset.refl _

theorem mergeSecret_settles (stored : Option (List Char)) (summary : RestoreSummary)
    (warning : String) (masked : incoming = some secretMask) :
    Settled maskSecret none stored incoming (mergeSecret warning incoming stored summary).1
      (warning ∈ (mergeSecret warning incoming stored summary).2.warnings) := by
  subst masked
  cases stored with
  | none => exact .inr ⟨rfl, mem_warn _⟩
  | some existing => exact .inl ⟨rfl, rfl⟩

variable {text storedText : List Char}

theorem mergeText_warnings (field : String) :
    summary.warnings ⊆ (mergeText field text storedText summary).2.warnings := by
  unfold mergeText
  split
  · split
    · exact subset_warn _
    · exact List.Subset.refl _
  · exact List.Subset.refl _

theorem mergeText_settles (field : String) (masked : text = secretMask) :
    Settled maskText [] storedText text (mergeText field text storedText summary).1
      (emptyWarning field ∈ (mergeText field text storedText summary).2.warnings) := by
  by_cases empty : storedText = []
  · simp only [mergeText, if_pos masked, if_pos empty]
    exact .inr ⟨rfl, mem_warn _⟩
  · simp only [mergeText, if_pos masked, if_neg empty]
    exact .inl ⟨by rw [maskText, if_neg empty, masked], rfl⟩

theorem mergeEndpoint_warnings :
    summary.warnings ⊆ (mergeEndpoint text storedText summary).2.warnings := by
  unfold mergeEndpoint
  split
  · split
    · exact List.Subset.refl _
    · exact subset_warn _
  · exact List.Subset.refl _

theorem mergeEndpoint_settles (masked : secretMask <:+: text) :
    Settled maskProxyUserinfo defaultEndpoint storedText text
      (mergeEndpoint text storedText summary).1
      (endpointWarning ∈ (mergeEndpoint text storedText summary).2.warnings) := by
  by_cases same : text = maskProxyUserinfo storedText
  · simp only [mergeEndpoint, if_pos masked, if_pos same]
    exact .inl ⟨same.symm, rfl⟩
  · simp only [mergeEndpoint, if_pos masked, if_neg same]
    exact .inr ⟨rfl, mem_warn _⟩

theorem mergeSignalEndpoint_warnings (field : String) :
    summary.warnings ⊆ (mergeSignalEndpoint field incoming stored summary).2.warnings := by
  unfold mergeSignalEndpoint
  split
  · exact List.Subset.refl _
  · split
    · split
      · split
        · exact List.Subset.refl _
        · exact subset_warn _
      · exact subset_warn _
    · exact List.Subset.refl _

theorem mergeSignalEndpoint_settles (field : String) (set : incoming = some text)
    (masked : secretMask <:+: text) :
    Settled (Option.map maskProxyUserinfo) none stored incoming
      (mergeSignalEndpoint field incoming stored summary).1
      (signalWarning field ∈ (mergeSignalEndpoint field incoming stored summary).2.warnings) := by
  subst set
  cases stored with
  | none =>
      simp only [mergeSignalEndpoint, if_pos masked]
      exact .inr ⟨rfl, mem_warn _⟩
  | some storedUrl =>
      by_cases same : text = maskProxyUserinfo storedUrl
      · simp only [mergeSignalEndpoint, if_pos masked, if_pos same]
        exact .inl ⟨by rw [Option.map_some, same], rfl⟩
      · simp only [mergeSignalEndpoint, if_pos masked, if_neg same]
        exact .inr ⟨rfl, mem_warn _⟩

theorem mergeUnknownProxy_warnings (warning : String) :
    summary.warnings ⊆ (mergeUnknownProxy warning incoming summary).2.warnings := by
  unfold mergeUnknownProxy
  split
  · exact List.Subset.refl _
  · split
    · exact subset_warn _
    · exact List.Subset.refl _

theorem mergeProxy_warnings (warning : String) :
    summary.warnings ⊆ (mergeProxy warning incoming stored summary).2.warnings := by
  unfold mergeProxy
  split
  · exact List.Subset.refl _
  · split
    · exact List.Subset.refl _
    · split
      · exact subset_warn _
      · exact List.Subset.refl _

end Field

/-! ## Servers and feeds -/

section Lists

variable {stored : List (ServerConfig Rest)} {server : ServerConfig Rest}
  {summary : RestoreSummary}

theorem mergeServer_warnings :
    summary.warnings ⊆ (mergeServer stored server summary).2.warnings := by
  unfold mergeServer
  split
  · exact List.Subset.trans (mergeSecret_warnings _) (mergeUnknownProxy_warnings _)
  · exact List.Subset.trans (mergeSecret_warnings _) (mergeProxy_warnings _)

theorem mergeServer_settles :
    ServerSettles stored (mergeServer stored server summary).2.warnings server
      (mergeServer stored server summary).1 := by
  unfold mergeServer
  split
  next unknown =>
    refine ⟨?_, ?_⟩
    · intro masked
      right
      rcases mergeSecret_settles none summary (unknownPasswordWarning server) masked with
        ⟨document, -⟩ | ⟨unset, warned⟩
      · rw [masked] at document
        cases document
      · exact ⟨unset, .inl (mergeUnknownProxy_warnings _ warned)⟩
    · intro url set masked
      right
      simp only [mergeUnknownProxy, set, if_pos masked]
      exact ⟨trivial, .inl (mem_warn _)⟩
  next existing found =>
    have here := List.mem_of_find?_eq_some found
    have same : existing.id = server.id := by simpa using List.find?_some found
    refine ⟨?_, ?_⟩
    · intro masked
      rcases mergeSecret_settles existing.password summary (passwordWarning server) masked with
        ⟨document, kept⟩ | ⟨unset, warned⟩
      · exact .inl ⟨existing, here, same, document, kept⟩
      · exact .inr ⟨unset, .inr (mergeProxy_warnings _ warned)⟩
    · intro url set masked
      by_cases matches_ : some url = existing.proxyUrl.map maskProxyUserinfo
      · simp only [mergeProxy, set, if_pos matches_]
        exact .inl ⟨existing, here, same, matches_.symm, rfl⟩
      · simp only [mergeProxy, set, if_neg matches_, if_pos masked]
        exact .inr ⟨trivial, .inr (mem_warn _)⟩

theorem ServerSettles.mono {warnings later : List String} {merged : ServerConfig Rest}
    (settles : ServerSettles stored warnings server merged) (more : warnings ⊆ later) :
    ServerSettles stored later server merged where
  password masked := (settles.password masked).imp_right fun dropped =>
    ⟨dropped.1, dropped.2.imp (more ·) (more ·)⟩
  proxyUrl url set masked := (settles.proxyUrl url set masked).imp_right fun dropped =>
    ⟨dropped.1, dropped.2.imp (more ·) (more ·)⟩

theorem mergeServers_warnings (servers : List (ServerConfig Rest)) :
    summary.warnings ⊆ (mergeServers stored servers summary).2.warnings := by
  induction servers generalizing summary with
  | nil => exact List.Subset.refl _
  | cons server servers ih => exact List.Subset.trans mergeServer_warnings ih

theorem mergeServers_settles (servers : List (ServerConfig Rest)) :
    List.Forall₂ (ServerSettles stored (mergeServers stored servers summary).2.warnings) servers
      (mergeServers stored servers summary).1 := by
  induction servers generalizing summary with
  | nil => exact .nil
  | cons server servers ih =>
      exact .cons (mergeServer_settles.mono (mergeServers_warnings servers)) ih

variable {feeds storedFeeds : List (RssFeedConfig Rest)}

theorem mergeFeeds_warnings :
    summary.warnings ⊆ (mergeFeeds storedFeeds feeds summary).2.warnings := by
  induction feeds generalizing summary with
  | nil => exact List.Subset.refl _
  | cons feed feeds ih =>
      unfold mergeFeeds
      split
      · split
        · exact @ih summary.keep
        · exact List.Subset.trans (subset_warn _) ih
      · exact @ih summary

section Cons

variable {feed storedFeed : RssFeedConfig Rest} {result : List (RssFeedConfig Rest)}
  {warnings : List String}

section

variable (settles : FeedsSettle feeds storedFeeds result warnings)

include settles

/-- One more feed is taken over, or restored, or dropped with a warning. -/
theorem FeedsSettle.cons (made : List (RssFeedConfig Rest))
    (keeps : ∀ kept ∈ made, kept = feed ∧ ¬secretMask <:+: feed.url ∨
      ∃ storedFeed ∈ storedFeeds, NamesFeed feed storedFeed ∧
        kept = { feed with url := storedFeed.url }) (settled : secretMask <:+: feed.url →
      (∃ storedFeed ∈ storedFeeds, NamesFeed feed storedFeed ∧
        { feed with url := storedFeed.url } ∈ made) ∨ feedWarning feed.name ∈ warnings) :
    FeedsSettle (feed :: feeds) storedFeeds (made ++ result) warnings where
  kept := by
    intro kept here
    rcases List.mem_append.mp here with here | here
    · rcases keeps kept here with ⟨rfl, plain⟩ | stands
      · exact .inl ⟨List.mem_cons_self, plain⟩
      · exact .inr ⟨feed, List.mem_cons_self, stands⟩
    · rcases settles.kept kept here with ⟨inside, unmasked⟩ | ⟨document, inside, stands⟩
      · exact .inl ⟨List.mem_cons_of_mem _ inside, unmasked⟩
      · exact .inr ⟨document, List.mem_cons_of_mem _ inside, stands⟩
  masked := by
    intro document here masked
    rcases List.mem_cons.mp here with rfl | here
    · exact (settled masked).imp_left fun ⟨other, known, names, kept⟩ =>
        ⟨other, known, names, List.mem_append_left _ kept⟩
    · exact (settles.masked document here masked).imp_left fun ⟨other, known, names, kept⟩ =>
        ⟨other, known, names, List.mem_append_right _ kept⟩

theorem FeedsSettle.mono {later : List String} (more : warnings ⊆ later) :
    FeedsSettle feeds storedFeeds result later where
  kept := settles.kept
  masked document here masked := (settles.masked document here masked).imp_right (more ·)

end

end Cons

theorem mergeFeeds_settles (feeds : List (RssFeedConfig Rest)) (summary : RestoreSummary) :
    FeedsSettle feeds storedFeeds (mergeFeeds storedFeeds feeds summary).1
      (mergeFeeds storedFeeds feeds summary).2.warnings := by
  induction feeds generalizing summary with
  | nil => exact ⟨by simp [mergeFeeds], by simp⟩
  | cons feed feeds ih =>
      unfold mergeFeeds
      split
      next masked =>
        split
        next storedFeed found =>
          have here := List.mem_of_find?_eq_some found
          have names : NamesFeed feed storedFeed := by simpa [NamesFeed] using List.find?_some found
          apply (ih summary.keep).cons [{ feed with url := storedFeed.url }]
          · simpa using .inr ⟨storedFeed, here, names, rfl⟩
          · exact fun _ => .inl ⟨storedFeed, here, names, List.mem_singleton_self _⟩
        next missing =>
          apply (ih (summary.warn (feedWarning feed.name))).cons []
          · simp
          · exact fun _ => .inr (mergeFeeds_warnings (mem_warn _))
      next plain =>
        apply (ih summary).cons [feed]
        · simpa using .inl plain
        · exact fun masked => absurd masked plain

end Lists

/-! ## The whole configuration -/

section Whole

variable {incoming stored : AppConfig Rest} {summary : RestoreSummary}

theorem mergeNotifications_warnings (incoming stored : NotificationConfig Rest) :
    summary.warnings ⊆ (mergeNotifications incoming stored summary).2.warnings := by
  intro warning here
  exact mergeText_warnings _ (mergeText_warnings _ (mergeText_warnings _
    (mergeText_warnings _ (mergeText_warnings _ here))))

theorem mergeNotifications_settles (incoming stored : NotificationConfig Rest) :
    ∀ field ∈ textFields, field.2 incoming = secretMask →
      Settled maskText [] (field.2 stored) (field.2 incoming)
        (field.2 (mergeNotifications incoming stored summary).1)
        (emptyWarning field.1 ∈ (mergeNotifications incoming stored summary).2.warnings) := by
  simp only [textFields, List.forall_mem_cons, List.not_mem_nil, false_imp_iff, implies_true,
    and_true]
  refine ⟨?_, ?_, ?_, ?_, ?_⟩
  · intro masked
    refine (mergeText_settles _ masked).imp fun here => ?_
    exact mergeText_warnings _ (mergeText_warnings _ (mergeText_warnings _
      (mergeText_warnings _ here)))
  · intro masked
    refine (mergeText_settles _ masked).imp fun here => ?_
    exact mergeText_warnings _ (mergeText_warnings _ (mergeText_warnings _ here))
  · intro masked
    refine (mergeText_settles _ masked).imp fun here => ?_
    exact mergeText_warnings _ (mergeText_warnings _ here)
  · intro masked
    exact (mergeText_settles _ masked).imp fun here => mergeText_warnings _ here
  · intro masked
    exact mergeText_settles _ masked

theorem mergeOtel_warnings (incoming stored : OtelConfig Rest) :
    summary.warnings ⊆ (mergeOtel incoming stored summary).2.warnings := by
  intro warning here
  exact mergeSignalEndpoint_warnings _ (mergeSignalEndpoint_warnings _
    (mergeEndpoint_warnings here))

theorem mergeOtel_settles (incoming stored : OtelConfig Rest) :
    ∀ field ∈ signalFields, ∀ url, field.2 incoming = some url → secretMask <:+: url →
      Settled (Option.map maskProxyUserinfo) none (field.2 stored) (field.2 incoming)
        (field.2 (mergeOtel incoming stored summary).1)
        (signalWarning field.1 ∈ (mergeOtel incoming stored summary).2.warnings) := by
  simp only [signalFields, List.forall_mem_cons, List.not_mem_nil, false_imp_iff, implies_true,
    and_true]
  refine ⟨?_, ?_⟩
  · intro url set masked
    exact (mergeSignalEndpoint_settles _ set masked).imp fun here =>
      mergeSignalEndpoint_warnings _ here
  · intro url set masked
    exact mergeSignalEndpoint_settles _ set masked

theorem masksSettle_mergeSecrets (incoming stored : AppConfig Rest) (summary : RestoreSummary) :
    MasksSettle incoming stored (mergeSecrets incoming stored summary).1
      (mergeSecrets incoming stored summary).2.warnings where
  apiKey masked := (mergeSecret_settles _ _ _ masked).imp fun here =>
    mergeServers_warnings _ (mergeFeeds_warnings (mergeOtel_warnings _ _
      (mergeNotifications_warnings _ _ (mergeSecret_warnings _ (mergeSecret_warnings _ here)))))
  davPassword masked := (mergeSecret_settles _ _ _ masked).imp fun here =>
    mergeServers_warnings _ (mergeFeeds_warnings (mergeOtel_warnings _ _
      (mergeNotifications_warnings _ _ (mergeSecret_warnings _ here))))
  davApiKey masked := (mergeSecret_settles _ _ _ masked).imp fun here =>
    mergeServers_warnings _ (mergeFeeds_warnings (mergeOtel_warnings _ _
      (mergeNotifications_warnings _ _ here)))
  texts field here masked :=
    (mergeNotifications_settles _ _ field here masked).imp fun warned =>
      mergeServers_warnings _ (mergeFeeds_warnings (mergeOtel_warnings _ _ warned))
  endpoint masked := (mergeEndpoint_settles masked).imp fun warned =>
    mergeServers_warnings _ (mergeFeeds_warnings (mergeSignalEndpoint_warnings _
      (mergeSignalEndpoint_warnings _ warned)))
  signals field here url set masked :=
    (mergeOtel_settles _ _ field here url set masked).imp fun warned =>
      mergeServers_warnings _ (mergeFeeds_warnings warned)
  feeds := (mergeFeeds_settles _ _).mono (mergeServers_warnings _)
  servers := mergeServers_settles _

theorem mem_checkExact {field : String} {value : Option (List Char)}
    (masked : value = some secretMask) : exactProblem field ∈ checkExact field value := by
  rw [checkExact, if_pos masked]
  exact List.mem_singleton_self _

theorem masksReported (config : AppConfig Rest) : MasksReported config where
  apiKey masked := by
    simp only [checkMasks, List.mem_append, mem_checkExact masked, true_or]
  davPassword masked := by
    simp only [checkMasks, List.mem_append, mem_checkExact masked, true_or, or_true]
  davApiKey masked := by
    simp only [checkMasks, List.mem_append, mem_checkExact masked, true_or, or_true]
  texts := by
    simp only [textFields, List.forall_mem_cons, List.not_mem_nil, false_imp_iff, implies_true,
      and_true]
    refine ⟨?_, ?_, ?_, ?_, ?_⟩ <;>
      · intro masked
        simp only [checkMasks, List.mem_append, mem_checkExact (congrArg some masked), true_or,
          or_true]
  endpoint masked := by simp [checkMasks, checkEndpoint, masked]
  signals := by
    simp only [signalFields, List.forall_mem_cons, List.not_mem_nil, false_imp_iff, implies_true,
      and_true]
    refine ⟨?_, ?_⟩ <;>
      · intro url set masked
        simp [checkMasks, checkEndpoint, set, masked]
  feeds feed index here masked := by
    simp only [checkMasks, List.mem_append, List.mem_flatMap]
    iterate 3 left
    exact .inr ⟨(feed, index), here, by simp [checkFeed, masked]⟩
  passwords server index here masked := by
    simp only [checkMasks, List.mem_append, List.mem_flatMap]
    iterate 5 left
    exact .inr ⟨(server, index), here, by simp [checkExact, masked]⟩
  proxies server index url here set masked := by
    simp only [checkMasks, List.mem_append, List.mem_flatMap]
    iterate 4 left
    exact .inr ⟨(server, index), here, by simp [checkProxy, set, masked]⟩

end Whole

end Rustnzb.Core
