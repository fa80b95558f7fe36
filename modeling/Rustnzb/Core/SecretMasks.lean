import Rustnzb.Lib.Url

/-!
# The masks of a configuration backup

An export replaces every secret by a mask. The model keeps the fields that hold a secret, or that
find the stored one again; everything else in a configuration is its rest. Texts are lists of
characters, except for the names that only show up in messages.
-/

namespace Rustnzb.Core

open Lib (rsplitOnce splitOnce splitScheme)

def secretMask : List Char := List.replicate 8 '*'

structure GeneralConfig (Rest : Type) where
  apiKey : Option (List Char)
  rest : Rest
  deriving DecidableEq

structure DavConfig (Rest : Type) where
  password : Option (List Char)
  apiKey : Option (List Char)
  rest : Rest
  deriving DecidableEq

structure NotificationConfig (Rest : Type) where
  webhookUrl : List Char
  appriseApiUrl : List Char
  appriseUrls : List Char
  ntfyToken : List Char
  ntfyTopic : List Char
  rest : Rest
  deriving DecidableEq

structure OtelConfig (Rest : Type) where
  endpoint : List Char
  logsEndpoint : Option (List Char)
  metricsEndpoint : Option (List Char)
  rest : Rest
  deriving DecidableEq

structure ServerConfig (Rest : Type) where
  id : String
  name : String
  password : Option (List Char)
  proxyUrl : Option (List Char)
  rest : Rest
  deriving DecidableEq

structure RssFeedConfig (Rest : Type) where
  name : String
  url : List Char
  rest : Rest
  deriving DecidableEq

structure AppConfig (Rest : Type) where
  general : GeneralConfig Rest
  dav : DavConfig Rest
  notifications : NotificationConfig Rest
  otel : OtelConfig Rest
  servers : List (ServerConfig Rest)
  rssFeeds : List (RssFeedConfig Rest)
  rest : Rest
  deriving DecidableEq

/-! ## URLs -/

/-- Mask what stands between the `://` and the last `@` before the next slash. -/
def maskProxyUserinfo (url : List Char) : List Char :=
  match splitScheme url with
  | none => url
  | some (scheme, rest) =>
      match rsplitOnce '@' (rest.takeWhile (· ≠ '/')) with
      | none => url
      | some (_, after) => scheme ++ (secretMask ++ '@' :: (after ++ rest.dropWhile (· ≠ '/')))

/-- The second half of `mask_url_secrets`: the query of a masked URL. -/
def maskQueryString (masked : List Char) : List Char :=
  let (beforeFragment, fragment) := match splitOnce '#' masked with
    | some (head, tail) => (head, some tail)
    | none => (masked, none)
  let out := match splitOnce '?' beforeFragment with
    | some (head, _) => head ++ '?' :: secretMask
    | none => beforeFragment
  match fragment with
  | some fragment => out ++ '#' :: fragment
  | none => out

def maskUrlSecrets (url : List Char) : List Char :=
  maskQueryString (maskProxyUserinfo url)

/-! ## Configurations -/

variable {Rest : Type}

def maskSecret (secret : Option (List Char)) : Option (List Char) :=
  secret.map fun _ => secretMask

def maskText (secret : List Char) : List Char :=
  if secret = [] then secret else secretMask

def maskDav (dav : DavConfig Rest) : DavConfig Rest :=
  { dav with password := maskSecret dav.password, apiKey := maskSecret dav.apiKey }

def maskNotifications (notifications : NotificationConfig Rest) : NotificationConfig Rest :=
  { notifications with
    webhookUrl := maskText notifications.webhookUrl
    appriseApiUrl := maskText notifications.appriseApiUrl
    appriseUrls := maskText notifications.appriseUrls
    ntfyToken := maskText notifications.ntfyToken
    ntfyTopic := maskText notifications.ntfyTopic }

def maskOtel (otel : OtelConfig Rest) : OtelConfig Rest :=
  { otel with
    endpoint := maskProxyUserinfo otel.endpoint
    logsEndpoint := otel.logsEndpoint.map maskProxyUserinfo
    metricsEndpoint := otel.metricsEndpoint.map maskProxyUserinfo }

def maskServer (server : ServerConfig Rest) : ServerConfig Rest :=
  { server with
    password := maskSecret server.password
    proxyUrl := server.proxyUrl.map maskProxyUserinfo }

def maskFeed (feed : RssFeedConfig Rest) : RssFeedConfig Rest :=
  { feed with url := maskUrlSecrets feed.url }

def maskSecrets (config : AppConfig Rest) : AppConfig Rest :=
  { config with
    general := { config.general with apiKey := maskSecret config.general.apiKey }
    dav := maskDav config.dav
    notifications := maskNotifications config.notifications
    otel := maskOtel config.otel
    servers := config.servers.map maskServer
    rssFeeds := config.rssFeeds.map maskFeed }

/-! ## What masking a login leaves -/

section Login

variable {front back rest after : List Char}

/-- What follows the last `@` before the first slash. -/
def pastLogin (rest : List Char) : Option (List Char) :=
  (rsplitOnce '@' (rest.takeWhile (· ≠ '/'))).map fun pieces =>
    pieces.2 ++ rest.dropWhile (· ≠ '/')

def maskLogin (rest : List Char) : List Char :=
  match pastLogin rest with
  | none => rest
  | some after => secretMask ++ '@' :: after

theorem maskProxyUserinfo_of_none {url : List Char} (none : splitScheme url = none) :
    maskProxyUserinfo url = url := by
  simp [maskProxyUserinfo, none]

theorem maskProxyUserinfo_of_some {url scheme rest : List Char}
    (split : splitScheme url = some (scheme, rest)) :
    maskProxyUserinfo url = scheme ++ maskLogin rest := by
  simp only [maskProxyUserinfo, split, maskLogin, pastLogin]
  cases rsplitOnce '@' (rest.takeWhile (· ≠ '/')) with
  | none => exact Lib.append_of_splitScheme split
  | some pieces => rfl

theorem pastLogin_eq_none : pastLogin rest = none ↔ '@' ∉ rest.takeWhile (· ≠ '/') := by
  rw [pastLogin, Option.map_eq_none_iff, Lib.rsplitOnce_eq_none]

theorem pastLogin_login (login : List Char) (noSlash : '/' ∉ login)
    (last : pastLogin after = none) :
    pastLogin (login ++ '@' :: after) = some after := by
  have plain : '/' ∉ login ++ ['@'] := by simpa using noSlash
  have split : login ++ '@' :: after = login ++ ['@'] ++ after := by simp
  rw [pastLogin, split, Lib.takeWhile_append_of_notMem plain, Lib.dropWhile_append_of_notMem plain,
    List.append_assoc, List.singleton_append, Lib.rsplitOnce_append (pastLogin_eq_none.mp last)]
  simp

theorem of_pastLogin (found : pastLogin rest = some after) :
    ∃ login, rest = login ++ '@' :: after ∧ '/' ∉ login ∧ pastLogin after = none := by
  rcases Option.map_eq_some_iff.mp found with ⟨⟨login, host⟩, split, rfl⟩
  rcases Lib.of_rsplitOnce split with ⟨whole, last⟩
  have noSlash : '/' ∉ login ++ '@' :: host := whole ▸ Lib.notMem_takeWhile rest
  simp only [List.mem_append, List.mem_cons, not_or] at noSlash
  refine ⟨login, ?_, noSlash.1, ?_⟩
  · calc
      rest = rest.takeWhile (· ≠ '/') ++ rest.dropWhile (· ≠ '/') :=
        List.takeWhile_append_dropWhile.symm
      _ = login ++ '@' :: (host ++ rest.dropWhile (· ≠ '/')) := by rw [whole]; simp
  · rw [pastLogin_eq_none, Lib.takeWhile_append_of_notMem noSlash.2.2,
      (Lib.takeWhile_of_begins (Lib.begins_dropWhile rest)).1]
    simpa using last

theorem pastLogin_append_of_some (noSlash : '/' ∉ front) (found : pastLogin back = some after) :
    pastLogin (front ++ back) = some after := by
  rcases of_pastLogin found with ⟨login, rfl, plain, last⟩
  rw [← List.append_assoc]
  exact pastLogin_login _ (by simp [noSlash, plain]) last

theorem pastLogin_append_eq_none (frontNone : pastLogin front = none)
    (backNone : pastLogin back = none) : pastLogin (front ++ back) = none := by
  rw [pastLogin_eq_none] at frontNone backNone ⊢
  induction front with
  | nil => exact backNone
  | cons char others ih =>
      rw [List.cons_append, List.takeWhile_cons]
      rw [List.takeWhile_cons] at frontNone
      split
      next other =>
        rw [if_pos other, List.mem_cons, not_or] at frontNone
        rw [List.mem_cons, not_or]
        exact ⟨frontNone.1, ih frontNone.2⟩
      · exact List.not_mem_nil

theorem pastLogin_append_of_none (backNone : pastLogin back = none) :
    pastLogin (front ++ back) = (pastLogin front).map (· ++ back) := by
  cases found : pastLogin front with
  | none => exact pastLogin_append_eq_none found backNone
  | some host =>
      rcases of_pastLogin found with ⟨login, rfl, plain, last⟩
      rw [List.append_assoc, List.cons_append]
      exact pastLogin_login login plain (pastLogin_append_eq_none last backNone)

theorem maskLogin_append (backNone : pastLogin back = none) :
    maskLogin (front ++ back) = maskLogin front ++ back := by
  rw [maskLogin, maskLogin, pastLogin_append_of_none backNone]
  cases pastLogin front with
  | none => rfl
  | some host => simp

theorem noSlash_secretMask : '/' ∉ secretMask := by decide

theorem maskLogin_maskLogin (rest : List Char) : maskLogin (maskLogin rest) = maskLogin rest := by
  cases found : pastLogin rest with
  | none => simp only [maskLogin, found]
  | some after =>
      rcases of_pastLogin found with ⟨login, -, -, last⟩
      simp only [maskLogin, found, pastLogin_login _ noSlash_secretMask last]

theorem maskProxyUserinfo_idempotent (url : List Char) :
    maskProxyUserinfo (maskProxyUserinfo url) = maskProxyUserinfo url := by
  cases split : splitScheme url with
  | none => rw [maskProxyUserinfo_of_none split, maskProxyUserinfo_of_none split]
  | some pieces =>
      have again := Lib.splitScheme_append split (maskLogin pieces.2)
      rw [maskProxyUserinfo_of_some split, maskProxyUserinfo_of_some again, maskLogin_maskLogin]

theorem maskProxyUserinfo_separator {text : List Char} {separator : Char}
    (noColon : separator ≠ ':') (noSlash : separator ≠ '/') (none : splitScheme text = none)
    (other : List Char) :
    maskProxyUserinfo (text ++ separator :: other) =
      text ++ separator :: maskProxyUserinfo other := by
  have split := Lib.splitScheme_separator noColon noSlash none other
  cases found : splitScheme other with
  | none =>
      rw [found] at split
      rw [maskProxyUserinfo_of_none split, maskProxyUserinfo_of_none found]
  | some pieces =>
      rw [found] at split
      rw [maskProxyUserinfo_of_some split, maskProxyUserinfo_of_some found]
      simp

end Login

/-! ## What masking a query leaves -/

def maskQueryPart (url : Lib.Url) : Lib.Url :=
  { url with query := maskSecret url.query }

theorem maskQueryString_eq (text : List Char) :
    maskQueryString text = (maskQueryPart (Lib.Url.parse text)).render := by
  have base : ∀ (front : List Char) (query fragment : Option (List Char)),
      (maskQueryPart (Lib.Url.parseBase front query fragment)).render =
        front ++ (Lib.part '?' (maskSecret query) ++ Lib.part '#' fragment) := by
    intro front query fragment
    calc
      _ = (Lib.Url.parseBase front (maskSecret query) fragment).render := by
        unfold Lib.Url.parseBase
        split <;> rfl
      _ = _ := Lib.Url.render_parseBase _ _ _
  have front : ∀ (text : List Char) (fragment : Option (List Char)),
      (maskQueryPart (Lib.Url.parseQuery text fragment)).render =
        (match splitOnce '?' text with
          | some (head, _) => head ++ '?' :: secretMask
          | none => text) ++ Lib.part '#' fragment := by
    intro text fragment
    unfold Lib.Url.parseQuery
    split
    next none => rw [none, base]; rfl
    next head query split =>
      rw [split, base]
      simp [maskSecret, Lib.part]
  cases split : splitOnce '#' text with
  | none => simp [maskQueryString, Lib.Url.parse, split, front, Lib.part]
  | some pieces => simp [maskQueryString, Lib.Url.parse, split, front, Lib.part]

end Rustnzb.Core
