import Mathlib.Data.List.Perm.Basic
import Rustnzb.Lib.Run

/-!
# The tokens of the web login

`TokenStore` keeps two maps, each behind a lock of its own. A call takes one lock after another, so
a call in progress is what it still has to do, and each of its steps reads or writes one map.
`generate_token` is taken as an unbounded source of fresh tokens, and the session counter as one
that does not wrap.

Not in the source: `issuedFor` and `redeemed` record what was given out and what was redeemed,
`sweptAccess` and `sweptRefresh` which sessions a revocation has removed from each map, and `ended`
the sessions whose revocation has returned.
-/

namespace Rustnzb.Web

def accessTokenTtl : ℕ := 15 * 60

def refreshTokenTtl : ℕ := 30 * 24 * 60 * 60

structure TokenEntry where
  expiresAt : ℕ
  session : ℕ

/-- What `revoke_session_of` does next; from the third step on, with the session it has found. -/
inductive Revoking where
  | lookupAccess
  | lookupRefresh
  | removeAccess (session : Option ℕ)
  | removeRefresh (session : Option ℕ)
  | retainAccess (session : ℕ)
  | retainRefresh (session : ℕ)

inductive TokenCall (Token : Type) where
  /-- `issue_tokens`, before the tokens are drawn. -/
  | issue (session : ℕ)
  | insertAccess (session : ℕ) (access refresh : Token) (now : ℕ)
  | insertRefresh (session : ℕ) (refresh : Token) (now : ℕ)
  /-- `live`: the session of the token when the call began. -/
  | revokeSession (token : Token) (live : Option ℕ) (stage : Revoking)
  /-- `revoke_all`, which began when the sessions below `below` existed. -/
  | clearAccess (below : ℕ)
  | clearRefresh (below : ℕ)
  | cleanAccess (now : ℕ)
  | cleanRefresh (now : ℕ)

structure TokenStore (Token : Type) where
  accessTokens : Token → Option TokenEntry
  refreshTokens : Token → Option TokenEntry
  nextSession : ℕ
  now : ℕ
  calls : List (TokenCall Token)
  issuedFor : Token → Option ℕ
  redeemed : List Token
  sweptAccess : List ℕ
  sweptRefresh : List ℕ
  ended : List ℕ

inductive TokenEvent (Token : Type) where
  | tick (elapsed : ℕ)
  | createTokens
  | refresh (token : Token)
  | revokeRefreshToken (token : Token)
  | revokeSessionOf (token : Token)
  | revokeAll
  | cleanupExpired
  | draw (call : ℕ) (access refresh : Token)
  | advance (call : ℕ)

namespace TokenStore

variable {Token : Type} [DecidableEq Token]

def new : TokenStore Token where
  accessTokens _ := none
  refreshTokens _ := none
  nextSession := 0
  now := 0
  calls := []
  issuedFor _ := none
  redeemed := []
  sweptAccess := []
  sweptRefresh := []
  ended := []

def liveSession (store : TokenStore Token) (entry : TokenEntry) : Option ℕ :=
  if store.now < entry.expiresAt then some entry.session else none

def sessionOf (store : TokenStore Token) (token : Token) : Option ℕ :=
  (store.accessTokens token).bind store.liveSession

/-- The session for which `refresh` would issue new tokens. -/
def redeems (store : TokenStore Token) (token : Token) : Option ℕ :=
  (store.refreshTokens token).bind store.liveSession

def begin (store : TokenStore Token) (call : TokenCall Token) : TokenStore Token :=
  { store with calls := store.calls ++ [call] }

/-- A call has taken a step: `rest` is what is left of it. -/
def follow (store : TokenStore Token) (call : ℕ) (rest : Option (TokenCall Token)) :
    TokenStore Token :=
  { store with calls := store.calls.eraseIdx call ++ rest.toList }

def insertAccess (store : TokenStore Token) (token : Token) (entry : TokenEntry) :
    TokenStore Token :=
  { store with accessTokens := Function.update store.accessTokens token (some entry) }

def insertRefresh (store : TokenStore Token) (token : Token) (entry : TokenEntry) :
    TokenStore Token :=
  { store with refreshTokens := Function.update store.refreshTokens token (some entry) }

def removeAccess (store : TokenStore Token) (token : Token) : TokenStore Token :=
  { store with accessTokens := Function.update store.accessTokens token none }

def removeRefresh (store : TokenStore Token) (token : Token) : TokenStore Token :=
  { store with refreshTokens := Function.update store.refreshTokens token none }

def retainAccess (store : TokenStore Token) (keep : TokenEntry → Bool) : TokenStore Token :=
  { store with accessTokens := fun token => (store.accessTokens token).filter keep }

def retainRefresh (store : TokenStore Token) (keep : TokenEntry → Bool) : TokenStore Token :=
  { store with refreshTokens := fun token => (store.refreshTokens token).filter keep }

def createTokens (store : TokenStore Token) : TokenStore Token :=
  { store with nextSession := store.nextSession + 1 }.begin (.issue store.nextSession)

def refresh (store : TokenStore Token) (token : Token) : TokenStore Token :=
  match store.refreshTokens token with
  | none => store
  | some entry =>
      if entry.expiresAt ≤ store.now then store.removeRefresh token
      else
        { store.removeRefresh token with redeemed := token :: store.redeemed }.begin
          (.issue entry.session)

def revokeSessionOf (store : TokenStore Token) (token : Token) : TokenStore Token :=
  store.begin
    (.revokeSession token ((store.sessionOf token).or (store.redeems token)) .lookupAccess)

def endSession (store : TokenStore Token) (live : Option ℕ) : TokenStore Token :=
  { store with ended := live.toList ++ store.ended }

/-- The next step of a call that has drawn its tokens; `none` when it has not. -/
def advance (store : TokenStore Token) (call : ℕ) : TokenCall Token → Option (TokenStore Token)
  | .issue _ => none
  | .insertAccess session access refresh now =>
      some ((store.insertAccess access
        { expiresAt := now + accessTokenTtl, session := session }).follow call
          (some (.insertRefresh session refresh now)))
  | .insertRefresh session refresh now =>
      some ((store.insertRefresh refresh
        { expiresAt := now + refreshTokenTtl, session := session }).follow call none)
  | .revokeSession token live .lookupAccess =>
      some (store.follow call (some (.revokeSession token live
        (match store.accessTokens token with
          | some entry => .removeAccess (some entry.session)
          | none => .lookupRefresh))))
  | .revokeSession token live .lookupRefresh =>
      some (store.follow call (some (.revokeSession token live
        (.removeAccess ((store.refreshTokens token).map (·.session))))))
  | .revokeSession token live (.removeAccess session) =>
      some ((store.removeAccess token).follow call
        (some (.revokeSession token live (.removeRefresh session))))
  | .revokeSession token live (.removeRefresh none) =>
      some (((store.removeRefresh token).endSession live).follow call none)
  | .revokeSession token live (.removeRefresh (some session)) =>
      some ((store.removeRefresh token).follow call
        (some (.revokeSession token live (.retainAccess session))))
  | .revokeSession token live (.retainAccess session) =>
      some ({ store.retainAccess (·.session ≠ session) with
        sweptAccess := session :: store.sweptAccess }.follow call
          (some (.revokeSession token live (.retainRefresh session))))
  | .revokeSession _ live (.retainRefresh session) =>
      some (({ store.retainRefresh (·.session ≠ session) with
        sweptRefresh := session :: store.sweptRefresh }.endSession live).follow call none)
  | .clearAccess below =>
      some ({ store.retainAccess (fun _ => false) with
        sweptAccess :=
          List.range below ++ store.sweptAccess }.follow call (some (.clearRefresh below)))
  | .clearRefresh below =>
      some ({ store.retainRefresh (fun _ => false) with
        sweptRefresh := List.range below ++ store.sweptRefresh
        ended := List.range below ++ store.ended }.follow call none)
  | .cleanAccess now =>
      some ((store.retainAccess (now < ·.expiresAt)).follow call (some (.cleanRefresh now)))
  | .cleanRefresh now =>
      some ((store.retainRefresh (now < ·.expiresAt)).follow call none)

/-- `none`: the event cannot happen now. -/
def step (store : TokenStore Token) : TokenEvent Token → Option (TokenStore Token)
  | .tick elapsed => some { store with now := store.now + elapsed }
  | .createTokens => some store.createTokens
  | .refresh token => some (store.refresh token)
  | .revokeRefreshToken token => some (store.removeRefresh token)
  | .revokeSessionOf token => some (store.revokeSessionOf token)
  | .revokeAll => some (store.begin (.clearAccess store.nextSession))
  | .cleanupExpired => some (store.begin (.cleanAccess store.now))
  | .draw call access refresh =>
      match store.calls[call]? with
      | some (.issue session) =>
          if store.issuedFor access = none ∧ store.issuedFor refresh = none ∧ access ≠ refresh then
            some ({ store with
              issuedFor := Function.update (Function.update store.issuedFor access (some session))
                refresh (some session) }.follow call
                  (some (.insertAccess session access refresh store.now)))
          else none
      | _ => none
  | .advance call => (store.calls[call]?).bind (store.advance call)

def Step (store : TokenStore Token) (event : TokenEvent Token) (next : TokenStore Token) : Prop :=
  store.step event = some next

omit [DecidableEq Token] in
@[simp] theorem calls_begin (store : TokenStore Token) (call : TokenCall Token) :
    (store.begin call).calls = store.calls ++ [call] := rfl

end TokenStore

end Rustnzb.Web
