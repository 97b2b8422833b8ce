/-
`services/token.rs` and `services/session.rs`: looking a code up, opening, closing and migrating
sessions, the expiry pass of the cleanup ticker and the purge of old rows. Logging is left out.
-/
import Didicafe.Model.Firewall

namespace Didicafe

/-! ## Tokens -/

inductive TokenLookup where
  | unused (token : Token)
  | active (token : Token)
  | invalid
deriving DecidableEq, Repr

/-- The classification of a looked-up token by its stored status. -/
def TokenLookup.ofToken : Option Token → TokenLookup
  | some t =>
    match t.status with
    | .unused => .unused t
    | .active => .active t
    | _ => .invalid
  | none => .invalid

def validateToken (code : String) : App TokenLookup := do
  let token ← sql (.getTokenByCode code)
  return .ofToken token

/-! ## Sessions -/

def Session.remainingSeconds (s : Session) : Effect.Prog Op Op.Out Int := do
  let now ← utcNow
  return s.remainingAt now

def createSession (tokenId minutes : Int) (mac ip : String) : App Int := do
  let now ← utcNow
  let duration ← App.ofExcept (durationMinutes minutes)
  let expiresAt ← App.ofExcept (addDuration now duration)
  let expiresStr := formatTimestamp (expiresAt / nanosPerSec)
  let timeoutSecs := asU64 (minutes * 60)
  -- 1. add MAC+IP to nftables with timeout
  authorizeClient mac ip timeoutSecs
  -- 2. create session record
  let sessionId ← sql (.createSession tokenId mac ip expiresStr)
  -- 3. mark token as active
  sql (.redeemToken tokenId expiresStr)
  return sessionId

def disconnect (sessionId : Int) : App Unit := do
  match ← sql (.getSessionById sessionId) with
  | none => throw (.anyhow s!"session {sessionId} not found")
  | some session =>
    deauthorizeClient session.macAddress session.ipAddress
    sql (.disconnectSession sessionId)

def migrateSession (tokenId : Int) (newMac newIp : String) : App Int := do
  match ← sql (.getActiveSessionByToken tokenId) with
  | none => throw (.anyhow s!"no active session for token {tokenId}")
  | some oldSession =>
    let remaining ← oldSession.remainingSeconds
    if remaining ≤ 0 then throw (.anyhow s!"session for token {tokenId} has already expired")
    else
      -- 1. deauthorize old MAC+IP, ignoring errors
      let _ ← (deauthorizeClient oldSession.macAddress oldSession.ipAddress).attempt
      -- 2. close old session
      sql (.disconnectSession oldSession.id)
      -- 3. authorize new MAC+IP with remaining time
      authorizeClient newMac newIp (asU64 remaining)
      -- 4. create new session with the original expiry time
      sql (.createSession tokenId newMac newIp oldSession.expiresAt)

/-! ## The cleanup ticker -/

/-- The body of the ticker's loop over the fetched sessions. -/
def cleanupSession (grace : Int) (session : Session) : Effect.Prog Op Op.Out PUnit := do
  let remaining ← session.remainingSeconds
  if remaining ≤ -grace then
    match ← (deauthorizeClient session.macAddress session.ipAddress).run with
    | .error _ => return ()
    | .ok () =>
      match ← (sql (.expireSession session.id)).run with
      | .error _ => return ()
      | .ok () =>
        let _ ← (sql (.expireToken session.tokenId)).run
        return ()
  else return ()

/-- One expiry step of `cleanup_ticker`: the active sessions are fetched once and examined in
turn. -/
def cleanupPass (grace : Int) : Effect.Prog Op Op.Out PUnit := do
  match ← (sql .getActiveSessions).run with
  | .error _ => return ()
  | .ok sessions => sessions.forM (cleanupSession grace)

/-- `Database::purge_expired_sessions`: the ended sessions past the retention, then the ended tokens that no session
refers to. -/
def purgeExpiredSessions (retentionDays : Int) : App Nat := do
  let purged ← sql (.deleteEndedSessions retentionDays)
  sql .deleteOrphanTokens
  return purged

end Didicafe
