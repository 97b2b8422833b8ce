/-
The points of a `portal_auth` request, the places between two of its operations, and what each of its
operations can do. Requests run interleaved in the modules that import this one, and some of their
operations may fail there.
-/
import Didicafe.Model.Handlers
import Didicafe.Store.Lifecycle

namespace Didicafe

open Effect

/-- The code and the client of a request. -/
structure Request where
  code : String
  mac : String
  ip : String
deriving DecidableEq

/-- Where a request stands: before the lookup; on the way of an unused token, before it reads the clock,
authorizes the pair, inserts the session or marks the token; on the way of an active one, before it looks for
the session, reads the clock, releases the old pair, closes the old row, authorizes the new pair or inserts the
new session; or at its end. -/
inductive AuthPoint where
  | lookup
  | clock (k : Token)
  | authorize (k : Token) (expiresStr : String)
  | insert (k : Token) (expiresStr : String)
  | redeem (k : Token) (expiresStr : String)
  | find (k : Token)
  | check (k : Token) (q : Session)
  | release (k : Token) (q : Session) (remaining : Int)
  | close (k : Token) (q : Session) (remaining : Int)
  | reauthorize (k : Token) (q : Session) (remaining : Int)
  | reinsert (k : Token) (q : Session)
  | finished (r : PortalResponse)

namespace AuthPoint

abbrev Auth := Prog Op Op.Out PortalResponse

/-! ## What a request still has to do -/

section Left

variable (req : Request) (k : Token)

def internalError : Auth := .done (.error "portal.error.internal")

def expiredError : Auth := .done (.error "portal.error.expired")

def redeemLeft (expiresStr : String) : Auth :=
  .call (.sql (.redeemToken k.id expiresStr)) fun
    | .ok _ => .done .success
    | .error _ => internalError

def insertLeft (expiresStr : String) : Auth :=
  .call (.sql (.createSession k.id req.mac req.ip expiresStr)) fun
    | .ok _ => redeemLeft k expiresStr
    | .error _ => internalError

def authorizeLeft (expiresStr : String) : Auth :=
  .call (.nft (.addElement req.mac req.ip (asU64 (k.durationMinutes * 60)))) fun
    | .ok _ => insertLeft req k expiresStr
    | .error _ => internalError

def clockLeft : Auth :=
  .call .utcNow fun now =>
    match durationMinutes k.durationMinutes >>= addDuration now with
    | .ok expiresAt =>
      if isValidMac req.mac then authorizeLeft req k (formatTimestamp (expiresAt / nanosPerSec)) else internalError
    | .error _ => internalError

def reinsertLeft (q : Session) : Auth :=
  .call (.sql (.createSession k.id req.mac req.ip q.expiresAt)) fun
    | .ok _ => .done .success
    | .error _ => expiredError

def reauthorizeLeft (q : Session) (remaining : Int) : Auth :=
  .call (.nft (.addElement req.mac req.ip (asU64 remaining))) fun
    | .ok _ => reinsertLeft req k q
    | .error _ => expiredError

def closeLeft (q : Session) (remaining : Int) : Auth :=
  .call (.sql (.disconnectSession q.id)) fun
    | .ok _ => if isValidMac req.mac then reauthorizeLeft req k q remaining else expiredError
    | .error _ => expiredError

def releaseLeft (q : Session) (remaining : Int) : Auth :=
  .call (.nft (.deleteElement q.macAddress q.ipAddress)) fun _ => closeLeft req k q remaining

def checkLeft (q : Session) : Auth :=
  .call .utcNow fun now =>
    if q.remainingAt now ≤ 0 then expiredError
    else if isValidMac q.macAddress then releaseLeft req k q (q.remainingAt now)
    else closeLeft req k q (q.remainingAt now)

def findLeft : Auth :=
  .call (.sql (.getActiveSessionByToken k.id)) fun
    | .ok (some q) => checkLeft req k q
    | .ok none | .error _ => expiredError

def lookedUp : TokenLookup → Auth
  | .unused k => clockLeft req k
  | .active k => findLeft req k
  | .invalid => .done (.error "portal.error.invalid")

def lookupLeft : Auth :=
  .call (.sql (.getTokenByCode req.code)) fun
    | .ok token => lookedUp req (.ofToken token)
    | .error e => .done (.internal e)

end Left

def program (req : Request) : AuthPoint → Auth
  | .lookup => portalAuth req.code req.mac req.ip
  | .clock k => clockLeft req k
  | .authorize k expiresStr => authorizeLeft req k expiresStr
  | .insert k expiresStr => insertLeft req k expiresStr
  | .redeem k expiresStr => redeemLeft k expiresStr
  | .find k => findLeft req k
  | .check k q => checkLeft req k q
  | .release k q remaining => releaseLeft req k q remaining
  | .close k q remaining => closeLeft req k q remaining
  | .reauthorize k q remaining => reauthorizeLeft req k q remaining
  | .reinsert k q => reinsertLeft req k q
  | .finished r => .done r

/-! ## The points are those of the source's program -/

section Points

variable (req : Request) (k : Token) {f : Except Err Int → Auth}

theorem createSession_points (hok : ∀ id, f (.ok id) = .done .success) (herr : ∀ e, f (.error e) = internalError) :
    (createSession k.id k.durationMinutes req.mac req.ip).run >>= f = clockLeft req k := by
  unfold createSession authorizeClient clockLeft isValidMac
  apply Prog.call_congr
  intro now
  cases durationMinutes k.durationMinutes with
  | error e => exact herr e
  | ok d =>
    show Prog.bind (Prog.bind (Prog.bind (Prog.done (addDuration now d)) _) _) _ =
      match addDuration now d with | .ok _ => _ | .error _ => _
    cases addDuration now d with
    | error e => exact herr e
    | ok e =>
      cases validateMac req.mac with
      | error e => exact herr _
      | ok =>
        exact Prog.call_congr fun
          | .error _ => herr _
          | .ok _ => Prog.call_congr fun
            | .error _ => herr _
            | .ok _ => Prog.call_congr fun
              | .error _ => herr _
              | .ok _ => hok _

theorem close_points (hok : ∀ id, f (.ok id) = .done .success) (herr : ∀ e, f (.error e) = expiredError)
    (q : Session) (remaining : Int) :
    (do
      sql (.disconnectSession q.id)
      authorizeClient req.mac req.ip (asU64 remaining)
      sql (.createSession k.id req.mac req.ip q.expiresAt) : App Int).run >>= f = closeLeft req k q remaining := by
  unfold authorizeClient closeLeft isValidMac
  refine Prog.call_congr fun
    | .error _ => herr _
    | .ok _ => ?_
  cases validateMac req.mac with
  | error e => exact herr _
  | ok =>
    exact Prog.call_congr fun
      | .error _ => herr _
      | .ok _ => Prog.call_congr fun
        | .error _ => herr _
        | .ok _ => hok _

theorem migrateSession_points (hok : ∀ id, f (.ok id) = .done .success) (herr : ∀ e, f (.error e) = expiredError) :
    (migrateSession k.id req.mac req.ip).run >>= f = findLeft req k := by
  unfold migrateSession deauthorizeClient findLeft
  refine Prog.call_congr fun
    | .error e => herr _
    | .ok none => herr _
    | .ok (some q) => Prog.call_congr fun now => ?_
  show Prog.bind (ite (q.remainingAt now ≤ 0) _ _) _ = ite (q.remainingAt now ≤ 0) _ _
  by_cases hr : q.remainingAt now ≤ 0
  · rw [if_pos hr, if_pos hr]; exact herr _
  rw [if_neg hr, if_neg hr]
  unfold isValidMac
  cases validateMac q.macAddress with
  | error e => exact close_points req k hok herr q (q.remainingAt now)
  | ok => exact Prog.call_congr fun _ => close_points req k hok herr q (q.remainingAt now)

theorem portalAuth_points : portalAuth req.code req.mac req.ip = lookupLeft req := by
  refine Prog.call_congr fun
    | .error e => rfl
    | .ok token => ?_
  show (Prog.done (Except.ok (TokenLookup.ofToken token))).bind _ = lookedUp req (TokenLookup.ofToken token)
  cases TokenLookup.ofToken token with
  | unused k => exact createSession_points req k (fun _ => rfl) fun _ => rfl
  | active k => exact migrateSession_points req k (fun _ => rfl) fun _ => rfl
  | invalid => rfl

end Points

end AuthPoint

/-! ## What one operation of a request can do -/

open AuthPoint

/-- The token a request has looked up as unused and not yet marked. -/
def AuthPoint.redeeming : AuthPoint → Option Int
  | .clock k | .authorize k _ | .insert k _ | .redeem k _ => some k.id
  | _ => none

/-- The active token a request has looked up. -/
def AuthPoint.migrating : AuthPoint → Option Int
  | .find k | .check k _ | .release k _ _ | .close k _ _ | .reauthorize k _ _ | .reinsert k _ => some k.id
  | _ => none

/-- The token a request is about to mark. -/
def AuthPoint.marking : AuthPoint → Option Int
  | .redeem k _ => some k.id
  | _ => none

theorem AuthPoint.redeeming_of_marking {pt : AuthPoint} {id : Int} (h : pt.marking = some id) :
    pt.redeeming = some id := by
  cases pt <;> first | exact h | cases h

/-- A request goes from one point to the next in one operation, with the effect this has on the tables. -/
inductive AuthStep (req : Request) (fault : Option Err) (w w' : World) : AuthPoint → AuthPoint → Prop where
  | unused {k} (hw : w' = w) (hk : w.db.tables.tokenByCode req.code = some k) (hst : k.status = .unused) :
    AuthStep req fault w w' .lookup (.clock k)
  | active {k} (hw : w' = w) (hk : w.db.tables.tokenByCode req.code = some k) (hst : k.status = .active) :
    AuthStep req fault w w' .lookup (.find k)
  | timed {k} (expiresStr : String) (hw : w' = w) : AuthStep req fault w w' (.clock k) (.authorize k expiresStr)
  | authorized {k expiresStr} (hdb : w'.db = w.db) :
    AuthStep req fault w w' (.authorize k expiresStr) (.insert k expiresStr)
  | inserted {k expiresStr id}
    (hid : (w.db.tables.createSession w.now k.id req.mac req.ip expiresStr).1 = .ok id)
    (ht : w'.db.tables = (w.db.tables.createSession w.now k.id req.mac req.ip expiresStr).2) :
    AuthStep req fault w w' (.insert k expiresStr) (.redeem k expiresStr)
  | redeemed {k expiresStr} (ht : w'.db.tables = w.db.tables.redeemToken w.now k.id expiresStr) :
    AuthStep req fault w w' (.redeem k expiresStr) (.finished .success)
  | found {k q} (hw : w' = w) (hq : w.db.tables.sessionByToken k.id = some q) :
    AuthStep req fault w w' (.find k) (.check k q)
  | checked {k q} (remaining : Int) (hw : w' = w) : AuthStep req fault w w' (.check k q) (.release k q remaining)
  | skipped {k q} (remaining : Int) (hw : w' = w) : AuthStep req fault w w' (.check k q) (.close k q remaining)
  | released {k q remaining} (hdb : w'.db = w.db) :
    AuthStep req fault w w' (.release k q remaining) (.close k q remaining)
  | closed {k q remaining} (ht : w'.db.tables = w.db.tables.disconnectSession q.id) (pt : AuthPoint)
    (hpt : pt = .reauthorize k q remaining ∨ ∃ r, pt = .finished r) : AuthStep req fault w w' (.close k q remaining) pt
  | reauthorized {k q remaining} (hdb : w'.db = w.db) :
    AuthStep req fault w w' (.reauthorize k q remaining) (.reinsert k q)
  | reinserted {k q id} (hid : (w.db.tables.createSession w.now k.id req.mac req.ip q.expiresAt).1 = .ok id)
    (ht : w'.db.tables = (w.db.tables.createSession w.now k.id req.mac req.ip q.expiresAt).2) :
    AuthStep req fault w w' (.reinsert k q) (.finished .success)
  | ended {pt} (r : PortalResponse) (ht : w'.db.tables = w.db.tables) (hpt : pt.marking ≠ none → fault ≠ none) :
    AuthStep req fault w w' pt (.finished r)

theorem createSession_error {t : Tables} {now tokenId : Int} {mac ip expiresAt : String} {e : Err}
    (h : (t.createSession now tokenId mac ip expiresAt).1 = .error e) :
    (t.createSession now tokenId mac ip expiresAt).2 = t := by
  unfold Tables.createSession at h ⊢
  split at h
  · cases h
  · rename_i hn; rw [if_neg hn]

/-- What is left of a request after an operation is a point, and the operation is a step to it. -/
def Goes (req : Request) (fault : Option Err) (w : World) (pt : AuthPoint) (x : Auth × World) : Prop :=
  ∃ pt', x.1 = pt'.program req ∧ AuthStep req fault w x.2 pt pt'

section Steps

variable {req : Request} {fault : Option Err} {w : World} {k : Token} {q : Session} {x : Auth × World}

theorem Goes.finish {pt : AuthPoint} (r : PortalResponse) (hpt : pt.marking ≠ none → fault ≠ none) :
    Goes req fault w pt (.done r, w) := ⟨.finished r, rfl, .ended r rfl hpt⟩

/-- The answer to an insertion that is not made to fail. -/
theorem answer_createSession {tokenId : Int} {mac ip expiresAt : String} {r : Except Err Int}
    (hr : (w.db.tables.createSession w.now tokenId mac ip expiresAt).1 = r) :
    (World.exec none (.sql (.createSession tokenId mac ip expiresAt)) w).1 = r := hr

theorem lookup_step (h : (lookupLeft req).step (World.exec fault) w = some x) : Goes req fault w .lookup x := by
  obtain rfl := Option.some.inj h
  cases fault with
  | some e => exact .finish _ nofun
  | none =>
    show Goes req none w .lookup (lookedUp req (.ofToken (w.db.tables.tokenByCode req.code)), w)
    cases hk : w.db.tables.tokenByCode req.code with
    | none => exact .finish _ nofun
    | some k =>
      cases hst : k.status with
      | unused => exact ⟨.clock k, by simp only [TokenLookup.ofToken, hst]; rfl, .unused rfl hk hst⟩
      | active => exact ⟨.find k, by simp only [TokenLookup.ofToken, hst]; rfl, .active rfl hk hst⟩
      | expired | revoked => simp only [TokenLookup.ofToken, hst]; exact .finish _ nofun

theorem clock_step (h : (clockLeft req k).step (World.exec fault) w = some x) : Goes req fault w (.clock k) x := by
  obtain rfl := Option.some.inj h
  show Goes req fault w (.clock k) (match durationMinutes k.durationMinutes >>= addDuration w.now with
    | .ok expiresAt =>
      if isValidMac req.mac then authorizeLeft req k (formatTimestamp (expiresAt / nanosPerSec)) else internalError
    | .error _ => internalError, w)
  cases durationMinutes k.durationMinutes >>= addDuration w.now with
  | error e => exact .finish _ nofun
  | ok expiresAt =>
    cases isValidMac req.mac with
    | false => exact .finish _ nofun
    | true => exact ⟨.authorize k _, rfl, .timed _ rfl⟩

theorem authorize_step {expiresStr : String} (h : (authorizeLeft req k expiresStr).step (World.exec fault) w = some x) :
    Goes req fault w (.authorize k expiresStr) x := by
  obtain rfl := Option.some.inj h
  cases fault with
  | some e => exact .finish _ nofun
  | none => exact ⟨.insert k expiresStr, rfl, .authorized rfl⟩

theorem insert_step {expiresStr : String} (h : (insertLeft req k expiresStr).step (World.exec fault) w = some x) :
    Goes req fault w (.insert k expiresStr) x := by
  obtain rfl := Option.some.inj h
  cases fault with
  | some e => exact .finish _ nofun
  | none =>
    cases hid : (w.db.tables.createSession w.now k.id req.mac req.ip expiresStr).1 with
    | ok id => exact ⟨.redeem k expiresStr, by simp only [answer_createSession hid]; rfl, .inserted hid rfl⟩
    | error e =>
      exact ⟨.finished (.error "portal.error.internal"), by simp only [answer_createSession hid]; rfl,
        .ended _ (createSession_error hid) nofun⟩

theorem redeem_step {expiresStr : String} (h : (redeemLeft k expiresStr).step (World.exec fault) w = some x) :
    Goes req fault w (.redeem k expiresStr) x := by
  obtain rfl := Option.some.inj h
  cases fault with
  | some e => exact .finish _ fun _ => nofun
  | none => exact ⟨.finished .success, rfl, .redeemed rfl⟩

theorem find_step (h : (findLeft req k).step (World.exec fault) w = some x) : Goes req fault w (.find k) x := by
  obtain rfl := Option.some.inj h
  cases fault with
  | some e => exact .finish _ nofun
  | none =>
    have answer : (World.exec none (.sql (.getActiveSessionByToken k.id)) w).1 =
        .ok (w.db.tables.sessionByToken k.id) := rfl
    simp only [answer]
    cases hq : w.db.tables.sessionByToken k.id with
    | none => exact .finish _ nofun
    | some q => exact ⟨.check k q, rfl, .found rfl hq⟩

theorem check_step (h : (checkLeft req k q).step (World.exec fault) w = some x) : Goes req fault w (.check k q) x := by
  obtain rfl := Option.some.inj h
  show Goes req fault w (.check k q) (if q.remainingAt w.now ≤ 0 then expiredError
    else if isValidMac q.macAddress then releaseLeft req k q (q.remainingAt w.now)
    else closeLeft req k q (q.remainingAt w.now), w)
  by_cases hr : q.remainingAt w.now ≤ 0
  · rw [if_pos hr]; exact .finish _ nofun
  rw [if_neg hr]
  cases isValidMac q.macAddress with
  | true => exact ⟨.release k q _, rfl, .checked _ rfl⟩
  | false => exact ⟨.close k q _, rfl, .skipped _ rfl⟩

variable {remaining : Int}

theorem release_step (h : (releaseLeft req k q remaining).step (World.exec fault) w = some x) :
    Goes req fault w (.release k q remaining) x := by
  obtain rfl := Option.some.inj h
  cases fault <;> exact ⟨.close k q remaining, rfl, .released rfl⟩

theorem close_step (h : (closeLeft req k q remaining).step (World.exec fault) w = some x) :
    Goes req fault w (.close k q remaining) x := by
  obtain rfl := Option.some.inj h
  cases fault with
  | some e => exact .finish _ nofun
  | none =>
    by_cases hm : isValidMac req.mac
    · exact ⟨.reauthorize k q remaining, if_pos hm, .closed rfl _ (.inl rfl)⟩
    · exact ⟨.finished _, if_neg hm, .closed rfl _ (.inr ⟨_, rfl⟩)⟩

theorem reauthorize_step (h : (reauthorizeLeft req k q remaining).step (World.exec fault) w = some x) :
    Goes req fault w (.reauthorize k q remaining) x := by
  obtain rfl := Option.some.inj h
  cases fault with
  | some e => exact .finish _ nofun
  | none => exact ⟨.reinsert k q, rfl, .reauthorized rfl⟩

theorem reinsert_step (h : (reinsertLeft req k q).step (World.exec fault) w = some x) :
    Goes req fault w (.reinsert k q) x := by
  obtain rfl := Option.some.inj h
  cases fault with
  | some e => exact .finish _ nofun
  | none =>
    cases hid : (w.db.tables.createSession w.now k.id req.mac req.ip q.expiresAt).1 with
    | ok id => exact ⟨.finished .success, by simp only [answer_createSession hid]; rfl, .reinserted hid rfl⟩
    | error e =>
      exact ⟨.finished (.error "portal.error.expired"), by simp only [answer_createSession hid]; rfl,
        .ended _ (createSession_error hid) nofun⟩

/-- The operation a request performs next leads it to its next point. -/
theorem auth_step {pt : AuthPoint} (h : (pt.program req).step (World.exec fault) w = some x) :
    Goes req fault w pt x := by
  cases pt with
  | lookup => exact lookup_step (by rw [← portalAuth_points]; exact h)
  | clock => exact clock_step h
  | authorize => exact authorize_step h
  | insert => exact insert_step h
  | redeem => exact redeem_step h
  | find => exact find_step h
  | check => exact check_step h
  | release => exact release_step h
  | close => exact close_step h
  | reauthorize => exact reauthorize_step h
  | reinsert => exact reinsert_step h
  | finished => cases h

end Steps

/-! ## The effect of an operation -/

namespace AuthStep

variable {req : Request} {fault : Option Err} {w w' : World} {pt pt' : AuthPoint}

/-- An operation of a request writes at most the token the request is about to mark, and opens at most a session of
the token it redeems or migrates. -/
theorem changes (h : AuthStep req fault w w' pt pt') :
    ∃ opens, Changes w.db.tables w'.db.tables pt.marking opens ∧
      ∀ k, opens = some k → pt'.marking = some k ∨ pt.migrating = some k := by
  have same (ht : w'.db.tables = w.db.tables) : Changes w.db.tables w'.db.tables pt.marking none :=
    .of_eq (by rw [ht]) (fun _ => by rw [ht]) _ _
  cases h with
  | unused hw | active hw | timed _ hw | found hw | checked _ hw | skipped _ hw =>
    exact ⟨none, same (by rw [hw]), nofun⟩
  | authorized hdb | released hdb | reauthorized hdb => exact ⟨none, same (by rw [hdb]), nofun⟩
  | inserted _ ht => rw [ht]; exact ⟨_, .createSession _, fun k hk => .inl hk⟩
  | reinserted _ ht => rw [ht]; exact ⟨_, .createSession _, fun k hk => .inr hk⟩
  | redeemed ht => rw [ht]; exact ⟨none, .redeemToken _ _ _ _ _, nofun⟩
  | closed ht => rw [ht]; exact ⟨none, .setSessionStatus _ _ _ _, nofun⟩
  | ended _ ht => exact ⟨none, same ht, nofun⟩

/-- It moves a token along its life, if the one it is about to mark is fresh. -/
theorem lawful (h : AuthStep req fault w w' pt pt') (hfresh : ∀ k, pt.marking = some k → Fresh w.db.tables k) :
    Lawful w.db.tables w'.db.tables := by
  have hs := w.db.schema
  cases h with
  | unused hw | active hw | timed _ hw | found hw | checked _ hw | skipped _ hw => exact .of_eq hs (by rw [hw])
  | authorized hdb | released hdb | reauthorized hdb => exact .of_eq hs (by rw [hdb])
  | inserted _ ht | reinserted _ ht => rw [ht]; exact .of_eq hs Tables.token_createSession
  | redeemed ht => rw [ht]; exact lawful_redeemToken hs (hfresh _ rfl)
  | closed ht => rw [ht]; exact .of_eq hs rfl
  | ended _ ht => rw [ht]; exact .of_eq hs rfl

/-- A request comes to redeem a token by looking it up as unused. -/
theorem redeeming (h : AuthStep req fault w w' pt pt') {id : Int} (hr : pt'.redeeming = some id) :
    pt.marking = none ∧
      (pt.redeeming = some id ∨ ∃ k, w.db.tables.tokenByCode req.code = some k ∧ k.status = .unused ∧ k.id = id) := by
  cases h with
  | unused _ hc hst => exact ⟨rfl, .inr ⟨_, hc, hst, Option.some.inj hr⟩⟩
  | timed | authorized | inserted => exact ⟨rfl, .inl hr⟩
  | closed _ _ hpt => rcases hpt with rfl | ⟨r, rfl⟩ <;> cases hr
  | _ => cases hr

/-- It comes to migrate a session by looking its token up as active. -/
theorem migrating (h : AuthStep req fault w w' pt pt') {id : Int} (hm : pt'.migrating = some id) :
    pt.migrating = some id ∨
      ∃ k, w.db.tables.tokenByCode req.code = some k ∧ k.status = .active ∧ k.id = id := by
  cases h with
  | active _ hc hst => exact .inr ⟨_, hc, hst, Option.some.inj hm⟩
  | found | checked | skipped | released | reauthorized => exact .inl hm
  | closed _ _ hpt =>
    rcases hpt with rfl | ⟨r, rfl⟩
    · exact .inl hm
    · cases hm
  | _ => cases hm

/-- A token that is marked is sold. -/
theorem sold_of_marking (h : AuthStep req none w w' pt pt') {id : Int} (hm : pt.marking = some id) :
    Sold w'.db.tables id := by
  cases h with
  | redeemed ht => cases hm; rw [ht]; exact sold_redeemToken _ _ _
  | ended r ht hpt => exact absurd rfl (hpt (hm ▸ Option.some_ne_none id))
  | _ => cases hm

end AuthStep

end Didicafe
