/-
Revocations and portal requests, interleaved operation by operation, some of which may fail. The handler of
`DELETE /api/tokens/{id}` reads the token, revokes it if it is unused, and answers 204 without looking at how
many rows the update changed; so a redemption that begins before the update can end after it, and the revoked
token is used all the same.

An acknowledged revocation is final as long as the token is not sold when the update runs, and no redemption
of it is under way when the handler answers.
-/
import Didicafe.Portal.SingleUse

namespace Didicafe

open Effect Runs

/-! ## The points of a revocation -/

/-- Who revokes which token. -/
structure Revocation where
  adminUser : String
  id : Int
deriving DecidableEq

/-- Where a revocation stands: before it reads the token, before the update, before its log entry, or at its end. -/
inductive RevokePoint where
  | read
  | update
  | audit
  | finished (r : Except AppError Unit)

namespace RevokePoint

abbrev Revoke := Prog Op Op.Out (Except AppError Unit)

section Left

variable (rv : Revocation)

def auditLeft : Revoke :=
  .call (.sql (.auditLog rv.adminUser "revoke_token" (some "token") (some rv.id) none)) fun _ => .done (.ok ())

def updateLeft : Revoke :=
  .call (.sql (.revokeToken rv.id)) fun
    | .ok () => auditLeft rv
    | .error e => .done (.error (.internal e))

def readLeft : Revoke :=
  .call (.sql (.getTokenById rv.id)) fun
    | .error e => .done (.error (.internal e))
    | .ok none => .done (.error (.notFound s!"token {rv.id} not found"))
    | .ok (some token) =>
      if token.status ≠ .unused then
        .done (.error (.badRequest s!"cannot revoke token with status '{token.status.text}'"))
      else updateLeft rv

end Left

def program (rv : Revocation) : RevokePoint → Revoke
  | .read => apiRevokeToken rv.adminUser rv.id
  | .update => updateLeft rv
  | .audit => auditLeft rv
  | .finished r => .done r

theorem apiRevokeToken_points (rv : Revocation) : apiRevokeToken rv.adminUser rv.id = readLeft rv := by
  refine Prog.call_congr fun
    | .error e => rfl
    | .ok none => rfl
    | .ok (some token) => ?_
  show ite (token.status ≠ .unused) _ _ = ite (token.status ≠ .unused) _ _
  by_cases h : token.status ≠ .unused
  · rw [if_pos h, if_pos h]; rfl
  rw [if_neg h, if_neg h]
  exact Prog.call_congr fun
    | .error e => rfl
    | .ok () => Prog.call_congr fun _ => rfl

end RevokePoint

/-- A revocation goes from one point to the next in one operation, with the effect this has on the tables. -/
inductive RevokeStep (rv : Revocation) (fault : Option Err) (w w' : World) : RevokePoint → RevokePoint → Prop where
  | found {k} (hw : w' = w) (hk : w.db.tables.tokenById rv.id = some k) (hst : k.status = .unused) :
    RevokeStep rv fault w w' .read .update
  | updated (hf : fault = none) (ht : w'.db.tables = w.db.tables.revokeToken rv.id) :
    RevokeStep rv fault w w' .update .audit
  | answered (ht : w'.db.tables.token = w.db.tables.token) : RevokeStep rv fault w w' .audit (.finished (.ok ()))
  | failed {pt} (e : AppError) (hw : w' = w) : RevokeStep rv fault w w' pt (.finished (.error e))

section Steps

open RevokePoint

variable {rv : Revocation} {fault : Option Err} {w : World} {x : Revoke × World}

/-- The operation a revocation performs next leads it to its next point. -/
theorem revoke_step {pt : RevokePoint} (h : (pt.program rv).step (World.exec fault) w = some x) :
    ∃ pt', x.1 = pt'.program rv ∧ RevokeStep rv fault w x.2 pt pt' := by
  cases pt with
  | read =>
    have h : (RevokePoint.readLeft rv).step (World.exec fault) w = some x := by rw [← apiRevokeToken_points]; exact h
    obtain rfl := Option.some.inj h
    cases fault with
    | some e => exact ⟨.finished _, rfl, .failed _ rfl⟩
    | none =>
      have answer : (World.exec none (.sql (.getTokenById rv.id)) w).1 = .ok (w.db.tables.tokenById rv.id) := rfl
      simp only [answer]
      cases hk : w.db.tables.tokenById rv.id with
      | none => exact ⟨.finished _, rfl, .failed _ rfl⟩
      | some k =>
        by_cases hst : k.status = .unused
        · exact ⟨.update, if_neg (not_not.2 hst), .found rfl hk hst⟩
        · exact ⟨.finished _, if_pos hst, .failed _ rfl⟩
  | update =>
    obtain rfl := Option.some.inj h
    cases fault with
    | some e => exact ⟨.finished _, rfl, .failed _ rfl⟩
    | none => exact ⟨.audit, rfl, .updated rfl rfl⟩
  | audit =>
    obtain rfl := Option.some.inj h
    -- the handler ignores whether the log entry was written
    refine ⟨.finished (.ok ()), rfl, .answered ?_⟩
    cases fault <;> rfl
  | finished => cases h

end Steps

/-! ## What the operations leave alone -/

/-- The token is revoked. -/
def Revoked (t : Tables) (id : Int) : Prop := ∃ r ∈ t.token, r.id = id ∧ r.status = .revoked

/-- The token has the code. -/
def Carries (t : Tables) (id : Int) (code : String) : Prop := ∃ r ∈ t.token, r.id = id ∧ r.code = code

/-- The ids and codes are the same, and what is sold stays sold. -/
structure Rooted (t t' : Tables) : Prop where
  keys : t'.token.map (fun r => (r.id, r.code)) = t.token.map fun r => (r.id, r.code)
  sold : ∀ id, Sold t id → Sold t' id

variable {t t' : Tables} {id : Int} {code : String}

theorem Carries.iff_keys : Carries t id code ↔ (id, code) ∈ t.token.map fun r => (r.id, r.code) := by
  unfold Carries
  simp only [List.mem_map, Prod.mk.injEq]

theorem Carries.keep (h : Carries t id code) (hr : Rooted t t') : Carries t' id code := by
  rw [Carries.iff_keys, hr.keys]
  exact Carries.iff_keys.1 h

theorem Carries.unique (hs : t.Schema) {id' : Int} (h : Carries t id code) (h' : Carries t id' code) : id = id' := by
  obtain ⟨r, hr, rfl, hc⟩ := h
  obtain ⟨r', hr', rfl, hc'⟩ := h'
  rw [Table.eq_of_key hs.tokenCode hr hr' (hc.trans hc'.symm)]

theorem Revoked.not_sold (h : Revoked t id) : ¬ Sold t id := by
  obtain ⟨r, hr, hid, hst⟩ := h
  intro hsold
  have := hsold r hr hid
  rw [hst] at this
  rcases this with h | h <;> cases h

theorem Revoked.not_unused (hs : t.Schema) (h : Revoked t id) {r : TokenRow} (hr : r ∈ t.token) (hid : r.id = id) :
    r.status ≠ .unused := by
  obtain ⟨a, ha, haid, hst⟩ := h
  rw [Table.eq_of_key hs.tokenId hr ha (hid.trans haid.symm), hst]
  exact nofun

namespace Rooted

theorem of_eq (h : t'.token = t.token) : Rooted t t' := ⟨by rw [h], fun id hs => by unfold Sold; rw [h]; exact hs⟩

theorem updateWhere {p : TokenRow → Bool} {f : TokenRow → TokenRow}
    (hkey : ∀ r, ((f r).id, (f r).code) = (r.id, r.code))
    (hst : ∀ r, p r = true → r.status = .active ∨ r.status = .expired →
      (f r).status = .active ∨ (f r).status = .expired) :
    Rooted t { t with token := Table.updateWhere p f t.token } := by
  refine ⟨Table.map_updateWhere hkey _, fun id hs r hr hid => ?_⟩
  rcases Table.mem_updateWhere.1 hr with ⟨a, ha, hp, rfl⟩ | ⟨hr, -⟩
  · exact hst a hp (hs a ha ((congrArg Prod.fst (hkey a)).symm.trans hid))
  · exact hs r hr hid

theorem redeemToken (t : Tables) (now id : Int) (expiresAt : String) : Rooted t (t.redeemToken now id expiresAt) :=
  updateWhere (fun _ => rfl) fun _ _ _ => .inl rfl

/-- The guard of the update lets it pass over the tokens that are sold. -/
theorem revokeToken (t : Tables) (id : Int) : Rooted t (t.revokeToken id) := by
  refine updateWhere (fun _ => rfl) fun r hp hst => ?_
  rw [eq_of_beq (Bool.and_eq_true_iff.1 hp).2] at hst
  rcases hst with h | h <;> cases h

end Rooted

theorem Revoked.revokeToken (h : Revoked t id) (id' : Int) : Revoked (t.revokeToken id') id := by
  obtain ⟨r, hr, hid, hst⟩ := h
  refine ⟨r, Table.mem_updateWhere.2 (.inr ⟨hr, ?_⟩), hid, hst⟩
  rw [hst]
  exact Bool.and_false _

/-- The update revokes a token that is not sold. -/
theorem revoked_revokeToken (hsold : ¬ Sold t id) : Revoked (t.revokeToken id) id := by
  unfold Sold at hsold
  push Not at hsold
  obtain ⟨r, hr, hid, hactive, hexpired⟩ := hsold
  cases hst : r.status with
  | unused =>
    exact ⟨_, Table.mem_updateWhere.2 (.inl ⟨r, hr, by rw [hst, hid, beq_self_eq_true]; rfl, rfl⟩), hid, rfl⟩
  -- revoked before: the update changes no row and the token is as it should be
  | revoked => exact Revoked.revokeToken ⟨r, hr, hid, hst⟩ id
  | active => exact absurd hst hactive
  | expired => exact absurd hst hexpired

namespace AuthStep

variable {req : Request} {fault : Option Err} {w w' : World} {pt pt' : AuthPoint}

theorem rooted (h : AuthStep req fault w w' pt pt') : Rooted w.db.tables w'.db.tables := by
  cases h with
  | unused hw | active hw | timed _ hw | found hw | checked _ hw | skipped _ hw => exact .of_eq (by rw [hw])
  | authorized hdb | released hdb | reauthorized hdb => exact .of_eq (by rw [hdb])
  | inserted _ ht | reinserted _ ht => exact .of_eq (by rw [ht, Tables.token_createSession])
  | redeemed ht => rw [ht]; exact .redeemToken ..
  | closed ht => exact .of_eq (by rw [ht]; rfl)
  | ended _ ht => exact .of_eq (by rw [ht])

/-- A revoked token stays so unless it is the one the request is about to mark. -/
theorem revoked (h : AuthStep req fault w w' pt pt') (hr : Revoked w.db.tables id) (hm : pt.marking ≠ some id) :
    Revoked w'.db.tables id := by
  obtain ⟨r, hr, hid, hst⟩ := hr
  cases h with
  | redeemed ht =>
    rw [ht]
    refine ⟨r, Table.mem_updateWhere.2 (.inr ⟨hr, beq_false_of_ne fun hk => hm ?_⟩), hid, hst⟩
    exact congrArg some (hk.symm.trans hid)
  | unused hw | active hw | timed _ hw | found hw | checked _ hw | skipped _ hw => exact ⟨r, hw ▸ hr, hid, hst⟩
  | authorized hdb | released hdb | reauthorized hdb => exact ⟨r, hdb ▸ hr, hid, hst⟩
  | inserted _ ht | reinserted _ ht => exact ⟨r, by rw [ht, Tables.token_createSession]; exact hr, hid, hst⟩
  | closed ht => exact ⟨r, by rw [ht]; exact hr, hid, hst⟩
  | ended _ ht => exact ⟨r, ht ▸ hr, hid, hst⟩

end AuthStep

/-! ## Requests and revocations together -/

/-- The portal requests and the revocations under way, over one world. -/
structure Bureau where
  world : World
  requests : List (Thread Request Op Op.Out PortalResponse)
  revocations : List (Thread Revocation Op Op.Out (Except AppError Unit))

/-- A client posts a code, the admin revokes a token, a request or a revocation performs its next operation, which may
fail, or time passes. -/
inductive BureauEvent where
  | post (req : Request)
  | revoke (rv : Revocation)
  | request (i : Nat) (fault : Option Err)
  | revocation (i : Nat) (fault : Option Err)
  | elapse (nanos : Nat)

namespace Bureau

def requestPool (b : Bureau) : Pool Request Op Op.Out PortalResponse World := ⟨b.world, b.requests⟩

def revocationPool (b : Bureau) : Pool Revocation Op Op.Out (Except AppError Unit) World := ⟨b.world, b.revocations⟩

def step (b : Bureau) : BureauEvent → Option Bureau
  | .post req =>
    if isValidMac req.mac then
      some { b with requests := b.requests ++ [⟨req, portalAuth req.code req.mac req.ip⟩] }
    else none
  | .revoke rv => some { b with revocations := b.revocations ++ [⟨rv, apiRevokeToken rv.adminUser rv.id⟩] }
  | .request i fault =>
    (b.requestPool.advance (World.exec fault) i).map fun p => { b with world := p.shared, requests := p.threads }
  | .revocation i fault =>
    (b.revocationPool.advance (World.exec fault) i).map fun p => { b with world := p.shared, revocations := p.threads }
  | .elapse nanos => some { b with world := { b.world with now := b.world.now + nanos } }

/-- Nothing is under way. -/
def Idle (b : Bureau) : Prop := b.requests = [] ∧ b.revocations = []

/-- Revocation `i` has answered 204. -/
def Acknowledged (b : Bureau) (i : Nat) (rv : Revocation) : Prop := b.revocations[i]? = some ⟨rv, .done (.ok ())⟩

/-- A portal request has found the token unused and has still to mark it. -/
def Redeeming (b : Bureau) (id : Int) : Prop :=
  ∃ y ∈ b.requests, ∃ pt : AuthPoint, y.rest = pt.program y.tag ∧ pt.redeeming = some id

end Bureau

def bureau : Machine Bureau BureauEvent := ⟨Bureau.Idle, Bureau.step⟩

/-- An operation that authorizes a client or opens a session. -/
def Op.Grants : Op → Prop
  | .nft (.addElement ..) | .sql (.createSession ..) => True
  | _ => False

/-- A revocation updates a token that is not sold, and answers when the token is revoked and not being redeemed. -/
def Undisturbed (b : Bureau) : BureauEvent → Prop
  | .revocation i fault => ∀ rv op, b.revocationPool.pending i = some (rv, op) →
    (∀ id, op = .sql (.revokeToken id) → fault = none → ¬ Sold b.world.db.tables id) ∧
    ∀ user action type target detail, op = .sql (.auditLog user action type target detail) →
      Revoked b.world.db.tables rv.id ∧ ¬ b.Redeeming rv.id
  | .post _ | .revoke _ | .request .. | .elapse _ => True

/-- Whenever a revocation performs its update and later answers 204, the update has left the token revoked; and once one
has answered 204, no request with the code of its token is about to authorize its client or to open a session. -/
structure Final (ok : Bureau → BureauEvent → Prop) (b : Bureau) : Prop where
  revoked : ∀ i rv id fault, b.revocationPool.pending i = some (rv, .sql (.revokeToken id)) →
    ok b (.revocation i fault) → ∀ b', bureau.step b (.revocation i fault) = some b' →
    ∀ b'', Path bureau Free b' b'' → b''.Acknowledged i rv → Revoked b'.world.db.tables rv.id
  granted : ∀ i rv, b.Acknowledged i rv → ∀ j req op, b.requestPool.pending j = some (req, op) →
    Carries b.world.db.tables rv.id req.code → ¬ op.Grants

/-! ## The state of the tokens -/

/-- A revocation with the point it has reached. -/
abbrev Clerk := Revocation × RevokePoint

def Clerk.thread (y : Clerk) : Thread Revocation Op Op.Out (Except AppError Unit) := ⟨y.1, y.2.program y.1⟩

/-- A request on its way has looked its token up by its code, one that migrates has found it sold, and the token of an
acknowledged revocation is revoked and not being redeemed. -/
structure Orderly (t : Tables) (cs : List Client) (rs : List Clerk) : Prop where
  carries : ∀ x ∈ cs, ∀ id, x.2.redeeming = some id ∨ x.2.migrating = some id → Carries t id x.1.code
  migrating : ∀ x ∈ cs, ∀ id, x.2.migrating = some id → Sold t id
  acknowledged : ∀ y ∈ rs, y.2 = .finished (.ok ()) → Revoked t y.1.id ∧ ∀ x ∈ cs, x.2.redeeming ≠ some y.1.id

namespace Orderly

variable {w w' : World} {cs : List Client} {rs : List Clerk} {x : Client} {y : Clerk} {i : Nat}
  {fault : Option Err}

theorem post (h : Orderly t cs rs) (req : Request) : Orderly t (cs ++ [(req, .lookup)]) rs := by
  have old {x : Client} (hx : x ∈ cs ++ [(req, .lookup)]) : x ∈ cs ∨ x = (req, .lookup) :=
    (List.mem_append.1 hx).imp id List.mem_singleton.1
  constructor
  case carries =>
    intro x hx id hid
    rcases old hx with hx | rfl
    · exact h.carries x hx id hid
    · rcases hid with hid | hid <;> cases hid
  case migrating =>
    intro x hx id hid
    rcases old hx with hx | rfl
    · exact h.migrating x hx id hid
    · cases hid
  case acknowledged =>
    intro y hy hpt
    refine ⟨(h.acknowledged y hy hpt).1, fun x hx hid => ?_⟩
    rcases old hx with hx | rfl
    · exact (h.acknowledged y hy hpt).2 x hx hid
    · cases hid

theorem revoke (h : Orderly t cs rs) (rv : Revocation) : Orderly t cs (rs ++ [(rv, .read)]) where
  __ := h
  acknowledged y hy hpt := by
    rcases List.mem_append.1 hy with hy | hy
    · exact h.acknowledged y hy hpt
    · rw [List.mem_singleton.1 hy] at hpt
      cases hpt

/-- An operation of a request. -/
theorem request {pt' : AuthPoint} (h : Orderly w.db.tables cs rs) (hi : cs[i]? = some x)
    (hs : AuthStep x.1 fault w w' x.2 pt') : Orderly w'.db.tables (cs.set i (x.1, pt')) rs := by
  have hx : x ∈ cs := List.mem_of_getElem? hi
  constructor
  case carries =>
    intro z hz id hid
    rcases List.mem_or_eq_of_mem_set hz with hz | rfl
    · exact (h.carries z hz id hid).keep hs.rooted
    refine Carries.keep ?_ hs.rooted
    have looked {k : Token} (hk : w.db.tables.tokenByCode x.1.code = some k) (he : k.id = id) :
        Carries w.db.tables id x.1.code :=
      ⟨_, (Tables.tokenByCode_some hk).1, he, (Tables.tokenByCode_some hk).2⟩
    rcases hid with hid | hid
    · rcases (hs.redeeming hid).2 with hr | ⟨k, hk, -, he⟩
      · exact h.carries x hx id (.inl hr)
      · exact looked hk he
    · rcases hs.migrating hid with hm | ⟨k, hk, -, he⟩
      · exact h.carries x hx id (.inr hm)
      · exact looked hk he
  case migrating =>
    intro z hz id hid
    refine hs.rooted.sold id ?_
    rcases List.mem_or_eq_of_mem_set hz with hz | rfl
    · exact h.migrating z hz id hid
    rcases hs.migrating hid with hm | ⟨k, hk, hst, rfl⟩
    · exact h.migrating x hx id hm
    · exact sold_of_active w.db.schema (Tables.tokenByCode_some hk).1 hst
  case acknowledged =>
    intro y hy hpt
    obtain ⟨hr, hnone⟩ := h.acknowledged y hy hpt
    refine ⟨hs.revoked hr fun hm => hnone x hx (AuthPoint.redeeming_of_marking hm), fun z hz hid => ?_⟩
    rcases List.mem_or_eq_of_mem_set hz with hz | rfl
    · exact hnone z hz hid
    rcases (hs.redeeming hid).2 with hid | ⟨k, hk, hst, he⟩
    · exact hnone x hx hid
    · -- the lookup would have found it revoked
      exact hr.not_unused w.db.schema (Tables.tokenByCode_some hk).1 he hst

/-- An operation of a revocation, which answers only when its token is revoked and not being redeemed. -/
theorem revocation {pt' : RevokePoint} (h : Orderly w.db.tables cs rs) (hs : RevokeStep y.1 fault w w' y.2 pt')
    (hok : y.2 = .audit → Revoked w.db.tables y.1.id ∧ ∀ x ∈ cs, x.2.redeeming ≠ some y.1.id) :
    Orderly w'.db.tables cs (rs.set i (y.1, pt')) := by
  obtain ⟨rv, pt⟩ := y
  have hroot : Rooted w.db.tables w'.db.tables := by
    cases hs with
    | found hw | failed _ hw => exact .of_eq (by rw [hw])
    | updated _ ht => rw [ht]; exact .revokeToken ..
    | answered ht => exact .of_eq ht
  have keep {id : Int} (hr : Revoked w.db.tables id) : Revoked w'.db.tables id := by
    cases hs with
    | found hw | failed _ hw => rw [hw]; exact hr
    | updated _ ht => rw [ht]; exact hr.revokeToken _
    | answered ht => unfold Revoked; rw [ht]; exact hr
  constructor
  case carries => exact fun x hx id hid => (h.carries x hx id hid).keep hroot
  case migrating => exact fun x hx id hid => hroot.sold id (h.migrating x hx id hid)
  case acknowledged =>
    intro z hz hpt
    rcases List.mem_or_eq_of_mem_set hz with hz | rfl
    · exact ⟨keep (h.acknowledged z hz hpt).1, (h.acknowledged z hz hpt).2⟩
    · cases hs with
      | answered => exact ⟨keep (hok rfl).1, (hok rfl).2⟩
      | _ => cases hpt

end Orderly

/-! ## Runs -/

/-- A request that is about to grant access has looked its token up. -/
theorem AuthPoint.pending_grants {req : Request} {pt : AuthPoint} {op : Op} {next : Op.Out op → Auth}
    (h : pt.program req = .call op next) (hg : op.Grants) : ∃ id, pt.redeeming = some id ∨ pt.migrating = some id := by
  cases pt with
  | lookup =>
    have h : lookupLeft req = .call op next := by rw [← portalAuth_points]; exact h
    cases h
    cases hg
  | clock k | authorize k | insert k | redeem k => exact ⟨k.id, .inl rfl⟩
  | find k | check k | release k | close k | reauthorize k | reinsert k => exact ⟨k.id, .inr rfl⟩
  | finished => cases h

theorem Clerk.finished {rv : Revocation} {pt : RevokePoint} {r : Except AppError Unit} (h : pt.program rv = .done r) :
    pt = .finished r := by
  cases pt with
  | finished => cases h; rfl
  | read =>
    have h : RevokePoint.readLeft rv = .done r := by rw [← RevokePoint.apiRevokeToken_points]; exact h
    cases h
  | update | audit => cases h

theorem Clerk.pending_update {rv : Revocation} {pt : RevokePoint} {id : Int}
    {next : Except Err Unit → RevokePoint.Revoke} (h : pt.program rv = .call (.sql (.revokeToken id)) next) :
    pt = .update ∧ id = rv.id := by
  cases pt with
  | read =>
    have h : RevokePoint.readLeft rv = .call (.sql (.revokeToken id)) next := by
      rw [← RevokePoint.apiRevokeToken_points]; exact h
    cases h
  | update => cases h; exact ⟨rfl, rfl⟩
  | audit | finished => cases h

namespace Bureau

variable {b b' : Bureau} {i : Nat} {fault : Option Err}

/-- The requests and revocations are at points at which the tokens are as the points expect them. -/
def Orderly (b : Bureau) : Prop :=
  ∃ (cs : List Client) (rs : List Clerk), b.requests = cs.map Client.thread ∧ b.revocations = rs.map Clerk.thread ∧
    Didicafe.Orderly b.world.db.tables cs rs

/-- An operation of revocation `i`, at its points. -/
theorem revocation_some {rs : List Clerk} (hrs : b.revocations = rs.map Clerk.thread)
    (hs : bureau.step b (.revocation i fault) = some b') : ∃ y pt', rs[i]? = some y ∧
      RevokeStep y.1 fault b.world b'.world y.2 pt' ∧ b'.requests = b.requests ∧
      b'.revocations = (rs.set i (y.1, pt')).map Clerk.thread := by
  obtain ⟨p, hp, rfl⟩ := Option.map_eq_some_iff.1 hs
  obtain ⟨y, x, hy, -, hx, rfl⟩ := Pool.advance_map hrs hp
  obtain ⟨pt', hpt, hstep⟩ := revoke_step hx
  refine ⟨y, pt', hy, hstep, rfl, ?_⟩
  rw [List.map_set, hpt]; rfl

namespace Orderly

theorem request (h : b.Orderly) (hs : bureau.step b (.request i fault) = some b') : b'.Orderly := by
  obtain ⟨cs, rs, hcs, hrs, ho⟩ := h
  obtain ⟨p, hp, rfl⟩ := Option.map_eq_some_iff.1 hs
  obtain ⟨x, y, hx, -, hy, rfl⟩ := Pool.advance_map hcs hp
  obtain ⟨pt', hpt, hstep⟩ := auth_step hy
  refine ⟨cs.set i (x.1, pt'), rs, ?_, hrs, ho.request hx hstep⟩
  rw [List.map_set, hpt]; rfl

theorem revocation (h : b.Orderly) (hok : Undisturbed b (.revocation i fault))
    (hs : bureau.step b (.revocation i fault) = some b') : b'.Orderly := by
  obtain ⟨cs, rs, hcs, hrs, ho⟩ := h
  obtain ⟨y, pt', hy, hstep, hreq, hrev⟩ := revocation_some hrs hs
  refine ⟨cs, rs.set i (y.1, pt'), hreq.trans hcs, hrev, ho.revocation hstep fun hpt => ?_⟩
  obtain ⟨rv, pt⟩ := y
  obtain rfl : pt = .audit := hpt
  have hpend : b.revocationPool.pending i = some (rv, .sql (.auditLog rv.adminUser "revoke_token" (some "token")
      (some rv.id) none)) := by
    unfold Pool.pending revocationPool
    simp only [hrs, List.getElem?_map, hy]; rfl
  obtain ⟨hr, hnone⟩ := (hok rv _ hpend).2 _ _ _ _ _ rfl
  refine ⟨hr, fun x hx hid => hnone ⟨x.thread, ?_, x.2, rfl, hid⟩⟩
  rw [hcs]
  exact List.mem_map_of_mem hx

/-- Every admitted step keeps the order. -/
theorem step {c : BureauEvent} (h : b.Orderly) (hok : Undisturbed b c) (hs : bureau.step b c = some b') :
    b'.Orderly := by
  cases c with
  | post req =>
    have hs : (if isValidMac req.mac then some _ else none) = some b' := hs
    split at hs <;> cases hs
    obtain ⟨cs, rs, hcs, hrs, ho⟩ := h
    refine ⟨cs ++ [(req, .lookup)], rs, ?_, hrs, ho.post req⟩
    rw [List.map_append, ← hcs]; rfl
  | revoke rv =>
    cases hs
    obtain ⟨cs, rs, hcs, hrs, ho⟩ := h
    refine ⟨cs, rs ++ [(rv, .read)], hcs, ?_, ho.revoke rv⟩
    rw [List.map_append, ← hrs]; rfl
  | request i fault => exact h.request hs
  | revocation i fault => exact h.revocation hok hs
  | elapse nanos => cases hs; exact h

theorem reach (h : Reach bureau Undisturbed b) : b.Orderly := by
  refine h.invariant (I := Bureau.Orderly) (fun b h0 => ?_) fun _ _ _ hi hok hs => hi.step hok hs
  obtain ⟨hreq, hrev⟩ : b.Idle := h0
  refine ⟨[], [], hreq, hrev, ?_⟩
  constructor
  all_goals exact fun _ hx => absurd hx List.not_mem_nil

end Orderly

/-- A revocation that has ended stays as it is. -/
theorem ended_path {rv : Revocation} {r : Except AppError Unit} (hp : Path bureau Free b b')
    (h : b.revocations[i]? = some ⟨rv, .done r⟩) : b'.revocations[i]? = some ⟨rv, .done r⟩ := by
  refine hp.invariant (I := fun b => b.revocations[i]? = some ⟨rv, .done r⟩) (fun b c b' hi _ hs => ?_) h
  cases c with
  | post req =>
    have hs : (if isValidMac req.mac then some _ else none) = some b' := hs
    split at hs <;> cases hs
    exact hi
  | revoke rv' =>
    cases hs
    exact (List.getElem?_append_left (List.getElem?_eq_some_iff.1 hi).1).trans hi
  | request j fault =>
    obtain ⟨p, -, rfl⟩ := Option.map_eq_some_iff.1 hs
    exact hi
  | revocation j fault =>
    obtain ⟨p, hp, rfl⟩ := Option.map_eq_some_iff.1 hs
    obtain ⟨t, x, ht, hx, rfl⟩ := Pool.advance_some hp
    have ht : b.revocations[j]? = some t := ht
    -- a thread that is done has no operation left
    have hne : j ≠ i := by
      rintro rfl
      obtain rfl := Option.some.inj (hi.symm.trans ht)
      cases hx
    exact (List.getElem?_set_ne hne).trans hi
  | elapse nanos => cases hs; exact hi

/-- The revocations of a pool at their points. -/
theorem exists_clerk {rs : List Clerk} (hrs : b.revocations = rs.map Clerk.thread) {rv : Revocation}
    {rest : RevokePoint.Revoke} (h : b.revocations[i]? = some ⟨rv, rest⟩) :
    ∃ pt : RevokePoint, rs[i]? = some (rv, pt) ∧ pt.program rv = rest := by
  rw [hrs, List.getElem?_map] at h
  obtain ⟨⟨rv', pt⟩, hy, he⟩ := Option.map_eq_some_iff.1 h
  obtain ⟨rfl, rfl⟩ := Thread.mk.inj he
  exact ⟨pt, hy, rfl⟩

end Bureau

/-- In every run whose revocations update tokens that are not sold, and answer when their token is revoked and not being
redeemed, an acknowledged revocation is final. -/
theorem final_of_undisturbed {b : Bureau} (h : Reach bureau Undisturbed b) : Final Undisturbed b := by
  obtain ⟨cs, rs, hcs, hrs, ho⟩ := Bureau.Orderly.reach h
  constructor
  case revoked =>
    intro i rv id fault hpend hok b' hs b'' hp hack
    obtain ⟨y, pt', hy, hstep, -, hrev⟩ := Bureau.revocation_some hrs hs
    obtain ⟨next, hcall⟩ := Pool.pending_some hpend
    obtain ⟨pt, hy', hpt⟩ := Bureau.exists_clerk hrs hcall
    obtain rfl := Option.some.inj (hy.symm.trans hy')
    obtain ⟨rfl, rfl⟩ := Clerk.pending_update hpt
    cases hstep with
    | updated hf ht =>
      rw [ht]
      exact revoked_revokeToken ((hok _ _ hpend).1 _ rfl hf)
    -- the handler has answered with the error, so it will not answer 204
    | failed e =>
      have hend : b'.revocations[i]? = some ⟨rv, .done (.error e)⟩ := by
        rw [hrev, List.getElem?_map, List.getElem?_set_self (List.getElem?_eq_some_iff.1 hy).1]; rfl
      have := hack.symm.trans (Bureau.ended_path hp hend)
      cases this
  case granted =>
    intro i rv hack j req op hpend hcode hg
    obtain ⟨pt, hy, hpt⟩ := Bureau.exists_clerk hrs hack
    obtain ⟨hr, hnone⟩ := ho.acknowledged _ (List.mem_of_getElem? hy) (Clerk.finished hpt)
    obtain ⟨next, hcall⟩ := Pool.pending_some hpend
    have hcall : b.requests[j]? = some ⟨req, .call op next⟩ := hcall
    rw [hcs, List.getElem?_map] at hcall
    obtain ⟨x, hx, he⟩ := Option.map_eq_some_iff.1 hcall
    obtain ⟨rfl, hprog⟩ := Thread.mk.inj he
    have hx : x ∈ cs := List.mem_of_getElem? hx
    obtain ⟨id, hid⟩ := AuthPoint.pending_grants hprog hg
    obtain rfl := (ho.carries x hx id hid).unique b.world.db.schema hcode
    -- a redeeming request contradicts the condition, a migrating one needs a token that was sold
    rcases hid with hid | hid
    · exact hnone x hx hid
    · exact hr.not_sold (ho.migrating x hx _ hid)

/-! ## A revocation with requests after its update, and one with a redemption before it -/

theorem Bureau.not_redeeming {b : Bureau} (h : ∀ t ∈ b.requests, Aside t) (id : Int) : ¬ b.Redeeming id := by
  rintro ⟨y, hy, pt, hpt, hr⟩
  rw [((h y hy).deals hpt).1] at hr
  cases hr

def Bureau.opening : Bureau := ⟨.opening, [], []⟩

theorem idle_bureau : Bureau.opening.Idle := ⟨rfl, rfl⟩

def Revocation.first : Revocation := ⟨"admin", 1⟩

/-- Two devices post the code of a token that is being revoked. One looks it up between the update and the answer, the
other one has not looked it up when the revocation answers. -/
def triedMeanwhile : List BureauEvent :=
  [.revoke .first, .revocation 0 none, .post .first, .post .second, .revocation 0 none, .request 0 none,
    .revocation 0 none]

theorem final_triedMeanwhile : ∃ b, bureau.trace .opening triedMeanwhile = some b ∧ b.Acknowledged 0 .first ∧
    b.requests = [⟨.first, .done (.error "portal.error.invalid")⟩,
      ⟨.second, portalAuth "AAAA" "02:00:00:00:00:02" "10.0.0.3"⟩] ∧ Final Undisturbed b := by
  have revoke (b : Bureau) (rv : Revocation) : Undisturbed b (.revoke rv) := trivial
  have post (b : Bureau) (req : Request) : Undisturbed b (.post req) := trivial
  have request (b : Bureau) (i : Nat) : Undisturbed b (.request i none) := trivial
  have revoking := Reach.step (M := bureau) (.start idle_bureau) (revoke _ .first) rfl
  have read := revoking.step (l := .revocation 0 none) (by rintro rv op ⟨⟩; exact ⟨nofun, nofun⟩) rfl
  have posted := (read.step (post _ .first) rfl).step (post _ .second) rfl
  have updated := posted.step (l := .revocation 0 none)
    (by
      rintro rv op ⟨⟩
      refine ⟨?_, nofun⟩
      rintro id ⟨⟩ -
      show ¬ Sold shopTables 1
      unfold Sold
      decide) rfl
  have looked := updated.step (request _ 0) rfl
  have answered := looked.step (l := .revocation 0 none)
    (by
      rintro rv op ⟨⟩
      refine ⟨nofun, fun _ _ _ _ _ _ => ⟨?_, Bureau.not_redeeming (fun t ht => ?_) _⟩⟩
      · show Revoked (shopTables.revokeToken 1) 1
        unfold Revoked
        decide
      · rcases ht with _ | ⟨_, _ | ⟨_, ⟨⟩⟩⟩
        · exact .inr ⟨_, rfl⟩
        · exact .inl rfl) rfl
  exact ⟨_, rfl, rfl, rfl, final_of_undisturbed answered⟩

/-- The admin's revocation has read the token when a customer redeems it. -/
def soldMeanwhile : List BureauEvent :=
  [.revoke .first, .revocation 0 none, .post .first] ++ List.replicate 5 (.request 0 none)

/-- The revocation then answers 204, and the token is active. -/
theorem soldMeanwhile_not_final : ¬ ∀ b, Reach bureau Free b → Final Free b := by
  refine Machine.refute soldMeanwhile idle_bureau (by decide) fun h => ?_
  have hr := h.revoked 0 .first 1 none rfl trivial _ rfl _
    (Machine.path_trace (M := bureau) (t := [.revocation 0 none]) rfl) rfl
  unfold Revoked at hr
  revert hr
  decide

end Didicafe
