/-
The programs of the daemon besides the portal: admin disconnects and revocations, cleanup passes and the session
restore. Whatever runs between their operations, they only expire tokens that have a session, and neither redeem
a token nor open a session.
-/
import Didicafe.Model.Operations
import Didicafe.Store.Lifecycle

namespace Didicafe

open Effect

/-! ## One operation -/

/-- The token a statement writes. -/
def Op.writes : Op → Option Int
  | .sql (.redeemToken id _) | .sql (.expireToken id) | .sql (.revokeToken id) => some id
  | _ => none

/-- An operation that neither redeems a token nor opens a session, expires only tokens that have one, adds and deletes
nothing, and leaves the plans alone. -/
def Op.Clerical (t : Tables) : Op → Prop
  | .sql (.redeemToken ..) | .sql (.createSession ..) | .sql (.createToken ..) | .sql (.deleteEndedSessions _)
  | .sql .deleteOrphanTokens | .sql (.createPlan ..) | .sql (.updatePlan ..) => False
  | .sql (.expireToken id) => HasSession t id
  | _ => True

/-- A clerical operation changes at most the token it writes. -/
theorem Op.Clerical.changes {op : Op} {w : World} (h : op.Clerical w.db.tables) :
    Changes w.db.tables (World.exec none op w).2.db.tables op.writes none := by
  have same (x : Option Int) : Changes w.db.tables w.db.tables x none := .of_eq rfl (fun _ => Iff.rfl) _ _
  rcases op with _ | cmd | q
  · exact same _
  · exact same _
  · cases q with
    | redeemToken | createSession | createToken | deleteEndedSessions | deleteOrphanTokens | createPlan | updatePlan =>
      exact h.elim
    | expireSession | disconnectSession => exact .setSessionStatus _ _ _ _
    | expireToken id => exact .expireToken _ _ _
    | revokeToken id => exact .revokeToken _ _ _
    | auditLog adminUser action targetType targetId detail =>
      let t := w.db.tables.insertAuditLog w.now adminUser action targetType targetId detail
      have htok : t.token = w.db.tables.token := rfl
      exact .of_eq htok (fun _ => Iff.rfl) _ _
    | setSetting key value =>
      have htok : (w.db.tables.setSetting key value).token = w.db.tables.token := rfl
      exact .of_eq htok (fun _ => Iff.rfl) _ _
    | _ => exact same _

/-- It moves a token along its life, if that one is sold when it is to expire. -/
theorem Op.Clerical.lawful {op : Op} {w : World} (h : op.Clerical w.db.tables)
    (hsold : ∀ id, op = .sql (.expireToken id) → Sold w.db.tables id) :
    Lawful w.db.tables (World.exec none op w).2.db.tables := by
  have hs := w.db.schema
  rcases op with _ | cmd | q
  · exact .of_eq hs rfl
  · exact .of_eq hs rfl
  · cases q with
    | redeemToken | createSession | createToken | deleteEndedSessions | deleteOrphanTokens | createPlan | updatePlan =>
      exact h.elim
    | expireToken id => exact lawful_expireToken hs (hsold id rfl)
    | revokeToken id => exact lawful_revokeToken hs
    | _ => exact .of_eq hs rfl

/-! ## The programs -/

/-- The others may do anything that leaves each session in its place; an operation may fail. -/
def clerical : Rules Op Op.Out World (Option Err) where
  rely w w' := ∀ k, HasSession w.db.tables k → HasSession w'.db.tables k
  allowed w op := op.Clerical w.db.tables
  handler := World.exec
  refl _ _ h := h
  trans h h' k hk := h' k (h k hk)
  keeps fault op w hok k h := by
    cases fault with
    | some e => rw [World.exec_some]; exact h
    | none => exact hok.changes.kept k h

section Heeds

open Rules

variable {w : World}

theorem heeds_sql (q : Sql) (h : ∀ w', clerical.rely w w' → Op.Clerical w'.db.tables (.sql q)) :
    clerical.Heeds (sql q).run w := heeds_perform h

theorem heeds_clerical {α : Type} {x : Prog Op Op.Out α} (h : x.Uses fun op => ∀ t, op.Clerical t) :
    clerical.Heeds x w := h.heeds fun _ _ hop => hop _

theorem heeds_remainingSeconds (s : Session) : clerical.Heeds s.remainingSeconds w :=
  heeds_clerical (uses_remainingSeconds (fun _ => trivial) s)

theorem heeds_authorizeClient (mac ip : String) (timeoutSecs : Nat) :
    clerical.Heeds (authorizeClient mac ip timeoutSecs).run w :=
  heeds_clerical (uses_authorizeClient (fun _ _ => trivial) mac ip timeoutSecs)

theorem heeds_deauthorizeClient (mac ip : String) : clerical.Heeds (deauthorizeClient mac ip).run w :=
  heeds_clerical (uses_deauthorizeClient (fun _ _ => trivial) mac ip)

theorem heeds_cleanupSession (grace : Int) {s : Session} (h : HasSession w.db.tables s.tokenId) :
    clerical.Heeds (cleanupSession grace s) w := by
  refine (heeds_remainingSeconds s).bind fun remaining w₁ h₁ => ?_
  split
  · refine (heeds_deauthorizeClient _ _).bind fun r w₂ h₂ => ?_
    cases r with
    | error e => trivial
    | ok =>
      refine (heeds_sql (.expireSession s.id) fun _ _ => trivial).bind fun r w₃ h₃ => ?_
      cases r with
      | error e => trivial
      | ok =>
        refine (heeds_sql (.expireToken s.tokenId) fun w₄ h₄ => ?_).bind fun _ _ _ => trivial
        exact h₄ _ (h₃ _ (h₂ _ (h₁ _ h)))
  · trivial

theorem heeds_restoreSession (grace : Int) {s : Session} (h : HasSession w.db.tables s.tokenId) :
    clerical.Heeds (restoreSession grace s) w := by
  refine (heeds_remainingSeconds s).bind fun remaining w₁ h₁ => ?_
  split
  · exact (heeds_authorizeClient _ _ _).bind fun _ _ _ => trivial
  · refine (heeds_sql (.expireSession s.id) fun _ _ => trivial).bind fun r w₂ h₂ => ?_
    cases r with
    | error e => trivial
    | ok =>
      refine (heeds_sql (.expireToken s.tokenId) fun w₃ h₃ => ?_).bind fun _ _ _ => trivial
      exact h₃ _ (h₂ _ (h₁ _ h))

/-- A program that fetches the active sessions and goes on with rows of the table. -/
theorem heeds_getActiveSessions {α : Type} {f : Except Err (List Session) → Prog Op Op.Out α}
    (herr : ∀ e w', clerical.Heeds (f (.error e)) w')
    (hok : ∀ l w', (∀ k ∈ l, HasSession w'.db.tables k.tokenId) → clerical.Heeds (f (.ok l)) w') :
    clerical.Heeds (.call (.sql .getActiveSessions) f) w := by
  refine fun w' _ => ⟨trivial, fun fault => ?_⟩
  cases fault with
  | some e => exact herr e w'
  | none => exact hok w'.db.tables.sessionActive w' fun k hk => ⟨_, (Tables.mem_sessionActive hk).1, rfl⟩

theorem heeds_cleanupPass (grace : Int) : clerical.Heeds (cleanupPass grace) w :=
  heeds_getActiveSessions (fun _ _ => trivial) fun _ _ hl =>
    Heeds.forM fun _ hk _ hr => heeds_cleanupSession grace (hr _ (hl _ hk))

theorem heeds_restoreSessions (grace : Int) : clerical.Heeds (restoreSessions grace).run w :=
  heeds_getActiveSessions (fun _ _ => trivial) fun _ _ hl =>
    Heeds.lift (Heeds.forM fun _ hk _ hr => heeds_restoreSession grace (hr _ (hl _ hk)))

theorem heeds_disconnect (sessionId : Int) : clerical.Heeds (disconnect sessionId).run w :=
  heeds_clerical (uses_disconnect (fun _ _ => trivial) (fun _ => trivial) fun _ => trivial)

theorem heeds_apiRevokeToken (adminUser : String) (id : Int) : clerical.Heeds (apiRevokeToken adminUser id) w :=
  heeds_clerical (uses_apiRevokeToken (fun _ => trivial) (fun _ => trivial) fun _ => trivial)

end Heeds

end Didicafe
