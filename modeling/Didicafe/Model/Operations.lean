/-
The operations that the services and handlers come to, whatever they are answered. What holds of these operations one
by one, that they write no plan or that they leave the database alone, holds of the whole program.
-/
import Didicafe.Lib.Rely
import Didicafe.Model.Admin

namespace Didicafe

open Effect

variable {K : Op → Prop} {α : Type}

theorem uses_sql {q : Sql} (h : K (.sql q)) : Fallible.Uses K (sql q) := ⟨h, fun _ => trivial⟩

theorem uses_internal {x : App α} (hx : Fallible.Uses K x) : Fallible.Uses K (Api.internal x) :=
  Prog.Uses.bind hx fun _ => trivial

theorem uses_ignore {x : App α} (hx : Fallible.Uses K x) : Fallible.Uses K (Api.ignore x) :=
  Fallible.Uses.lift (Prog.Uses.bind hx fun _ => trivial)

/-! ## Services -/

theorem uses_remainingSeconds (h : K .utcNow) (s : Session) : s.remainingSeconds.Uses K := ⟨h, fun _ => trivial⟩

theorem uses_runNft {cmd : NftCmd} (h : K (.nft cmd)) : Fallible.Uses K (runNft cmd) := ⟨h, fun _ => trivial⟩

theorem uses_authorizeClient (h : ∀ cmd, K (.nft cmd)) (mac ip : String) (timeoutSecs : Nat) :
    Fallible.Uses K (authorizeClient mac ip timeoutSecs) := by
  refine Fallible.Uses.bind (x := App.ofExcept _) trivial fun _ => ?_
  exact Prog.Uses.bind (uses_runNft (h _)) fun _ => trivial

theorem uses_deauthorizeClient (h : ∀ cmd, K (.nft cmd)) (mac ip : String) :
    Fallible.Uses K (deauthorizeClient mac ip) := by
  refine Fallible.Uses.bind (x := App.ofExcept _) trivial fun _ => ?_
  exact Fallible.Uses.bind (Fallible.Uses.lift (uses_runNft (h _))) fun _ => trivial

theorem uses_authorize {mac ip : String} {timeoutSecs : Nat}
    (h : K (.nft (.addElement mac ip timeoutSecs))) : Fallible.Uses K (authorizeClient mac ip timeoutSecs) := by
  refine Fallible.Uses.bind (x := App.ofExcept _) trivial fun _ => ?_
  exact Prog.Uses.bind (uses_runNft h) fun _ => trivial

theorem uses_deauthorize {mac ip : String} (h : K (.nft (.deleteElement mac ip))) :
    Fallible.Uses K (deauthorizeClient mac ip) := by
  refine Fallible.Uses.bind (x := App.ofExcept _) trivial fun _ => ?_
  exact Fallible.Uses.bind (Fallible.Uses.lift (uses_runNft h)) fun _ => trivial

theorem uses_createSession {tokenId : Int} {mac ip : String} (hnow : K .utcNow)
    (hadd : ∀ timeoutSecs, K (.nft (.addElement mac ip timeoutSecs)))
    (hopen : ∀ expiresAt, K (.sql (.createSession tokenId mac ip expiresAt)))
    (hredeem : ∀ expiresAt, K (.sql (.redeemToken tokenId expiresAt))) (minutes : Int) :
    Fallible.Uses K (createSession tokenId minutes mac ip) := by
  refine Fallible.Uses.bind (Fallible.Uses.lift (p := utcNow) ⟨hnow, fun _ => trivial⟩) fun now => ?_
  refine Fallible.Uses.bind (x := App.ofExcept _) trivial fun duration => ?_
  refine Fallible.Uses.bind (x := App.ofExcept _) trivial fun expiresAt => ?_
  refine Fallible.Uses.bind (uses_authorize (hadd _)) fun _ => ?_
  exact Fallible.Uses.bind (uses_sql (hopen _)) fun _ => Fallible.Uses.bind (uses_sql (hredeem _)) fun _ => trivial

theorem uses_disconnect (h : ∀ cmd, K (.nft cmd)) {sessionId : Int} (hget : K (.sql (.getSessionById sessionId)))
    (hend : K (.sql (.disconnectSession sessionId))) : Fallible.Uses K (disconnect sessionId) := by
  refine Fallible.Uses.bind (uses_sql hget) fun session => ?_
  cases session with
  | none => trivial
  | some session => exact Fallible.Uses.bind (uses_deauthorizeClient h _ _) fun _ => uses_sql hend

theorem uses_generateTokens {planId : Int} {name : Option String} (h : ∀ code, K (.sql (.createToken code name planId)))
    (c : TokenConfig) (count : Nat) (draws : Nat → Draws c) :
    Fallible.Uses K (generateTokens c planId count name draws) := by
  refine Fallible.Uses.bind (Fallible.Uses.forM (fun code => ?_) _) fun _ => trivial
  exact Fallible.Uses.bind (uses_sql (h code)) fun _ => trivial

theorem uses_getDailyStats (hsold : K (.sql .countSoldToday)) (hlive : K (.sql .countLiveSessions))
    (hsum : K (.sql .sumRevenueToday)) : Fallible.Uses K getDailyStats := by
  refine Fallible.Uses.bind (uses_sql hsold) fun _ => Fallible.Uses.bind (uses_sql hlive) fun _ => ?_
  exact Fallible.Uses.bind (uses_sql hsum) fun _ => trivial

/-! ## Handlers -/

theorem uses_apiListTokens (h : ∀ status, K (.sql (.listTokens status))) (status : Option String) :
    Fallible.Uses K (apiListTokens status) := by
  unfold apiListTokens
  cases status with
  | none => exact uses_internal (uses_sql (h _))
  | some text =>
    show Fallible.Uses K (ite _ _ _)
    split
    · exact uses_internal (uses_sql (h _))
    · trivial

theorem uses_apiGenerateTokens {planId : Int} {name : String} (hplan : K (.sql (.getPlan planId)))
    (hcreate : ∀ code, K (.sql (.createToken code (some name) planId))) (c : TokenConfig) (count : Nat)
    (draws : Nat → Draws c) : Fallible.Uses K (apiGenerateTokens c name planId count draws) := by
  refine Fallible.Uses.bind (x := Api.ofExcept _) trivial fun _ => ?_
  refine Fallible.Uses.bind (uses_internal (uses_sql hplan)) fun plan => ?_
  cases plan with
  | none => trivial
  | some plan =>
    show Fallible.Uses K (ite (plan.active = false) _ _)
    split
    · trivial
    · exact uses_internal (uses_generateTokens hcreate _ _ _)

theorem uses_apiRevokeToken {adminUser : String} {id : Int} (hget : K (.sql (.getTokenById id)))
    (hrevoke : K (.sql (.revokeToken id)))
    (haudit : K (.sql (.auditLog adminUser "revoke_token" (some "token") (some id) none))) :
    (apiRevokeToken adminUser id).Uses K := by
  refine Prog.Uses.bind (uses_sql hget) fun r => ?_
  rcases r with e | _ | token
  · trivial
  · trivial
  · show (ite (token.status ≠ .unused) _ _ : Prog Op Op.Out (Except AppError Unit)).Uses K
    split
    · trivial
    · refine Prog.Uses.bind (uses_sql hrevoke) fun r => ?_
      cases r with
      | error e => trivial
      | ok => exact Prog.Uses.bind (uses_sql haudit) fun _ => trivial

theorem uses_manageGenerateTokens {adminUser : String} {planId : Int} {name : Option String}
    (hplan : K (.sql (.getPlan planId))) (hcreate : ∀ code name, K (.sql (.createToken code name planId)))
    (haudit : ∀ detail, K (.sql (.auditLog adminUser "generate_tokens" (some "token") (some planId) detail)))
    (c : TokenConfig) (count : Option Nat) (draws : Nat → Draws c) :
    Fallible.Uses K (manageGenerateTokens c adminUser planId count name draws) := by
  show Fallible.Uses K (ite (count.getD 0 > 0) _ _)
  split
  · refine Fallible.Uses.bind (x := Api.ofExcept _) trivial fun _ => ?_
    refine Fallible.Uses.bind (uses_internal (uses_sql hplan)) fun plan => ?_
    cases plan with
    | none => trivial
    | some plan =>
      show Fallible.Uses K (ite (plan.active = false) _ _)
      split
      · trivial
      · refine Fallible.Uses.bind (uses_internal (uses_generateTokens (fun _ => hcreate _ _) ..)) fun _ => ?_
        exact Fallible.Uses.bind (uses_ignore (uses_sql (haudit _))) fun _ => trivial
  · trivial

end Didicafe
