/-
A purchase has two ends: the firewall drops the client after the timeout it was given, and the database has the
expiry of the session. Both are computed from the duration of the plan, the one as a number of seconds and the other as
a date, and they are less than a second apart for every plan that the handlers can write.
-/
import Didicafe.Daemon.House

namespace Didicafe

open Effect Runs

/-- What `create_session` does once it has a timeout for the firewall and an expiry for the database. -/
def grant (tokenId : Int) (mac ip : String) (timeoutSecs : Nat) (expiresAt : String) : App Int := do
  authorizeClient mac ip timeoutSecs
  let sessionId ← sql (.createSession tokenId mac ip expiresAt)
  sql (.redeemToken tokenId expiresAt)
  return sessionId

/-- With the clock at `now`, `create_session` grants `minutes` to the client: `timeoutSecs` in the firewall, and up to
second `expires` in the database. The conversions are exact, the expiry is read back, and both ends are the same up to
the part of a second that the format leaves out. -/
structure SamePurchase (tokenId minutes : Int) (mac ip : String) (now : Int) (timeoutSecs : Nat) (expires : Int) :
    Prop where
  grants : ∃ next, (createSession tokenId minutes mac ip).run = .call .utcNow next ∧
    next now = (grant tokenId mac ip timeoutSecs (formatTimestamp expires)).run
  product : FitsI64 (minutes * 60)
  timeout : (timeoutSecs : Int) = minutes * 60
  readBack : parseTimestamp (formatTimestamp expires) = some expires
  expiresLe : expires * nanosPerSec ≤ now + timeoutSecs * nanosPerSec
  ltExpires : now + timeoutSecs * nanosPerSec < expires * nanosPerSec + nanosPerSec

/-- Once the clock has been read, `create_session` fails with an overflow or grants the session. -/
theorem createSession_run (tokenId minutes : Int) (mac ip : String) :
    ∃ next, (createSession tokenId minutes mac ip).run = .call .utcNow next ∧
      ∀ now d e, durationMinutes minutes = .ok d → addDuration now d = .ok e →
        next now = (grant tokenId mac ip (asU64 (minutes * 60)) (formatTimestamp (e / nanosPerSec))).run := by
  refine ⟨_, rfl, fun now d e hd he => ?_⟩
  show ExceptT.run (do
    let duration ← App.ofExcept (durationMinutes minutes)
    let expiresAt ← App.ofExcept (addDuration now duration)
    grant tokenId mac ip (asU64 (minutes * 60)) (formatTimestamp (expiresAt / nanosPerSec))) = _
  rw [hd]
  show ExceptT.run (do
    let expiresAt ← App.ofExcept (addDuration now d)
    grant tokenId mac ip (asU64 (minutes * 60)) (formatTimestamp (expiresAt / nanosPerSec))) = _
  rw [he]
  rfl

/-- A clock that chrono can show, up to the year 9998. -/
structure ClockOk (now : Int) : Prop where
  inRange : InRange (now / nanosPerSec)
  year : (Calendar.ofDayNumber (now / nanosPerSec / 86400)).year ≤ 9998

/-- Up to a day later the clock is in range as well. -/
theorem ClockOk.inRange_later {now seconds : Int} (h : ClockOk now) (h0 : 0 ≤ seconds) (h1 : seconds ≤ 86400) :
    InRange (now / nanosPerSec + seconds) := by
  have hlo := Calendar.year_mono (show now / nanosPerSec / 86400 ≤ (now / nanosPerSec + seconds) / 86400 by omega)
  have hhi := Calendar.year_mono (show (now / nanosPerSec + seconds) / 86400 ≤ now / nanosPerSec / 86400 + 1 by omega)
  have hnext := Calendar.year_succ_le (now / nanosPerSec / 86400)
  have hyear := h.year
  have hmin := h.inRange.1
  unfold InRange maxYear
  unfold minYear at hmin ⊢
  omega

/-- Every duration that passes the checks. -/
theorem samePurchase_of_input {minutes price now : Int} (h : PlanInput minutes price) (hnow : ClockOk now)
    (tokenId : Int) (mac ip : String) :
    SamePurchase tokenId minutes mac ip now (asU64 (minutes * 60))
      ((now + minutes * 60 * nanosPerSec) / nanosPerSec) := by
  obtain ⟨hpos, hday, -⟩ := h
  have hsecond : (now + minutes * 60 * nanosPerSec) / nanosPerSec = now / nanosPerSec + minutes * 60 := by
    unfold nanosPerSec
    omega
  have hrange : InRange ((now + minutes * 60 * nanosPerSec) / nanosPerSec) := by
    rw [hsecond]
    exact hnow.inRange_later (by omega) (by omega)
  have hduration : durationMinutes minutes = .ok (minutes * 60) := if_pos (by omega)
  have hexpires : addDuration now (minutes * 60) = .ok (now + minutes * 60 * nanosPerSec) := if_pos hrange
  have htimeout : (asU64 (minutes * 60) : Int) = minutes * 60 := asU64_of_nonneg (by omega)
  obtain ⟨next, hrun, hnext⟩ := createSession_run tokenId minutes mac ip
  refine ⟨⟨next, hrun, hnext now _ _ hduration hexpires⟩, ⟨by omega, by omega⟩, htimeout,
    parseTimestamp_formatTimestamp hrange, ?_, ?_⟩
  · rw [htimeout]
    unfold nanosPerSec
    omega
  · rw [htimeout]
    unfold nanosPerSec
    omega

/-- In every run from a new database, for every plan and every token of it. -/
theorem samePurchase_of_reach {c : CafeConfig} {s : House c} (h : Reach (house c) Free s) {p : Plan}
    (hp : p ∈ s.shared.db.tables.plan) {r : TokenRow} (hrp : r.planId = p.id) {now : Int}
    (hnow : ClockOk now) (mac ip : String) :
    ∃ k timeoutSecs expires, s.shared.db.tables.joinToken r = some k ∧ k.id = r.id ∧
      k.durationMinutes = p.durationMinutes ∧
        SamePurchase k.id k.durationMinutes mac ip now timeoutSecs expires := by
  have hplan : s.shared.db.tables.plan.find? (fun p => p.id == r.planId) = some p :=
    (Table.find_key_iff s.shared.db.schema.planId).2 ⟨hp, hrp.symm⟩
  have hjoin : s.shared.db.tables.joinToken r =
      some { toTokenRow := r, durationMinutes := p.durationMinutes, planName := p.name } := by
    unfold Tables.joinToken
    rw [hplan]
    rfl
  have hinput := (houseSound_of_reach h).plans p hp
  exact ⟨_, _, _, hjoin, rfl, rfl, samePurchase_of_input hinput hnow r.id mac ip⟩

/-- A plan of an hour is created, and two tokens are generated for it. -/
def twoTokens : List (HouseLabel .small) :=
  adminDoes (.createPlan "1 h" 60 500) :: performs 0 2 ++
    adminDoes (.generateTokens "counter" 1 2 inTurn) :: performs 1 3

def firstPlan : Plan := ⟨1, "1 h", 60, 500, true, datetimeNow World.opening.now⟩

def firstToken : TokenRow where
  id := 1
  code := "CAFE-AAAA-AAAA"
  name := some "counter"
  planId := 1
  status := .unused
  createdAt := datetimeNow World.opening.now
  redeemedAt := none
  expiresAt := none

theorem samePurchase_twoTokens : ∃ s, (house .small).trace newHouse twoTokens = some s ∧
    firstToken ∈ s.shared.db.tables.token ∧
      ∃ k timeoutSecs expires, s.shared.db.tables.joinToken firstToken = some k ∧ k.id = 1 ∧ k.durationMinutes = 60 ∧
        SamePurchase k.id k.durationMinutes "02:00:00:00:00:01" "10.0.0.2" World.opening.now timeoutSecs expires := by
  have start : Reach (house .small) Free newHouse := .start ⟨rfl, rfl⟩
  have hclock : ClockOk World.opening.now := ⟨by decide, by decide⟩
  exact ⟨_, rfl, List.mem_of_getElem? (i := 0) rfl,
    samePurchase_of_reach (p := firstPlan) (r := firstToken) (Machine.reach_trace start (t := twoTokens) rfl)
      (List.mem_of_getElem? (i := 0) rfl) rfl hclock "02:00:00:00:00:01" "10.0.0.2"⟩

end Didicafe
