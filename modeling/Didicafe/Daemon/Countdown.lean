/-
What a client is told of its session, beside everything else that the daemon does: a page looks the session up and reads
the clock later, and between its operations the session can be ended, moved to another device or cleaned up.
-/
import Didicafe.Lib.Company
import Didicafe.Model.Status
import Didicafe.Store.Devices
import Didicafe.Store.History

namespace Didicafe

open Effect Runs

/-! ## The countdown -/

theorem SessionRow.remainingAt_anti (s : SessionRow) {now now' : Int} (h : now ≤ now') :
    s.remainingAt now' ≤ s.remainingAt now := by
  unfold remainingAt
  split
  · exact le_rfl
  · rename_i e he
    have hsecs : (e * nanosPerSec - now').tdiv nanosPerSec ≤ (e * nanosPerSec - now).tdiv nanosPerSec :=
      Int.tdiv_le_tdiv (by decide) (by omega)
    omega

/-- No more is left of a session that has begun than it lasts in all. -/
theorem SessionRow.remainingAt_le_total {s : SessionRow} {start now : Int} (h : parseTimestamp s.startedAt = some start)
    (hle : start * nanosPerSec ≤ now) : s.remainingAt now ≤ computeTotalSeconds s.startedAt s.expiresAt := by
  unfold remainingAt computeTotalSeconds
  rw [h]
  cases parseTimestamp s.expiresAt with
  | none => exact le_rfl
  | some e =>
    have hsecs : (e * nanosPerSec - now).tdiv nanosPerSec ≤ ((e - start) * nanosPerSec).tdiv nanosPerSec :=
      Int.tdiv_le_tdiv (by decide) (by rw [Int.sub_mul]; omega)
    rw [Int.mul_tdiv_cancel _ (by decide)] at hsecs
    show max _ _ ≤ max _ _
    omega

/-! ## What every operation keeps -/

/-- The clock can be shown, every session has begun, and a device has one active session. -/
structure Dated (w : World) : Prop where
  clock : InRange (w.now / nanosPerSec)
  begun : ∀ s ∈ w.db.tables.session, ∃ start, parseTimestamp s.startedAt = some start ∧ start * nanosPerSec ≤ w.now
  onePerMac : w.db.tables.OnePerMac

/-- A row of a later table has begun before, or is new. -/
theorem Sql.startedAt_run {t : Tables} (now : Int) (q : Sql) : ∀ s ∈ (q.run now t).2.session,
    (∃ s' ∈ t.session, s'.startedAt = s.startedAt) ∨ s.startedAt = datetimeNow now := by
  have ended (p : SessionRow → Bool) (st : SessionStatus) : ∀ s ∈ (t.setSessionStatus p st).session,
      (∃ s' ∈ t.session, s'.startedAt = s.startedAt) ∨ s.startedAt = datetimeNow now := by
    intro s hs
    rcases Table.mem_updateWhere.1 hs with ⟨s', hs', -, rfl⟩ | ⟨hs, -⟩
    · exact .inl ⟨s', hs', rfl⟩
    · exact .inl ⟨s, hs, rfl⟩
  intro s hs
  cases q with
  | expireSession id => exact ended _ _ s hs
  | disconnectSession id => exact ended _ _ s hs
  | deleteEndedSessions => exact .inl ⟨s, (Table.mem_deleteWhere.1 hs).1, rfl⟩
  | createSession tokenId mac ip expiresAt =>
    cases hr : (t.createSession now tokenId mac ip expiresAt).1 with
    | error e =>
      have same : ((Sql.createSession tokenId mac ip expiresAt).run now t).2 = t := Tables.createSession_error hr
      rw [same] at hs
      exact .inl ⟨s, hs, rfl⟩
    | ok id =>
      have opened : ((Sql.createSession tokenId mac ip expiresAt).run now t).2 = _ := (Tables.createSession_ok hr).2.2
      rw [opened] at hs
      rcases List.mem_append.1 hs with hs | hs
      · exact ended _ _ s hs
      · exact .inr (by rw [List.mem_singleton.1 hs]; rfl)
  | createToken code name planId =>
    refine .inl ⟨s, ?_, rfl⟩
    simp only [Sql.run, Tables.createToken] at hs
    split at hs
    · exact hs
    · split at hs <;> exact hs
  | _ => exact .inl ⟨s, hs, rfl⟩

theorem Dated.exec {w : World} (h : Dated w) (fault : Option Err) (op : Op) : Dated (World.exec fault op w).2 := by
  cases fault with
  | some e =>
    rw [World.exec_some]
    exact h
  | none =>
    cases op with
    | utcNow => exact h
    | nft cmd => exact ⟨h.clock, h.begun, h.onePerMac⟩
    | sql q =>
      refine ⟨h.clock, fun s hs => ?_, Sql.onePerMac h.onePerMac w.now q⟩
      rcases Sql.startedAt_run w.now q s hs with ⟨s', hs', he⟩ | he
      · rw [← he]
        exact h.begun s' hs'
      · refine ⟨w.now / nanosPerSec, he ▸ parseTimestamp_formatTimestamp h.clock, ?_⟩
        show w.now / nanosPerSec * nanosPerSec ≤ w.now
        unfold nanosPerSec
        omega

theorem World.now_exec (fault : Option Err) (op : Op) (w : World) : (World.exec fault op w).2.now = w.now := by
  cases fault with
  | some e => rw [World.exec_some]
  | none => cases op <;> rfl

/-! ## While a page is made -/

/-- A world, and those since the request began. -/
abbrev Watched := World × List World

def Watched.exec (fault : Option Err) : Effect.Handler Op Op.Out Watched := fun op x =>
  ((World.exec fault op x.1).1, ((World.exec fault op x.1).2, (World.exec fault op x.1).2 :: x.2))

/-- What goes on holding. -/
def Watched.Ok (x : Watched) : Prop := Dated x.1 ∧ x.1 ∈ x.2

/-- What a page goes by: time does not go back, and what has been stays so. -/
def looking : Stand Op Op.Out Watched (Option Err) where
  rely x y := x.Ok → y.Ok ∧ x.1.now ≤ y.1.now ∧ ∀ w ∈ x.2, w ∈ y.2
  performs _ _ := True
  handler := Watched.exec
  refl _ h := ⟨h, le_rfl, fun _ hw => hw⟩
  trans h h' hx := by
    obtain ⟨hy, hle, hsub⟩ := h hx
    obtain ⟨hz, hle', hsub'⟩ := h' hy
    exact ⟨hz, hle.trans hle', fun w hw => hsub' w (hsub w hw)⟩

/-- What the client reads was true: at a moment since the request began its device had a session with so much left, not
more than it lasts in all; or whatever session it had then has not a second left now. -/
def StatusView.Told (mac : String) (v : StatusView) (x : Watched) : Prop :=
  ∃ w ∈ x.2, w.now ≤ x.1.now ∧
    (v.connected = true → ∃ s, w.db.tables.Active s ∧ s.macAddress = mac ∧ 0 ≤ v.remaining ∧
      v.remaining ≤ s.remainingAt w.now ∧ ∀ total ∈ v.total, v.remaining ≤ total) ∧
    (v.connected = false → v.remaining = 0 ∧
      ∀ s, w.db.tables.Active s → s.macAddress = mac → s.EndsAfter w.now → s.remainingAt x.1.now = 0)

/-- A client without a valid MAC address in the ARP table reads that it is not connected. -/
def StatusView.ToldFor (arp : Option String) (v : StatusView) (x : Watched) : Prop :=
  match resolveClientMac arp with
  | some mac => v.Told mac x
  | none => v = ⟨false, 0, none⟩

section Pages

variable {x y z : Watched} {mac : String} {α β : Type}

theorem looking_exec (fault : Option Err) (op : Op) (x : Watched) : looking.rely x (Watched.exec fault op x).2 :=
  fun h => ⟨⟨h.1.exec fault op, List.mem_cons_self⟩, (World.now_exec fault op x.1).ge, fun _ hw =>
    List.mem_cons_of_mem _ hw⟩

/-- Whatever a page performs. -/
theorem ends_any (hr : looking.rely y x) (p : Prog Op Op.Out α) : looking.Ends (fun _ z => looking.rely y z) p x := by
  induction p generalizing x with
  | done => exact fun z hz => looking.trans hr hz
  | call op next ih =>
    intro z hz
    exact ⟨trivial, fun fault => ih _ (looking.trans (looking.trans hr hz) (looking_exec fault op z))⟩

/-- A step of a page that may fail: an error is its answer. -/
theorem ends_bind {Q : Except Err α → Watched → Prop} {R : β → Watched → Prop} {m : App α} {f : α → App β}
    (h : looking.Ends Q m.run x)
    (hf : ∀ a z, Q (.ok a) z → looking.Ends (fun r z => ∀ b, r = .ok b → R b z) (f a).run z) :
    looking.Ends (fun r z => ∀ b, r = .ok b → R b z) (m >>= f).run x := by
  refine Stand.Ends.bind h fun r z hz => ?_
  cases r with
  | ok a => exact hf a z hz
  | error e => exact fun _ _ => nofun

theorem ends_remainingSeconds (hy : y.Ok) (hr : looking.rely y x) (s : Session) :
    looking.Ends (fun r z => looking.rely y z ∧ ∃ now, y.1.now ≤ now ∧ now ≤ z.1.now ∧ r = .ok (s.remainingAt now))
      (liftM s.remainingSeconds : App Int).run x := by
  intro x₁ h₁
  have hr₁ := looking.trans hr h₁
  obtain ⟨hok₁, hle₁, -⟩ := hr₁ hy
  refine ⟨trivial, fun fault x₂ h₂ => ⟨?_, x₁.1.now, hle₁, ?_, rfl⟩⟩
  · exact looking.trans (looking.trans hr₁ (looking_exec fault .utcNow x₁)) h₂
  · exact (h₂ ((looking_exec fault .utcNow x₁) hok₁).1).2.1

/-- What the answer is made of: the session that was found, and a later reading of the clock. -/
def StatusView.Made (mac : String) (y : Watched) (v : StatusView) (now : Int) : Prop :=
  match y.1.db.tables.sessionByMac y.1.now mac with
  | none => v.connected = false ∧ v.remaining = 0
  | some k =>
    if v.connected then
      v.remaining = k.remainingAt now ∧ ∀ total ∈ v.total, total = computeTotalSeconds k.startedAt k.expiresAt
    else v.remaining = 0 ∧ k.remainingAt now = 0

theorem StatusView.Made.told {v : StatusView} {now : Int} (h : v.Made mac y now) (hy : y.Ok) (hle : y.1.now ≤ now)
    (hr : looking.rely y z) (hz : now ≤ z.1.now) : v.Told mac z := by
  obtain ⟨-, hnow, hsub⟩ := hr hy
  refine ⟨y.1, hsub y.1 hy.2, hnow, fun hc => ?_, fun hc => ?_⟩
  · unfold Made at h
    split at h
    · exact absurd (hc.symm.trans h.1) (by decide)
    · rename_i k hk
      rw [if_pos hc] at h
      obtain ⟨hact, hmac, -⟩ := Tables.sessionByMac_some hk
      obtain ⟨start, hstart, hbegun⟩ := hy.1.begun _ hact.1
      refine ⟨k.toSessionRow, hact, hmac, ?_, ?_, fun total ht => ?_⟩
      · rw [h.1]
        exact k.toSessionRow.remainingAt_nonneg now
      · rw [h.1]
        exact k.toSessionRow.remainingAt_anti hle
      · rw [h.1, h.2 total ht]
        exact SessionRow.remainingAt_le_total hstart (hbegun.trans hle)
  · unfold Made at h
    split at h
    · rename_i hnone
      refine ⟨h.2, fun s hact hmac hend => ?_⟩
      obtain ⟨k, hk, -⟩ := Tables.sessionByMac_of_active y.1.db.schema hy.1.onePerMac hact hmac hend
      rw [hnone] at hk
      cases hk
    · rename_i k hk
      rw [hc, if_neg (by decide)] at h
      refine ⟨h.1, fun s hact hmac hend => ?_⟩
      obtain ⟨k', hk', rfl⟩ := Tables.sessionByMac_of_active y.1.db.schema hy.1.onePerMac hact hmac hend
      obtain rfl : k = k' := Option.some.inj (hk.symm.trans hk')
      exact le_antisymm ((k.toSessionRow.remainingAt_anti hz).trans h.2.le) (k.toSessionRow.remainingAt_nonneg _)

theorem StatusView.made_none {now : Int} {total : Option Int} (hk : y.1.db.tables.sessionByMac y.1.now mac = none) :
    StatusView.Made mac y ⟨false, 0, total⟩ now := by
  unfold Made
  rw [hk]
  exact ⟨rfl, rfl⟩

theorem StatusView.made_over {now : Int} {k : Session} {total : Option Int}
    (hk : y.1.db.tables.sessionByMac y.1.now mac = some k) (h : ¬0 < k.remainingAt now) :
    StatusView.Made mac y ⟨false, 0, total⟩ now := by
  unfold Made
  rw [hk]
  exact ⟨rfl, le_antisymm (not_lt.1 h) (k.toSessionRow.remainingAt_nonneg now)⟩

theorem StatusView.made_running {now : Int} {k : Session} {total : Option Int}
    (hk : y.1.db.tables.sessionByMac y.1.now mac = some k)
    (htotal : ∀ n ∈ total, n = computeTotalSeconds k.startedAt k.expiresAt) :
    StatusView.Made mac y ⟨true, k.remainingAt now, total⟩ now := by
  unfold Made
  rw [hk]
  exact ⟨rfl, htotal⟩

section Answers

variable {view : α → StatusView}

/-- A page is made of what was found. -/
theorem ends_found {f : Option Session → App α} (hx : x.Ok) (hf : ∀ y : Watched, y.Ok →
      looking.Ends (fun r z => ∀ a, r = .ok a → (view a).Told mac z)
        (f (y.1.db.tables.sessionByMac y.1.now mac)).run y) :
    looking.Ends (fun r z => ∀ a, r = .ok a → (view a).Told mac z) (sql (.getSessionByMac mac) >>= f).run x := by
  intro y hy
  refine ⟨trivial, fun fault => ?_⟩
  have hok := (hy hx).1
  cases fault with
  | some e => exact fun _ _ => nofun
  | none => exact hf (y.1, y.1 :: y.2) ⟨hok.1, List.mem_cons_self⟩

/-- The answer. -/
theorem ends_made {a : α} {now : Int} (hy : y.Ok) (h : (view a).Made mac y now) (hle : y.1.now ≤ now)
    (hr : looking.rely y x) (hnow : now ≤ x.1.now) :
    looking.Ends (fun r z => ∀ a, r = .ok a → (view a).Told mac z) (pure a : App α).run x := by
  intro z hz a' ha
  cases ha
  have hok := (hr hy).1
  exact h.told hy hle (looking.trans hr hz) (hnow.trans (hz hok).2.1)

theorem ends_view {m : App α} {P : StatusView → Watched → Prop}
    (h : looking.Ends (fun r z => ∀ a, r = .ok a → P (view a) z) m.run x) :
    looking.Ends (fun r z => ∀ v, r = .ok v → P v z) (do return view (← Api.internal m) : Api StatusView).run x := by
  have hcont : (ExceptT.bindCont fun a => (pure (view a) : Api StatusView)) =
      fun r : Except AppError α => Prog.done (r.map view) := funext fun r => by cases r <;> rfl
  show looking.Ends _ ((m.run.bind fun r => .done (r.mapError AppError.internal)).bind
    (ExceptT.bindCont fun a => (pure (view a) : Api StatusView))) x
  rw [hcont]
  refine Stand.Ends.map (Stand.Ends.map (h.mono fun r z hr v hv => ?_))
  cases r with
  | ok a =>
    cases hv
    exact hr a rfl
  | error e => cases hv

end Answers

theorem ends_portalStatus (hx : x.Ok) :
    looking.Ends (fun r z => ∀ a, r = .ok a → (PortalStatusResponse.view a).Told mac z) (portalStatus mac).run x := by
  refine ends_found hx fun y hy => ?_
  cases hk : y.1.db.tables.sessionByMac y.1.now mac with
  | none => exact ends_made hy (StatusView.made_none hk) le_rfl (looking.refl y) le_rfl
  | some k =>
    refine ends_bind (ends_remainingSeconds hy (looking.refl y) k) fun remaining z hz => ?_
    obtain ⟨hr, now, hle, hnow, he⟩ := hz
    cases he
    refine ends_made hy ?_ hle hr hnow
    by_cases hpos : 0 < k.remainingAt now
    · have hview : PortalStatusResponse.view ⟨decide (k.remainingAt now > 0), k.remainingAt now⟩ =
          ⟨true, k.remainingAt now, none⟩ := by
        simp [PortalStatusResponse.view, hpos]
      rw [hview]
      exact StatusView.made_running hk nofun
    · have hzero : k.remainingAt now = 0 := le_antisymm (not_lt.1 hpos) (k.toSessionRow.remainingAt_nonneg now)
      have hview : PortalStatusResponse.view ⟨decide (k.remainingAt now > 0), k.remainingAt now⟩ =
          ⟨false, 0, none⟩ := by
        simp [PortalStatusResponse.view, hzero]
      rw [hview]
      exact StatusView.made_over hk hpos

theorem ends_successPage (hx : x.Ok) (base : PortalSection) :
    looking.Ends (fun r z => ∀ a, r = .ok a → (Option.elim a ⟨false, 0, none⟩ SuccessTemplate.view).Told mac z)
      (successPage base mac).run x := by
  refine ends_found hx fun y hy => ?_
  cases hk : y.1.db.tables.sessionByMac y.1.now mac with
  | none => exact ends_made hy (StatusView.made_none hk) le_rfl (looking.refl y) le_rfl
  | some k =>
    refine ends_bind (ends_remainingSeconds hy (looking.refl y) k) fun remaining z hz => ?_
    obtain ⟨hr, now, hle, hnow, he⟩ := hz
    cases he
    split
    · -- the settings are read after the clock
      have later {z' : Watched} (hz' : looking.rely z z') : looking.rely y z' ∧ now ≤ z'.1.now :=
        ⟨looking.trans hr hz', hnow.trans (hz' (hr hy).1).2.1⟩
      refine ends_bind (ends_any (looking.refl z) _) fun portal z₁ h₁ => ?_
      refine ends_bind (ends_any h₁ _) fun themeCss z₂ h₂ => ?_
      refine ends_made hy (StatusView.made_running hk fun n hn => ?_) hle (later h₂).1 (later h₂).2
      cases hn
      rfl
    · rename_i hpos
      exact ends_made hy (StatusView.made_over hk hpos) hle hr hnow

theorem ends_statusPage (hx : x.Ok) (base : PortalSection) :
    looking.Ends (fun r z => ∀ a, r = .ok a → (StatusTemplate.view a).Told mac z) (statusPage base mac).run x := by
  refine ends_found hx fun y hy => ?_
  refine ends_bind (ends_any (looking.refl y) _) fun portal z₁ h₁ => ?_
  refine ends_bind (ends_any h₁ _) fun themeCss z₂ h₂ => ?_
  cases hk : y.1.db.tables.sessionByMac y.1.now mac with
  | none => exact ends_made hy (StatusView.made_none hk) (h₂ hy).2.1 h₂ le_rfl
  | some k =>
    refine ends_bind (ends_remainingSeconds hy h₂ k) fun remaining z₃ h₃ => ?_
    obtain ⟨h₃, now, hle, hnow, he⟩ := h₃
    cases he
    split
    · refine ends_bind (ends_remainingSeconds hy h₃ k) fun remaining z₄ h₄ => ?_
      obtain ⟨h₄, now, hle, hnow, he⟩ := h₄
      cases he
      refine ends_made hy (StatusView.made_running hk fun n hn => ?_) hle h₄ hnow
      cases hn
      rfl
    · rename_i hpos
      exact ends_made hy (StatusView.made_over hk hpos) hle h₃ hnow

theorem ends_captiveApi (hx : x.Ok) (config : PortalConfig) (arp : Option String) :
    looking.Ends (fun r z => ∀ a, r = .ok a → (CapportResponse.view a).ToldFor arp z)
      (captiveApi config arp).run x := by
  unfold captiveApi StatusView.ToldFor
  cases resolveClientMac arp with
  | none =>
    intro z _ a ha
    cases ha
    rfl
  | some mac =>
    refine ends_found hx fun y hy => ?_
    cases hk : y.1.db.tables.sessionByMac y.1.now mac with
    | none => exact ends_made hy (StatusView.made_none hk) le_rfl (looking.refl y) le_rfl
    | some k =>
      refine ends_bind (ends_remainingSeconds hy (looking.refl y) k) fun remaining z hz => ?_
      obtain ⟨hr, now, hle, hnow, he⟩ := hz
      cases he
      split
      · refine ends_bind (ends_remainingSeconds hy hr k) fun remaining z₁ h₁ => ?_
        obtain ⟨h₁, now, hle, hnow, he⟩ := h₁
        cases he
        exact ends_made hy (StatusView.made_running hk nofun) hle h₁ hnow
      · rename_i hpos
        exact ends_made hy (StatusView.made_over hk hpos) hle hr hnow

/-- A page is only made for a client with a valid MAC address. -/
theorem ends_page {arp : Option String} {f : String → App α} {view : α → StatusView}
    (hf : ∀ mac, looking.Ends (fun r z => ∀ a, r = .ok a → (view a).Told mac z) (f mac).run x) :
    looking.Ends (fun r z => ∀ v, r = .ok v → v.ToldFor arp z) (StatusCall.page arp f view).run x := by
  unfold StatusCall.page
  cases hv : validateMacOrErr arp with
  | error e => exact fun _ _ _ h => by cases h
  | ok mac =>
    obtain ⟨rfl, hvalid⟩ := validateMacOrErr_ok hv
    have hresolve : resolveClientMac (some mac) = some mac := Option.filter_some_pos hvalid
    unfold StatusView.ToldFor
    rw [hresolve]
    exact ends_view (hf mac)

theorem ends_statusCall (hx : x.Ok) (arp : Option String) (k : StatusCall) :
    looking.Ends (fun r z => ∀ v, r = .ok v → v.ToldFor arp z) (k.program arp).run x := by
  cases k with
  | successPage base => exact ends_page fun mac => ends_successPage hx base
  | statusPage base => exact ends_page fun mac => ends_statusPage hx base
  | portalStatus => exact ends_page fun mac => ends_portalStatus hx
  | captiveApi config => exact ends_view (ends_captiveApi hx config arp)

end Pages

/-! ## Runs -/

/-- The daemon, with one request for a page, and the worlds since this began, the last one first. -/
structure Viewing (c : CafeConfig) where
  daemon : House c
  page : Prog Op Op.Out (Except AppError StatusView)
  seen : List World

inductive ViewLabel (c : CafeConfig) where
  | daemon (l : HouseLabel c)
  | page (fault : Option Err)

def Viewing.step {c : CafeConfig} (s : Viewing c) : ViewLabel c → Option (Viewing c)
  | .daemon l => ((house c).step s.daemon l).map fun d => { s with daemon := d, seen := d.shared :: s.seen }
  | .page fault =>
    match s.page with
    | .done _ => none
    | .call op next =>
      let x := World.exec fault op s.daemon.shared
      some ⟨{ s.daemon with shared := x.2 }, next x.1, x.2 :: s.seen⟩

def viewing (c : CafeConfig) : Machine (Viewing c) (ViewLabel c) where
  init s := (house c).init s.daemon
  step := Viewing.step

/-- Time passes only up to what a timestamp can show. -/
def HouseLabel.Shown {c : CafeConfig} (s : House c) : HouseLabel c → Prop
  | .elapse nanos => InRange ((s.shared.now + nanos) / nanosPerSec)
  | _ => True

def ViewLabel.Shown {c : CafeConfig} (s : Viewing c) : ViewLabel c → Prop
  | .daemon l => l.Shown s.daemon
  | .page _ => True

section Runs

variable {c : CafeConfig} {arp : Option String} {s s' : Viewing c} {l : ViewLabel c}

/-- What the daemon does leaves the page what it goes by. -/
theorem looking_house {h h' : House c} {l : HouseLabel c} (hok : l.Shown h) (hs : (house c).step h l = some h')
    (seen : List World) : looking.rely (h.shared, seen) (h'.shared, h'.shared :: seen) := by
  intro hx
  cases l with
  | start k =>
    cases hs
    exact ⟨⟨hx.1, List.mem_cons_self⟩, le_rfl, fun _ hw => List.mem_cons_of_mem _ hw⟩
  | advance i fault =>
    obtain ⟨tag, op, next, -, -, rfl⟩ := Pool.advance_call hs
    exact looking_exec fault op (h.shared, seen) hx
  | elapse nanos =>
    cases hs
    refine ⟨⟨⟨hok, fun s hs => ?_, hx.1.onePerMac⟩, List.mem_cons_self⟩, ?_, fun _ hw =>
      List.mem_cons_of_mem _ hw⟩
    · obtain ⟨start, hstart, hle⟩ := hx.1.begun s hs
      exact ⟨start, hstart, hle.trans (Int.le_add_of_nonneg_right (Int.natCast_nonneg nanos))⟩
    · exact Int.le_add_of_nonneg_right (Int.natCast_nonneg nanos)

/-- The page goes on as it has to. -/
structure Viewing.Truthful (arp : Option String) (s : Viewing c) : Prop where
  ok : Watched.Ok (s.daemon.shared, s.seen)
  ends : looking.Ends (fun r z => ∀ v, r = .ok v → v.ToldFor arp z) s.page (s.daemon.shared, s.seen)

theorem Viewing.Truthful.step (h : s.Truthful arp) (hok : l.Shown s) (hs : (viewing c).step s l = some s') :
    s'.Truthful arp := by
  cases l with
  | daemon l =>
    obtain ⟨d, hd, rfl⟩ : ∃ d, (house c).step s.daemon l = some d ∧ _ = s' := Option.map_eq_some_iff.1 hs
    have hr := looking_house hok hd s.seen
    exact ⟨(hr h.ok).1, h.ends.later hr⟩
  | page fault =>
    obtain ⟨daemon, page, seen⟩ := s
    cases page with
    | done r => cases hs
    | call op next =>
      cases hs
      exact ⟨(looking_exec fault op _ h.ok).1, (h.ends _ (looking.refl _)).2 fault⟩

/-- A daemon that starts without plans has no sessions. -/
theorem dated_of_init {h : House c} (hinit : (house c).init h) (hclock : InRange (h.shared.now / nanosPerSec)) :
    Dated h.shared := by
  obtain ⟨hplan, -⟩ := hinit
  have hnone : ∀ s, s ∉ h.shared.db.tables.session := by
    intro s hs
    obtain ⟨r, hr, -⟩ := h.shared.db.schema.sessionToken s hs
    obtain ⟨p, hp, -⟩ := h.shared.db.schema.tokenPlan r hr
    rw [hplan] at hp
    exact List.not_mem_nil hp
  exact ⟨hclock, fun s hs => absurd hs (hnone s), Tables.onePerMac_of fun a _ ha => absurd ha.1 (hnone a)⟩

theorem dated_of_path {h₀ h : House c} (hdated : Dated h₀.shared) (hp : Path (house c) HouseLabel.Shown h₀ h) :
    Dated h.shared := by
  refine hp.invariant (I := fun h => Dated h.shared) (fun h l h' hi hok hs => ?_) hdated
  have ok : Watched.Ok (h.shared, [h.shared]) := ⟨hi, List.mem_cons_self⟩
  exact (looking_house hok hs [h.shared] ok).1.1

/-- What a client is told of its session was so at a moment of its request, whatever else the daemon does between the
operations of the page. A client that is not known by its MAC address is told that it has none. -/
theorem told_truly {h₀ h : House c} (hinit : (house c).init h₀) (hclock : InRange (h₀.shared.now / nanosPerSec))
    (hbefore : Path (house c) HouseLabel.Shown h₀ h) (k : StatusCall)
    (hp : Path (viewing c) ViewLabel.Shown ⟨h, (k.program arp).run, [h.shared]⟩ s) {v : StatusView}
    (hdone : s.page = .done (.ok v)) : v.ToldFor arp (s.daemon.shared, s.seen) := by
  have dated := dated_of_path (dated_of_init hinit hclock) hbefore
  have start : Watched.Ok (h.shared, [h.shared]) := ⟨dated, List.mem_cons_self⟩
  have truthful : s.Truthful arp := hp.invariant (I := Viewing.Truthful arp) (fun _ _ _ h hok hs => h.step hok hs)
    ⟨start, ends_statusCall start arp k⟩
  have hends := truthful.ends
  rw [hdone] at hends
  exact hends _ (looking.refl _) v rfl

end Runs

instance {c : CafeConfig} (s : House c) : DecidablePred (HouseLabel.Shown s)
  | .elapse nanos => inferInstanceAs (Decidable (InRange ((s.shared.now + nanos) / nanosPerSec)))
  | .start _ | .advance .. => isTrue trivial

instance {c : CafeConfig} (s : Viewing c) : DecidablePred (ViewLabel.Shown s)
  | .daemon l => inferInstanceAs (Decidable (l.Shown s.daemon))
  | .page _ => isTrue trivial

/-- What the page has come to. -/
def Viewing.answer {c : CafeConfig} (s : Viewing c) : Option StatusView :=
  match s.page with
  | .done (.ok v) => some v
  | _ => none

theorem Viewing.answer_some {c : CafeConfig} {s : Viewing c} {v : StatusView} (h : s.answer = some v) :
    s.page = .done (.ok v) := by
  unfold answer at h
  split at h
  · cases h
    assumption
  · cases h

/-- The page is made while the cleanup begins and five seconds pass. -/
def whileCleaning : List (ViewLabel .small) :=
  .page none :: .daemon (.start .cleanup) :: .daemon (.advance 3 none) :: .page none :: .daemon (.elapse 5000000000) ::
    .page none :: .daemon (.advance 3 none) :: .page none :: []

def statusCall : StatusCall :=
  .statusPage ⟨"wifi.didicafe", "admin.wifi.didicafe", "DidiCafe", "", "#b45309", "", "", ""⟩

/-- The first guest's device asks for the status page. -/
def viewingFirst (h : House .small) : Viewing .small :=
  ⟨h, (statusCall.program (some "02:00:00:00:00:01")).run, [h.shared]⟩

theorem told_truly_whileCleaning : ∃ h s, (house .small).trace newHouse oneGuest = some h ∧
    (viewing .small).trace (viewingFirst h) whileCleaning = some s ∧
      s.page = .done (.ok ⟨true, 3595, some 3600⟩) ∧
        StatusView.Told "02:00:00:00:00:01" ⟨true, 3595, some 3600⟩ (s.daemon.shared, s.seen) := by
  have hrun : ((house .small).trace newHouse oneGuest).any (fun h =>
      decide ((viewing .small).Along ViewLabel.Shown (viewingFirst h) whileCleaning) ∧
        ((viewing .small).trace (viewingFirst h) whileCleaning).any
          (fun s => s.answer = some ⟨true, 3595, some 3600⟩) = true) = true := by decide +kernel
  obtain ⟨h, hh, hrun⟩ := (Option.any_eq_true _ _).1 hrun
  obtain ⟨hshown, hrun⟩ := of_decide_eq_true hrun
  obtain ⟨s, hs, hanswer⟩ := (Option.any_eq_true _ _).1 hrun
  have hdone := Viewing.answer_some (of_decide_eq_true hanswer)
  have hbefore : Path (house .small) HouseLabel.Shown newHouse h :=
    Machine.path_along (t := oneGuest) (by decide +kernel) hh
  refine ⟨h, s, hh, hs, hdone, ?_⟩
  have hresolve : resolveClientMac (some "02:00:00:00:00:01") = some "02:00:00:00:00:01" := by decide +kernel
  have told := told_truly ⟨rfl, rfl⟩ (by decide +kernel) hbefore statusCall
    (Machine.path_along (of_decide_eq_true hshown) hs) hdone
  unfold StatusView.ToldFor at told
  rw [hresolve] at told
  exact told

end Didicafe
