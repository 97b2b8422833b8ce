/-
Admin forms among logins, logouts and other requests, interleaved lock by lock. A form is acted on only with a token
that was stored for its session, as long as no form with an empty token reads the token of a session that is gone: the
lookup answers with the empty text then.
-/
import Didicafe.Lib.Rely
import Didicafe.Lib.Runs
import Didicafe.Model.AdminSession

namespace Didicafe

open Effect Runs

/-- The requests under way, and the tokens stored so far, each with its session. -/
structure Office where
  pool : Pool Caller StoreOp StoreOp.Out (Except Rejection Unit) Desk
  stored : List (String × String)

namespace Office

def store (s : Office) : AdminSessionStore := s.pool.shared.store

/-- What request `i` stores. -/
def note (s : Office) (i : Nat) : List (String × String) :=
  match s.pool.pending i with
  | some (_, .insert sessionId data) => [(sessionId, data.csrfToken)]
  | _ => []

end Office

inductive Arrival where
  | request (c : Caller)
  | advance (i : Nat)
  | elapse (nanos : Nat)

def Office.step (s : Office) : Arrival → Option Office
  | .request c => some { s with pool := s.pool.spawn ⟨c, (c.program s.store.timeout).run⟩ }
  | .advance i => (s.pool.advance Desk.exec i).map fun pool => ⟨pool, s.note i ++ s.stored⟩
  | .elapse nanos =>
    some { s with pool := { s.pool with shared := { s.pool.shared with clock := s.pool.shared.clock + nanos } } }

/-- A new store, at any time. -/
def office (timeoutSeconds : UInt64) : Machine Office Arrival where
  init s := ∃ t, s = ⟨⟨⟨t, .new timeoutSeconds⟩, []⟩, []⟩
  step := Office.step

/-- Every form that is acted on was submitted with a token of 32 characters that was stored for its session. -/
def BoundToToken (s : Office) : Prop :=
  ∀ t ∈ s.pool.threads, ∀ cookie submitted, t.tag = .form cookie submitted → t.rest = .done (.ok ()) →
    ∃ sessionId, cookie = some sessionId ∧ (sessionId, submitted) ∈ s.stored ∧ submitted.toList.length = 32

/-- A form with an empty token reads the token of a session that is there. -/
def ReadsSession (s : Office) : Arrival → Prop
  | .advance i => ∀ cookie sessionId, s.pool.pending i = some (.form cookie "", .csrfToken sessionId) →
    (s.store.sessions.lookup sessionId).isSome
  | .request _ | .elapse _ => True

/-! ## What a request still has to do -/

abbrev Left := Prog StoreOp StoreOp.Out (Except Rejection Unit)

/-- The validation of one of the extractors. -/
def validateLeft (sessionId : String) (rest : Left) : Left :=
  .call (.validate sessionId) fun ok => if ok then rest else .done (.error (.unauthorized false))

/-- The lookup of the token and the comparison. -/
def readLeft (sessionId submitted : String) : Left :=
  .call (.csrfToken sessionId) fun csrf =>
    .done (if submitted = csrf then .ok () else .error (.badRequest "admin.error.csrf"))

theorem run_checkForm (sessionId submitted : String) : (checkForm (some sessionId) submitted).run =
    validateLeft sessionId (validateLeft sessionId (readLeft sessionId submitted)) := by
  refine Prog.call_congr fun ok => ?_
  cases ok with
  | false => rfl
  | true =>
    refine Prog.call_congr fun ok => ?_
    cases ok with
    | false => rfl
    | true =>
      refine Prog.call_congr fun csrf => ?_
      show (ite (submitted = csrf) _ _ : Web Unit).run = .done (ite (submitted = csrf) _ _)
      split <;> rfl

/-- Where the form request of a session stands. -/
inductive FormStage (stored : List (String × String)) (sessionId submitted : String) : Left → Prop where
  | start : FormStage stored sessionId submitted
      (validateLeft sessionId (validateLeft sessionId (readLeft sessionId submitted)))
  | admin : FormStage stored sessionId submitted (validateLeft sessionId (readLeft sessionId submitted))
  | read : FormStage stored sessionId submitted (readLeft sessionId submitted)
  | rejected (e : Rejection) : FormStage stored sessionId submitted (.done (.error e))
  | accepted (hs : (sessionId, submitted) ∈ stored) : FormStage stored sessionId submitted (.done (.ok ()))

/-- The same of any request, without a session for a form that has no cookie. -/
def Stage (stored : List (String × String)) (t : Thread Caller StoreOp StoreOp.Out (Except Rejection Unit)) : Prop :=
  ∀ cookie submitted, t.tag = .form cookie submitted →
    (∃ e, t.rest = .done (.error e)) ∨
      ∃ sessionId, cookie = some sessionId ∧ FormStage stored sessionId submitted t.rest

theorem FormStage.mono {stored stored' : List (String × String)} {sessionId submitted : String} {rest : Left}
    (h : FormStage stored sessionId submitted rest) (hs : stored ⊆ stored') :
    FormStage stored' sessionId submitted rest := by
  cases h with
  | start => exact .start
  | admin => exact .admin
  | read => exact .read
  | rejected e => exact .rejected e
  | accepted hm => exact .accepted (hs hm)

theorem Stage.mono {stored stored' : List (String × String)}
    {t : Thread Caller StoreOp StoreOp.Out (Except Rejection Unit)} (h : Stage stored t) (hs : stored ⊆ stored') :
    Stage stored' t := by
  intro cookie submitted ht
  rcases h cookie submitted ht with h | ⟨sessionId, hc, h⟩
  · exact .inl h
  · exact .inr ⟨sessionId, hc, h.mono hs⟩

theorem stage_start (stored : List (String × String)) (c : Caller) (timeout : Nat) :
    Stage stored ⟨c, (c.program timeout).run⟩ := by
  rintro cookie submitted rfl
  cases cookie with
  | none => exact .inl ⟨_, rfl⟩
  | some sessionId => exact .inr ⟨sessionId, rfl, by rw [Caller.program, run_checkForm]; exact .start⟩

/-! ## What is stored -/

/-- Only tokens of 32 characters are stored, whatever the answers of the store. -/
def storing : Effect.Rules StoreOp StoreOp.Out Unit Desk where
  rely _ _ := True
  allowed _ op := ∀ sessionId data, op = .insert sessionId data → data.csrfToken.toList.length = 32
  handler desk op s := ((Desk.exec op desk).1, s)
  refl _ := trivial
  trans _ _ := trivial
  keeps _ _ _ _ := trivial

theorem length_generateSessionToken (len : Nat) (draws : Nat → Fin sessionCharset.length) :
    (generateSessionToken len draws).toList.length = len := by
  simp [generateSessionToken]

section Heeds

variable (cookie : Option String)

theorem heeds_store {op : StoreOp} (h : ∀ sessionId data, op ≠ .insert sessionId data) :
    storing.Heeds (store op).run () :=
  Rules.Heeds.lift (Rules.heeds_perform fun _ _ sessionId data he => absurd he (h sessionId data))

theorem heeds_adminSession (apiPath : Bool) : storing.Heeds (adminSession apiPath cookie).run () := by
  cases cookie with
  | none => trivial
  | some sessionId =>
    refine Rules.Heeds.bind_run (heeds_store (by simp)) fun ok _ _ => ?_
    cases ok <;> trivial

theorem heeds_csrfToken (apiPath : Bool) : storing.Heeds (csrfToken apiPath cookie).run () := by
  cases cookie with
  | none => trivial
  | some sessionId =>
    refine Rules.Heeds.bind_run (heeds_store (by simp)) fun ok _ _ => ?_
    cases ok with
    | false => trivial
    | true => exact heeds_store (by simp)

theorem heeds_removeCookie : storing.Heeds (removeCookie cookie).run () := by
  cases cookie with
  | none => trivial
  | some sessionId => exact heeds_store (by simp)

theorem heeds_createAdminSession (timeout : Nat) (idDraws csrfDraws : Nat → Fin sessionCharset.length) :
    storing.Heeds (createAdminSession timeout idDraws csrfDraws).run () := by
  refine Rules.Heeds.bind_run (heeds_store (by simp)) fun now _ _ => ?_
  cases checkedAdd now timeout with
  | none => trivial
  | some expiresAt =>
    refine Rules.Heeds.bind_run (Rules.Heeds.lift (Rules.heeds_perform fun _ _ => ?_)) fun _ _ _ => trivial
    rintro _ _ ⟨⟩
    exact length_generateSessionToken ..

end Heeds

theorem heeds_program (timeout : Nat) (c : Caller) : storing.Heeds (c.program timeout).run () := by
  cases c with
  | form cookie submitted =>
    refine Rules.Heeds.bind_run (heeds_adminSession cookie false) fun _ _ _ => ?_
    refine Rules.Heeds.bind_run (heeds_csrfToken cookie false) fun csrf _ _ => ?_
    split <;> trivial
  | page cookie =>
    refine Rules.Heeds.bind_run (heeds_adminSession cookie false) fun _ _ _ => ?_
    exact Rules.Heeds.bind_run (heeds_csrfToken cookie false) fun _ _ _ => trivial
  | api cookie => exact heeds_adminSession cookie true
  | login cookie idDraws csrfDraws =>
    refine Rules.Heeds.bind_run (heeds_removeCookie cookie) fun _ _ _ => ?_
    exact Rules.Heeds.bind_run (heeds_createAdminSession timeout idDraws csrfDraws) fun _ _ _ => trivial
  | logout cookie => exact heeds_removeCookie cookie

/-! ## The invariant -/

/-- The sessions have stored tokens, these are long, and every request is at one of its points. -/
structure Kept (s : Office) : Prop where
  stored : ∀ sessionId data, s.store.sessions.lookup sessionId = some data → (sessionId, data.csrfToken) ∈ s.stored
  long : ∀ x ∈ s.stored, x.2.toList.length = 32
  stage : ∀ t ∈ s.pool.threads, Stage s.stored t
  heeds : ∀ t ∈ s.pool.threads, storing.Heeds t.rest ()

variable {s s' : Office}

/-- What an operation of the store leaves of its sessions. -/
theorem exec_sessions (op : StoreOp) (d : Desk) {sessionId : String} {data : SessionData}
    (h : (Desk.exec op d).2.store.sessions.lookup sessionId = some data) :
    op = .insert sessionId data ∨ d.store.sessions.lookup sessionId = some data := by
  have erased {id : String} (h : (d.store.sessions.erase id).lookup sessionId = some data) :
      d.store.sessions.lookup sessionId = some data := by
    by_cases hid : sessionId = id
    · subst hid
      rw [AList.lookup_erase] at h
      cases h
    · rwa [AList.lookup_erase_ne hid] at h
  cases op with
  | now | csrfToken => exact .inr h
  | insert id data' =>
    replace h : (d.store.sessions.insert id data').lookup sessionId = some data := h
    rw [HashMap.lookup_insert_eq] at h
    split at h
    · rename_i hid
      cases h
      exact .inl (by rw [hid])
    · exact .inr h
  | validate id =>
    refine .inr ?_
    simp only [Desk.exec, AdminSessionStore.validate] at h
    split at h
    · split at h
      · exact h
      · exact erased h
    · exact h
  | remove id => exact .inr (erased h)

/-- A form request goes on to its next point, unless it compares an empty token with that of a session that is gone. -/
theorem FormStage.advance {stored : List (String × String)} {sessionId submitted : String} {op : StoreOp}
    {next : op.Out → Left} {d : Desk} (h : FormStage stored sessionId submitted (.call op next))
    (hd : ∀ id data, d.store.sessions.lookup id = some data → (id, data.csrfToken) ∈ stored)
    (hok : submitted = "" → ∀ id, op = .csrfToken id → (d.store.sessions.lookup id).isSome) :
    FormStage stored sessionId submitted (next (Desk.exec op d).1) := by
  cases h with
  | start =>
    show FormStage _ _ _ (if (d.store.validate d.clock sessionId).1 then _ else _)
    split
    · exact .admin
    · exact .rejected _
  | admin =>
    show FormStage _ _ _ (if (d.store.validate d.clock sessionId).1 then _ else _)
    split
    · exact .read
    · exact .rejected _
  | read =>
    show FormStage _ _ _ (.done (if submitted = d.store.csrfToken sessionId then _ else _))
    split
    · rename_i heq
      refine .accepted ?_
      unfold AdminSessionStore.csrfToken at heq
      cases hl : d.store.sessions.lookup sessionId with
      -- the token of a session that is gone reads as the empty text
      | none =>
        rw [hl] at heq
        have := hok heq sessionId rfl
        rw [hl] at this
        cases this
      | some data =>
        rw [hl] at heq
        rw [show submitted = data.csrfToken from heq]
        exact hd sessionId data hl
    · exact .rejected _

namespace Kept

theorem advance {i : Nat} (h : Kept s) (hok : ReadsSession s (.advance i)) (hs : s.step (.advance i) = some s') :
    Kept s' := by
  obtain ⟨pool, hadv, rfl⟩ := Option.map_eq_some_iff.1 hs
  obtain ⟨tag, op, next, ht, hp, rfl⟩ := Pool.advance_call hadv
  have hmem := List.mem_of_getElem? ht
  have hheed := h.heeds _ hmem () trivial
  have grow : s.stored ⊆ s.note i ++ s.stored := List.subset_append_right _ _
  have noted {id : String} {data : SessionData} (ho : op = .insert id data) : (id, data.csrfToken) ∈ s.note i := by
    unfold Office.note
    rw [hp, ho]
    exact .head _
  constructor
  case stored =>
    intro id data hl
    rcases exec_sessions op s.pool.shared hl with ho | hl
    · exact List.mem_append_left _ (noted ho)
    · exact grow (h.stored id data hl)
  case long =>
    intro x hx
    rcases List.mem_append.1 hx with hnew | hold
    · unfold Office.note at hnew
      rw [hp] at hnew
      split at hnew
      · rename_i heq
        cases heq
        rw [List.mem_singleton.1 hnew]
        exact hheed.1 _ _ rfl
      · cases hnew
    · exact h.long x hold
  case stage =>
    intro t ht'
    obtain ⟨j, hj⟩ := List.mem_iff_getElem?.1 ht'
    rcases Pool.getElem?_set_cases hj with ⟨-, rfl⟩ | ⟨-, hj⟩
    · intro cookie submitted htag
      rcases h.stage _ hmem cookie submitted htag with ⟨e, he⟩ | ⟨sessionId, rfl, hst⟩
      · cases he
      · refine .inr ⟨sessionId, rfl, (hst.advance h.stored ?_).mono grow⟩
        rintro rfl id rfl
        exact hok (some sessionId) id (by rw [hp, ← htag])
    · exact (h.stage t (List.mem_of_getElem? hj)).mono grow
  case heeds =>
    intro t ht'
    obtain ⟨j, hj⟩ := List.mem_iff_getElem?.1 ht'
    rcases Pool.getElem?_set_cases hj with ⟨-, rfl⟩ | ⟨-, hj⟩
    · exact hheed.2 s.pool.shared
    · exact h.heeds t (List.mem_of_getElem? hj)

theorem step {a : Arrival} (h : Kept s) (hok : ReadsSession s a) (hs : s.step a = some s') : Kept s' := by
  cases a with
  | request c =>
    cases hs
    have each {P : Thread Caller StoreOp StoreOp.Out (Except Rejection Unit) → Prop} (hold : ∀ t ∈ s.pool.threads, P t)
        (hnew : P ⟨c, (c.program s.store.timeout).run⟩) :
        ∀ t ∈ (s.pool.spawn ⟨c, (c.program s.store.timeout).run⟩).threads, P t := by
      intro t ht
      rcases List.mem_append.1 ht with ht | ht
      · exact hold t ht
      · rw [List.mem_singleton.1 ht]
        exact hnew
    exact ⟨h.stored, h.long, each h.stage (stage_start _ _ _), each h.heeds (heeds_program ..)⟩
  | advance i => exact h.advance hok hs
  | elapse nanos => cases hs; exact ⟨h.stored, h.long, h.stage, h.heeds⟩

theorem boundToToken (h : Kept s) : BoundToToken s := by
  intro t ht cookie submitted htag hrest
  rcases h.stage t ht cookie submitted htag with ⟨e, he⟩ | ⟨sessionId, hc, hst⟩
  · rw [hrest] at he
    cases he
  · rw [hrest] at hst
    cases hst with
    | accepted hm => exact ⟨sessionId, hc, hm, h.long _ hm⟩

end Kept

/-! ## Runs -/

/-- In every run in which no form with an empty token reads the token of a session that is gone, a form is acted on only
with a token that was stored for its session. -/
theorem boundToToken_of_readsSession {timeoutSeconds : UInt64} (h : Reach (office timeoutSeconds) ReadsSession s) :
    BoundToToken s := by
  have kept : Kept s := by
    apply h.invariant (I := Kept)
    · rintro s ⟨t, rfl⟩
      exact ⟨nofun, nofun, nofun, nofun⟩
    · exact fun _ _ _ hi hok hs => hi.step hok hs
  exact kept.boundToToken

/-- A store with an hour of timeout, at its start. -/
def Office.closed : Office := ⟨⟨⟨0, .new 3600⟩, []⟩, []⟩

/-- The session and the token of a login that draws the same character each time. -/
def firstDraw (_ : Nat) : Fin sessionCharset.length := ⟨0, by decide⟩

def firstId : String := generateSessionToken sessionIdLen firstDraw

/-- A form with a token may go on. -/
theorem readsSession_of_ne {i : Nat} {cookie : Option String} {submitted : String} {op : StoreOp}
    (hp : s.pool.pending i = some (.form cookie submitted, op)) (hne : submitted ≠ "") :
    ReadsSession s (.advance i) := by
  intro _ _ h
  rw [hp] at h
  cases h
  exact absurd rfl hne

/-- The admin logs in, submits a form with the token, and is asked for it. -/
theorem boundToToken_firstForm : ∃ s, (office 3600).trace .closed
    [.request (.login none firstDraw firstDraw), .advance 0, .advance 0, .request (.form (some firstId) firstId),
      .advance 1, .advance 1, .advance 1] = some s ∧ BoundToToken s := by
  have request (s : Office) (c : Caller) : ReadsSession s (.request c) := trivial
  have login := request .closed (.login none firstDraw firstDraw)
  have arrived := Reach.step (M := office 3600) (.start ⟨0, rfl⟩) login rfl
  have timed := arrived.step (l := .advance 0) (by rintro _ _ ⟨⟩) rfl
  have inserted := timed.step (l := .advance 0) (by rintro _ _ ⟨⟩) rfl
  have submitted := inserted.step (request _ (.form (some firstId) firstId)) rfl
  have hne : firstId ≠ "" := by decide
  have validated := submitted.step (l := .advance 1) (readsSession_of_ne rfl hne) rfl
  have again := validated.step (l := .advance 1) (readsSession_of_ne rfl hne) rfl
  have read := again.step (l := .advance 1) (readsSession_of_ne rfl hne) rfl
  exact ⟨_, rfl, boundToToken_of_readsSession read⟩

/-- The admin logs out between the validation of a form and its lookup of the token. -/
def logoutBetween : List Arrival :=
  [.request (.login none firstDraw firstDraw), .advance 0, .advance 0, .request (.form (some firstId) ""), .advance 1,
    .advance 1, .request (.logout (some firstId)), .advance 2, .advance 1]

/-- The form with the empty token is then acted on. -/
theorem logoutBetween_accepted : ¬ ∀ (timeoutSeconds : UInt64) (s : Office),
    Reach (office timeoutSeconds) Free s → BoundToToken s := by
  intro h
  refine Machine.refute logoutBetween (M := office 3600) (s := .closed) ⟨0, rfl⟩ rfl (fun hb => ?_) (h 3600)
  obtain ⟨_, -, -, hlen⟩ := hb ⟨.form (some firstId) "", .done (.ok ())⟩ (List.mem_of_getElem? (i := 1) rfl) _ _ rfl rfl
  cases hlen

end Didicafe
