/-
What the journal of the front desk tells in every run, whatever order the requests take turns in: the tokens of the
forms and the sessions in memory are those that some request has stored, so that a form or a session is accepted only
after the request that it goes back to.
-/
import Didicafe.Front.Login
import Didicafe.Front.Portal

namespace Didicafe

open Effect Runs

variable {c : FrontConfig} {s s' : FrontJournal c} {log post pre : List (FrontEvent c)} {e : FrontEvent c}

/-! ## The guards of all requests -/

def deskGuard (c : FrontConfig) : FrontCall c → Guard Access Access.Out
  | .portalPage ip _ => portalGuard c ip fun _ op => op = .sql .getAllSettings
  | .portalAuth ip form _ => formGuard c ip form
  | .loginPage ip _ => loginPageGuard c ip
  | .loginSubmit ip header form _ => loginGuard c ip header form
  | .logout header | .redirectToLogin header => cookieGuard header
  | .admin header a => adminGuard c header a

theorem keeps_program (k : FrontCall c) : k.program.Keeps possible (deskGuard c k) (fun _ _ => True) [] := by
  cases k with
  | portalPage => exact keeps_portalPage
  | portalAuth => exact keeps_portalAuth
  | loginPage => exact keeps_loginPage
  | loginSubmit => exact keeps_loginSubmit
  | logout => exact keeps_logout
  | redirectToLogin => exact keeps_redirectToLogin
  | admin => exact keeps_admin

/-- No request stores a form token that it has not just made. -/
theorem not_set (k : FrontCall c) (past : Past Access Access.Out) (door : Door) (key token : String) :
    ¬ deskGuard c k past (.csrf door (.set key token)) := by
  cases k <;> cases door <;> exact id

/-- Only a login stores a session. -/
theorem login_of_insert {k : FrontCall c} {past : Past Access Access.Out} {sessionId : String} {data : SessionData}
    (h : deskGuard c k past (.sessions (.insert sessionId data))) :
    ∃ ip header form draws, k = .loginSubmit ip header form draws ∧ Credentials c ip form past ∧
      ∃ now, ⟨.sessions .now, now⟩ ∈ past ∧ data.expiresAt = now + fromSecs c.sessionTimeoutSeconds := by
  cases k with
  | loginSubmit ip header form draws => exact ⟨ip, header, form, draws, rfl, h⟩
  | _ => exact h.elim

/-! ## What the shared state goes back to -/

def AppState.tokens (s : AppState) (door : Door) : PortalCsrfStore := ((csrfPart door).get s).tokens

/-- The operation takes the form token of the key away, or puts one in its place. -/
def CsrfOp.Replaces (key : String) : CsrfOp → Prop
  | .validate k _ | .write k _ _ | .set k _ => k = key
  | .now | .read _ => False

def Access.Replaces (door : Door) (key : String) : Access → Prop
  | .csrf d op => d = door ∧ op.Replaces key
  | _ => False

/-- The form token was made for the key, and no form has been checked against it and no other one made since. -/
def Made (door : Door) (key token : String) (createdAt : Nat) (log : List (FrontEvent c)) : Prop :=
  ∃ post e pre, log = post ++ e :: pre ∧ e.op = .csrf door (.write key token createdAt) ∧
    ∀ x ∈ post, ¬ x.op.Replaces door key

/-- The session was stored, and has not been removed since. -/
def Standing (sessionId : String) (data : SessionData) (log : List (FrontEvent c)) : Prop :=
  ∃ post e pre, log = post ++ e :: pre ∧ e.op = .sessions (.insert sessionId data) ∧
    ∀ x ∈ post, x.op ≠ .sessions (.remove sessionId)

/-- The token of a form is accepted in its lifetime, and a session before its end. The form token that is read of a
session is the one stored with it, or empty if the session is not there. -/
structure Accepted (e : FrontEvent c) (pre : List (FrontEvent c)) : Prop where
  form : ∀ door key token, (⟨e.op, e.answer⟩ : Sigma Access.Out) = ⟨.csrf door (.validate key token), true⟩ →
    ∃ createdAt, Made door key token createdAt pre ∧ e.before.clock - createdAt ≤ csrfTokenTtl
  session : ∀ sessionId, (⟨e.op, e.answer⟩ : Sigma Access.Out) = ⟨.sessions (.validate sessionId), true⟩ →
    ∃ data, Standing sessionId data pre ∧ e.before.clock < data.expiresAt
  token : ∀ sessionId token, (⟨e.op, e.answer⟩ : Sigma Access.Out) = ⟨.sessions (.csrfToken sessionId), token⟩ →
    (∃ data, Standing sessionId data pre ∧ data.csrfToken = token) ∨
      e.before.adminSessions.sessions.lookup sessionId = none ∧ token = ""

structure Traced (s : FrontJournal c) : Prop where
  follows : Workshop.Follows possible (deskGuard c) (frontDesk c) s
  made : ∀ door key entry, (s.pool.shared.tokens door).lookup key = some entry →
    Made door key entry.token entry.createdAt s.log
  standing : ∀ sessionId data, s.pool.shared.adminSessions.sessions.lookup sessionId = some data →
    Standing sessionId data s.log
  accepted : Each Accepted s.log

theorem Made.cons {door : Door} {key token : String} {createdAt : Nat} (h : Made door key token createdAt log)
    (he : ¬ e.op.Replaces door key) : Made door key token createdAt (e :: log) := by
  obtain ⟨post, x, pre, rfl, hop, hpost⟩ := h
  exact ⟨e :: post, x, pre, rfl, hop, List.forall_mem_cons.2 ⟨he, hpost⟩⟩

theorem Standing.cons {sessionId : String} {data : SessionData} (h : Standing sessionId data log)
    (he : e.op ≠ .sessions (.remove sessionId)) : Standing sessionId data (e :: log) := by
  obtain ⟨post, x, pre, rfl, hop, hpost⟩ := h
  exact ⟨e :: post, x, pre, rfl, hop, List.forall_mem_cons.2 ⟨he, hpost⟩⟩

/-! ### One operation -/

section Exec

variable {env : Surroundings} {st : AppState} {op : Access}

theorem lookup_erase {α : Type} {m : HashMap String α} {k key : String} {a : α} (h : (m.erase k).lookup key = some a) :
    key ≠ k ∧ m.lookup key = some a := by
  by_cases hk : key = k
  · rw [hk, AList.lookup_erase] at h
    cases h
  · rw [AList.lookup_erase_ne hk] at h
    exact ⟨hk, h⟩

/-- An entry that is new after a section of the form tokens was stored by it. -/
theorem lookup_csrfExec {d : CsrfDesk} {o : CsrfOp} {key : String} {entry : CsrfEntry}
    (h : (CsrfDesk.exec o d).2.tokens.lookup key = some entry) :
    d.tokens.lookup key = some entry ∧ ¬ o.Replaces key ∨ o = .write key entry.token entry.createdAt ∨
      ∃ token, o = .set key token := by
  cases o with
  | now | read => exact .inl ⟨h, id⟩
  | validate =>
    obtain ⟨hne, h⟩ := lookup_erase h
    exact .inl ⟨h, hne.symm⟩
  | write k token now =>
    simp only [CsrfDesk.exec, PortalCsrfStore.put] at h
    rw [HashMap.lookup_insert_eq] at h
    split at h
    · cases h
      exact .inr (.inl (by subst key; rfl))
    · rename_i hne
      rw [HashMap.lookup_retain] at h
      obtain ⟨entry', hlookup, hkept⟩ := Option.bind_eq_some_iff.1 h
      split at hkept <;> cases hkept
      exact .inl ⟨hlookup, Ne.symm hne⟩
  | set k token =>
    simp only [CsrfDesk.exec] at h
    rw [HashMap.lookup_insert_eq] at h
    split at h
    · subst key
      exact .inr (.inr ⟨token, rfl⟩)
    · rename_i hne
      exact .inl ⟨h, Ne.symm hne⟩

theorem lookup_tokens {door : Door} {key : String} {entry : CsrfEntry}
    (h : ((AppState.exec env op st).2.tokens door).lookup key = some entry) :
    (st.tokens door).lookup key = some entry ∧ ¬ op.Replaces door key ∨
      op = .csrf door (.write key entry.token entry.createdAt) ∨ ∃ token, op = .csrf door (.set key token) := by
  cases op with
  | csrf d o =>
    by_cases hd : d = door
    · subst hd
      have h : (CsrfDesk.exec o ((AppState.csrfPart d).get st)).2.tokens.lookup key = some entry := by
        cases d <;> exact h
      rcases lookup_csrfExec h with ⟨h, hkept⟩ | rfl | ⟨token, rfl⟩
      · exact .inl ⟨h, fun hr => hkept hr.2⟩
      · exact .inr (.inl rfl)
      · exact .inr (.inr ⟨token, rfl⟩)
    · refine .inl ⟨?_, fun hr => hd hr.1⟩
      cases d <;> cases door
      · exact absurd rfl hd
      · exact h
      · exact h
      · exact absurd rfl hd
  | limiter d o => cases d <;> cases door <;> exact .inl ⟨h, id⟩
  | world | sessions | procNetArp | ipNeigh | arpCommand | verifyPassword => cases door <;> exact .inl ⟨h, id⟩

theorem lookup_deskExec {d : Desk} {o : StoreOp} {sessionId : String} {data : SessionData}
    (h : (Desk.exec o d).2.store.sessions.lookup sessionId = some data) :
    d.store.sessions.lookup sessionId = some data ∧ o ≠ .remove sessionId ∨ o = .insert sessionId data := by
  cases o with
  | now | csrfToken => exact .inl ⟨h, nofun⟩
  | remove k =>
    obtain ⟨hne, h⟩ := lookup_erase h
    exact .inl ⟨h, fun he => hne (by cases he; rfl)⟩
  | insert k data' =>
    simp only [Desk.exec, AdminSessionStore.insert] at h
    rw [HashMap.lookup_insert_eq] at h
    split at h
    · cases h
      subst sessionId
      exact .inr rfl
    · exact .inl ⟨h, nofun⟩
  | validate k =>
    refine .inl ⟨?_, nofun⟩
    simp only [Desk.exec, AdminSessionStore.validate] at h
    split at h
    · split at h
      · exact h
      · exact (lookup_erase h).2
    · exact h

theorem lookup_sessions {sessionId : String} {data : SessionData}
    (h : (AppState.exec env op st).2.adminSessions.sessions.lookup sessionId = some data) :
    st.adminSessions.sessions.lookup sessionId = some data ∧ op ≠ .sessions (.remove sessionId) ∨
      op = .sessions (.insert sessionId data) := by
  cases op with
  | sessions o =>
    rcases lookup_deskExec (d := ⟨st.clock, st.adminSessions⟩) h with ⟨h, hne⟩ | rfl
    · exact .inl ⟨h, fun he => hne (by cases he; rfl)⟩
    · exact .inr rfl
  | limiter d o => cases d <;> exact .inl ⟨h, nofun⟩
  | csrf d o => cases d <;> exact .inl ⟨h, nofun⟩
  | world | procNetArp | ipNeigh | arpCommand | verifyPassword => exact .inl ⟨h, nofun⟩

/-- A form token is accepted when it is the stored one and not too old. -/
theorem stored_of_validate {door : Door} {key token : String}
    (h : (AppState.exec env (.csrf door (.validate key token)) st).1 = true) :
    ∃ entry, (st.tokens door).lookup key = some entry ∧ entry.token = token ∧
      st.clock - entry.createdAt ≤ csrfTokenTtl := by
  have h : ((st.tokens door).lookup key).any (PortalCsrfStore.accepts st.clock token) = true := by
    cases door <;> exact h
  obtain ⟨entry, hentry, hok⟩ := Option.any_eq_true _ _ |>.1 h
  unfold PortalCsrfStore.accepts at hok
  split at hok
  · cases hok
  · exact ⟨entry, hentry, by simpa using hok, by omega⟩

theorem live_of_validate {sessionId : String}
    (h : (AppState.exec env (.sessions (.validate sessionId)) st).1 = true) :
    ∃ data, st.adminSessions.sessions.lookup sessionId = some data ∧ st.clock < data.expiresAt := by
  have h : (st.adminSessions.validate st.clock sessionId).1 = true := h
  unfold AdminSessionStore.validate at h
  cases hdata : st.adminSessions.sessions.lookup sessionId with
  | none => simp [hdata] at h
  | some data =>
    simp only [hdata] at h
    split at h
    · exact ⟨data, rfl, ‹_›⟩
    · cases h

end Exec

/-! ### Runs -/

namespace Traced

/-- An accepted form token or session is one the state has. -/
theorem accepted_of_exec (h : Traced s) {env : Surroundings} (he : e.before = s.pool.shared)
    (hanswer : e.answer = (AppState.exec env e.op s.pool.shared).1) : Accepted e s.log := by
  obtain ⟨thread, tag, before, op, answer⟩ := e
  cases he
  constructor
  case form =>
    intro door key token hop
    cases hop
    obtain ⟨entry, hentry, rfl, hage⟩ := stored_of_validate hanswer.symm
    exact ⟨entry.createdAt, h.made door key entry hentry, hage⟩
  case session =>
    intro sessionId hop
    cases hop
    obtain ⟨data, hdata, hlive⟩ := live_of_validate hanswer.symm
    exact ⟨data, h.standing sessionId data hdata, hlive⟩
  case token =>
    intro sessionId token hop
    cases hop
    cases hdata : s.pool.shared.adminSessions.sessions.lookup sessionId with
    | none =>
      refine .inr ⟨rfl, hanswer.trans ?_⟩
      show s.pool.shared.adminSessions.csrfToken sessionId = ""
      unfold AdminSessionStore.csrfToken
      rw [hdata]
      rfl
    | some data =>
      refine .inl ⟨data, h.standing sessionId data hdata, (hanswer.trans ?_).symm⟩
      show s.pool.shared.adminSessions.csrfToken sessionId = data.csrfToken
      unfold AdminSessionStore.csrfToken
      rw [hdata]
      rfl

theorem step {l : FrontTurn c} (h : Traced s) (hs : (frontDesk c).step s l = some s') : Traced s' := by
  have follows := h.follows.step possible_exec keeps_program hs
  rcases Workshop.step_cases hs with ⟨k, rfl, rfl⟩ | ⟨i, env, k, op, next, rfl, ht, rfl⟩ | ⟨m, rfl, rfl⟩
  · exact ⟨follows, h.made, h.standing, h.accepted⟩
  · have hguard : deskGuard c k (pastOf i s.log) op := follows.kept.1
    refine ⟨follows, fun door key entry hentry => ?_, fun sessionId data hdata => ?_, ?_, h.accepted⟩
    · rcases lookup_tokens hentry with ⟨hentry, hkept⟩ | rfl | ⟨token, rfl⟩
      · exact (h.made door key entry hentry).cons hkept
      · exact ⟨[], _, s.log, rfl, rfl, fun x hx => by cases hx⟩
      · exact absurd hguard (not_set k _ door key token)
    · rcases lookup_sessions hdata with ⟨hdata, hne⟩ | rfl
      · exact (h.standing sessionId data hdata).cons hne
      · exact ⟨[], _, s.log, rfl, rfl, fun x hx => by cases hx⟩
    · exact h.accepted_of_exec (e := ⟨i, k, s.pool.shared, op, _⟩) rfl rfl
  · refine ⟨follows, fun door key entry hentry => ?_, fun sessionId data hdata => ?_, h.accepted⟩
    · exact h.made door key entry (by cases m <;> cases door <;> exact hentry)
    · exact h.standing sessionId data (by cases m <;> exact hdata)

end Traced

theorem traced_of_reach {ok : FrontJournal c → FrontTurn c → Prop} (h : Reach (frontRuns c) ok s) : Traced s := by
  apply h.invariant
  · rintro s ⟨⟨clock, world, hstate⟩, hthreads, hlog⟩
    have start : Reach (frontRuns c) ok s := .start ⟨⟨clock, world, hstate⟩, hthreads, hlog⟩
    refine ⟨Workshop.follows_of_reach possible_exec keeps_program start, fun door key entry hentry => ?_,
      fun sessionId data hdata => ?_, hlog ▸ trivial⟩
    · rw [hstate] at hentry
      cases door <;> cases hentry
    · rw [hstate] at hdata
      cases hdata
  · exact fun s l s' hi _ hs => hi.step hs

end Didicafe
