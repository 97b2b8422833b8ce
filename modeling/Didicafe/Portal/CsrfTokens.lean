/-
CSRF tokens among overlapping calls. A submitted token is accepted once, within its lifetime, and for the key it was
stored for last. Two page loads can both miss in their check and both store a token; the page of the first one is then
rejected.
-/
import Didicafe.Lib.Runs
import Didicafe.Model.PortalCsrf

namespace Didicafe

open Effect Runs

/-- What the locked sections have done, each with the key it was for. -/
inductive CsrfEvent where
  | stored (key token : String) (createdAt : Nat)
  | returned (key token : String) (createdAt : Nat)
  | validated (key submitted : String) (clock : Nat) (ok : Bool)

abbrev CsrfThread := Thread CsrfCall CsrfOp CsrfOp.Out CsrfAnswer

/-- The calls under way, and the events so far, the last one first. -/
structure CsrfRun where
  pool : Pool CsrfCall CsrfOp CsrfOp.Out CsrfAnswer CsrfDesk
  log : List CsrfEvent

inductive CsrfLabel where
  | call (c : CsrfCall)
  | advance (i : Nat)
  | elapse (nanos : Nat)

/-- The event of an operation. -/
def CsrfOp.events (d : CsrfDesk) : CsrfOp → List CsrfEvent
  | .now => []
  | .read key => ((d.tokens.live d.clock key).map fun e => .returned key e.token e.createdAt).toList
  | .write key token instant => [.stored key token instant]
  | .set key token => [.stored key token d.clock]
  | .validate key submitted => [.validated key submitted d.clock (CsrfDesk.exec (.validate key submitted) d).1]

/-- The key whose entry an operation replaces or removes. -/
def CsrfOp.target : CsrfOp → Option String
  | .now | .read _ => none
  | .write key _ _ | .set key _ | .validate key _ => some key

/-- The key an operation stores a token for. -/
def CsrfOp.stores : CsrfOp → Option String
  | .now | .read _ | .validate .. => none
  | .write key _ _ | .set key _ => some key

namespace CsrfRun

def desk (s : CsrfRun) : CsrfDesk := s.pool.shared

/-- The events of the next operation of call `i`. -/
def note (s : CsrfRun) (i : Nat) : List CsrfEvent :=
  match s.pool.pending i with
  | some (_, op) => op.events s.desk
  | none => []

def step (lower : String → String) (s : CsrfRun) : CsrfLabel → Option CsrfRun
  | .call c => some { s with pool := s.pool.spawn ⟨c, c.program lower⟩ }
  | .advance i => (s.pool.advance CsrfDesk.exec i).map fun pool => ⟨pool, s.note i ++ s.log⟩
  | .elapse nanos => some { s with pool := { s.pool with shared := { s.desk with clock := s.desk.clock + nanos } } }

end CsrfRun

variable {lower : String → String} {s s' : CsrfRun} {log : List CsrfEvent} {key : String}

/-- The calls that store a fresh token for the key, or take the one there is. -/
def CsrfCall.direct : CsrfCall → Bool
  | .generate .. | .validate .. => true
  | .getOrGenerate .. | .set .. => false

/-- A token of the key was handed out, with the instant its lifetime starts at. -/
def Handed (log : List CsrfEvent) (key token : String) (createdAt : Nat) : Prop :=
  .stored key token createdAt ∈ log ∨ .returned key token createdAt ∈ log

theorem Handed.mono {token : String} {createdAt : Nat} (h : Handed log key token createdAt) (events : List CsrfEvent) :
    Handed (events ++ log) key token createdAt :=
  h.imp (List.mem_append_right _) (List.mem_append_right _)

/-! ## What a call still has to do -/

/-- The locked section of `generate`. -/
def csrfWrite (lower : String → String) (mac : String) (draws : Nat → Fin sessionCharset.length) (now : Nat) :
    CsrfProg :=
  .call (.write (lower mac) (generateSessionToken 32 draws) now) fun _ =>
    .done (.token (generateSessionToken 32 draws))

/-- Where a call stands. A reading of the clock is not later than the clock. -/
inductive CsrfStage (lower : String → String) (clock : Nat) (log : List CsrfEvent) : CsrfThread → Prop where
  | start {c : CsrfCall} {p : CsrfProg} (hp : p = c.program lower) : CsrfStage lower clock log ⟨c, p⟩
  | slow {mac : String} {draws : Nat → Fin sessionCharset.length} {p : CsrfProg}
      (hp : p = csrfGenerate lower mac draws) : CsrfStage lower clock log ⟨.getOrGenerate mac draws, p⟩
  | write {c : CsrfCall} {mac : String} {draws : Nat → Fin sessionCharset.length} {now : Nat} {p : CsrfProg}
      (hc : c = .getOrGenerate mac draws ∨ c = .generate mac draws) (hn : now ≤ clock)
      (hp : p = csrfWrite lower mac draws now) : CsrfStage lower clock log ⟨c, p⟩
  | token {c : CsrfCall} {token : String} {createdAt : Nat} (h : Handed log (c.key lower) token createdAt) :
      CsrfStage lower clock log ⟨c, .done (.token token)⟩
  | set (mac token : String) : CsrfStage lower clock log ⟨.set mac token, .done .done⟩
  | valid {mac submitted : String} {clock' : Nat} {ok : Bool}
      (h : .validated (lower mac) submitted clock' ok ∈ log) :
      CsrfStage lower clock log ⟨.validate mac submitted, .done (.valid ok)⟩

theorem CsrfStage.mono {clock clock' : Nat} {t : CsrfThread} (h : CsrfStage lower clock log t) (hc : clock ≤ clock')
    (events : List CsrfEvent) : CsrfStage lower clock' (events ++ log) t := by
  cases h with
  | start hp => exact .start hp
  | slow hp => exact .slow hp
  | write hd hn hp => exact .write hd (le_trans hn hc) hp
  | token h => exact .token (h.mono events)
  | set mac token => exact .set mac token
  | valid h => exact .valid (List.mem_append_right _ h)

/-- A call goes on to its next point, and what it hands out is noted. -/
theorem CsrfStage.advance {d : CsrfDesk} {c : CsrfCall} {op : CsrfOp} {next : op.Out → CsrfProg}
    (h : CsrfStage lower d.clock log ⟨c, .call op next⟩) :
    CsrfStage lower d.clock (op.events d ++ log) ⟨c, next (CsrfDesk.exec op d).1⟩ := by
  cases h with
  | start hp =>
    cases c with
    | getOrGenerate mac draws =>
      cases hp
      simp only [CsrfOp.events, CsrfDesk.exec]
      cases d.tokens.live d.clock (lower mac) with
      | none => exact .slow rfl
      | some e => exact .token (.inr (.head _))
    | generate mac draws =>
      cases hp
      exact .write (.inr rfl) le_rfl rfl
    | set mac token =>
      cases hp
      exact .set mac token
    | validate mac submitted =>
      cases hp
      exact .valid (.head _)
  | slow hp =>
    cases hp
    exact .write (.inl rfl) le_rfl rfl
  | write hc hn hp =>
    cases hp
    rcases hc with rfl | rfl
    · exact .token (.inl (.head _))
    · exact .token (.inl (.head _))

/-- A call writes for its own key. -/
theorem CsrfStage.target_key {clock : Nat} {c : CsrfCall} {op : CsrfOp} {next : op.Out → CsrfProg}
    (h : CsrfStage lower clock log ⟨c, .call op next⟩) (hop : op.target = some key) : c.key lower = key := by
  cases h with
  | start hp =>
    cases c with
    | getOrGenerate | generate =>
      cases hp
      cases hop
    | set | validate =>
      cases hp
      exact Option.some.inj hop
  | slow hp =>
    cases hp
    cases hop
  | write hc hn hp =>
    cases hp
    rcases hc with rfl | rfl <;> exact Option.some.inj hop

theorem CsrfStage.write_le {clock : Nat} {c : CsrfCall} {op : CsrfOp} {next : op.Out → CsrfProg}
    (h : CsrfStage lower clock log ⟨c, .call op next⟩) (k token : String) (now : Nat) (hop : op = .write k token now) :
    now ≤ clock := by
  subst hop
  cases h with
  | start hp => cases c <;> cases hp
  | slow hp => cases hp
  | write hc hn hp =>
    cases hp
    exact hn

/-- A call that does not validate writes by storing. -/
theorem CsrfStage.stores_of_target {clock : Nat} {c : CsrfCall} {op : CsrfOp} {next : op.Out → CsrfProg}
    (h : CsrfStage lower clock log ⟨c, .call op next⟩) (hc : ¬ c.direct) (hop : op.target = some key) :
    op.stores = some key := by
  cases op with
  | now | read => cases hop
  | write | set => exact hop
  | validate =>
    cases h with
    | start hp =>
      cases c with
      | validate => exact absurd rfl hc
      | getOrGenerate | generate | set => cases hp
    | slow hp => cases hp
    | write _ _ hp => cases hp

/-- Every call is at one of its points. -/
def Staged (lower : String → String) (s : CsrfRun) : Prop :=
  ∀ t ∈ s.pool.threads, CsrfStage lower s.desk.clock s.log t

/-- No operation turns the clock. -/
theorem CsrfDesk.exec_clock (op : CsrfOp) (d : CsrfDesk) : (CsrfDesk.exec op d).2.clock = d.clock := by
  cases op <;> rfl

/-- What one step of the run does. -/
theorem CsrfRun.step_cases {l : CsrfLabel} (hs : s.step lower l = some s') :
    (∃ c, l = .call c ∧ s' = { s with pool := s.pool.spawn ⟨c, c.program lower⟩ }) ∨
    (∃ nanos, l = .elapse nanos ∧
      s' = { s with pool := { s.pool with shared := { s.desk with clock := s.desk.clock + nanos } } }) ∨
    ∃ i c op next, l = .advance i ∧ s.pool.threads[i]? = some ⟨c, .call op next⟩ ∧ s.pool.pending i = some (c, op) ∧
      s' = ⟨⟨(CsrfDesk.exec op s.desk).2, s.pool.threads.set i ⟨c, next (CsrfDesk.exec op s.desk).1⟩⟩,
        op.events s.desk ++ s.log⟩ := by
  cases l with
  | call c =>
    cases hs
    exact .inl ⟨c, rfl, rfl⟩
  | elapse nanos =>
    cases hs
    exact .inr (.inl ⟨nanos, rfl, rfl⟩)
  | advance i =>
    obtain ⟨pool, hadv, rfl⟩ := Option.map_eq_some_iff.1 hs
    obtain ⟨c, op, next, hi, hp, rfl⟩ := Pool.advance_call hadv
    refine .inr (.inr ⟨i, c, op, next, rfl, hi, hp, ?_⟩)
    rw [CsrfRun.note, hp]
    rfl

theorem Staged.step {l : CsrfLabel} (h : Staged lower s) (hs : s.step lower l = some s') : Staged lower s' := by
  rcases CsrfRun.step_cases hs with ⟨c, -, rfl⟩ | ⟨nanos, -, rfl⟩ | ⟨i, c, op, next, -, hi, -, rfl⟩
  · intro t ht
    rcases List.mem_append.1 ht with ht | ht
    · exact h t ht
    · rw [List.mem_singleton.1 ht]
      exact .start rfl
  · exact fun t ht => (h t ht).mono (Nat.le_add_right ..) []
  · intro t ht
    show CsrfStage lower (CsrfDesk.exec op s.desk).2.clock _ _
    rw [CsrfDesk.exec_clock]
    rcases List.mem_or_eq_of_mem_set ht with ht | rfl
    · exact (h t ht).mono le_rfl _
    · exact (h _ (List.mem_of_getElem? hi)).advance

/-! ## Single use -/

/-- The entry stored last for the key, unless a submission for the key has been validated since. -/
def outstanding (key : String) : List CsrfEvent → Option CsrfEntry
  | [] => none
  | .stored k token createdAt :: log => if k = key then some ⟨token, createdAt⟩ else outstanding key log
  | .returned .. :: log => outstanding key log
  | .validated k .. :: log => if k = key then none else outstanding key log

/-- A submission is accepted when the outstanding token of its key is the one submitted and younger than the lifetime,
and only when it is and is no older than the lifetime. -/
def CsrfEvent.OneTime (before : List CsrfEvent) : CsrfEvent → Prop
  | .validated key submitted clock ok =>
    (ok = true → ∃ e, outstanding key before = some e ∧ e.token = submitted ∧ clock - e.createdAt ≤ csrfTokenTtl) ∧
    ∀ e, outstanding key before = some e → e.token = submitted → clock - e.createdAt < csrfTokenTtl → ok = true
  | .stored .. | .returned .. => True

/-- The same of all submissions so far; the token that a call returned was handed out, and the answer of `validate` is
the one that was noted. -/
structure OneTime (lower : String → String) (s : CsrfRun) : Prop where
  events : ∀ after before event, s.log = after ++ event :: before → event.OneTime before
  returned : ∀ c token, ⟨c, .done (.token token)⟩ ∈ s.pool.threads →
    ∃ createdAt, Handed s.log (c.key lower) token createdAt
  answered : ∀ mac submitted ok, ⟨.validate mac submitted, .done (.valid ok)⟩ ∈ s.pool.threads →
    ∃ clock, .validated (lower mac) submitted clock ok ∈ s.log

/-- The store holds outstanding entries, and all of them that are younger than the lifetime. -/
structure Books (lower : String → String) (s : CsrfRun) : Prop where
  staged : Staged lower s
  held : ∀ key e, s.desk.tokens.lookup key = some e → outstanding key s.log = some e
  kept : ∀ key e, outstanding key s.log = some e → s.desk.clock - e.createdAt < csrfTokenTtl →
    s.desk.tokens.lookup key = some e
  events : ∀ after before event, s.log = after ++ event :: before → event.OneTime before

/-- One event more. -/
theorem events_cons {P : List CsrfEvent → CsrfEvent → Prop} {event : CsrfEvent}
    (h : ∀ after before event, log = after ++ event :: before → P before event) (he : P log event) :
    ∀ after before event', event :: log = after ++ event' :: before → P before event' := by
  intro after before event' heq
  cases after with
  | nil =>
    cases heq
    exact he
  | cons a after =>
    cases heq
    exact h after before event' rfl

/-- The entry of a key after the locked section of `generate`. -/
theorem PortalCsrfStore.lookup_put (m : PortalCsrfStore) (k token : String) (now : Nat) (key : String) :
    (m.put k token now).lookup key =
      if key = k then some ⟨token, now⟩ else (m.lookup key).filter fun e => now - e.createdAt < csrfTokenTtl := by
  unfold PortalCsrfStore.put
  rw [HashMap.lookup_insert_eq, HashMap.lookup_retain]
  congr 1
  cases m.lookup key with
  | none => rfl
  | some e => simp [Option.filter]

section Exec

variable {d : CsrfDesk} {op : CsrfOp} {e : CsrfEntry}

/-! Operations on other keys leave the entry of a key, unless it has expired. -/

theorem outstanding_of_ne (d : CsrfDesk) (log : List CsrfEvent) (h : op.target ≠ some key) :
    outstanding key (op.events d ++ log) = outstanding key log := by
  cases op with
  | now => rfl
  | read k =>
    simp only [CsrfOp.events]
    cases d.tokens.live d.clock k with
    | none => rfl
    | some e => rfl
  | write k | set k | validate k => exact if_neg fun hk => h (congrArg some hk)

theorem lookup_of_ne (h : op.target ≠ some key) (he : (CsrfDesk.exec op d).2.tokens.lookup key = some e) :
    d.tokens.lookup key = some e := by
  cases op with
  | now | read => exact he
  | write k token now =>
    have he := (PortalCsrfStore.lookup_put ..).symm.trans he
    rw [if_neg fun hk => h (congrArg some hk.symm)] at he
    exact (Option.filter_eq_some_iff.1 he).1
  | set k token => exact (AList.lookup_insert_ne fun hk => h (congrArg some hk.symm)).symm.trans he
  | validate k submitted => exact (AList.lookup_erase_ne fun hk => h (congrArg some hk.symm)).symm.trans he

/-- The pruning of a `generate` removes only what has expired by the clock it has read. -/
theorem lookup_keep (h : op.target ≠ some key) (hn : ∀ k token now, op = .write k token now → now ≤ d.clock)
    (he : d.tokens.lookup key = some e) (hage : d.clock - e.createdAt < csrfTokenTtl) :
    (CsrfDesk.exec op d).2.tokens.lookup key = some e := by
  cases op with
  | now | read => exact he
  | write k token now =>
    have hle := hn k token now rfl
    refine (PortalCsrfStore.lookup_put ..).trans ?_
    rw [if_neg fun hk => h (congrArg some hk.symm), Option.filter_eq_some_iff]
    exact ⟨he, decide_eq_true (by omega)⟩
  | set k token => exact (AList.lookup_insert_ne fun hk => h (congrArg some hk.symm)).trans he
  | validate k submitted => exact (AList.lookup_erase_ne fun hk => h (congrArg some hk.symm)).trans he

/-- What an operation on the key leaves is what is outstanding after it. -/
theorem lookup_target (log : List CsrfEvent) (h : op.target = some key) :
    (CsrfDesk.exec op d).2.tokens.lookup key = outstanding key (op.events d ++ log) := by
  cases op with
  | now | read => cases h
  | write k token now =>
    cases h
    exact (PortalCsrfStore.lookup_put ..).trans ((if_pos rfl).trans (if_pos rfl).symm)
  | set k token =>
    cases h
    exact (AList.lookup_insert _).trans (if_pos rfl).symm
  | validate k submitted =>
    cases h
    exact (AList.lookup_erase _ _).trans (if_pos rfl).symm

theorem held_exec (h : ∀ key e, d.tokens.lookup key = some e → outstanding key log = some e)
    (he : (CsrfDesk.exec op d).2.tokens.lookup key = some e) : outstanding key (op.events d ++ log) = some e := by
  by_cases ht : op.target = some key
  · rwa [← lookup_target log ht]
  · rw [outstanding_of_ne d log ht]
    exact h key e (lookup_of_ne ht he)

theorem kept_exec
    (h : ∀ key e, outstanding key log = some e → d.clock - e.createdAt < csrfTokenTtl → d.tokens.lookup key = some e)
    (hn : ∀ k token now, op = .write k token now → now ≤ d.clock)
    (ho : outstanding key (op.events d ++ log) = some e) (hage : d.clock - e.createdAt < csrfTokenTtl) :
    (CsrfDesk.exec op d).2.tokens.lookup key = some e := by
  by_cases ht : op.target = some key
  · rwa [lookup_target log ht]
  · rw [outstanding_of_ne d log ht] at ho
    exact lookup_keep ht hn (h key e ho hage) hage

theorem PortalCsrfStore.accepts_iff {clock : Nat} {submitted : String} :
    PortalCsrfStore.accepts clock submitted e = true ↔ clock - e.createdAt ≤ csrfTokenTtl ∧ e.token = submitted := by
  unfold PortalCsrfStore.accepts
  split
  · exact iff_of_false nofun (by omega)
  · rw [beq_iff_eq, and_iff_right (by omega)]

/-- A submission meets the store with its outstanding entry, or with none where that entry has expired. -/
theorem oneTime_validate (hheld : ∀ key e, d.tokens.lookup key = some e → outstanding key log = some e)
    (hkept : ∀ key e, outstanding key log = some e → d.clock - e.createdAt < csrfTokenTtl →
      d.tokens.lookup key = some e) (key submitted : String) :
    CsrfEvent.OneTime log
      (.validated key submitted d.clock (CsrfDesk.exec (.validate key submitted) d).1) := by
  constructor
  · intro hok
    obtain ⟨e, he, hacc⟩ := (Option.any_eq_true _ _).1 hok
    obtain ⟨hage, htok⟩ := PortalCsrfStore.accepts_iff.1 hacc
    exact ⟨e, hheld key e he, htok, hage⟩
  · intro e he htok hage
    refine (Option.any_eq_true _ _).2 ⟨e, hkept key e he hage, ?_⟩
    exact PortalCsrfStore.accepts_iff.2 ⟨le_of_lt hage, htok⟩

end Exec

namespace Books

theorem advance {i : Nat} {c : CsrfCall} {op : CsrfOp} {next : op.Out → CsrfProg} (h : Books lower s)
    (hi : s.pool.threads[i]? = some ⟨c, .call op next⟩) :
    ∀ after before event, op.events s.desk ++ s.log = after ++ event :: before → event.OneTime before := by
  cases op with
  | now => exact h.events
  | read k =>
    simp only [CsrfOp.events]
    cases s.desk.tokens.live s.desk.clock k with
    | none => exact h.events
    | some e => exact events_cons h.events trivial
  | write k token now => exact events_cons h.events trivial
  | set k token => exact events_cons h.events trivial
  | validate k submitted => exact events_cons h.events (oneTime_validate h.held h.kept k submitted)

theorem step {l : CsrfLabel} (h : Books lower s) (hs : s.step lower l = some s') : Books lower s' := by
  have staged := h.staged.step hs
  rcases CsrfRun.step_cases hs with ⟨c, -, rfl⟩ | ⟨nanos, -, rfl⟩ | ⟨i, c, op, next, -, hi, -, rfl⟩
  · exact ⟨staged, h.held, h.kept, h.events⟩
  · refine ⟨staged, h.held, fun key e ho hage => h.kept key e ho ?_, h.events⟩
    have hage : s.desk.clock + nanos - e.createdAt < csrfTokenTtl := hage
    omega
  · have hn := (h.staged _ (List.mem_of_getElem? hi)).write_le
    refine ⟨staged, fun key e => held_exec h.held, fun key e ho hage => kept_exec h.kept hn ho ?_, h.advance hi⟩
    have hage : (CsrfDesk.exec op s.desk).2.clock - e.createdAt < csrfTokenTtl := hage
    rwa [CsrfDesk.exec_clock] at hage

end Books

/-- A token that a call has returned was handed out. -/
theorem Staged.returned {c : CsrfCall} {token : String} (h : Staged lower s)
    (ht : ⟨c, .done (.token token)⟩ ∈ s.pool.threads) : ∃ createdAt, Handed s.log (c.key lower) token createdAt := by
  cases h _ ht with
  | start hp => cases c <;> cases hp
  | slow hp => cases hp
  | write _ _ hp => cases hp
  | token h => exact ⟨_, h⟩

/-- The store after a start of the daemon, at any time. -/
def csrfCalls (lower : String → String) : Machine CsrfRun CsrfLabel where
  init s := ∃ clock, s = ⟨⟨⟨clock, ∅⟩, []⟩, []⟩
  step := CsrfRun.step lower

/-- In every run, a token is accepted only for its key, within its lifetime, as the last one stored and for the first
submission since; and then it is accepted, whatever was done for other keys. -/
theorem oneTime_of_reach (h : Reach (csrfCalls lower) Free s) : OneTime lower s := by
  have books : Books lower s := by
    apply h.invariant (I := Books lower)
    · rintro s ⟨clock, rfl⟩
      refine ⟨nofun, nofun, nofun, ?_⟩
      intro after before event hlog
      cases after <;> cases hlog
    · exact fun _ _ _ hi _ hs => hi.step hs
  refine ⟨books.events, fun c token ht => books.staged.returned ht, fun mac submitted ok ht => ?_⟩
  cases books.staged _ ht with
  | start hp => cases hp
  | write _ _ hp => cases hp
  | valid h => exact ⟨_, h⟩

/-- The lower-casing of letters in ASCII, which is all a MAC address has. -/
def asciiLower (s : String) : String := .ofList (s.toList.map Char.toLower)

def CsrfRun.idle : CsrfRun := ⟨⟨⟨0, ∅⟩, []⟩, []⟩

theorem one_lt_charset : 1 < sessionCharset.length := by decide

theorem charset_pos : 0 < sessionCharset.length := Nat.zero_lt_of_lt one_lt_charset

def constantDraws (j : Fin sessionCharset.length) : Nat → Fin sessionCharset.length := fun _ => j

/-- A token is generated for a MAC address in capitals and submitted in small letters, twice. -/
def submittedTwice : List CsrfLabel :=
  let token := generateSessionToken 32 (constantDraws ⟨0, charset_pos⟩)
  [.call (.generate "02:00:00:00:00:0A" (constantDraws ⟨0, charset_pos⟩)), .advance 0, .advance 0,
    .call (.validate "02:00:00:00:00:0a" token), .advance 1, .call (.validate "02:00:00:00:00:0a" token), .advance 2]

theorem oneTime_submittedTwice :
    OneTime asciiLower (((csrfCalls asciiLower).trace .idle submittedTwice).get rfl) :=
  oneTime_of_reach (Machine.reach_trace (.start ⟨0, rfl⟩) (Option.some_get _).symm)

/-! ## Page loads -/

/-- A step among page loads of the key: no other call for it generates or validates. -/
def CsrfRun.loadStep (lower : String → String) (key : String) (s : CsrfRun) : CsrfLabel → Option CsrfRun
  | .call c => if c.key lower = key ∧ c.direct then none else s.step lower (.call c)
  | l => s.step lower l

/-- Any store, at any time, and no call under way. -/
def pageLoads (lower : String → String) (key : String) : Machine CsrfRun CsrfLabel where
  init s := ∃ desk, s = ⟨⟨desk, []⟩, []⟩
  step := CsrfRun.loadStep lower key

/-- The token that a call for the key has returned was handed out for the key, and a token within its lifetime that was
handed out for the key is the only one and passes `validate`. -/
structure SameToken (lower : String → String) (key : String) (s : CsrfRun) : Prop where
  returned : ∀ c token, ⟨c, .done (.token token)⟩ ∈ s.pool.threads → c.key lower = key →
    ∃ createdAt, Handed s.log key token createdAt
  same : ∀ token createdAt token' createdAt', Handed s.log key token createdAt → Handed s.log key token' createdAt' →
    s.desk.clock - createdAt < csrfTokenTtl → s.desk.clock - createdAt' < csrfTokenTtl → token = token'
  valid : ∀ token createdAt, Handed s.log key token createdAt → s.desk.clock - createdAt < csrfTokenTtl →
    (CsrfDesk.exec (.validate key token) s.desk).1 = true

/-- A token for the key is stored only when there is none within its lifetime. -/
def StoresFresh (key : String) (s : CsrfRun) : CsrfLabel → Prop
  | .advance i => ∀ c op, s.pool.pending i = some (c, op) → op.stores = some key →
    s.desk.tokens.live s.desk.clock key = none
  | .call _ | .elapse _ => True

/-- No call for the key generates or validates, and all handed out tokens of the key that are within their lifetime are
the one in the store. -/
structure Agreed (lower : String → String) (key : String) (s : CsrfRun) : Prop where
  staged : Staged lower s
  loads : ∀ t ∈ s.pool.threads, t.tag.key lower = key → ¬ t.tag.direct
  held : ∀ token createdAt, Handed s.log key token createdAt → s.desk.clock - createdAt < csrfTokenTtl →
    s.desk.tokens.lookup key = some ⟨token, createdAt⟩

theorem live_eq_some {clock : Nat} {m : PortalCsrfStore} {e : CsrfEntry} :
    m.live clock key = some e ↔ m.lookup key = some e ∧ clock - e.createdAt < csrfTokenTtl := by
  unfold PortalCsrfStore.live
  rw [Option.filter_eq_some_iff, decide_eq_true_iff]

theorem live_eq_none {clock : Nat} {m : PortalCsrfStore} :
    m.live clock key = none ↔ ∀ e, m.lookup key = some e → ¬ clock - e.createdAt < csrfTokenTtl := by
  rw [Option.eq_none_iff_forall_ne_some]
  constructor
  · exact fun h e he hage => h e (live_eq_some.2 ⟨he, hage⟩)
  · intro h e he
    obtain ⟨he, hage⟩ := live_eq_some.1 he
    exact h e he hage

/-- What an operation hands out for the key. -/
theorem Handed.new {d : CsrfDesk} {op : CsrfOp} {token : String} {createdAt : Nat}
    (h : Handed (op.events d ++ log) key token createdAt) :
    Handed log key token createdAt ∨
    (op = .read key ∧ d.tokens.live d.clock key = some ⟨token, createdAt⟩) ∨
    op = .write key token createdAt ∨ op = .set key token ∧ createdAt = d.clock := by
  unfold Handed at h
  simp only [List.mem_append] at h
  rcases h with (h | h) | h | h
  · cases op with
    | now => cases h
    | read k =>
      obtain ⟨e, -, heq⟩ := Option.map_eq_some_iff.1 (Option.mem_toList.1 h)
      cases heq
    | write k token now =>
      cases List.mem_singleton.1 h
      exact .inr (.inr (.inl rfl))
    | set k token =>
      cases List.mem_singleton.1 h
      exact .inr (.inr (.inr ⟨rfl, rfl⟩))
    | validate k submitted => cases List.mem_singleton.1 h
  · exact .inl (.inl h)
  · cases op with
    | now => cases h
    | read k =>
      obtain ⟨e, he, heq⟩ := Option.map_eq_some_iff.1 (Option.mem_toList.1 h)
      cases heq
      exact .inr (.inl ⟨rfl, he⟩)
    | write | set | validate => cases List.mem_singleton.1 h
  · exact .inl (.inr h)

namespace Agreed

variable {i : Nat} {c : CsrfCall} {op : CsrfOp} {next : op.Out → CsrfProg}

/-- The tokens handed out after an operation. -/
theorem held_advance (h : Agreed lower key s) (hi : s.pool.threads[i]? = some ⟨c, .call op next⟩)
    (hok : op.stores = some key → s.desk.tokens.live s.desk.clock key = none) {token : String} {createdAt : Nat}
    (hh : Handed (op.events s.desk ++ s.log) key token createdAt) (hage : s.desk.clock - createdAt < csrfTokenTtl) :
    (CsrfDesk.exec op s.desk).2.tokens.lookup key = some ⟨token, createdAt⟩ := by
  have stage := h.staged _ (List.mem_of_getElem? hi)
  rcases hh.new with hh | ⟨rfl, hlive⟩ | rfl | ⟨rfl, rfl⟩
  · have held := h.held token createdAt hh hage
    refine lookup_keep (fun htarget => ?_) stage.write_le held hage
    have hdirect := h.loads _ (List.mem_of_getElem? hi) (stage.target_key htarget)
    exact absurd hage (live_eq_none.1 (hok (stage.stores_of_target hdirect htarget)) _ held)
  · exact (live_eq_some.1 hlive).1
  · exact (PortalCsrfStore.lookup_put ..).trans (if_pos rfl)
  · exact AList.lookup_insert _

theorem step {l : CsrfLabel} (h : Agreed lower key s) (hok : StoresFresh key s l)
    (hs : s.loadStep lower key l = some s') : Agreed lower key s' := by
  have hstep : s.step lower l = some s' := by
    cases l with
    | call c => exact (Option.ite_none_left_eq_some.1 hs).2
    | advance | elapse => exact hs
  have staged := h.staged.step hstep
  rcases CsrfRun.step_cases hstep with ⟨c, rfl, rfl⟩ | ⟨nanos, -, rfl⟩ | ⟨i, c, op, next, rfl, hi, hp, rfl⟩
  · refine ⟨staged, fun t ht hk hdirect => ?_, h.held⟩
    rcases List.mem_append.1 ht with ht | ht
    · exact h.loads t ht hk hdirect
    · rw [List.mem_singleton.1 ht] at hk hdirect
      exact (Option.ite_none_left_eq_some.1 hs).1 ⟨hk, hdirect⟩
  · refine ⟨staged, h.loads, fun token createdAt hh hage => h.held token createdAt hh ?_⟩
    have hage : s.desk.clock + nanos - createdAt < csrfTokenTtl := hage
    omega
  · refine ⟨staged, fun t ht => ?_, fun token createdAt hh hage => ?_⟩
    · rcases List.mem_or_eq_of_mem_set ht with ht | rfl
      · exact h.loads t ht
      · exact h.loads ⟨c, .call op next⟩ (List.mem_of_getElem? hi)
    · have hage : (CsrfDesk.exec op s.desk).2.clock - createdAt < csrfTokenTtl := hage
      rw [CsrfDesk.exec_clock] at hage
      exact h.held_advance hi (hok c op hp) hh hage

/-- What is agreed on is what `validate` compares with. -/
theorem sameToken (h : Agreed lower key s) : SameToken lower key s := by
  constructor
  case returned =>
    rintro c token ht rfl
    exact h.staged.returned ht
  case same =>
    intro token createdAt token' createdAt' hh hh' hage hage'
    have heq := (h.held token createdAt hh hage).symm.trans (h.held token' createdAt' hh' hage')
    cases heq
    rfl
  case valid =>
    intro token createdAt hh hage
    refine (Option.any_eq_true _ _).2 ⟨_, h.held token createdAt hh hage, ?_⟩
    exact PortalCsrfStore.accepts_iff.2 ⟨le_of_lt hage, rfl⟩

end Agreed

/-- In every run of page loads that store a token only when there is none within its lifetime, all loads within the
lifetime of a token return the same one, and `validate` accepts it. -/
theorem sameToken_of_storesFresh (h : Reach (pageLoads lower key) (StoresFresh key) s) :
    SameToken lower key s := by
  have agreed : Agreed lower key s := by
    apply h.invariant (I := Agreed lower key)
    · rintro s ⟨desk, rfl⟩
      exact ⟨nofun, nofun, fun _ _ hh => hh.elim nofun nofun⟩
    · exact fun _ _ _ hi hok hs => hi.step hok hs
  exact agreed.sameToken

def phone : String := "02:00:00:00:00:0a"

def pageLoad (j : Fin sessionCharset.length) : CsrfLabel := .call (.getOrGenerate phone (constantDraws j))

/-- The second page is loaded after the token of the first one was stored. -/
theorem sameToken_backToBack : ∃ s, SameToken asciiLower phone s ∧ s.log.length = 2 := by
  have hok : StoresFresh phone .idle (pageLoad ⟨0, charset_pos⟩) := trivial
  have called := Reach.step (M := pageLoads asciiLower phone) (.start ⟨_, rfl⟩) hok rfl
  have checked := called.step (l := .advance 0) (by rintro _ _ ⟨⟩ ⟨⟩) rfl
  have timed := checked.step (l := .advance 0) (by rintro _ _ ⟨⟩ ⟨⟩) rfl
  have stored := timed.step (l := .advance 0) (by intro _ _ _ _; rfl) rfl
  have again := stored.step (l := pageLoad ⟨1, one_lt_charset⟩) trivial rfl
  have found := again.step (l := .advance 1) (by rintro _ _ ⟨⟩ ⟨⟩) rfl
  exact ⟨_, sameToken_of_storesFresh found, rfl⟩

/-- Both checks find no token, and then both loads store one. -/
def bothMiss : List CsrfLabel :=
  [pageLoad ⟨0, charset_pos⟩, pageLoad ⟨1, one_lt_charset⟩, .advance 0, .advance 1, .advance 0, .advance 0, .advance 1,
    .advance 1]

theorem bothMiss_differ : ¬ ∀ s, Reach (pageLoads asciiLower phone) Free s → SameToken asciiLower phone s := by
  refine Machine.refute bothMiss (M := pageLoads asciiLower phone) (s := .idle) ⟨_, rfl⟩ rfl fun hb => ?_
  have heq := hb.same (generateSessionToken 32 (constantDraws ⟨0, charset_pos⟩)) 0
    (generateSessionToken 32 (constantDraws ⟨1, one_lt_charset⟩)) 0 (.inl (.tail _ (.head _))) (.inl (.head _))
    (by decide) (by decide)
  exact absurd heq (by decide)

end Didicafe
