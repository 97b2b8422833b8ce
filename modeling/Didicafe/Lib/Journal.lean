/-
Programs over a part of a larger state; guards, which say after what an operation may be performed; and pools of threads
with a journal of all that was performed. When the programs keep a guard whatever they are answered, then it holds of
every operation in the journal of every run.
-/
import Didicafe.Lib.Rely
import Didicafe.Lib.Runs

namespace Didicafe.Effect

open Runs

variable {Op Op' : Type} {Out : Op → Type} {Out' : Op' → Type} {α β σ τ κ ι μ : Type}

/-! ## Parts of a state -/

/-- A part of a state that can be read and replaced. -/
structure Part (τ σ : Type) where
  get : τ → σ
  put : τ → σ → τ
  get_put : ∀ t s, get (put t s) = s
  put_get : ∀ t, put t (get t) = t
  put_put : ∀ t s s', put (put t s) s' = put t s'

namespace Prog

/-- A program as one over more operations. -/
def embed (f : Op → Op') (out : ∀ op, Out' (f op) → Out op) : Prog Op Out α → Prog Op' Out' α
  | .done a => .done a
  | .call op next => .call (f op) fun r => (next (out op r)).embed f out

section Embed

variable {f : Op → Op'} {out : ∀ op, Out' (f op) → Out op}

theorem embed_bind (p : Prog Op Out α) (g : α → Prog Op Out β) :
    (p >>= g).embed f out = p.embed f out >>= fun a => (g a).embed f out := by
  show (p.bind g).embed f out = (p.embed f out).bind fun a => (g a).embed f out
  induction p with
  | done a => rfl
  | call op next ih => exact call_congr fun r => ih (out op r)

/-- Its run changes the one part of the state as the program does on that part alone. -/
theorem run_embed {h : Handler Op Out σ} {h' : Handler Op' Out' τ} (part : Part τ σ)
    (hh : ∀ op t, out op (h' (f op) t).1 = (h op (part.get t)).1 ∧ (h' (f op) t).2 = part.put t (h op (part.get t)).2)
    (p : Prog Op Out α) (t : τ) :
    (p.embed f out).run h' t = ((p.run h (part.get t)).1, part.put t (p.run h (part.get t)).2) := by
  induction p generalizing t with
  | done a => exact Prod.ext rfl (part.put_get t).symm
  | call op next ih =>
    obtain ⟨hout, hput⟩ := hh op t
    show ((next (out op (h' (f op) t).1)).embed f out).run h' (h' (f op) t).2 = _
    rw [ih, hout, hput, part.get_put, part.put_put]
    rfl

theorem uses_embed {K : Op' → Prop} {p : Prog Op Out α} (h : p.Uses fun op => K (f op)) : (p.embed f out).Uses K := by
  induction p with
  | done => trivial
  | call op next ih => exact ⟨h.1, fun r => ih _ (h.2 _)⟩

end Embed

theorem uses_of_forall {K : Op → Prop} (hK : ∀ op, K op) (p : Prog Op Out α) : p.Uses K := by
  induction p with
  | done => trivial
  | call op next ih => exact ⟨hK op, ih⟩

end Prog

/-! ## Guards -/

/-- What was performed, with the answers, the latest first. -/
abbrev Past (Op : Type) (Out : Op → Type) := List (Sigma Out)

/-- A guard says after what an operation may be performed. -/
abbrev Guard (Op : Type) (Out : Op → Type) := Past Op Out → Op → Prop

/-- The answers that are possible. -/
abbrev Answers (Op : Type) (Out : Op → Type) := (op : Op) → Out op → Prop

namespace Prog

/-- The guard holds of every operation the program comes to, whatever the answers are among those that are possible, and
`Q` holds at its end. -/
def Keeps (A : Answers Op Out) (G : Guard Op Out) (Q : α → Past Op Out → Prop) : Prog Op Out α → Past Op Out → Prop
  | .done a, past => Q a past
  | .call op next, past => G past op ∧ ∀ r, A op r → (next r).Keeps A G Q (⟨op, r⟩ :: past)

variable {A : Answers Op Out} {G : Guard Op Out} {Q : α → Past Op Out → Prop} {p : Prog Op Out α} {past : Past Op Out}

theorem Keeps.bind {f : α → Prog Op Out β} {R : β → Past Op Out → Prop} (h : p.Keeps A G Q past)
    (hf : ∀ a past, Q a past → (f a).Keeps A G R past) : (p >>= f).Keeps A G R past := by
  show (p.bind f).Keeps A G R past
  induction p generalizing past with
  | done a => exact hf a past h
  | call op next ih => exact ⟨h.1, fun r hr => ih r (h.2 r hr)⟩

theorem Keeps.mono {R : α → Past Op Out → Prop} (h : p.Keeps A G Q past) (hQ : ∀ a past, Q a past → R a past) :
    p.Keeps A G R past := by
  induction p generalizing past with
  | done a => exact hQ a past h
  | call op next ih => exact ⟨h.1, fun r hr => ih r (h.2 r hr)⟩

/-- Operations of a kind that the guard admits from some point on; what was performed before them stays known. -/
theorem keeps_of_uses {K : Op → Prop} (hK : ∀ past' op, past <:+ past' → K op → G past' op) (h : p.Uses K) :
    p.Keeps A G (fun _ past' => past <:+ past') past := by
  suffices hlater : ∀ past', past <:+ past' → p.Keeps A G (fun _ past' => past <:+ past') past' from
    hlater past (List.suffix_refl past)
  induction p with
  | done a => exact fun past' hpast => hpast
  | call op next ih =>
    exact fun past' hpast => ⟨hK past' op hpast h.1, fun r _ => ih r (h.2 r) _ (hpast.trans (List.suffix_cons ..))⟩

end Prog

/-! ### Orders -/

/-- The operation was performed, with the answer, when the past had a property. -/
def After (P : Past Op Out → Prop) (x : Sigma Out) (past : Past Op Out) : Prop := ∃ pre, x :: pre <:+ past ∧ P pre

namespace After

variable {P : Past Op Out → Prop} {x : Sigma Out} {past past' : Past Op Out}

theorem now (h : P past) (x : Sigma Out) : After P x (x :: past) := ⟨past, List.suffix_refl _, h⟩

theorem later (h : After P x past) (hp : past <:+ past') : After P x past' := by
  obtain ⟨pre, hpre, h⟩ := h
  exact ⟨pre, hpre.trans hp, h⟩

theorem mem (h : After P x past) : x ∈ past := by
  obtain ⟨pre, hpre, -⟩ := h
  exact hpre.mem (List.mem_cons_self ..)

/-- What goes on holding holds still. -/
theorem holds (hP : ∀ past past', P past → past <:+ past' → P past') (h : After P x past) : P past := by
  obtain ⟨pre, hpre, h⟩ := h
  exact hP pre past h ((List.suffix_cons ..).trans hpre)

end After

/-! ## Journals -/

/-- An operation that was performed: by which thread, what that was started for, in which state, and the answer. -/
structure Event (κ σ : Type) (Op : Type) (Out : Op → Type) where
  thread : Nat
  tag : κ
  before : σ
  op : Op
  answer : Out op

/-- Threads over a shared state, with all that was performed, the latest first. -/
structure Journal (κ : Type) (Op : Type) (Out : Op → Type) (α σ : Type) where
  pool : Pool κ Op Out α σ
  log : List (Event κ σ Op Out)

/-- A thread starts, performs its next operation, or something else happens to the shared state. -/
inductive Turn (κ ι μ : Type) where
  | start (k : κ)
  | advance (i : Nat) (how : ι)
  | other (m : μ)

/-- Every event has the property, with those before it. -/
def Each (P : Event κ σ Op Out → List (Event κ σ Op Out) → Prop) : List (Event κ σ Op Out) → Prop
  | [] => True
  | e :: pre => P e pre ∧ Each P pre

theorem Each.of_split {P : Event κ σ Op Out → List (Event κ σ Op Out) → Prop} {post pre : List (Event κ σ Op Out)}
    {e : Event κ σ Op Out} (h : Each P (post ++ e :: pre)) : P e pre := by
  induction post with
  | nil => exact h.1
  | cons x post ih => exact ih h.2

/-- What thread `i` has performed. -/
def pastOf (i : Nat) (log : List (Event κ σ Op Out)) : Past Op Out :=
  (log.filter (·.thread = i)).map fun e => ⟨e.op, e.answer⟩

/-- What started threads do, how operations turn out, and what else may happen. -/
structure Workshop (κ ι μ : Type) (Op : Type) (Out : Op → Type) (α σ : Type) where
  program : κ → Prog Op Out α
  handler : ι → Handler Op Out σ
  other : μ → σ → σ

namespace Workshop

variable (W : Workshop κ ι μ Op Out α σ)

def step (s : Journal κ Op Out α σ) : Turn κ ι μ → Option (Journal κ Op Out α σ)
  | .start k => some { s with pool := s.pool.spawn ⟨k, W.program k⟩ }
  | .advance i how =>
    match s.pool.threads[i]? with
    | some ⟨k, .call op next⟩ =>
      let x := W.handler how op s.pool.shared
      some ⟨⟨x.2, s.pool.threads.set i ⟨k, next x.1⟩⟩, ⟨i, k, s.pool.shared, op, x.1⟩ :: s.log⟩
    | _ => none
  | .other m => some { s with pool := { s.pool with shared := W.other m s.pool.shared } }

/-- From a state with no threads and an empty journal. -/
def machine (init : σ → Prop) : Machine (Journal κ Op Out α σ) (Turn κ ι μ) where
  init s := init s.pool.shared ∧ s.pool.threads = [] ∧ s.log = []
  step := W.step

variable {W} {s s' : Journal κ Op Out α σ} {l : Turn κ ι μ} {i : Nat}

theorem step_cases (h : W.step s l = some s') :
    (∃ k, l = .start k ∧ s' = { s with pool := s.pool.spawn ⟨k, W.program k⟩ }) ∨
    (∃ i how k op next, l = .advance i how ∧ s.pool.threads[i]? = some ⟨k, .call op next⟩ ∧
      s' = ⟨⟨(W.handler how op s.pool.shared).2, s.pool.threads.set i ⟨k, next (W.handler how op s.pool.shared).1⟩⟩,
        ⟨i, k, s.pool.shared, op, (W.handler how op s.pool.shared).1⟩ :: s.log⟩) ∨
    ∃ m, l = .other m ∧ s' = { s with pool := { s.pool with shared := W.other m s.pool.shared } } := by
  cases l with
  | start k => exact .inl ⟨k, rfl, (Option.some.inj h).symm⟩
  | other m => exact .inr (.inr ⟨m, rfl, (Option.some.inj h).symm⟩)
  | advance i how =>
    simp only [step] at h
    split at h
    · rename_i k op next ht
      exact .inr (.inl ⟨i, how, k, op, next, rfl, ht, (Option.some.inj h).symm⟩)
    · cases h

/-- The step of a thread is one of the pool. -/
theorem advance_of_step {how : ι} (h : W.step s (.advance i how) = some s') :
    s.pool.advance (W.handler how) i = some s'.pool := by
  rcases step_cases h with ⟨k, hl, -⟩ | ⟨j, how', k, op, next, hl, ht, rfl⟩ | ⟨m, hl, -⟩
  · cases hl
  · cases hl
    unfold Pool.advance
    rw [ht]
    rfl
  · cases hl

/-! ### What the journal tells -/

/-- The journal is that of the threads there are; these go on keeping the guards, and have kept them so far. -/
structure Follows (A : Answers Op Out) (G : κ → Guard Op Out) (W : Workshop κ ι μ Op Out α σ)
    (s : Journal κ Op Out α σ) : Prop where
  threads : ∀ i (t : Thread κ Op Out α), s.pool.threads[i]? = some t →
    t.rest.Keeps A (G t.tag) (fun _ _ => True) (pastOf i s.log)
  tags : ∀ e ∈ s.log, ∃ t, s.pool.threads[e.thread]? = some t ∧ t.tag = e.tag
  kept : Each (fun e pre => G e.tag (pastOf e.thread pre) e.op) s.log
  answers : ∀ e ∈ s.log, ∃ how, e.answer = (W.handler how e.op e.before).1

theorem pastOf_cons (i : Nat) (e : Event κ σ Op Out) (log : List (Event κ σ Op Out)) :
    pastOf i (e :: log) = if e.thread = i then ⟨e.op, e.answer⟩ :: pastOf i log else pastOf i log := by
  unfold pastOf
  by_cases h : e.thread = i
  · rw [List.filter_cons_of_pos (by simpa using h), if_pos h, List.map_cons]
  · rw [List.filter_cons_of_neg (by simpa using h), if_neg h]

/-- A thread that has performed nothing yet. -/
theorem pastOf_eq_nil {log : List (Event κ σ Op Out)} (h : ∀ e ∈ log, e.thread ≠ i) : pastOf i log = [] := by
  unfold pastOf
  rw [List.filter_eq_nil_iff.2 fun e he => by simpa using h e he]
  rfl

theorem mem_pastOf {log : List (Event κ σ Op Out)} {x : Sigma Out} :
    x ∈ pastOf i log ↔ ∃ e ∈ log, e.thread = i ∧ x = ⟨e.op, e.answer⟩ := by
  unfold pastOf
  constructor
  · intro h
    obtain ⟨e, he, rfl⟩ := List.mem_map.1 h
    obtain ⟨he, hi⟩ := List.mem_filter.1 he
    exact ⟨e, he, of_decide_eq_true hi, rfl⟩
  · rintro ⟨e, he, hi, rfl⟩
    exact List.mem_map.2 ⟨e, List.mem_filter.2 ⟨he, decide_eq_true hi⟩, rfl⟩

/-- What a thread has performed at some moment is the journal's up to an event of the thread. -/
theorem split_pastOf {x : Sigma Out} {past : Past Op Out} :
    ∀ {log : List (Event κ σ Op Out)}, x :: past <:+ pastOf i log →
      ∃ mid e pre, log = mid ++ e :: pre ∧ e.thread = i ∧ x = ⟨e.op, e.answer⟩ ∧ past = pastOf i pre
  | [], h => absurd (List.suffix_nil.1 h) (List.cons_ne_nil x past)
  | e :: log, h => by
    have earlier (h : x :: past <:+ pastOf i log) :
        ∃ mid e' pre, e :: log = mid ++ e' :: pre ∧ e'.thread = i ∧ x = ⟨e'.op, e'.answer⟩ ∧ past = pastOf i pre := by
      obtain ⟨mid, e', pre, rfl, hrest⟩ := split_pastOf h
      exact ⟨e :: mid, e', pre, rfl, hrest⟩
    rw [pastOf_cons] at h
    split at h
    · rcases List.suffix_cons_iff.1 h with heq | h
      · cases heq
        exact ⟨[], e, log, rfl, ‹_›, rfl, rfl⟩
      · exact earlier h
    · exact earlier h

section Follows

variable {A : Answers Op Out} {G : κ → Guard Op Out}

theorem Follows.step (hA : ∀ how op s, A op (W.handler how op s).1)
    (hG : ∀ k, (W.program k).Keeps A (G k) (fun _ _ => True) []) (h : Follows A G W s) (hs : W.step s l = some s') :
    Follows A G W s' := by
  rcases step_cases hs with ⟨k, rfl, rfl⟩ | ⟨i, how, k, op, next, rfl, ht, rfl⟩ | ⟨m, rfl, rfl⟩
  · -- the new thread has performed nothing
    have hnew : pastOf s.pool.threads.length s.log = [] := by
      refine pastOf_eq_nil fun e he hi => ?_
      obtain ⟨t, ht, -⟩ := h.tags e he
      rw [hi, List.getElem?_eq_none (Nat.le_refl _)] at ht
      cases ht
    refine ⟨fun i t ht => ?_, fun e he => ?_, h.kept, h.answers⟩
    · rcases Nat.lt_trichotomy i s.pool.threads.length with hlt | rfl | hgt
      · exact h.threads i t (by rwa [Pool.spawn, List.getElem?_append_left hlt] at ht)
      · rw [Pool.spawn, List.getElem?_append_right (Nat.le_refl _), Nat.sub_self] at ht
        cases ht
        rw [hnew]
        exact hG k
      · rw [Pool.spawn, List.getElem?_eq_none (by simpa using Nat.succ_le_of_lt hgt)] at ht
        cases ht
    · obtain ⟨t, ht, htag⟩ := h.tags e he
      exact ⟨t, List.getElem?_append_left (List.getElem?_eq_some_iff.1 ht).1 ▸ ht, htag⟩
  · obtain ⟨hguard, hrest⟩ := h.threads i _ ht
    have hlt := (List.getElem?_eq_some_iff.1 ht).1
    refine ⟨fun j t hj => ?_, fun e he => ?_, ⟨hguard, h.kept⟩, fun e he => ?_⟩
    · rcases Pool.getElem?_set_cases hj with ⟨rfl, rfl⟩ | ⟨hne, hj⟩
      · show Prog.Keeps _ _ _ _ (pastOf j (_ :: s.log))
        rw [pastOf_cons, if_pos rfl]
        exact hrest _ (hA how op s.pool.shared)
      · show Prog.Keeps _ _ _ _ (pastOf j (_ :: s.log))
        rw [pastOf_cons, if_neg (Ne.symm hne)]
        exact h.threads j t hj
    · rcases List.mem_cons.1 he with rfl | he
      · exact ⟨_, List.getElem?_set_self hlt, rfl⟩
      · obtain ⟨t, ht', htag⟩ := h.tags e he
        by_cases hi : i = e.thread
        · subst hi
          rw [ht] at ht'
          cases ht'
          exact ⟨_, List.getElem?_set_self hlt, htag⟩
        · exact ⟨t, (List.getElem?_set_ne hi).trans ht', htag⟩
    · rcases List.mem_cons.1 he with rfl | he
      · exact ⟨how, rfl⟩
      · exact h.answers e he
  · exact ⟨h.threads, h.tags, h.kept, h.answers⟩

/-- Programs that keep the guards keep them in every run, in whatever order the threads perform their operations. -/
theorem follows_of_reach (hA : ∀ how op s, A op (W.handler how op s).1)
    (hG : ∀ k, (W.program k).Keeps A (G k) (fun _ _ => True) []) {init : σ → Prop}
    {ok : Journal κ Op Out α σ → Turn κ ι μ → Prop} (h : Reach (W.machine init) ok s) : Follows A G W s := by
  apply h.invariant
  · rintro s ⟨-, hthreads, hlog⟩
    refine ⟨fun i t ht => ?_, fun e he => ?_, hlog ▸ trivial, fun e he => ?_⟩
    · rw [hthreads] at ht
      cases ht
    · rw [hlog] at he
      cases he
    · rw [hlog] at he
      cases he
  · exact fun s l s' hi _ hs => hi.step hA hG hs

end Follows

end Workshop

end Didicafe.Effect
