/-
Programs that do not tell like answers apart. Where two states differ only in what such programs do not look at, they
keep doing so, and all threads come to the same results in both, in whatever order they take turns.
-/
import Didicafe.Lib.Journal

namespace Didicafe.Effect

open Runs

variable {Op Op' : Type} {Out : Op → Type} {Out' : Op' → Type} {α β σ κ ι μ : Type}

/-- Which answers of an operation are like each other. -/
abbrev Likeness (Op : Type) (Out : Op → Type) := (op : Op) → Out op → Out op → Prop

namespace Prog

/-- The program performs operations of a kind only, and goes on in the same way after like answers; `Q` holds of its
results. -/
def Blind (K : Op → Prop) (R : Likeness Op Out) (Q : α → Prop) : Prog Op Out α → Prop
  | .done a => Q a
  | .call op next => K op ∧ ∀ r r', R op r r' → next r = next r' ∧ (next r).Blind K R Q

variable {K : Op → Prop} {R : Likeness Op Out} {Q : α → Prop} {p : Prog Op Out α}

theorem Blind.bind {f : α → Prog Op Out β} {Q' : β → Prop} (h : p.Blind K R Q) (hf : ∀ a, Q a → (f a).Blind K R Q') :
    (p >>= f).Blind K R Q' := by
  show (p.bind f).Blind K R Q'
  induction p with
  | done a => exact hf a h
  | call op next ih =>
    refine ⟨h.1, fun r r' hr => ?_⟩
    obtain ⟨heq, hnext⟩ := h.2 r r' hr
    exact ⟨congrArg (Prog.bind · f) heq, ih r hnext⟩

/-- Where all answers that are like each other are the same. -/
theorem blind_of_uses {K' : Op → Prop} (hK : ∀ op, K' op → K op ∧ ∀ r r', R op r r' → r = r') (h : p.Uses K') :
    p.Blind K R fun _ => True := by
  induction p with
  | done => trivial
  | call op next ih =>
    refine ⟨(hK op h.1).1, fun r r' hr => ?_⟩
    obtain rfl := (hK op h.1).2 r r' hr
    exact ⟨rfl, ih r (h.2 r)⟩

end Prog

/-! ## Two runs -/

/-- Two journals of the same threads, that will not tell the two states apart. -/
structure Twins (K : Op → Prop) (R : Likeness Op Out) (E : σ → σ → Prop) (s s' : Journal κ Op Out α σ) : Prop where
  same : s.pool.threads = s'.pool.threads
  like : E s.pool.shared s'.pool.shared
  blind : ∀ t ∈ s.pool.threads, t.rest.Blind K R fun _ => True

namespace Workshop

variable (W : Workshop κ ι μ Op Out α σ)

/-- The same request or the same operation, or whatever else keeps the states alike. -/
def LikeTurns (P : κ → Prop) (E : σ → σ → Prop) : Turn κ ι μ → Turn κ ι μ → Prop
  | .start k, .start k' => k = k' ∧ P k
  | .advance i how, .advance i' how' => i = i' ∧ how = how'
  | .other m, .other m' => ∀ s s', E s s' → E (W.other m s) (W.other m' s')
  | _, _ => False

variable {W} {K : Op → Prop} {R : Likeness Op Out} {P : κ → Prop} {E : σ → σ → Prop} {s s' : Journal κ Op Out α σ}

/-- One turn in both: either can take it or none can, and the journals are still of the same threads. -/
theorem twins_step {l l' : Turn κ ι μ} (hP : ∀ k, P k → (W.program k).Blind K R fun _ => True)
    (hexec : ∀ how op t t', K op → E t t' →
      R op (W.handler how op t).1 (W.handler how op t').1 ∧ E (W.handler how op t).2 (W.handler how op t').2)
    (h : Twins K R E s s') (hl : W.LikeTurns P E l l') :
    Option.Rel (Twins K R E) (W.step s l) (W.step s' l') := by
  obtain ⟨⟨shared, threads⟩, log⟩ := s
  obtain ⟨⟨shared', threads'⟩, log'⟩ := s'
  obtain ⟨rfl, like, blind⟩ := h
  cases l with
  | start k =>
    cases l' with
    | start k' =>
      obtain ⟨rfl, hk⟩ := hl
      refine .some ⟨rfl, like, fun t ht => ?_⟩
      rcases List.mem_append.1 ht with ht | ht
      · exact blind t ht
      · rw [List.mem_singleton.1 ht]
        exact hP k hk
    | _ => cases hl
  | other m =>
    cases l' with
    | other m' => exact .some ⟨rfl, hl _ _ like, blind⟩
    | _ => cases hl
  | advance i how =>
    cases l' with
    | advance i' how' =>
      obtain ⟨rfl, rfl⟩ := hl
      unfold step
      cases ht : threads[i]? with
      | none => simp only [ht]; exact .none
      | some t =>
        obtain ⟨k, rest⟩ := t
        cases rest with
        | done a => simp only [ht]; exact .none
        | call op next =>
          obtain ⟨hK, hnext⟩ := blind _ (List.mem_of_getElem? ht)
          obtain ⟨hR, hE⟩ := hexec how op shared shared' hK like
          obtain ⟨heq, hrest⟩ := hnext _ _ hR
          simp only [ht]
          refine .some ⟨?_, hE, fun t ht => ?_⟩
          · rw [heq]
          · rcases List.mem_or_eq_of_mem_set ht with ht | rfl
            · exact blind t ht
            · exact hrest
    | _ => cases hl

/-- The same of whole runs. -/
theorem twins_trace (init : σ → Prop) (hP : ∀ k, P k → (W.program k).Blind K R fun _ => True)
    (hexec : ∀ how op t t', K op → E t t' →
      R op (W.handler how op t).1 (W.handler how op t').1 ∧ E (W.handler how op t).2 (W.handler how op t').2)
    {ls ls' : List (Turn κ ι μ)} (hl : List.Forall₂ (W.LikeTurns P E) ls ls') (h : Twins K R E s s') :
    Option.Rel (Twins K R E) ((W.machine init).trace s ls) ((W.machine init).trace s' ls') := by
  induction hl generalizing s s' with
  | nil => exact .some h
  | @cons l l' ls ls' hl _ ih =>
    have hstep := twins_step hP hexec h hl
    unfold Machine.trace
    show Option.Rel _ ((W.step s l).bind _) ((W.step s' l').bind _)
    generalize W.step s l = x at hstep ⊢
    generalize W.step s' l' = x' at hstep ⊢
    cases hstep with
    | none => exact .none
    | some h => exact ih h

end Workshop

end Didicafe.Effect
