/-
Programs among others: what a program does under the assumption that the others change the state only
in certain ways. `Heeds` says of a program that, whatever the others do between its operations, each
operation is allowed in the state it is performed in; it is kept by the others, and by the program's own
operations. A program all of whose operations are of a kind (`Uses`) heeds all rules that allow the kind.
-/
import Didicafe.Lib.Effect

namespace Didicafe.Effect

variable {Op : Type} {Out : Op → Type} {α β σ ι : Type}

/-- What the others may do to the state, which operations are allowed in a state, and the ways in which an
operation may turn out. -/
structure Rules (Op : Type) (Out : Op → Type) (σ ι : Type) where
  rely : σ → σ → Prop
  allowed : σ → Op → Prop
  handler : ι → Handler Op Out σ
  refl : ∀ s, rely s s
  trans : ∀ {s s' s''}, rely s s' → rely s' s'' → rely s s''
  /-- An allowed operation does no more than the others may do. -/
  keeps : ∀ i op s, allowed s op → rely s (handler i op s).2

/-- Every operation the program performs, from state `s` on, is allowed. -/
def Rules.Heeds (ru : Rules Op Out σ ι) : Prog Op Out α → σ → Prop
  | .done _, _ => True
  | .call op next, s => ∀ s', ru.rely s s' →
    ru.allowed s' op ∧ ∀ i, ru.Heeds (next (ru.handler i op s').1) (ru.handler i op s').2

namespace Rules

variable {ru : Rules Op Out σ ι} {p q : Prog Op Out α} {s s' : σ}

/-- The others do not disturb it. -/
theorem Heeds.later (h : ru.Heeds p s) (hr : ru.rely s s') : ru.Heeds p s' := by
  cases p with
  | done => trivial
  | call op next => exact fun s'' hr' => h s'' (ru.trans hr hr')

/-- What is left of it after an operation still heeds the rules. -/
theorem Heeds.step {i : ι} (h : ru.Heeds p s) (hs : p.step (ru.handler i) s = some (q, s')) :
    (∃ op next, p = .call op next ∧ ru.allowed s op ∧ s' = (ru.handler i op s).2) ∧ ru.Heeds q s' := by
  cases p with
  | done => cases hs
  | call op next =>
    cases hs
    obtain ⟨hok, hnext⟩ := h s (ru.refl s)
    exact ⟨⟨op, next, rfl, hok, rfl⟩, hnext i⟩

/-- The run of a program that heeds the rules, when nothing else runs. -/
theorem Heeds.allows {h : Handler Op Out σ} (hp : ru.Heeds p s) (hh : ∀ op, ∃ i, ∀ s, h op s = ru.handler i op s) :
    p.Allows h ru.allowed s := by
  induction p generalizing s with
  | done => trivial
  | call op next ih =>
    obtain ⟨i, hi⟩ := hh op
    obtain ⟨hok, hnext⟩ := hp s (ru.refl s)
    refine ⟨hok, ?_⟩
    rw [hi]
    exact ih _ (hnext i)

/-- A program that goes on with another one, when that one heeds the rules in every state the first can end in. -/
theorem Heeds.bind {f : α → Prog Op Out β} (h : ru.Heeds p s)
    (hf : ∀ a s', ru.rely s s' → ru.Heeds (f a) s') : ru.Heeds (p >>= f) s := by
  show ru.Heeds (p.bind f) s
  induction p generalizing s with
  | done a => exact hf a s (ru.refl s)
  | call op next ih =>
    intro s' hr
    obtain ⟨hok, hnext⟩ := h s' hr
    exact ⟨hok, fun i => ih _ (hnext i) fun a s'' hr' => hf a s'' (ru.trans hr (ru.trans (ru.keeps i op s' hok) hr'))⟩

theorem heeds_perform {op : Op} (h : ∀ s', ru.rely s s' → ru.allowed s' op) : ru.Heeds (Prog.perform op) s :=
  fun s' hr => ⟨h s' hr, fun _ => trivial⟩

theorem Heeds.void (h : ru.Heeds p s) : ru.Heeds p.void s := h.bind fun _ _ _ => trivial

theorem Heeds.forM {γ : Type} {f : γ → Prog Op Out PUnit} {l : List γ}
    (hf : ∀ a ∈ l, ∀ s', ru.rely s s' → ru.Heeds (f a) s') : ru.Heeds (l.forM f) s := by
  induction l generalizing s with
  | nil => trivial
  | cons a l ih =>
    refine Heeds.bind (hf a (List.mem_cons_self ..) s (ru.refl s)) fun _ s' hr => ?_
    exact ih fun b hb s'' hr' => hf b (List.mem_cons_of_mem _ hb) s'' (ru.trans hr hr')

section Fallible

variable {ε : Type} {x : Fallible ε Op Out α}

theorem Heeds.bind_run {f : α → Fallible ε Op Out β} (h : ru.Heeds x.run s)
    (hf : ∀ a s', ru.rely s s' → ru.Heeds (f a).run s') : ru.Heeds (x >>= f).run s := by
  rw [ExceptT.run_bind]
  refine h.bind fun r s' hr => ?_
  cases r with
  | error e => trivial
  | ok a => exact hf a s' hr

theorem Heeds.lift (h : ru.Heeds p s) : ru.Heeds (ExceptT.lift p : Fallible ε Op Out α).run s :=
  h.bind fun _ _ _ => trivial

end Fallible

/-- Programs that heed the rules, as threads: each step does no more than the others may do, and what is left of the
programs still heeds the rules. -/
theorem heeds_advance (ru : Rules Op Out σ ι) {κ : Type} {i : ι} {j : Nat} {pool pool' : Pool κ Op Out α σ}
    (h : ∀ t ∈ pool.threads, ru.Heeds t.rest pool.shared) (hs : pool.advance (ru.handler i) j = some pool') :
    ru.rely pool.shared pool'.shared ∧ ∀ t ∈ pool'.threads, ru.Heeds t.rest pool'.shared := by
  obtain ⟨t, ⟨rest, s'⟩, ht, hstep, rfl⟩ := Pool.advance_some hs
  obtain ⟨⟨op, next, -, hok, rfl⟩, hrest⟩ := (h t (List.mem_of_getElem? ht)).step hstep
  have hrely := ru.keeps i op pool.shared hok
  refine ⟨hrely, fun t' ht' => ?_⟩
  rcases List.mem_or_eq_of_mem_set ht' with ht' | rfl
  · exact (h t' ht').later hrely
  · exact hrest

end Rules

/-! ## Operations of a kind -/

/-- Every operation that the program may come to is of the kind, whatever the answers are. -/
def Prog.Uses (K : Op → Prop) : Prog Op Out α → Prop
  | .done _ => True
  | .call op next => K op ∧ ∀ r, (next r).Uses K

namespace Prog.Uses

variable {K : Op → Prop} {p : Prog Op Out α}

theorem bind {f : α → Prog Op Out β} (h : p.Uses K) (hf : ∀ a, (f a).Uses K) : (p >>= f).Uses K := by
  show (p.bind f).Uses K
  induction p with
  | done a => exact hf a
  | call op next ih => exact ⟨h.1, fun r => ih r (h.2 r)⟩

theorem forM {γ : Type} {f : γ → Prog Op Out PUnit} (hf : ∀ a, (f a).Uses K) (l : List γ) : (l.forM f).Uses K := by
  induction l with
  | nil => trivial
  | cons a l ih => exact bind (hf a) fun _ => ih

theorem mono {K' : Op → Prop} (h : p.Uses K) (hK : ∀ op, K op → K' op) : p.Uses K' := by
  induction p with
  | done => trivial
  | call op next ih => exact ⟨hK op h.1, fun r => ih r (h.2 r)⟩

theorem heeds {ru : Rules Op Out σ ι} (hK : ∀ s op, K op → ru.allowed s op) {s : σ} (h : p.Uses K) : ru.Heeds p s := by
  induction p generalizing s with
  | done => trivial
  | call op next ih => exact fun s' _ => ⟨hK s' op h.1, fun i => ih _ (h.2 _)⟩

/-- What the operations of the kind keep, the run keeps. -/
theorem run {h : Handler Op Out σ} {I : σ → Prop} (hI : ∀ s op, I s → K op → I (h op s).2) {s : σ} (hp : p.Uses K)
    (hs : I s) : I (p.run h s).2 := by
  induction p generalizing s with
  | done => exact hs
  | call op next ih => exact ih _ (hp.2 _) (hI s op hs hp.1)

end Prog.Uses

/-- The same of a program that can fail. -/
def Fallible.Uses {ε : Type} (K : Op → Prop) (x : Fallible ε Op Out α) : Prop := Prog.Uses K x.run

namespace Fallible.Uses

variable {ε : Type} {K : Op → Prop} {x : Fallible ε Op Out α}

theorem pure (a : α) : Fallible.Uses K (Pure.pure a : Fallible ε Op Out α) := trivial

theorem bind {f : α → Fallible ε Op Out β} (h : Fallible.Uses K x) (hf : ∀ a, Fallible.Uses K (f a)) :
    Fallible.Uses K (x >>= f) := by
  unfold Fallible.Uses
  rw [ExceptT.run_bind]
  refine Prog.Uses.bind h fun r => ?_
  cases r with
  | error e => trivial
  | ok a => exact hf a

theorem forM {γ : Type} {f : γ → Fallible ε Op Out PUnit} (hf : ∀ a, Fallible.Uses K (f a)) (l : List γ) :
    Fallible.Uses K (l.forM f) := by
  induction l with
  | nil => trivial
  | cons a l ih => exact bind (hf a) fun _ => ih

theorem forM_mem {γ : Type} {f : γ → Fallible ε Op Out PUnit} {l : List γ} (hf : ∀ a ∈ l, Fallible.Uses K (f a)) :
    Fallible.Uses K (l.forM f) := by
  induction l with
  | nil => trivial
  | cons a l ih => exact bind (hf a (List.mem_cons_self ..)) fun _ => ih fun b hb => hf b (List.mem_cons_of_mem _ hb)

theorem lift {p : Prog Op Out α} (h : p.Uses K) : Fallible.Uses K (ExceptT.lift p : Fallible ε Op Out α) :=
  Prog.Uses.bind h fun _ => trivial

end Fallible.Uses

end Didicafe.Effect
