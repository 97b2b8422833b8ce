/-
Effect programs. A program is a tree of atomic operations: at each node it asks for one operation
and goes on with its answer. The same program is run to its end without interruption
(`Prog.run`), or as one thread among others over a shared state (`Pool`), one operation at a
time. What an operation does to the state and answers is a parameter, the handler.
-/
import Mathlib.Data.List.Perm.Basic
import Mathlib.Tactic.Common

namespace Didicafe.Effect

inductive Prog (Op : Type) (Out : Op → Type) (α : Type) : Type where
  | done (a : α)
  | call (op : Op) (next : Out op → Prog Op Out α)

/-- What an operation does to the state, and its answer. -/
abbrev Handler (Op : Type) (Out : Op → Type) (σ : Type) := (op : Op) → σ → Out op × σ

variable {Op : Type} {Out : Op → Type} {α β γ ε σ κ : Type}

namespace Prog

def bind : Prog Op Out α → (α → Prog Op Out β) → Prog Op Out β
  | .done a, f => f a
  | .call op next, f => .call op fun r => (next r).bind f

instance : Monad (Prog Op Out) where
  pure := .done
  bind := bind

theorem bind_done (p : Prog Op Out α) : p.bind .done = p := by
  induction p with
  | done a => rfl
  | call op next ih => simp only [bind, ih]

theorem bind_assoc (p : Prog Op Out α) (f : α → Prog Op Out β) (g : β → Prog Op Out γ) :
    (p.bind f).bind g = p.bind fun a => (f a).bind g := by
  induction p with
  | done a => rfl
  | call op next ih => simp only [bind, ih]

instance : LawfulMonad (Prog Op Out) := LawfulMonad.mk' _ bind_done (fun _ _ => rfl) bind_assoc

theorem call_congr {op : Op} {f g : Out op → Prog Op Out α} (h : ∀ x, f x = g x) : call op f = call op g :=
  congrArg (call op) (funext h)

/-- The program that performs one operation and returns its answer. -/
def perform (op : Op) : Prog Op Out (Out op) := .call op .done

/-- The next operation of a program, and what is left of it; none at its end. -/
def step (h : Handler Op Out σ) : Prog Op Out α → σ → Option (Prog Op Out α × σ)
  | .done _, _ => none
  | .call op next, s => some (next (h op s).1, (h op s).2)

/-- The program without its result. -/
def void (p : Prog Op Out α) : Prog Op Out Unit := p.bind fun _ => .done ()

theorem step_void (h : Handler Op Out σ) (p : Prog Op Out α) (s : σ) :
    p.void.step h s = (p.step h s).map fun x => (x.1.void, x.2) := by
  cases p <;> rfl

/-- The uninterrupted run of a program: its result and the state it ends in. -/
def run (h : Handler Op Out σ) : Prog Op Out α → σ → α × σ
  | .done a, s => (a, s)
  | .call op next, s => (next (h op s).1).run h (h op s).2

section Run

variable (h : Handler Op Out σ)

@[simp] theorem run_perform (op : Op) (s : σ) : (perform op : Prog Op Out (Out op)).run h s = h op s := rfl

@[simp] theorem run_bind (p : Prog Op Out α) (f : α → Prog Op Out β) (s : σ) :
    (p >>= f).run h s = (f (p.run h s).1).run h (p.run h s).2 := by
  show (p.bind f).run h s = _
  induction p generalizing s with
  | done a => rfl
  | call op next ih => simp only [bind, run, ih]

/-- A loop that only changes the state is a fold of its body. -/
theorem run_forM (f : α → Prog Op Out PUnit) (l : List α) (s : σ) :
    ((l.forM f).run h s).2 = l.foldl (fun s a => ((f a).run h s).2) s := by
  induction l generalizing s with
  | nil => rfl
  | cons a l ih =>
    show ((f a >>= fun _ => l.forM f).run h s).2 = _
    rw [run_bind, ih]; rfl

end Run

/-- Every operation in the run of the program from state `s` is allowed in the state it is performed in. -/
def Allows (h : Handler Op Out σ) (ok : σ → Op → Prop) : Prog Op Out α → σ → Prop
  | .done _, _ => True
  | .call op next, s => ok s op ∧ (next (h op s).1).Allows h ok (h op s).2

section Allows

variable {h : Handler Op Out σ} {ok : σ → Op → Prop} {p : Prog Op Out α} {s : σ}

/-- What the allowed operations keep, the run keeps. -/
theorem Allows.run {I : σ → Prop} (hI : ∀ s op, I s → ok s op → I (h op s).2) (hp : p.Allows h ok s) (hs : I s) :
    I (p.run h s).2 := by
  induction p generalizing s with
  | done => exact hs
  | call op next ih => exact ih _ hp.2 (hI s op hs hp.1)

theorem Allows.mono {ok' : σ → Op → Prop} (hp : p.Allows h ok s) (hok : ∀ s op, ok s op → ok' s op) :
    p.Allows h ok' s := by
  induction p generalizing s with
  | done => trivial
  | call op next ih => exact ⟨hok _ _ hp.1, ih _ hp.2⟩

theorem Allows.void (hp : p.Allows h ok s) : p.void.Allows h ok s := by
  induction p generalizing s with
  | done => trivial
  | call op next ih => exact ⟨hp.1, ih _ hp.2⟩

/-- A program is allowed when what is left of it is so at each of its operations. -/
theorem allows_of_steps {J : Prog Op Out α → σ → Prop} (hok : ∀ op next s, J (.call op next) s → ok s op)
    (hstep : ∀ op next s, J (.call op next) s → J (next (h op s).1) (h op s).2) (hp : J p s) : p.Allows h ok s := by
  induction p generalizing s with
  | done => trivial
  | call op next ih => exact ⟨hok _ _ _ hp, ih _ (hstep _ _ _ hp)⟩

end Allows

end Prog

/-! ## Programs that can fail -/

abbrev Fallible (ε : Type) (Op : Type) (Out : Op → Type) := ExceptT ε (Prog Op Out)

namespace Fallible

/-- The uninterrupted run of a program that can fail. -/
def exec (h : Handler Op Out σ) (x : Fallible ε Op Out α) (s : σ) : Except ε α × σ :=
  Prog.run h x.run s

section Exec

variable (h : Handler Op Out σ)

@[simp] theorem exec_pure (a : α) (s : σ) : exec h (pure a : Fallible ε Op Out α) s = (.ok a, s) := rfl

theorem exec_bind (x : Fallible ε Op Out α) (f : α → Fallible ε Op Out β) (s : σ) :
    exec h (x >>= f) s = match exec h x s with
      | (.ok a, s') => exec h (f a) s'
      | (.error e, s') => (.error e, s') := by
  unfold exec
  rw [ExceptT.run_bind, Prog.run_bind]
  generalize Prog.run h x.run s = r
  obtain ⟨_ | a, s'⟩ := r <;> rfl

theorem exec_bind_ok {x : Fallible ε Op Out α} {s s' : σ} {a : α} (hx : exec h x s = (.ok a, s'))
    (f : α → Fallible ε Op Out β) : exec h (x >>= f) s = exec h (f a) s' := by
  rw [exec_bind, hx]

theorem exec_bind_error {x : Fallible ε Op Out α} {s s' : σ} {e : ε} (hx : exec h x s = (.error e, s'))
    (f : α → Fallible ε Op Out β) : exec h (x >>= f) s = (.error e, s') := by
  rw [exec_bind, hx]

/-- A sequence that succeeds succeeds in both of its parts. -/
theorem exec_bind_inv {x : Fallible ε Op Out α} {f : α → Fallible ε Op Out β} {s s' : σ} {b : β}
    (hx : exec h (x >>= f) s = (.ok b, s')) :
    ∃ a s₁, exec h x s = (.ok a, s₁) ∧ exec h (f a) s₁ = (.ok b, s') := by
  rw [exec_bind] at hx
  cases hr : exec h x s with
  | mk r s₁ =>
    rw [hr] at hx
    cases r with
    | error e => cases hx
    | ok a => exact ⟨a, s₁, rfl, hx⟩

/-- A loop over a body that cannot fail. -/
theorem exec_forM_lift (f : α → Prog Op Out PUnit) (l : List α) (s : σ) :
    exec h (l.forM fun a => (ExceptT.lift (f a) : Fallible ε Op Out PUnit)) s = (.ok ⟨⟩, ((l.forM f).run h s).2) := by
  induction l generalizing s with
  | nil => rfl
  | cons a l ih =>
    have hbody : exec h (ExceptT.lift (f a) : Fallible ε Op Out PUnit) s = (.ok ⟨⟩, ((f a).run h s).2) := by
      show Prog.run h (f a >>= fun x => pure (Except.ok x)) s = _
      rw [Prog.run_bind]
      rfl
    show exec h (ExceptT.lift (f a) >>= fun _ => l.forM fun a => ExceptT.lift (f a)) s = _
    rw [exec_bind_ok h hbody, ih, Prog.run_forM, Prog.run_forM]
    rfl

end Exec

end Fallible

/-! ## Threads -/

/-- One thread: what it was started for, and what it still has to do. -/
structure Thread (κ : Type) (Op : Type) (Out : Op → Type) (α : Type) where
  tag : κ
  rest : Prog Op Out α

/-- Threads over a shared state. -/
structure Pool (κ : Type) (Op : Type) (Out : Op → Type) (α σ : Type) where
  shared : σ
  threads : List (Thread κ Op Out α)

namespace Pool

/-- A new thread. -/
def spawn (p : Pool κ Op Out α σ) (t : Thread κ Op Out α) : Pool κ Op Out α σ :=
  { p with threads := p.threads ++ [t] }

/-- Thread `i` performs its next operation; there is no step when it has ended. -/
def advance (h : Handler Op Out σ) (i : Nat) (p : Pool κ Op Out α σ) : Option (Pool κ Op Out α σ) :=
  p.threads[i]?.bind fun t => (t.rest.step h p.shared).map fun x => ⟨x.2, p.threads.set i ⟨t.tag, x.1⟩⟩

theorem advance_some {h : Handler Op Out σ} {i : Nat} {p p' : Pool κ Op Out α σ}
    (hs : p.advance h i = some p') : ∃ t x, p.threads[i]? = some t ∧ t.rest.step h p.shared = some x ∧
      p' = ⟨x.2, p.threads.set i ⟨t.tag, x.1⟩⟩ := by
  obtain ⟨t, ht, hs⟩ := Option.bind_eq_some_iff.1 hs
  obtain ⟨x, hx, rfl⟩ := Option.map_eq_some_iff.1 hs
  exact ⟨t, x, ht, hx, rfl⟩

/-- What thread `i` was started for, and its next operation. -/
def pending (p : Pool κ Op Out α σ) (i : Nat) : Option (κ × Op) :=
  p.threads[i]?.bind fun t =>
    match t.rest with
    | .done _ => none
    | .call op _ => some (t.tag, op)

theorem pending_some {p : Pool κ Op Out α σ} {i : Nat} {tag : κ} {op : Op} (h : p.pending i = some (tag, op)) :
    ∃ next, p.threads[i]? = some ⟨tag, .call op next⟩ := by
  obtain ⟨⟨tag', rest⟩, ht, h⟩ := Option.bind_eq_some_iff.1 h
  cases rest with
  | done => cases h
  | call op' next => cases h; exact ⟨next, ht⟩

theorem advance_call {h : Handler Op Out σ} {i : Nat} {p p' : Pool κ Op Out α σ} (hs : p.advance h i = some p') :
    ∃ tag op next, p.threads[i]? = some ⟨tag, .call op next⟩ ∧ p.pending i = some (tag, op) ∧
      p' = ⟨(h op p.shared).2, p.threads.set i ⟨tag, next (h op p.shared).1⟩⟩ := by
  obtain ⟨⟨tag, rest⟩, x, ht, hx, rfl⟩ := advance_some hs
  cases rest with
  | done => cases hx
  | call op next =>
    cases hx
    exact ⟨tag, op, next, ht, by rw [pending, ht]; rfl, rfl⟩

/-- A step of a pool whose threads are given by other data. -/
theorem advance_map {view : β → Thread κ Op Out α} {xs : List β} {h : Handler Op Out σ} {i : Nat}
    {p p' : Pool κ Op Out α σ} (hxs : p.threads = xs.map view) (hs : p.advance h i = some p') :
    ∃ x y, xs[i]? = some x ∧ p.threads[i]? = some (view x) ∧ (view x).rest.step h p.shared = some y ∧
      p' = ⟨y.2, (xs.map view).set i ⟨(view x).tag, y.1⟩⟩ := by
  obtain ⟨t, y, ht, hy, rfl⟩ := advance_some hs
  have hview := ht
  rw [hxs, List.getElem?_map] at hview
  obtain ⟨x, hx, rfl⟩ := Option.map_eq_some_iff.1 hview
  exact ⟨x, y, hx, ht, hy, by rw [hxs]⟩

/-! The other threads are still there after a step of thread `i`. -/

theorem getElem?_set_cases {l : List α} {i j : Nat} {a b : α} (h : (l.set i a)[j]? = some b) :
    j = i ∧ b = a ∨ j ≠ i ∧ l[j]? = some b := by
  by_cases hj : j = i
  · subst hj
    obtain ⟨hlt, rfl⟩ := List.getElem?_eq_some_iff.1 h
    exact .inl ⟨rfl, List.getElem_set_self hlt⟩
  · rw [List.getElem?_set_ne (Ne.symm hj)] at h
    exact .inr ⟨hj, h⟩

theorem perm_set {l : List α} {i : Nat} {a b : α} (hi : l[i]? = some a) :
    l.Perm (a :: l.eraseIdx i) ∧ (l.set i b).Perm (b :: l.eraseIdx i) := by
  obtain ⟨hlt, rfl⟩ := List.getElem?_eq_some_iff.1 hi
  exact ⟨(List.getElem_cons_eraseIdx_perm hlt).symm, List.set_perm_cons_eraseIdx hlt b⟩

theorem mem_set_of_ne {l : List α} {i : Nat} {a b c : α} (hi : l[i]? = some a) (hb : b ∈ l) (hne : b ≠ a) :
    b ∈ l.set i c := by
  obtain ⟨j, hj⟩ := List.mem_iff_getElem?.1 hb
  refine List.mem_iff_getElem?.2 ⟨j, ?_⟩
  rw [List.getElem?_set_ne fun hij => hne ?_]
  · exact hj
  · rw [← hij, hi] at hj
    exact (Option.some.inj hj).symm

end Pool

end Didicafe.Effect
