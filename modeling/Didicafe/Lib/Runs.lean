/-
Runs of a machine: a state space with a partial step function per label. `Reach M ok s` is a run
of `M` that ends in `s` and in which every step was taken from a state and with a label that `ok`
admits; `Free` admits every step.
-/
import Mathlib.Tactic.Common

namespace Didicafe.Runs

structure Machine (σ ℓ : Type) where
  init : σ → Prop
  step : σ → ℓ → Option σ

variable {σ ℓ : Type}

inductive Reach (M : Machine σ ℓ) (ok : σ → ℓ → Prop) : σ → Prop where
  | start {s} (h : M.init s) : Reach M ok s
  | step {s l s'} (hs : Reach M ok s) (hok : ok s l) (h : M.step s l = some s') : Reach M ok s'

/-- The condition that every step meets. -/
def Free : σ → ℓ → Prop := fun _ _ => True

/-- A property that holds at the start and is kept by every admitted step holds in every state
reached. -/
theorem Reach.invariant {M : Machine σ ℓ} {ok : σ → ℓ → Prop} {I : σ → Prop}
    (hinit : ∀ s, M.init s → I s)
    (hstep : ∀ s l s', I s → ok s l → M.step s l = some s' → I s') {s : σ} (h : Reach M ok s) : I s := by
  induction h with
  | start h => exact hinit _ h
  | step _ hok h ih => exact hstep _ _ _ ih hok h

/-- `s'` is reached from `s` by admitted steps. -/
inductive Path (M : Machine σ ℓ) (ok : σ → ℓ → Prop) (s : σ) : σ → Prop where
  | refl : Path M ok s s
  | step {s' l s''} (hs : Path M ok s s') (hok : ok s' l) (h : M.step s' l = some s'') : Path M ok s s''

theorem Path.trans {M : Machine σ ℓ} {ok : σ → ℓ → Prop} {s s' s'' : σ} (h : Path M ok s s') (h' : Path M ok s' s'') :
    Path M ok s s'' := by
  induction h' with
  | refl => exact h
  | step _ hok hs ih => exact ih.step hok hs

/-- What the admitted steps keep stays so. -/
theorem Path.invariant {M : Machine σ ℓ} {ok : σ → ℓ → Prop} {I : σ → Prop}
    (hstep : ∀ s l s', I s → ok s l → M.step s l = some s' → I s') {s s' : σ} (hp : Path M ok s s') (h : I s) :
    I s' := by
  induction hp with
  | refl => exact h
  | step _ hok hs ih => exact hstep _ _ _ ih hok hs

/-- A relation that holds for the steps of the runs holds between the states of a run. -/
theorem Reach.path {M : Machine σ ℓ} {ok : σ → ℓ → Prop} {R : σ → σ → Prop} (hrefl : ∀ s, R s s)
    (htrans : ∀ s s' s'', R s s' → R s' s'' → R s s'')
    (hstep : ∀ s l s', Reach M ok s → ok s l → M.step s l = some s' → R s s') {s s' : σ} (h : Reach M ok s)
    (hp : Path M ok s s') : Reach M ok s' ∧ R s s' := by
  induction hp with
  | refl => exact ⟨h, hrefl s⟩
  | step _ hok hs ih => exact ⟨ih.1.step hok hs, htrans _ _ _ ih.2 (hstep _ _ _ ih.1 hok hs)⟩

/-- Steps that one condition admits are admitted by a weaker one. -/
theorem Reach.mono {M : Machine σ ℓ} {ok ok' : σ → ℓ → Prop} (hok : ∀ s l, ok s l → ok' s l) {s : σ}
    (h : Reach M ok s) : Reach M ok' s := by
  induction h with
  | start h => exact .start h
  | step _ hl hs ih => exact .step ih (hok _ _ hl) hs

namespace Machine

/-- The run over a given list of labels. -/
def trace (M : Machine σ ℓ) (s : σ) : List ℓ → Option σ
  | [] => some s
  | l :: ls => (M.step s l).bind fun s' => M.trace s' ls

theorem reach_trace {M : Machine σ ℓ} {s s' : σ} (hs : Reach M Free s) :
    ∀ {t : List ℓ}, M.trace s t = some s' → Reach M Free s'
  | [], h => by cases h; exact hs
  | l :: ls, h => by
    unfold trace at h
    obtain ⟨s₁, h₁, h₂⟩ := Option.bind_eq_some_iff.1 h
    exact reach_trace (.step hs trivial h₁) h₂

/-- The same for labels that are admitted in every state. -/
theorem reach_trace_of {M : Machine σ ℓ} {ok : σ → ℓ → Prop} {s s' : σ} (hs : Reach M ok s) :
    ∀ {t : List ℓ}, (∀ l ∈ t, ∀ s, ok s l) → M.trace s t = some s' → Reach M ok s'
  | [], _, h => by cases h; exact hs
  | l :: ls, hok, h => by
    unfold trace at h
    obtain ⟨s₁, h₁, h₂⟩ := Option.bind_eq_some_iff.1 h
    exact reach_trace_of (.step hs (hok l (List.mem_cons_self ..) s) h₁)
      (fun l' hl' => hok l' (List.mem_cons_of_mem _ hl')) h₂

theorem path_trace {M : Machine σ ℓ} {s s' : σ} : ∀ {t : List ℓ}, M.trace s t = some s' → Path M Free s s'
  | [], h => by cases h; exact .refl
  | l :: ls, h => by
    unfold trace at h
    obtain ⟨s₁, h₁, h₂⟩ := Option.bind_eq_some_iff.1 h
    exact (Path.step .refl trivial h₁).trans (path_trace h₂)

theorem path_trace_of {M : Machine σ ℓ} {ok : σ → ℓ → Prop} {s s' : σ} :
    ∀ {t : List ℓ}, (∀ l ∈ t, ∀ s, ok s l) → M.trace s t = some s' → Path M ok s s'
  | [], _, h => by cases h; exact .refl
  | l :: ls, hok, h => by
    unfold trace at h
    obtain ⟨s₁, h₁, h₂⟩ := Option.bind_eq_some_iff.1 h
    exact (Path.step .refl (hok l (List.mem_cons_self ..) s) h₁).trans
      (path_trace_of (fun l' hl' => hok l' (List.mem_cons_of_mem _ hl')) h₂)

/-- Every step of the run over the labels has the property. -/
def Along (M : Machine σ ℓ) (P : σ → ℓ → Prop) (s : σ) : List ℓ → Prop
  | [] => True
  | l :: ls => P s l ∧ ∀ s', M.step s l = some s' → M.Along P s' ls

instance decidableAlong {M : Machine σ ℓ} {P : σ → ℓ → Prop} [∀ s l, Decidable (P s l)] :
    ∀ (ls : List ℓ) (s : σ), Decidable (M.Along P s ls)
  | [], _ => isTrue trivial
  | l :: ls, s =>
    match hs : M.step s l with
    | none => decidable_of_iff (P s l) ⟨fun h => ⟨h, fun s' h' => by rw [hs] at h'; cases h'⟩, And.left⟩
    | some s' =>
      haveI := decidableAlong (M := M) (P := P) ls s'
      decidable_of_iff (P s l ∧ M.Along P s' ls) ⟨fun h => ⟨h.1, fun s'' h' => by
        rw [hs] at h'; cases h'; exact h.2⟩, fun h => ⟨h.1, h.2 s' hs⟩⟩

/-- The run over labels that are admitted in turn. -/
theorem reach_along {M : Machine σ ℓ} {ok : σ → ℓ → Prop} {s s' : σ} (hs : Reach M ok s) :
    ∀ {t : List ℓ}, M.Along ok s t → M.trace s t = some s' → Reach M ok s'
  | [], _, h => by cases h; exact hs
  | l :: ls, hok, h => by
    unfold trace at h
    obtain ⟨s₁, h₁, h₂⟩ := Option.bind_eq_some_iff.1 h
    exact reach_along (.step hs hok.1 h₁) (hok.2 s₁ h₁) h₂

theorem path_along {M : Machine σ ℓ} {ok : σ → ℓ → Prop} {s s' : σ} :
    ∀ {t : List ℓ}, M.Along ok s t → M.trace s t = some s' → Path M ok s s'
  | [], _, h => by cases h; exact .refl
  | l :: ls, hok, h => by
    unfold trace at h
    obtain ⟨s₁, h₁, h₂⟩ := Option.bind_eq_some_iff.1 h
    exact (Path.step .refl hok.1 h₁).trans (path_along (hok.2 s₁ h₁) h₂)

/-- Two properties of a step hold along the same runs, when they are the same wherever an invariant holds that the steps
with the property keep. -/
theorem along_iff {M : Machine σ ℓ} {I : σ → Prop} {P Q : σ → ℓ → Prop} (hiff : ∀ s l, I s → (P s l ↔ Q s l))
    (hstep : ∀ s l s', I s → P s l → M.step s l = some s' → I s') :
    ∀ (ls : List ℓ) {s : σ}, I s → (M.Along P s ls ↔ M.Along Q s ls)
  | [], _, _ => Iff.rfl
  | l :: ls, s, hs => by
    have rest : ∀ s', P s l → M.step s l = some s' → (M.Along P s' ls ↔ M.Along Q s' ls) :=
      fun s' hp hs' => along_iff hiff hstep ls (hstep s l s' hs hp hs')
    constructor
    · rintro ⟨hp, hls⟩
      exact ⟨(hiff s l hs).1 hp, fun s' hs' => (rest s' hp hs').1 (hls s' hs')⟩
    · rintro ⟨hq, hls⟩
      have hp := (hiff s l hs).2 hq
      exact ⟨hp, fun s' hs' => (rest s' hp hs').2 (hls s' hs')⟩

/-- A bad state at the end of one concrete run refutes a property of all reached states. -/
theorem refute {M : Machine σ ℓ} {P : σ → Prop} {s : σ} (ls : List ℓ) (hinit : M.init s)
    (ht : (M.trace s ls).isSome = true) (hbad : ¬ P ((M.trace s ls).get ht)) : ¬ ∀ s', Reach M Free s' → P s' :=
  fun h => hbad (h _ (reach_trace (.start hinit) (Option.some_get ht).symm))

end Machine

end Didicafe.Runs
