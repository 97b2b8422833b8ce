/-
One program among others, under assumptions on both sides. The one relies on what the others leave alone between its
operations, and they go by their own rules, which what the one performs is in keeping with. Then the one comes to the
end that follows from what it relies on, in whatever order all of them perform their operations.
-/
import Didicafe.Lib.Rely

namespace Didicafe.Effect

variable {Op : Type} {Out : Op → Type} {α β σ ι ι' κ : Type}

/-- What a program relies on, what it performs in a state, and the ways in which that may turn out. -/
structure Stand (Op : Type) (Out : Op → Type) (σ ι : Type) where
  rely : σ → σ → Prop
  performs : σ → Op → Prop
  handler : ι → Handler Op Out σ
  refl : ∀ s, rely s s
  trans : ∀ {s s' s''}, rely s s' → rely s' s'' → rely s s''

/-- From state `s` on, the program performs nothing else, and `Q` holds at its end and from then on. -/
def Stand.Ends (st : Stand Op Out σ ι) (Q : α → σ → Prop) : Prog Op Out α → σ → Prop
  | .done a, s => ∀ s', st.rely s s' → Q a s'
  | .call op next, s => ∀ s', st.rely s s' →
    st.performs s' op ∧ ∀ i, st.Ends Q (next (st.handler i op s').1) (st.handler i op s').2

namespace Stand

variable {st : Stand Op Out σ ι} {Q : α → σ → Prop} {p : Prog Op Out α} {s s' : σ}

theorem Ends.later (h : st.Ends Q p s) (hr : st.rely s s') : st.Ends Q p s' := by
  cases p with
  | done => exact fun s'' hr' => h s'' (st.trans hr hr')
  | call op next => exact fun s'' hr' => h s'' (st.trans hr hr')

theorem Ends.bind {f : α → Prog Op Out β} {R : β → σ → Prop} (h : st.Ends Q p s)
    (hf : ∀ a s', Q a s' → st.Ends R (f a) s') : st.Ends R (p >>= f) s := by
  show st.Ends R (p.bind f) s
  induction p generalizing s with
  | done a => exact hf a s (h s (st.refl s))
  | call op next ih =>
    intro s' hr
    obtain ⟨hok, hnext⟩ := h s' hr
    exact ⟨hok, fun i => ih _ (hnext i)⟩

theorem Ends.mono {R : α → σ → Prop} (h : st.Ends Q p s) (hQ : ∀ a s', Q a s' → R a s') : st.Ends R p s := by
  induction p generalizing s with
  | done a => exact fun s' hr => hQ a s' (h s' hr)
  | call op next ih =>
    intro s' hr
    obtain ⟨hok, hnext⟩ := h s' hr
    exact ⟨hok, fun i => ih _ (hnext i)⟩

theorem Ends.map {g : α → β} {R : β → σ → Prop} (h : st.Ends (fun a s => R (g a) s) p s) :
    st.Ends R (p.bind fun a => .done (g a)) s := by
  induction p generalizing s with
  | done a => exact h
  | call op next ih =>
    intro s' hr
    obtain ⟨hok, hnext⟩ := h s' hr
    exact ⟨hok, fun i => ih _ (hnext i)⟩

theorem Ends.void (h : st.Ends Q p s) : st.Ends (fun _ s' => ∃ a, Q a s') p.void s := by
  induction p generalizing s with
  | done a => exact fun s' hr => ⟨a, h s' hr⟩
  | call op next ih =>
    intro s' hr
    obtain ⟨hok, hnext⟩ := h s' hr
    exact ⟨hok, fun i => ih _ (hnext i)⟩

/-- What the rules of the others say of one of them. -/
def of (ru : Rules Op Out σ ι) : Stand Op Out σ ι := ⟨ru.rely, ru.allowed, ru.handler, ru.refl, ru.trans⟩

/-- A program that goes on with what is known of the answer of the first one. -/
theorem Ends.heeds_bind {ru : Rules Op Out σ ι} {f : α → Prog Op Out β} (h : (of ru).Ends Q p s)
    (hf : ∀ a s', Q a s' → ru.Heeds (f a) s') : ru.Heeds (p >>= f) s := by
  show ru.Heeds (p.bind f) s
  induction p generalizing s with
  | done a => exact hf a s (h s (ru.refl s))
  | call op next ih =>
    intro s' hr
    obtain ⟨hok, hnext⟩ := h s' hr
    exact ⟨hok, fun i => ih _ (hnext i)⟩

end Stand

/-- The one and the others: each side keeps to what the other one goes by. -/
structure Company (Op : Type) (Out : Op → Type) (σ ι ι' : Type) where
  one : Stand Op Out σ ι
  others : Rules Op Out σ ι'
  one_keeps : ∀ i op s, one.performs s op → others.rely s (one.handler i op s).2
  others_keep : ∀ i op s, others.allowed s op → one.rely s (others.handler i op s).2

/-- Thread `j` is the one, and comes to its end; all threads besides are others. -/
structure Company.Together (C : Company Op Out σ ι ι') (Q : α → σ → Prop) (j : Nat) (pool : Pool κ Op Out α σ) :
    Prop where
  one : ∃ t, pool.threads[j]? = some t ∧ C.one.Ends Q t.rest pool.shared
  others : ∀ k t, k ≠ j → pool.threads[k]? = some t → C.others.Heeds t.rest pool.shared

namespace Company.Together

variable {C : Company Op Out σ ι ι'} {Q : α → σ → Prop} {j : Nat} {pool pool' : Pool κ Op Out α σ}

/-- The one is started among others. -/
theorem start (hothers : ∀ t ∈ pool.threads, C.others.Heeds t.rest pool.shared) {t : Thread κ Op Out α}
    (ht : C.one.Ends Q t.rest pool.shared) : C.Together Q pool.threads.length (pool.spawn t) := by
  refine ⟨⟨t, List.getElem?_concat_length .., ht⟩, fun k t' hk ht' => ?_⟩
  rcases Nat.lt_or_gt_of_ne hk with hk | hk
  · rw [Pool.spawn, List.getElem?_append_left hk] at ht'
    exact hothers t' (List.mem_of_getElem? ht')
  · rw [Pool.spawn, List.getElem?_eq_none (by simpa using Nat.succ_le_of_lt hk)] at ht'
    cases ht'

/-- What holds at the end of the one. -/
theorem ended (h : C.Together Q j pool) {t : Thread κ Op Out α} (ht : pool.threads[j]? = some t) {a : α}
    (ha : t.rest = .done a) : Q a pool.shared := by
  obtain ⟨t', ht', hends⟩ := h.one
  rw [ht] at ht'
  cases ht'
  rw [ha] at hends
  exact hends pool.shared (C.one.refl _)

/-- Something else happens to the state. -/
theorem other (h : C.Together Q j pool) {s' : σ} (hone : C.one.rely pool.shared s')
    (hothers : C.others.rely pool.shared s') : C.Together Q j { pool with shared := s' } := by
  obtain ⟨t, ht, hends⟩ := h.one
  exact ⟨⟨t, ht, hends.later hone⟩, fun k t hk ht => (h.others k t hk ht).later hothers⟩

/-- Another program is started. -/
theorem spawn (h : C.Together Q j pool) {t : Thread κ Op Out α} (ht : C.others.Heeds t.rest pool.shared) :
    C.Together Q j (pool.spawn t) := by
  obtain ⟨one, hone, hends⟩ := h.one
  have hlt := (List.getElem?_eq_some_iff.1 hone).1
  refine ⟨⟨one, (List.getElem?_append_left hlt).trans hone, hends⟩, fun k t' hk ht' => ?_⟩
  rcases Nat.lt_trichotomy k pool.threads.length with hklt | rfl | hkgt
  · exact h.others k t' hk (by rwa [Pool.spawn, List.getElem?_append_left hklt] at ht')
  · rw [Pool.spawn, List.getElem?_append_right (Nat.le_refl _), Nat.sub_self] at ht'
    cases ht'
    exact ht
  · rw [Pool.spawn, List.getElem?_eq_none (by simpa using Nat.succ_le_of_lt hkgt)] at ht'
    cases ht'

theorem advance_one (h : C.Together Q j pool) {i : ι} (hs : pool.advance (C.one.handler i) j = some pool') :
    C.Together Q j pool' := by
  obtain ⟨tag, op, next, ht, -, rfl⟩ := Pool.advance_call hs
  obtain ⟨t, ht', hends⟩ := h.one
  rw [ht] at ht'
  cases ht'
  obtain ⟨hok, hnext⟩ := hends pool.shared (C.one.refl _)
  have hlt := (List.getElem?_eq_some_iff.1 ht).1
  refine ⟨⟨_, List.getElem?_set_self hlt, hnext i⟩, fun k t hk hkt => ?_⟩
  rw [List.getElem?_set_ne (Ne.symm hk)] at hkt
  exact (h.others k t hk hkt).later (C.one_keeps i op _ hok)

theorem advance_other (h : C.Together Q j pool) {i : ι'} {k : Nat} (hk : k ≠ j)
    (hs : pool.advance (C.others.handler i) k = some pool') : C.Together Q j pool' := by
  obtain ⟨tag, op, next, ht, -, rfl⟩ := Pool.advance_call hs
  obtain ⟨hok, hnext⟩ := h.others k _ hk ht pool.shared (C.others.refl _)
  obtain ⟨one, hone, hends⟩ := h.one
  refine ⟨⟨one, (List.getElem?_set_ne hk).trans hone, hends.later (C.others_keep i op _ hok)⟩, fun k' t hk' hkt => ?_⟩
  rcases Pool.getElem?_set_cases hkt with ⟨rfl, rfl⟩ | ⟨-, hkt⟩
  · exact hnext i
  · exact (h.others k' t hk' hkt).later (C.others.keeps i op _ hok)

end Company.Together

end Didicafe.Effect
