/-
Tables over time. A new row takes its key from a counter, which only goes up. So the rows of a later table are those of
an earlier one, changed as a relation allows, and rows with keys that had not been drawn then; and a key that is gone
does not come back.
-/
import Didicafe.Lib.Table
import Mathlib.Order.Basic

namespace Didicafe.Table

variable {α κ : Type} {key : α → κ} {R : α → α → Prop}

/-- From the table `rows`, whose next key is `next`, to a later one. -/
structure Evolves [LE κ] (key : α → κ) (R : α → α → Prop) (rows : List α) (next : κ) (rows' : List α) (next' : κ) :
    Prop where
  mono : next ≤ next'
  row : ∀ b ∈ rows', (∃ a ∈ rows, key a = key b ∧ R a b) ∨ next ≤ key b

section Preorder

variable [Preorder κ]

namespace Evolves

variable {rows rows' rows'' : List α} {next next' next'' : κ}

theorem refl (hR : ∀ a, R a a) (rows : List α) (next : κ) : Evolves key R rows next rows next :=
  ⟨le_rfl, fun b hb => .inl ⟨b, hb, rfl, hR b⟩⟩

theorem trans (hR : ∀ {a b c}, R a b → R b c → R a c) (h : Evolves key R rows next rows' next')
    (h' : Evolves key R rows' next' rows'' next'') : Evolves key R rows next rows'' next'' := by
  refine ⟨h.mono.trans h'.mono, fun c hc => ?_⟩
  rcases h'.row c hc with ⟨b, hb, hbc, hRbc⟩ | hc
  · rcases h.row b hb with ⟨a, ha, hab, hRab⟩ | hb
    · exact .inl ⟨a, ha, hab.trans hbc, hR hRab hRbc⟩
    · exact .inr (hbc ▸ hb)
  · exact .inr (h.mono.trans hc)

/-! ### Statements -/

theorem updateWhere (hR : ∀ a, R a a) {p : α → Bool} {f : α → α} (hk : ∀ a, key (f a) = key a)
    (hf : ∀ a ∈ rows, p a = true → R a (f a)) : Evolves key R rows next (updateWhere p f rows) next := by
  refine ⟨le_rfl, fun b hb => ?_⟩
  rcases mem_updateWhere.1 hb with ⟨a, ha, hp, rfl⟩ | ⟨hb, -⟩
  · exact .inl ⟨a, ha, (hk a).symm, hf a ha hp⟩
  · exact .inl ⟨b, hb, rfl, hR b⟩

theorem deleteWhere (hR : ∀ a, R a a) (p : α → Bool) : Evolves key R rows next (deleteWhere p rows) next :=
  ⟨le_rfl, fun b hb => .inl ⟨b, (mem_deleteWhere.1 hb).1, rfl, hR b⟩⟩

theorem append (hR : ∀ a, R a a) {a : α} (ha : key a = next) (hnext : next ≤ next') :
    Evolves key R rows next (rows ++ [a]) next' := by
  refine ⟨hnext, fun b hb => ?_⟩
  rcases List.mem_append.1 hb with hb | hb
  · exact .inl ⟨b, hb, rfl, hR b⟩
  · exact .inr (List.mem_singleton.1 hb ▸ ha.ge)

end Evolves

/-! ## What a key names -/

/-- A row whose key had been drawn is an earlier row. -/
theorem Evolves.earlier {rows rows' : List α} {next next' : κ} (h : Evolves key R rows next rows' next') {b : α}
    (hb : b ∈ rows') (hlt : key b < next) : ∃ a ∈ rows, key a = key b ∧ R a b :=
  (h.row b hb).resolve_right hlt.not_ge

/-- What a key named before it names later, if anything. -/
theorem Evolves.same {rows rows' : List α} {next next' : κ} (h : Evolves key R rows next rows' next')
    (hn : (rows.map key).Nodup) (hseq : ∀ a ∈ rows, key a < next) {a b : α} (ha : a ∈ rows) (hb : b ∈ rows')
    (hk : key b = key a) : R a b := by
  obtain ⟨a', ha', hab, hR⟩ := h.earlier hb (hk ▸ hseq a ha)
  rwa [← eq_of_key hn ha' ha (hab.trans hk)]

/-- A key that had been drawn and names nothing names nothing later. -/
theorem Evolves.not_again {rows rows' : List α} {next next' : κ} (h : Evolves key R rows next rows' next') {k : κ}
    (hk : k < next) (hnone : ∀ a ∈ rows, key a ≠ k) : ∀ b ∈ rows', key b ≠ k := by
  rintro b hb rfl
  obtain ⟨a, ha, hab, -⟩ := h.earlier hb hk
  exact hnone a ha hab

end Preorder

end Didicafe.Table
