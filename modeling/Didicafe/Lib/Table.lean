/-
Tables as lists of rows: conditional update, insertion under a new key, deletion, the row with a given
key, rows of which at most one per key satisfies a condition, conditions on columns that can be `NULL`, and the pages
of a list.
-/
import Mathlib.Data.List.Nodup
import Mathlib.Data.List.Forall2

namespace Didicafe.Table

variable {α κ : Type}

/-- `UPDATE … SET f WHERE p`. -/
def updateWhere (p : α → Bool) (f : α → α) (rows : List α) : List α :=
  rows.map fun a => if p a then f a else a

theorem mem_updateWhere {p : α → Bool} {f : α → α} {rows : List α} {b : α} :
    b ∈ updateWhere p f rows ↔ (∃ a ∈ rows, p a = true ∧ b = f a) ∨ (b ∈ rows ∧ p b = false) := by
  unfold updateWhere
  rw [List.mem_map]
  constructor
  · rintro ⟨a, ha, rfl⟩
    by_cases hp : p a = true
    · rw [if_pos hp]; exact .inl ⟨a, ha, hp, rfl⟩
    · rw [if_neg hp]; exact .inr ⟨ha, by simpa using hp⟩
  · rintro (⟨a, ha, hp, rfl⟩ | ⟨hb, hp⟩)
    · exact ⟨a, ha, by rw [if_pos hp]⟩
    · exact ⟨b, hb, by rw [if_neg (by simp [hp])]⟩

/-- An update that does not write a column leaves the column as it is. -/
theorem map_updateWhere {key : α → κ} {p : α → Bool} {f : α → α} (hf : ∀ a, key (f a) = key a)
    (rows : List α) : (updateWhere p f rows).map key = rows.map key := by
  unfold updateWhere
  rw [List.map_map]
  apply List.map_congr_left
  intro a _
  by_cases hp : p a = true
  · simp [hp, hf]
  · simp [hp]

/-- An update that writes what is there. -/
theorem updateWhere_self {p : α → Bool} {f : α → α} {rows : List α} (h : ∀ a ∈ rows, p a = true → f a = a) :
    updateWhere p f rows = rows := by
  unfold updateWhere
  rw [List.map_congr_left (g := id) fun a ha => ?_, List.map_id]
  split
  · exact h a ha ‹_›
  · rfl

/-- Updates of one key after the other are one update of all of them. -/
theorem foldl_updateWhere [BEq κ] [LawfulBEq κ] {key : α → κ} {f : α → α} (hk : ∀ a, key (f a) = key a)
    (hf : ∀ a, f (f a) = f a) (ks : List κ) (rows : List α) :
    ks.foldl (fun rows k => updateWhere (fun a => key a == k) f rows) rows =
      updateWhere (fun a => ks.contains (key a)) f rows := by
  induction ks generalizing rows with
  | nil => simp [updateWhere]
  | cons k ks ih =>
    rw [List.foldl_cons, ih]
    unfold updateWhere
    rw [List.map_map]
    apply List.map_congr_left
    intro a _
    by_cases hak : key a = k
    · by_cases hks : k ∈ ks <;> simp [hak, hk, hf, hks]
    · by_cases hks : key a ∈ ks <;> simp [hak, hks]

theorem forall_updateWhere {p : α → Bool} {f : α → α} {rows : List α} {Q : α → Prop}
    (h : ∀ a ∈ rows, Q a) (hf : ∀ a ∈ rows, p a = true → Q (f a)) : ∀ b ∈ updateWhere p f rows, Q b := by
  intro b hb
  rcases mem_updateWhere.1 hb with ⟨a, ha, hp, rfl⟩ | ⟨hb, -⟩
  · exact hf a ha hp
  · exact h b hb

/-- An update that selects the same rows and leaves what is read of them as it is. -/
theorem map_filter_updateWhere {β : Type} {g : α → β} {c p : α → Bool} {f : α → α} (hg : ∀ a, g (f a) = g a)
    {rows : List α} (hc : ∀ a ∈ rows, p a = true → c (f a) = c a) :
    ((updateWhere p f rows).filter c).map g = (rows.filter c).map g := by
  have hkeep : ∀ a ∈ rows, (c ∘ fun a => if p a then f a else a) a = c a := by
    intro a ha
    simp only [Function.comp_apply]
    split
    · exact hc a ha ‹_›
    · rfl
  unfold updateWhere
  rw [List.filter_map, List.map_map, List.filter_congr hkeep]
  apply List.map_congr_left
  intro a _
  simp only [Function.comp_apply]
  split
  · exact hg a
  · rfl

/-- The row with a key after an update that does not write the key. -/
theorem find?_updateWhere [BEq κ] {key : α → κ} {p : α → Bool} {f : α → α} (hk : ∀ a, key (f a) = key a) {rows : List α}
    {k : κ} : (updateWhere p f rows).find? (fun a => key a == k) =
      (rows.find? fun a => key a == k).map fun a => if p a then f a else a := by
  unfold updateWhere
  rw [List.find?_map]
  congr 2
  funext a
  simp only [Function.comp_apply]
  split
  · rw [hk]
  · rfl

/-! ## Inserting and deleting -/

/-- A row with a key above all keys keeps the keys distinct. -/
theorem nodup_map_append [LT κ] [Std.Irrefl (· < · : κ → κ → Prop)] {key : α → κ} {rows : List α}
    (hn : (rows.map key).Nodup) {a : α} (ha : ∀ b ∈ rows, key b < key a) : ((rows ++ [a]).map key).Nodup := by
  rw [List.map_append, List.map_singleton]
  refine List.nodup_append.2 ⟨hn, List.nodup_singleton _, fun k hk k' hk' he => ?_⟩
  obtain ⟨b, hb, rfl⟩ := List.mem_map.1 hk
  rw [List.mem_singleton.1 hk'] at he
  have hlt := ha b hb
  rw [he] at hlt
  exact Std.Irrefl.irrefl _ hlt

/-- `DELETE … WHERE p`. -/
def deleteWhere (p : α → Bool) (rows : List α) : List α := rows.filter fun a => !p a

theorem mem_deleteWhere {p : α → Bool} {rows : List α} {a : α} : a ∈ deleteWhere p rows ↔ a ∈ rows ∧ p a = false := by
  unfold deleteWhere
  rw [List.mem_filter, Bool.not_eq_true']

theorem nodup_map_deleteWhere {key : α → κ} {p : α → Bool} {rows : List α} (hn : (rows.map key).Nodup) :
    ((deleteWhere p rows).map key).Nodup := hn.sublist (List.filter_sublist.map key)

/-! ## The row with a key -/

theorem eq_of_key {key : α → κ} {rows : List α} (hn : (rows.map key).Nodup) {a b : α} (ha : a ∈ rows)
    (hb : b ∈ rows) (h : key a = key b) : a = b :=
  List.inj_on_of_nodup_map hn ha hb h

theorem find_key_iff [BEq κ] [LawfulBEq κ] {key : α → κ} {rows : List α} (hn : (rows.map key).Nodup)
    {k : κ} {a : α} : rows.find? (fun r => key r == k) = some a ↔ a ∈ rows ∧ key a = k := by
  constructor
  · intro h
    exact ⟨List.mem_of_find?_eq_some h, by simpa using List.find?_some h⟩
  · rintro ⟨ha, rfl⟩
    cases hf : rows.find? (fun r => key r == key a) with
    | none =>
      have := List.find?_eq_none.1 hf a ha
      simp at this
    | some b =>
      have hb : key b = key a := by simpa using List.find?_some hf
      rw [eq_of_key hn (List.mem_of_find?_eq_some hf) ha hb]

/-! ## At most one row per key -/

/-- At most one row satisfying `p` for each key. -/
def Unique (p : α → Bool) (key : α → κ) (rows : List α) : Prop :=
  ∀ a ∈ rows, ∀ b ∈ rows, p a = true → p b = true → key a = key b → a = b

theorem Unique.deleteWhere {p q : α → Bool} {key : α → κ} {rows : List α} (h : Unique p key rows) :
    Unique p key (deleteWhere q rows) :=
  fun a ha b hb => h a (mem_deleteWhere.1 ha).1 b (mem_deleteWhere.1 hb).1

theorem Unique.updateWhere {p q : α → Bool} {key : α → κ} {f : α → α} {rows : List α}
    (h : Unique p key rows) (hp : ∀ a, p (f a) = true → p a = true) (hk : ∀ a, key (f a) = key a) :
    Unique p key (updateWhere q f rows) := by
  intro a ha b hb pa pb hab
  obtain ⟨a₀, ha₀, rfl⟩ := List.mem_map.1 ha
  obtain ⟨b₀, hb₀, rfl⟩ := List.mem_map.1 hb
  have key_eq : ∀ c, key (if q c = true then f c else c) = key c := fun c => by split <;> simp [hk]
  have active : ∀ c, p (if q c = true then f c else c) = true → p c = true := fun c hc => by
    split at hc
    · exact hp c hc
    · exact hc
  rw [key_eq, key_eq] at hab
  rw [h a₀ ha₀ b₀ hb₀ (active a₀ pa) (active b₀ pb) hab]

/-! ## Conditions with `NULL` -/

/-- The value of a condition: true, false or `NULL`. -/
abbrev Cond := Option Bool

namespace Cond

protected def and : Cond → Cond → Cond
  | some false, _ | _, some false => some false
  | some true, some true => some true
  | _, _ => none

protected def or : Cond → Cond → Cond
  | some true, _ | _, some true => some true
  | some false, some false => some false
  | _, _ => none

/-- A condition selects a row only when it is true. -/
def holds (c : Cond) : Bool := c == some true

@[simp] theorem holds_some (b : Bool) : holds (some b) = b := by cases b <;> rfl

@[simp] theorem holds_none : holds none = false := rfl

@[simp] theorem holds_and (c d : Cond) : (c.and d).holds = (c.holds && d.holds) := by
  rcases c with _ | _ | _ <;> rcases d with _ | _ | _ <;> rfl

@[simp] theorem holds_or (c d : Cond) : (c.or d).holds = (c.holds || d.holds) := by
  rcases c with _ | _ | _ <;> rcases d with _ | _ | _ <;> rfl

end Cond

/-! ## Pages -/

/-- `LIMIT … OFFSET …`: a negative limit is none, and a negative offset is zero. -/
def limitOffset (limit offset : Int) (rows : List α) : List α :=
  if limit < 0 then rows.drop offset.toNat else (rows.drop offset.toNat).take limit.toNat

theorem flatMap_limitOffset {per : Int} (hper : 0 < per) (rows : List α) (n : Nat) :
    (List.range n).flatMap (fun i : Nat => limitOffset per (i * per) rows) = rows.take (n * per.toNat) := by
  induction n with
  | zero => simp
  | succ n ih =>
    have hoff : ((n : Int) * per).toNat = n * per.toNat := by
      rw [Int.toNat_mul (by omega) (by omega), Int.toNat_natCast]
    rw [List.range_succ, List.flatMap_append, ih, List.flatMap_singleton, limitOffset, if_neg (by omega), hoff,
      Nat.succ_mul, List.take_add]

/-- As many pages as there are, one after the other, are the list. -/
theorem flatMap_pages {per : Int} (hper : 0 < per) (rows : List α) :
    (List.range ((rows.length + per - 1) / per).toNat).flatMap (fun i : Nat => limitOffset per (i * per) rows) =
      rows := by
  rw [flatMap_limitOffset hper]
  apply List.take_of_length_le
  have hceil : (rows.length : Int) ≤ (rows.length + per - 1) / per * per := by
    have hmod := Int.emod_lt_of_pos (rows.length + per - 1) hper
    have hdiv := Int.mul_ediv_add_emod (rows.length + per - 1) per
    rw [Int.mul_comm] at hdiv
    omega
  have hq : 0 ≤ (rows.length + per - 1) / per := Int.ediv_nonneg (by omega) (by omega)
  apply Int.ofNat_le.1
  rw [Int.natCast_mul, Int.toNat_of_nonneg hq, Int.toNat_of_nonneg (by omega)]
  exact hceil

/-- The number of pages: a page after the first `k` is empty unless there are more of them. -/
theorem pages_le_iff {per : Int} (hper : 0 < per) (n k : Int) : (n + per - 1) / per ≤ k ↔ n ≤ k * per := by
  rw [← Int.lt_add_one_iff, Int.ediv_lt_iff_lt_mul hper, Int.add_mul, Int.one_mul]
  omega

theorem limitOffset_eq_nil_iff {per offset : Int} (hper : 0 < per) (hoff : 0 ≤ offset) (rows : List α) :
    limitOffset per offset rows = [] ↔ rows.length ≤ offset := by
  rw [limitOffset, if_neg (by omega), List.take_eq_nil_iff, List.drop_eq_nil_iff]
  omega

/-! ## Values computed row by row -/

theorem mapM_ok_iff {β ε : Type} {f : α → Except ε β} :
    ∀ {rows : List α} {bs : List β}, rows.mapM f = .ok bs ↔ List.Forall₂ (fun a b => f a = .ok b) rows bs
  | [], bs => by
    rw [List.forall₂_nil_left_iff]
    exact ⟨fun h => by cases h; rfl, fun h => by rw [h]; rfl⟩
  | a :: rows, bs => by
    rw [List.mapM_cons]
    constructor
    · intro h
      cases ha : f a with
      | error e => rw [ha] at h; cases h
      | ok b =>
        cases hrows : rows.mapM f with
        | error e => rw [ha, hrows] at h; cases h
        | ok bs' =>
          rw [ha, hrows] at h
          cases h
          exact .cons ha (mapM_ok_iff.1 hrows)
    · intro h
      cases h with
      | cons ha hrows => rw [ha, mapM_ok_iff.2 hrows]; rfl

/-- What has succeeded for a list has succeeded for its elements. -/
theorem mem_mapM_ok {β ε : Type} {f : α → Except ε β} {rows : List α} {bs : List β} (h : rows.mapM f = .ok bs) :
    (∀ b ∈ bs, ∃ a ∈ rows, f a = .ok b) ∧ ∀ a ∈ rows, ∃ b ∈ bs, f a = .ok b := by
  induction mapM_ok_iff.1 h with
  | nil => exact ⟨fun _ hb => (List.not_mem_nil hb).elim, fun _ ha => (List.not_mem_nil ha).elim⟩
  | cons hab hrest ih =>
    obtain ⟨hb, ha⟩ := ih (mapM_ok_iff.2 hrest)
    constructor
    · intro b hmem
      rcases List.mem_cons.1 hmem with rfl | hmem
      · exact ⟨_, List.mem_cons_self .., hab⟩
      · obtain ⟨a, hmem, hf⟩ := hb b hmem
        exact ⟨a, List.mem_cons_of_mem _ hmem, hf⟩
    · intro a hmem
      rcases List.mem_cons.1 hmem with rfl | hmem
      · exact ⟨_, List.mem_cons_self .., hab⟩
      · obtain ⟨b, hmem, hf⟩ := ha a hmem
        exact ⟨b, List.mem_cons_of_mem _ hmem, hf⟩

theorem mapM_ok {β ε : Type} {f : α → Except ε β} {g : α → β} {rows : List α} (h : ∀ a ∈ rows, f a = .ok (g a)) :
    rows.mapM f = .ok (rows.map g) :=
  mapM_ok_iff.2 (List.forall₂_map_right_iff.2 (List.forall₂_same.2 h))

end Didicafe.Table
