/-
Unsigned decimal numbers in text: a number zero-padded to a width, the scanner that reads at most
so many digits off the front of a text, and that scanning a padded number gives it back. Padded numbers
of one width are ordered like their texts.
-/
import Mathlib.Algebra.Group.Nat.Defs
import Mathlib.Tactic.Common

namespace Didicafe.Decimal

/-- `n` in decimal, zero-padded on the left to at least `width` digits. -/
def padded (width n : Nat) : List Char := List.leftpad width '0' (Nat.toDigits 10 n)

/-- Splits off the longest prefix of ASCII digits of at most `max` characters. -/
def scanDigits : (max : Nat) → List Char → List Char × List Char
  | max + 1, c :: s =>
    if c.isDigit then (c :: (scanDigits max s).1, (scanDigits max s).2) else ([], c :: s)
  | _, s => ([], s)

/-- The number read from at most `max` digits, and the rest of the text; at least one digit is
required. -/
def number (max : Nat) (s : List Char) : Option (Nat × List Char) :=
  match scanDigits max s with
  | ([], _) => none
  | (ds, rest) => some (Nat.ofDigitChars 10 ds 0, rest)

theorem isDigit_of_mem_padded {width n : Nat} {c : Char} (h : c ∈ padded width n) : c.isDigit = true := by
  unfold padded List.leftpad at h
  rcases List.mem_append.1 h with h | h
  · rw [(List.mem_replicate.1 h).2]; rfl
  · exact Nat.isDigit_of_mem_toDigits (by decide) (by decide) h

theorem padded_ne_nil (width n : Nat) : padded width n ≠ [] := by
  unfold padded List.leftpad
  simp [Nat.toDigits_ne_nil]

theorem ofDigitChars_padded (width n : Nat) : Nat.ofDigitChars 10 (padded width n) 0 = n := by
  unfold padded List.leftpad
  rw [Nat.ofDigitChars_append, Nat.ofDigitChars_replicate_zero]
  simp

theorem length_padded_of_lt {width n : Nat} (hw : 0 < width) (h : n < 10 ^ width) :
    (padded width n).length = width := by
  have hl := (Nat.length_toDigits_le_iff (by decide) hw).2 h
  unfold padded List.leftpad
  rw [List.length_append, List.length_replicate]; omega

/-- A text that does not start with a digit. -/
def Stops (s : List Char) : Prop := ∀ c ∈ s.head?, c.isDigit = false

theorem scanDigits_append {ds rest : List Char} (hd : ∀ c ∈ ds, c.isDigit = true) :
    ∀ {max : Nat}, ds.length ≤ max → (ds.length = max ∨ Stops rest) → scanDigits max (ds ++ rest) = (ds, rest) := by
  induction ds with
  | nil =>
    intro max _ hr
    cases max with
    | zero => cases rest <;> rfl
    | succ max =>
      rcases hr with hr | hr
      · cases hr
      · cases rest with
        | nil => rfl
        | cons c rest => simp [scanDigits, hr c rfl]
  | cons c ds ih =>
    intro max hl hr
    cases max with
    | zero => cases hl
    | succ max =>
      have : scanDigits max (ds ++ rest) = (ds, rest) :=
        ih (fun x hx => hd x (List.mem_cons_of_mem _ hx)) (by simpa using hl)
          (hr.imp_left fun h => by simpa using h)
      simp [scanDigits, hd c, this]

/-- A padded number is read back when the scanner takes all its digits and no more. -/
theorem number_padded {max width n : Nat} {rest : List Char} (hl : (padded width n).length ≤ max)
    (hr : (padded width n).length = max ∨ Stops rest) :
    number max (padded width n ++ rest) = some (n, rest) := by
  unfold number
  rw [scanDigits_append (fun c hc => isDigit_of_mem_padded hc) hl hr]
  have hne := padded_ne_nil width n
  have hv := ofDigitChars_padded width n
  generalize padded width n = ds at hne hv
  cases ds with
  | nil => exact absurd rfl hne
  | cons c ds => simp only [hv]

theorem number_padded_exact {width n : Nat} (hw : 0 < width) (h : n < 10 ^ width) (rest : List Char) :
    number width (padded width n ++ rest) = some (n, rest) :=
  number_padded (Nat.le_of_eq (length_padded_of_lt hw h)) (.inl (length_padded_of_lt hw h))

/-! ## Numbers of one width are ordered like their texts -/

/-- The number read from digits. -/
def value (ds : List Char) : Nat := Nat.ofDigitChars 10 ds 0

theorem value_cons (c : Char) (ds : List Char) :
    value (c :: ds) = 10 ^ ds.length * (c.toNat - '0'.toNat) + value ds := by
  unfold value
  rw [Nat.ofDigitChars_cons, Nat.ofDigitChars_eq_ofDigitChars_zero]
  simp

theorem toNat_of_isDigit {c : Char} (h : c.isDigit = true) : '0'.toNat ≤ c.toNat ∧ c.toNat ≤ '0'.toNat + 9 := by
  simp only [Char.isDigit, Bool.and_eq_true, decide_eq_true_eq, UInt32.le_iff_toNat_le] at h
  exact h

theorem value_lt {ds : List Char} (hd : ∀ c ∈ ds, c.isDigit = true) : value ds < 10 ^ ds.length := by
  induction ds with
  | nil => decide
  | cons c ds ih =>
    obtain ⟨hc, hds⟩ := List.forall_mem_cons.1 hd
    have hc := toNat_of_isDigit hc
    have hle : 10 ^ ds.length * (c.toNat - '0'.toNat) ≤ 10 ^ ds.length * 9 := Nat.mul_le_mul_left _ (by omega)
    have ih := ih hds
    rw [value_cons, List.length_cons, Nat.pow_succ]
    omega

/-- Texts that begin with equally many digits are ordered by the numbers these are, then by the rest. -/
theorem digits_append_lt {ds : List Char} (hd : ∀ c ∈ ds, c.isDigit = true) {es : List Char}
    (he : ∀ c ∈ es, c.isDigit = true) (hl : ds.length = es.length) (xs ys : List Char) :
    ds ++ xs < es ++ ys ↔ value ds < value es ∨ value ds = value es ∧ xs < ys := by
  induction ds generalizing es with
  | nil =>
    obtain rfl := List.length_eq_zero_iff.1 hl.symm
    simp
  | cons c ds ih =>
    cases es with
    | nil => cases hl
    | cons e es =>
      obtain ⟨hc, hds⟩ := List.forall_mem_cons.1 hd
      obtain ⟨he, hes⟩ := List.forall_mem_cons.1 he
      have hl : ds.length = es.length := Nat.succ.inj hl
      have hlt : c < e ↔ c.toNat < e.toNat := UInt32.lt_iff_toNat_lt
      have heq : c = e ↔ c.toNat = e.toNat := Char.toNat_inj.symm
      have hc := toNat_of_isDigit hc
      have he := toNat_of_isDigit he
      have hvd := value_lt hds
      have hve := value_lt hes
      rw [← hl] at hve
      rw [List.cons_append, List.cons_append, List.cons_lt_cons_iff, ih hds hes hl, value_cons, value_cons, ← hl, hlt,
        heq]
      generalize 10 ^ ds.length = p at hvd hve ⊢
      rcases Nat.lt_trichotomy c.toNat e.toNat with h | h | h
      · have : p * (c.toNat - '0'.toNat + 1) ≤ p * (e.toNat - '0'.toNat) := Nat.mul_le_mul_left _ (by omega)
        rw [Nat.mul_add] at this
        constructor <;> intro _ <;> left <;> omega
      · rw [h]
        simp
      · have : p * (e.toNat - '0'.toNat + 1) ≤ p * (c.toNat - '0'.toNat) := Nat.mul_le_mul_left _ (by omega)
        rw [Nat.mul_add] at this
        omega

theorem padded_append_lt {width m n : Nat} (hw : 0 < width) (hm : m < 10 ^ width) (hn : n < 10 ^ width)
    (xs ys : List Char) :
    padded width m ++ xs < padded width n ++ ys ↔ m < n ∨ m = n ∧ xs < ys := by
  rw [digits_append_lt (fun _ hc => isDigit_of_mem_padded hc) (fun _ hc => isDigit_of_mem_padded hc)
    (by rw [length_padded_of_lt hw hm, length_padded_of_lt hw hn])]
  unfold value
  rw [ofDigitChars_padded, ofDigitChars_padded]

end Didicafe.Decimal
