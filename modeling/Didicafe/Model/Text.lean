/-
What the code takes from std's `str`: lengths and positions in bytes, trimming and upper-casing, on lists of characters.
The Unicode case mapping depends on the toolchain, so it is a parameter with the facts that are used of it.
-/
import Didicafe.Model.Time
import Mathlib.Data.List.DropRight

namespace Didicafe

/-! ## Bytes -/

/-- `len`. -/
def byteLen : List Char → Nat
  | [] => 0
  | c :: s => c.utf8Size + byteLen s

/-- `as_bytes`. -/
def utf8 (s : List Char) : List UInt8 := s.flatMap String.utf8EncodeChar

/-- `&s[n..]`, none where it panics: past the end or inside of a character. -/
def sliceFrom (n : Nat) : List Char → Option (List Char)
  | [] => if n = 0 then some [] else none
  | c :: s => if n = 0 then some (c :: s) else if c.utf8Size ≤ n then sliceFrom (n - c.utf8Size) s else none

def isAscii (c : Char) : Bool := c.toNat < 128

theorem utf8_append (s t : List Char) : utf8 (s ++ t) = utf8 s ++ utf8 t := List.flatMap_append

theorem length_utf8 (s : List Char) : (utf8 s).length = byteLen s := by
  induction s with
  | nil => rfl
  | cons c s ih =>
    rw [← List.singleton_append, utf8_append, List.length_append, ih]
    simp [utf8, byteLen]

theorem utf8Size_eq_one_iff {c : Char} : c.utf8Size = 1 ↔ isAscii c := by
  rw [Char.utf8Size_eq_one_iff, isAscii, decide_eq_true_iff, UInt32.le_iff_toNat_le]
  exact Nat.lt_succ_iff.symm

/-- `as_bytes` of a string. -/
theorem toList_toUTF8 (s : String) : s.toUTF8.data.toList = utf8 s.toList := by
  rw [String.toUTF8_eq_toByteArray, ← String.utf8Encode_toList]
  unfold List.utf8Encode utf8
  simp

theorem isAscii_iff {c : Char} : isAscii c ↔ c.val.toNat ≤ 127 := by
  rw [isAscii, decide_eq_true_iff]
  exact Nat.lt_succ_iff

/-- An ASCII character is its only byte. -/
theorem utf8EncodeChar_of_isAscii {c : Char} (h : isAscii c) : String.utf8EncodeChar c = [UInt8.ofNat c.toNat] := by
  simp only [String.utf8EncodeChar, isAscii_iff.1 h, if_true]
  rfl

/-- The first byte of any other character has its highest bit set. -/
theorem utf8EncodeChar_of_not_isAscii {c : Char} (h : ¬ isAscii c) :
    ∃ b bs, String.utf8EncodeChar c = b :: bs ∧ 128 ≤ b.toNat := by
  have hlt := c.val.toNat_lt
  simp only [String.utf8EncodeChar, mt isAscii_iff.2 h, if_false]
  split
  · refine ⟨_, _, rfl, ?_⟩
    rw [UInt8.toNat_ofNat']
    omega
  · split
    · refine ⟨_, _, rfl, ?_⟩
      rw [UInt8.toNat_ofNat']
      omega
    · refine ⟨_, _, rfl, ?_⟩
      rw [UInt8.toNat_ofNat']
      omega

theorem byteLen_cons (c : Char) (s : List Char) : byteLen (c :: s) = c.utf8Size + byteLen s := rfl

theorem length_le_byteLen (s : List Char) : s.length ≤ byteLen s := by
  induction s with
  | nil => exact le_rfl
  | cons c s ih =>
    have hpos := c.utf8Size_pos
    rw [byteLen_cons, List.length_cons]
    omega

/-- A text has as many bytes as characters exactly when it is ASCII. -/
theorem byteLen_eq_length_iff {s : List Char} : byteLen s = s.length ↔ ∀ c ∈ s, isAscii c := by
  induction s with
  | nil => simp [byteLen]
  | cons c s ih =>
    have hpos := c.utf8Size_pos
    have hle := length_le_byteLen s
    rw [List.forall_mem_cons, ← ih, ← utf8Size_eq_one_iff, byteLen_cons, List.length_cons]
    omega

/-- A slice behind a text that it starts with. -/
theorem sliceFrom_append (s t : List Char) : sliceFrom (byteLen s) (s ++ t) = some t := by
  induction s with
  | nil => cases t <;> rfl
  | cons c s ih =>
    have hpos := c.utf8Size_pos
    rw [byteLen_cons, List.cons_append, sliceFrom, if_neg (by omega), if_pos (by omega), Nat.add_sub_cancel_left, ih]

/-! ## Trimming -/

/-- `trim`. -/
def trim (s : List Char) : List Char := (trimStart s).rdropWhile isWhitespace

/-- A text without white space at its ends. -/
def Trimmed (s : List Char) : Prop :=
  (∀ c ∈ s.head?, isWhitespace c = false) ∧ ∀ c ∈ s.getLast?, isWhitespace c = false

theorem trim_of_trimmed {s : List Char} (h : Trimmed s) : trim s = s := by
  have hstart : trimStart s = s := by
    unfold trimStart
    cases s with
    | nil => rfl
    | cons c s => exact List.dropWhile_cons_of_neg (by simp [h.1 c rfl])
  unfold trim
  rw [hstart, List.rdropWhile_eq_self_iff]
  intro hne
  simp [h.2 _ (List.getLast?_eq_getLast_of_ne_nil hne)]

theorem trimmed_trim (s : List Char) : Trimmed (trim s) := by
  constructor
  · intro c hc
    obtain ⟨t, ht⟩ := List.rdropWhile_prefix isWhitespace (trimStart s)
    have hstart : (trimStart s).head? = some c := by
      rw [← ht, List.head?_append, show (List.rdropWhile isWhitespace (trimStart s)).head? = some c from hc]
      rfl
    have hnot := List.head?_dropWhile_not isWhitespace s
    rw [show (List.dropWhile isWhitespace s).head? = some c from hstart] at hnot
    exact hnot
  · intro c hc
    have hne : trim s ≠ [] := by
      rintro h
      rw [h] at hc
      cases hc
    rw [List.getLast?_eq_getLast_of_ne_nil hne] at hc
    cases hc
    exact Bool.eq_false_iff.2 (List.rdropWhile_last_not isWhitespace (trimStart s) hne)

/-! ## Upper case -/

/-- A case mapping, with what Unicode says of it: ASCII characters are mapped as in ASCII, and no character is mapped to
the empty text or to white space. -/
structure CaseTable where
  upper : Char → List Char
  ascii : ∀ c, isAscii c → upper c = [c.toUpper]
  ne_nil : ∀ c, upper c ≠ []
  notWhitespace : ∀ c, isWhitespace c = false → ∀ d ∈ upper c, isWhitespace d = false

/-- `to_uppercase`. -/
def CaseTable.toUppercase (u : CaseTable) (s : List Char) : List Char := s.flatMap u.upper

theorem length_le_flatMap {α : Type} {f : α → List α} (hf : ∀ a, f a ≠ []) (l : List α) :
    l.length ≤ (l.flatMap f).length := by
  induction l with
  | nil => exact le_rfl
  | cons a l ih =>
    have hpos := List.length_pos_iff.2 (hf a)
    rw [List.flatMap_cons, List.length_append, List.length_cons]
    omega

/-- A character-wise mapping without empty results keeps a text exactly when it keeps each of its characters. -/
theorem flatMap_eq_self {α : Type} {f : α → List α} (hf : ∀ a, f a ≠ []) {l : List α} :
    l.flatMap f = l ↔ ∀ a ∈ l, f a = [a] := by
  induction l with
  | nil => simp
  | cons a l ih =>
    rw [List.flatMap_cons, List.forall_mem_cons, ← ih]
    constructor
    · intro h
      have hlen := congrArg List.length h
      have hpos := List.length_pos_iff.2 (hf a)
      have hle := length_le_flatMap hf l
      rw [List.length_append, List.length_cons] at hlen
      obtain ⟨b, hb⟩ := List.length_eq_one_iff.1 (show (f a).length = 1 by omega)
      rw [hb] at h
      obtain ⟨rfl, hl⟩ := List.cons.inj h
      exact ⟨hb, hl⟩
    · rintro ⟨ha, hl⟩
      rw [ha, hl]
      rfl

/-- Trimming and upper-casing keep a text exactly when there is nothing to trim and every character is kept. -/
theorem CaseTable.toUppercase_trim_iff (u : CaseTable) {s : List Char} :
    u.toUppercase (trim s) = s ↔ Trimmed s ∧ ∀ c ∈ s, u.upper c = [c] := by
  constructor
  · intro h
    have trimmed : Trimmed s := by
      obtain ⟨hhead, hlast⟩ := trimmed_trim s
      generalize trim s = t at h hhead hlast
      subst h
      constructor
      · cases t with
        | nil => exact nofun
        | cons x t =>
          intro d hd
          refine u.notWhitespace x (hhead x rfl) d ?_
          unfold toUppercase at hd
          rw [List.flatMap_cons, List.head?_append_of_ne_nil _ (u.ne_nil x)] at hd
          exact List.mem_of_mem_head? hd
      · cases t using List.reverseRecOn with
        | nil => exact nofun
        | append_singleton t x =>
          intro d hd
          refine u.notWhitespace x (hlast x (by simp)) d ?_
          unfold toUppercase at hd
          rw [List.flatMap_append, List.flatMap_singleton, List.getLast?_append_of_ne_nil _ (u.ne_nil x)] at hd
          exact List.mem_of_mem_getLast? hd
    rw [trim_of_trimmed trimmed] at h
    exact ⟨trimmed, (flatMap_eq_self u.ne_nil).1 h⟩
  · rintro ⟨trimmed, h⟩
    rw [trim_of_trimmed trimmed]
    exact (flatMap_eq_self u.ne_nil).2 h

end Didicafe
