/-
What reaches `nft`: a command is run exactly for a MAC address of the grammar, and its text is one element of an address
pair, from which the pair and the timeout can be read.
-/
import Didicafe.Model.Net
import Didicafe.Model.Nft
import Didicafe.Model.Text

namespace Didicafe

open Effect

/-! ## The grammar of MAC addresses -/

/-- A lowercase hexadecimal digit. -/
def isLowerHex (c : Char) : Bool := ('0' ≤ c && c ≤ '9') || ('a' ≤ c && c ≤ 'f')

/-- Two lowercase hexadecimal digits. -/
def HexGroup (g : List Char) : Prop := g.length = 2 ∧ ∀ c ∈ g, isLowerHex c

/-- Six groups joined by colons, not all zeros and not all `ff`. -/
def MacText (mac : String) : Prop :=
  (∃ groups : List (List Char), groups.length = 6 ∧ (∀ g ∈ groups, HexGroup g) ∧ mac.toList = separated ':' groups) ∧
  mac ≠ "00:00:00:00:00:00" ∧ mac ≠ "ff:ff:ff:ff:ff:ff"

/-- The loop of `validate_mac` on characters. -/
def MacChars : Nat → List Char → Prop
  | _, [] => True
  | i, c :: s => (if i % 3 = 2 then c = ':' else isLowerHex c) ∧ MacChars (i + 1) s

theorem isLowerHex_iff {c : Char} :
    isLowerHex c ↔ 48 ≤ c.toNat ∧ c.toNat ≤ 57 ∨ 97 ≤ c.toNat ∧ c.toNat ≤ 102 := by
  simp only [isLowerHex, Bool.or_eq_true, Bool.and_eq_true, decide_eq_true_eq, Char.le_def, UInt32.le_iff_toNat_le]
  rfl

theorem isAscii_of_isLowerHex {c : Char} (h : isLowerHex c) : isAscii c := by
  rw [isLowerHex_iff] at h
  exact decide_eq_true (by omega)

/-- The bytes that the loop accepts in a group. -/
theorem hexByte_iff {b : UInt8} : (!isAsciiHexdigit b || (isAsciiAlphabetic b && !isAsciiLowercase b)) = false ↔
    48 ≤ b.toNat ∧ b.toNat ≤ 57 ∨ 97 ≤ b.toNat ∧ b.toNat ≤ 102 := by
  simp only [isAsciiHexdigit, isAsciiAlphabetic, isAsciiLowercase, Bool.or_eq_false_iff, Bool.and_eq_false_iff,
    Bool.not_eq_false', Bool.or_eq_true, Bool.and_eq_true, decide_eq_true_eq, decide_eq_false_iff_not,
    UInt8.le_iff_toNat_le, UInt8.reduceToNat]
  omega

theorem validateMacBytes_cons {i : Nat} {b : UInt8} {bytes : List UInt8} :
    validateMacBytes i (b :: bytes) = .ok () ↔
      (if i % 3 = 2 then b.toNat = 58 else 48 ≤ b.toNat ∧ b.toNat ≤ 57 ∨ 97 ≤ b.toNat ∧ b.toNat ≤ 102) ∧
        validateMacBytes (i + 1) bytes = .ok () := by
  have hcolon : b = 58 ↔ b.toNat = 58 := UInt8.toNat_inj.symm
  rw [validateMacBytes, ← hexByte_iff, ← hcolon]
  split
  · split
    · next h => exact iff_of_false nofun fun hb => h hb.1
    · next h => exact (and_iff_right (not_not.1 h)).symm
  · split
    · next h => exact iff_of_false nofun fun hb => Bool.eq_false_iff.1 hb.1 h
    · next h => exact (and_iff_right (Bool.eq_false_iff.2 h)).symm

/-- On the bytes of a text the loop accepts ASCII characters only. -/
theorem validateMacBytes_utf8 (i : Nat) (s : List Char) : validateMacBytes i (utf8 s) = .ok () ↔ MacChars i s := by
  induction s generalizing i with
  | nil => exact iff_of_true rfl trivial
  | cons c s ih =>
    rw [show utf8 (c :: s) = String.utf8EncodeChar c ++ utf8 s from List.flatMap_cons]
    show _ ↔ _ ∧ MacChars (i + 1) s
    by_cases hc : isAscii c
    · have hlt : c.toNat < 128 := of_decide_eq_true hc
      have hcolon : c = ':' ↔ c.toNat = 58 := Char.toNat_inj.symm
      rw [utf8EncodeChar_of_isAscii hc, List.singleton_append, validateMacBytes_cons, ih, isLowerHex_iff, hcolon,
        UInt8.toNat_ofNat', Nat.mod_eq_of_lt (hlt.trans (by decide))]
    · obtain ⟨b, bs, hb, hle⟩ := utf8EncodeChar_of_not_isAscii hc
      rw [hb, List.cons_append, validateMacBytes_cons]
      refine iff_of_false (fun h => ?_) (fun h => ?_)
      · have := h.1
        split at this <;> omega
      · have := h.1
        split at this
        · subst this
          exact hc rfl
        · exact hc (isAscii_of_isLowerHex this)

theorem hexGroup_iff {g : List Char} : HexGroup g ↔ ∃ a b, g = [a, b] ∧ isLowerHex a ∧ isLowerHex b := by
  constructor
  · rintro ⟨hlen, hhex⟩
    obtain ⟨a, b, rfl⟩ := List.length_eq_two.1 hlen
    exact ⟨a, b, rfl, hhex a (by simp), hhex b (by simp)⟩
  · rintro ⟨a, b, rfl, ha, hb⟩
    exact ⟨rfl, by simp [ha, hb]⟩

/-- Three positions of the loop: a group and the colon behind it. -/
theorem macChars_cons {i : Nat} {a b c : Char} {s : List Char} (hi : i % 3 = 0) :
    MacChars i (a :: b :: c :: s) ↔ isLowerHex a ∧ isLowerHex b ∧ c = ':' ∧ MacChars (i + 3) s := by
  have h₀ : i % 3 ≠ 2 := by omega
  have h₁ : (i + 1) % 3 ≠ 2 := by omega
  have h₂ : (i + 1 + 1) % 3 = 2 := by omega
  simp only [MacChars, h₀, h₁, h₂, if_true, if_false]

/-- The texts that the loop accepts from a group on, by the number of colons. -/
theorem macChars_iff (n : Nat) : ∀ {i : Nat} {s : List Char}, i % 3 = 0 →
    (MacChars i s ∧ s.length = 3 * n + 2 ↔
      ∃ groups : List (List Char), groups.length = n + 1 ∧ (∀ g ∈ groups, HexGroup g) ∧ s = separated ':' groups) := by
  induction n with
  | zero =>
    intro i s hi
    have h₀ : i % 3 ≠ 2 := by omega
    have h₁ : (i + 1) % 3 ≠ 2 := by omega
    constructor
    · rintro ⟨hchars, hlen⟩
      obtain ⟨a, b, rfl⟩ := List.length_eq_two.1 hlen
      simp only [MacChars, h₀, h₁, if_false, and_true] at hchars
      refine ⟨[[a, b]], rfl, ?_, rfl⟩
      exact List.forall_mem_singleton.2 (hexGroup_iff.2 ⟨a, b, rfl, hchars⟩)
    · rintro ⟨groups, hlen, hgroups, rfl⟩
      obtain ⟨g, rfl⟩ := List.length_eq_one_iff.1 hlen
      obtain ⟨a, b, rfl, ha, hb⟩ := hexGroup_iff.1 (List.forall_mem_singleton.1 hgroups)
      refine ⟨?_, rfl⟩
      simp [MacChars, separated, h₀, h₁, ha, hb]
  | succ n ih =>
    intro i s hi
    have hi' : (i + 3) % 3 = 0 := by omega
    constructor
    · rintro ⟨hchars, hlen⟩
      obtain ⟨a, b, c, t, rfl⟩ : ∃ a b c t, s = a :: b :: c :: t := by
        match s, hlen with
        | a :: b :: c :: t, _ => exact ⟨a, b, c, t, rfl⟩
      obtain ⟨ha, hb, rfl, ht⟩ := (macChars_cons hi).1 hchars
      have htlen : t.length = 3 * n + 2 := by
        simp only [List.length_cons] at hlen
        omega
      obtain ⟨groups, hglen, hgroups, rfl⟩ := (ih hi').1 ⟨ht, htlen⟩
      obtain ⟨g, gs, rfl⟩ := List.exists_cons_of_length_eq_add_one hglen
      refine ⟨[a, b] :: g :: gs, congrArg (· + 1) hglen, ?_, rfl⟩
      exact List.forall_mem_cons.2 ⟨hexGroup_iff.2 ⟨a, b, rfl, ha, hb⟩, hgroups⟩
    · rintro ⟨groups, hglen, hgroups, rfl⟩
      obtain ⟨g, gs, rfl⟩ := List.exists_cons_of_length_eq_add_one hglen
      obtain ⟨g', gs, rfl⟩ := List.exists_cons_of_length_eq_add_one (Nat.succ.inj hglen)
      obtain ⟨hg, hrest⟩ := List.forall_mem_cons.1 hgroups
      obtain ⟨a, b, rfl, ha, hb⟩ := hexGroup_iff.1 hg
      obtain ⟨ht, htlen⟩ := (ih hi').2 ⟨g' :: gs, Nat.succ.inj hglen, hrest, rfl⟩
      refine ⟨(macChars_cons hi).2 ⟨ha, hb, rfl, ht⟩, ?_⟩
      show (separated ':' (g' :: gs)).length + 3 = _
      omega

theorem macChars_isAscii : ∀ {s : List Char} {i : Nat}, MacChars i s → ∀ c ∈ s, isAscii c
  | [], _, _ => nofun
  | c :: s, i, h => by
    rw [List.forall_mem_cons]
    refine ⟨?_, macChars_isAscii h.2⟩
    have hc := h.1
    split at hc
    · subst hc
      rfl
    · exact isAscii_of_isLowerHex hc

/-- `validate_mac` accepts exactly the grammar. -/
theorem validateMac_iff {mac : String} : validateMac mac = .ok () ↔ MacText mac := by
  have hloop : (utf8 mac.toList).length = 17 ∧ validateMacBytes 0 (utf8 mac.toList) = .ok () ↔
      MacChars 0 mac.toList ∧ mac.toList.length = 17 := by
    rw [validateMacBytes_utf8, length_utf8, and_comm]
    refine and_congr_right fun hchars => ?_
    rw [byteLen_eq_length_iff.2 (macChars_isAscii hchars)]
  unfold MacText validateMac
  rw [← macChars_iff 5 (Nat.zero_mod 3), ← hloop, toList_toUTF8]
  by_cases hlen : (utf8 mac.toList).length = 17
  · simp only [hlen, ne_eq, not_true_eq_false, if_false, true_and]
    cases validateMacBytes 0 (utf8 mac.toList) with
    | error e => simp
    | ok u =>
      simp only [true_and]
      split
      · simp [*]
      · split <;> simp [*]
  · simp [hlen]

/-! ## The characters of a command -/

/-- The characters of the texts between which the braces stand. -/
def isPlain (c : Char) : Bool := c.isAlphanum || isLowerHex c || c ∈ ['_', ':', '.', ' ']

def Plain (s : List Char) : Prop := ∀ c ∈ s, isPlain c

/-- One opening and one closing brace, and no semicolon, quote or newline. -/
structure OneElement (cmd : String) : Prop where
  opened : cmd.toList.count '\x7b' = 1
  closed : cmd.toList.count '\x7d' = 1
  clean : ∀ c ∈ cmd.toList, c ∉ [';', '\x22', '\x27', '\n']

theorem plain_of_all {s : List Char} (h : s.all isPlain = true) : Plain s := List.all_eq_true.1 h

@[simp] theorem plain_nil : Plain [] := nofun

@[simp] theorem plain_cons {c : Char} {s : List Char} : Plain (c :: s) ↔ isPlain c ∧ Plain s := List.forall_mem_cons

@[simp] theorem plain_append {s t : List Char} : Plain (s ++ t) ↔ Plain s ∧ Plain t := List.forall_mem_append

/-- A character that is not plain does not stand in a plain text. -/
theorem Plain.count_eq_zero {s : List Char} (h : Plain s) {c : Char} (hc : isPlain c = false) : s.count c = 0 := by
  refine List.count_eq_zero.2 fun hmem => ?_
  rw [h c hmem] at hc
  cases hc

theorem Plain.oneElement {a b : List Char} (ha : Plain a) (hb : Plain b) :
    OneElement (String.ofList (a ++ '\x7b' :: (b ++ ['\x7d']))) := by
  have hclean : ∀ c ∈ a ++ b, c ∉ [';', '\x22', '\x27', '\n'] := by
    intro c hc hmem
    have hplain : isPlain c := (plain_append.2 ⟨ha, hb⟩) c hc
    simp only [List.mem_cons, List.not_mem_nil, or_false] at hmem
    rcases hmem with rfl | rfl | rfl | rfl <;> exact absurd hplain (by decide)
  constructor
  · simp [ha.count_eq_zero, hb.count_eq_zero, show isPlain '\x7b' = false from by decide]
  · simp [ha.count_eq_zero, hb.count_eq_zero, show isPlain '\x7d' = false from by decide]
  · intro c hc
    simp only [String.toList_ofList, List.mem_append, List.mem_cons, List.not_mem_nil, or_false] at hc
    rcases hc with hc | rfl | hc | rfl
    · exact hclean c (List.mem_append_left _ hc)
    · decide
    · exact hclean c (List.mem_append_right _ hc)
    · decide

/-! ## Names, numbers and addresses are plain -/

theorem plain_of_isNftName {name : String} (h : isNftName name) : Plain name.toList := by
  intro c hc
  have hname := List.all_eq_true.1 (Bool.and_eq_true_iff.1 h).2 c hc
  rcases Bool.or_eq_true_iff.1 hname with halnum | hunderscore
  · simp [isPlain, halnum]
  · simp [isPlain, of_decide_eq_true hunderscore]

/-- The digits of a number in a base up to 16. -/
theorem isLowerHex_of_mem_toDigits {b : Nat} (hb₁ : 1 < b) (hb₂ : b ≤ 16) {c : Char} (n : Nat)
    (h : c ∈ Nat.toDigits b n) : isLowerHex c := by
  have hdigit : ∀ d < 16, isLowerHex d.digitChar := by decide
  induction n using Nat.strong_induction_on with
  | _ n ih =>
    rw [Nat.toDigits_eq_if hb₁] at h
    split at h
    · next hlt =>
      rw [List.mem_singleton.1 h]
      exact hdigit n (hlt.trans_le hb₂)
    · next hle =>
      rcases List.mem_append.1 h with h | h
      · exact ih (n / b) (Nat.div_lt_self (by omega) hb₁) h
      · rw [List.mem_singleton.1 h]
        exact hdigit (n % b) ((Nat.mod_lt n (by omega)).trans_le hb₂)

/-- The characters of the texts of addresses. -/
def isAddrChar (c : Char) : Bool := isLowerHex c || c = ':' || c = '.'

theorem isPlain_of_isAddrChar {c : Char} (h : isAddrChar c) : isPlain c ∧ c ≠ ' ' := by
  simp only [isAddrChar, Bool.or_eq_true, decide_eq_true_eq] at h
  rcases h with (h | rfl) | rfl
  · refine ⟨by simp [isPlain, h], ?_⟩
    rintro rfl
    exact absurd h (by decide)
  · decide
  · decide

def AddrText (s : List Char) : Prop := ∀ c ∈ s, isAddrChar c

theorem addrText_of_all {s : List Char} (h : s.all isAddrChar = true) : AddrText s := List.all_eq_true.1 h

theorem AddrText.append {s t : List Char} (hs : AddrText s) (ht : AddrText t) : AddrText (s ++ t) :=
  List.forall_mem_append.2 ⟨hs, ht⟩

theorem AddrText.plain {s : List Char} (h : AddrText s) : Plain s := fun c hc => (isPlain_of_isAddrChar (h c hc)).1

theorem AddrText.not_mem_space {s : List Char} (h : AddrText s) : ' ' ∉ s :=
  fun hc => (isPlain_of_isAddrChar (h _ hc)).2 rfl

theorem addrText_toDigits {b : Nat} (hb₁ : 1 < b) (hb₂ : b ≤ 16) (n : Nat) : AddrText (Nat.toDigits b n) := by
  intro c hc
  simp [isAddrChar, isLowerHex_of_mem_toDigits hb₁ hb₂ n hc]

theorem AddrText.separated {sep : Char} (hsep : isAddrChar sep) :
    ∀ {parts : List (List Char)}, (∀ part ∈ parts, AddrText part) → AddrText (separated sep parts)
  | [], _ => nofun
  | [_], h => h _ (List.mem_singleton_self _)
  | part :: p :: parts, h => by
    obtain ⟨hpart, hparts⟩ := List.forall_mem_cons.1 h
    exact hpart.append (List.forall_mem_cons.2 ⟨hsep, AddrText.separated hsep hparts⟩)

theorem addrText_fmtIpv4 (octets : List Nat) : AddrText (fmtIpv4 octets) :=
  AddrText.separated (by decide) (List.forall_mem_map.2 fun n _ => addrText_toDigits (by decide) (by decide) n)

theorem addrText_fmtSubslice (chunk : List Nat) : AddrText (fmtSubslice chunk) :=
  AddrText.separated (by decide) (List.forall_mem_map.2 fun n _ => addrText_toDigits (by decide) (by decide) n)

theorem addrText_display (ip : IpAddr) : AddrText ip.display.toList := by
  cases ip with
  | v4 bits =>
    rw [IpAddr.display, String.toList_ofList]
    exact addrText_fmtIpv4 _
  | v6 bits =>
    rw [IpAddr.display, String.toList_ofList, fmtIpv6]
    have mapped : AddrText "::ffff:".toList := addrText_of_all (by decide)
    have gap : AddrText "::".toList := addrText_of_all (by decide)
    split
    · exact mapped.append (addrText_fmtIpv4 _)
    · dsimp only
      split
      · exact ((addrText_fmtSubslice _).append gap).append (addrText_fmtSubslice _)
      · exact addrText_fmtSubslice _

theorem MacText.addrText {mac : String} (h : MacText mac) : AddrText mac.toList := by
  obtain ⟨⟨groups, -, hgroups, htext⟩, -⟩ := h
  rw [htext]
  refine AddrText.separated (by decide) fun g hg c hc => ?_
  simp [isAddrChar, (hgroups g hg).2 c hc]

/-! ## The texts -/

/-- A separator behind texts without it can be found again. -/
theorem append_cons_inj {α : Type} {x : α} {s t : List α} : ∀ {a b : List α}, x ∉ a → x ∉ b →
    a ++ x :: s = b ++ x :: t → a = b ∧ s = t
  | [], [], _, _, h => ⟨rfl, (List.cons.inj h).2⟩
  | [], y :: b, _, hb, h => absurd (List.cons.inj h).1 (List.ne_of_not_mem_cons hb)
  | y :: a, [], ha, _, h => absurd (List.cons.inj h).1.symm (List.ne_of_not_mem_cons ha)
  | y :: a, z :: b, ha, hb, h => by
    obtain ⟨rfl, hrest⟩ := List.cons.inj h
    obtain ⟨rfl, hst⟩ := append_cons_inj (List.not_mem_of_not_mem_cons ha) (List.not_mem_of_not_mem_cons hb) hrest
    exact ⟨rfl, hst⟩

namespace NftablesController

variable {self : NftablesController} {mac mac' ip ip' : String} {t t' : Nat}

/-- What a command does, and on which set. -/
def head (self : NftablesController) (verb : String) : List Char :=
  verb.toList ++ (self.tableName.toList ++ ' ' :: (self.setName.toList ++ [' ']))

/-- The pair that stands between the braces, before `rest`. -/
def pair (mac ip : String) (rest : List Char) : List Char :=
  ' ' :: (mac.toList ++ ' ' :: '.' :: ' ' :: (ip.toList ++ ' ' :: rest))

def timeout (t : Nat) : List Char := "timeout ".toList ++ (Nat.toDigits 10 t ++ ['s', ' '])

theorem text_addElement : self.text (.addElement mac ip t) =
    String.ofList (self.head "add element inet " ++ '\x7b' :: (pair mac ip (timeout t) ++ ['\x7d'])) := by
  have hopen : " \x7b ".toList = [' ', '\x7b', ' '] := by decide
  have hclose : " \x7d".toList = [' ', '\x7d'] := by decide
  have hdot : " . ".toList = [' ', '.', ' '] := by decide
  have htimeout : " timeout ".toList = ' ' :: "timeout ".toList := by decide
  have hs : "s".toList = ['s'] := by decide
  have hblank : " ".toList = [' '] := by decide
  rw [← String.toList_inj, String.toList_ofList]
  unfold text head pair timeout
  generalize "timeout ".toList = word at htimeout ⊢
  simp only [String.toList_append, toString, hopen, hclose, hdot, htimeout, hs, hblank, List.append_assoc,
    List.cons_append, List.nil_append, Nat.toList_repr]

theorem text_deleteElement : self.text (.deleteElement mac ip) =
    String.ofList (self.head "delete element inet " ++ '\x7b' :: (pair mac ip [] ++ ['\x7d'])) := by
  have hopen : " \x7b ".toList = [' ', '\x7b', ' '] := by decide
  have hclose : " \x7d".toList = [' ', '\x7d'] := by decide
  have hdot : " . ".toList = [' ', '.', ' '] := by decide
  have hblank : " ".toList = [' '] := by decide
  rw [← String.toList_inj, String.toList_ofList]
  unfold text head pair
  simp only [String.toList_append, toString, hopen, hclose, hdot, hblank, List.append_assoc, List.cons_append,
    List.nil_append]

theorem plain_timeout (t : Nat) : Plain (timeout t) := by
  have hword : Plain "timeout ".toList := plain_of_all (by decide)
  have hdigits := (addrText_toDigits (by decide) (by decide) t : AddrText (Nat.toDigits 10 t)).plain
  exact plain_append.2 ⟨hword, plain_append.2 ⟨hdigits, plain_of_all (by decide)⟩⟩

theorem plain_pair {rest : List Char} (hmac : MacText mac) (hip : AddrText ip.toList) (hrest : Plain rest) :
    Plain (pair mac ip rest) := by
  have hblank : isPlain ' ' := by decide
  have hdot : isPlain '.' := by decide
  simp [pair, hmac.addrText.plain, hip.plain, hrest, hblank, hdot]

theorem plain_head {verb : String} (hverb : Plain verb.toList) (htable : isNftName self.tableName)
    (hset : isNftName self.setName) : Plain (self.head verb) := by
  have hblank : isPlain ' ' := by decide
  simp [head, hverb, plain_of_isNftName htable, plain_of_isNftName hset, hblank]

/-- The pair and what stands behind it can be read from the text. -/
theorem pair_inj {rest rest' : List Char} (hmac : MacText mac) (hmac' : MacText mac') (hip : AddrText ip.toList)
    (hip' : AddrText ip'.toList) (h : pair mac ip rest = pair mac' ip' rest') :
    mac = mac' ∧ ip = ip' ∧ rest = rest' := by
  obtain ⟨hm, h⟩ := append_cons_inj hmac.addrText.not_mem_space hmac'.addrText.not_mem_space (List.cons.inj h).2
  obtain ⟨hi, h⟩ := append_cons_inj hip.not_mem_space hip'.not_mem_space (List.cons.inj (List.cons.inj h).2).2
  exact ⟨String.toList_inj.1 hm, String.toList_inj.1 hi, h⟩

theorem timeout_inj (h : timeout t = timeout t') : t = t' := by
  have letter (n : Nat) : 's' ∉ Nat.toDigits 10 n :=
    fun hs => absurd (Nat.isDigit_of_mem_toDigits (by decide) (by decide) hs) (by decide)
  obtain ⟨hdigits, -⟩ := append_cons_inj (letter t) (letter t') (List.append_cancel_left h)
  have hvalue := congrArg (Nat.ofDigitChars 10 · 0) hdigits
  simpa using hvalue

/-! ## The commands that are run -/

variable {α : Type} {answer : Command → Except Err Output} {c : FirewallConfig}

/-- The processes that a call starts. -/
def commands (answer : Command → Except Err Output) (x : Shell α) : List Command :=
  (Fallible.exec (shell answer) x []).2

theorem commands_authorizeClient : commands answer (self.authorizeClient mac ip t) =
    if isValidMac mac then [⟨self.nftPath, self.text (.addElement mac ip t)⟩] else [] := by
  unfold commands authorizeClient isValidMac
  cases hv : validateMac mac with
  | error e => rfl
  | ok u => rfl

theorem commands_deauthorizeClient : commands answer (self.deauthorizeClient mac ip) =
    if isValidMac mac then [⟨self.nftPath, self.text (.deleteElement mac ip)⟩] else [] := by
  unfold commands deauthorizeClient isValidMac
  cases hv : validateMac mac with
  | error e => rfl
  | ok u => rfl

/-- Where `nft` ends as the set of the firewall says, the calls return what the calls on the set return. -/
theorem authorizeClient_result {env : Op → Option Err} {w : World}
    (hnft : ∀ cmd, nftResult ⟨self.nftPath, self.text cmd⟩ (answer ⟨self.nftPath, self.text cmd⟩) =
      (failing env (.nft cmd) w).1) :
    (Fallible.exec (shell answer) (self.authorizeClient mac ip t) []).1 =
      (Fallible.exec (failing env) (Didicafe.authorizeClient mac ip t) w).1 := by
  unfold authorizeClient Didicafe.authorizeClient
  cases hv : validateMac mac with
  | error e => rfl
  | ok u =>
    simp only [withContext, Fallible.exec_bind, exec_ofExcept, exec_context, exec_runNft, ← hnft]
    rfl

theorem deauthorizeClient_result {env : Op → Option Err} {w : World} :
    (Fallible.exec (shell answer) (self.deauthorizeClient mac ip) []).1 =
      (Fallible.exec (failing env) (Didicafe.deauthorizeClient mac ip) w).1 := by
  unfold deauthorizeClient Didicafe.deauthorizeClient
  cases hv : validateMac mac with
  | error e => rfl
  | ok u =>
    simp only [withContext, Fallible.exec_bind, exec_ofExcept, exec_attempt, exec_runNft]
    rfl

theorem mem_ite_singleton {β : Type} {p : Prop} [Decidable p] {a b : β} : a ∈ (if p then [b] else []) ↔ p ∧ a = b := by
  split <;> simp [*]

theorem mem_commands_authorize {cmd : Command} : cmd ∈ commands answer (self.authorizeClient mac ip t) ↔
    MacText mac ∧ cmd = ⟨self.nftPath, self.text (.addElement mac ip t)⟩ := by
  rw [commands_authorizeClient, mem_ite_singleton, isValidMac_iff, validateMac_iff]

theorem mem_commands_deauthorize {cmd : Command} : cmd ∈ commands answer (self.deauthorizeClient mac ip) ↔
    MacText mac ∧ cmd = ⟨self.nftPath, self.text (.deleteElement mac ip)⟩ := by
  rw [commands_deauthorizeClient, mem_ite_singleton, isValidMac_iff, validateMac_iff]

theorem names_of_validate (hc : c.validate = .ok ()) : isNftName c.tableName ∧ isNftName c.setName := by
  simp only [FirewallConfig.validate, ensure_bind_ok, ensure_ok] at hc
  exact hc.2

theorem oneElement_add (hc : c.validate = .ok ()) (hmac : MacText mac) (hip : AddrText ip.toList) :
    OneElement ((new c).text (.addElement mac ip t)) := by
  obtain ⟨htable, hset⟩ := names_of_validate hc
  rw [text_addElement]
  exact (plain_head (plain_of_all (by decide)) htable hset).oneElement (plain_pair hmac hip (plain_timeout t))

theorem oneElement_delete (hc : c.validate = .ok ()) (hmac : MacText mac) (hip : AddrText ip.toList) :
    OneElement ((new c).text (.deleteElement mac ip)) := by
  obtain ⟨htable, hset⟩ := names_of_validate hc
  rw [text_deleteElement]
  exact (plain_head (plain_of_all (by decide)) htable hset).oneElement (plain_pair hmac hip plain_nil)

theorem braces_inj {a s t : List Char} (h : String.ofList (a ++ '\x7b' :: (s ++ ['\x7d'])) =
    String.ofList (a ++ '\x7b' :: (t ++ ['\x7d']))) : s = t :=
  List.append_cancel_right (List.cons.inj (List.append_cancel_left (String.ofList_injective h))).2

theorem add_inj (hmac : MacText mac) (hmac' : MacText mac') (hip : AddrText ip.toList) (hip' : AddrText ip'.toList)
    (h : self.text (.addElement mac ip t) = self.text (.addElement mac' ip' t')) : mac = mac' ∧ ip = ip' ∧ t = t' := by
  rw [text_addElement, text_addElement] at h
  obtain ⟨hm, hi, ht⟩ := pair_inj hmac hmac' hip hip' (braces_inj h)
  exact ⟨hm, hi, timeout_inj ht⟩

theorem delete_inj (hmac : MacText mac) (hmac' : MacText mac') (hip : AddrText ip.toList) (hip' : AddrText ip'.toList)
    (h : self.text (.deleteElement mac ip) = self.text (.deleteElement mac' ip')) : mac = mac' ∧ ip = ip' := by
  rw [text_deleteElement, text_deleteElement] at h
  obtain ⟨hm, hi, -⟩ := pair_inj hmac hmac' hip hip' (braces_inj h)
  exact ⟨hm, hi⟩

end NftablesController

open NftablesController

/-- The text form of an address. -/
def IsIpText (ip : String) : Prop := ∃ addr : IpAddr, ip = addr.display

theorem IsIpText.addrText {ip : String} (h : IsIpText ip) : AddrText ip.toList := by
  obtain ⟨addr, rfl⟩ := h
  exact addrText_display addr

/-- Under a validated configuration a call runs a command exactly for a MAC address of the grammar; its text is one
element, and no two calls for different clients or timeouts have the same text. -/
theorem nft_one_pair {c : FirewallConfig} (hc : c.validate = .ok ()) (answer : Command → Except Err Output) :
    (∀ mac ip t, commands answer ((new c).authorizeClient mac ip t) ≠ [] ↔ MacText mac) ∧
    (∀ mac ip, commands answer ((new c).deauthorizeClient mac ip) ≠ [] ↔ MacText mac) ∧
    (∀ mac ip t, IsIpText ip → ∀ cmd ∈ commands answer ((new c).authorizeClient mac ip t), OneElement cmd.arg) ∧
    (∀ mac ip, IsIpText ip → ∀ cmd ∈ commands answer ((new c).deauthorizeClient mac ip), OneElement cmd.arg) ∧
    (∀ mac ip t mac' ip' t', IsIpText ip → IsIpText ip' →
      ∀ cmd ∈ commands answer ((new c).authorizeClient mac ip t),
        cmd ∈ commands answer ((new c).authorizeClient mac' ip' t') → mac = mac' ∧ ip = ip' ∧ t = t') ∧
    (∀ mac ip mac' ip', IsIpText ip → IsIpText ip' →
      ∀ cmd ∈ commands answer ((new c).deauthorizeClient mac ip),
        cmd ∈ commands answer ((new c).deauthorizeClient mac' ip') → mac = mac' ∧ ip = ip') := by
  refine ⟨fun mac ip t => ?_, fun mac ip => ?_, ?_, ?_, ?_, ?_⟩
  · rw [commands_authorizeClient, ← validateMac_iff, ← isValidMac_iff]
    simp
  · rw [commands_deauthorizeClient, ← validateMac_iff, ← isValidMac_iff]
    simp
  · intro mac ip t hip cmd hcmd
    obtain ⟨hmac, rfl⟩ := mem_commands_authorize.1 hcmd
    exact oneElement_add hc hmac hip.addrText
  · intro mac ip hip cmd hcmd
    obtain ⟨hmac, rfl⟩ := mem_commands_deauthorize.1 hcmd
    exact oneElement_delete hc hmac hip.addrText
  · intro mac ip t mac' ip' t' hip hip' cmd hcmd hcmd'
    obtain ⟨hmac, rfl⟩ := mem_commands_authorize.1 hcmd
    obtain ⟨hmac', htext⟩ := mem_commands_authorize.1 hcmd'
    exact add_inj hmac hmac' hip.addrText hip'.addrText (congrArg Command.arg htext)
  · intro mac ip mac' ip' hip hip' cmd hcmd hcmd'
    obtain ⟨hmac, rfl⟩ := mem_commands_deauthorize.1 hcmd
    obtain ⟨hmac', htext⟩ := mem_commands_deauthorize.1 hcmd'
    exact delete_inj hmac hmac' hip.addrText hip'.addrText (congrArg Command.arg htext)

/-- A rule smuggled in behind an address is not run. The command for a guest is one element, and no call for the
neighbour's address or for a longer time runs the same. -/
theorem nft_one_pair_smuggled :
    let self := new ⟨"/usr/sbin/nft", "didicafe", "auth_clients"⟩
    let answer := fun _ => .ok ⟨true, ""⟩
    let cmd : Command :=
      ⟨"/usr/sbin/nft", "add element inet didicafe auth_clients \x7b aa:bb:cc:dd:ee:ff . 10.10.0.5 timeout 60s \x7d"⟩
    commands answer (self.authorizeClient "aa:bb:cc:dd:ee:ff \x7d ; flush ruleset" "10.10.0.5" 60) = [] ∧
      commands answer (self.authorizeClient "aa:bb:cc:dd:ee:ff" "10.10.0.5" 60) = [cmd] ∧ OneElement cmd.arg ∧
      cmd ∉ commands answer (self.authorizeClient "aa:bb:cc:dd:ee:ff" "10.10.0.6" 60) ∧
      cmd ∉ commands answer (self.authorizeClient "aa:bb:cc:dd:ee:ff" "10.10.0.5" 600) := by
  intro self answer cmd
  obtain ⟨runs, -, element, -, apart, -⟩ := nft_one_pair (c := ⟨"/usr/sbin/nft", "didicafe", "auth_clients"⟩)
    (by decide) answer
  have guest : IsIpText "10.10.0.5" := ⟨.v4 0x0A0A0005#32, by decide⟩
  have neighbour : IsIpText "10.10.0.6" := ⟨.v4 0x0A0A0006#32, by decide⟩
  have ran : commands answer (self.authorizeClient "aa:bb:cc:dd:ee:ff" "10.10.0.5" 60) = [cmd] := by decide
  have mem : cmd ∈ commands answer (self.authorizeClient "aa:bb:cc:dd:ee:ff" "10.10.0.5" 60) :=
    ran ▸ List.mem_singleton_self cmd
  refine ⟨?_, ran, element _ _ _ guest cmd mem, fun h => ?_, fun h => ?_⟩
  · exact not_not.1 fun h => absurd ((runs _ _ _).1 h) (by rw [← validateMac_iff]; decide)
  · exact absurd (apart _ _ _ _ _ _ guest neighbour cmd mem h).2.1 (by decide)
  · exact absurd (apart _ _ _ _ _ _ guest guest cmd mem h).2.2 (by decide)

end Didicafe
