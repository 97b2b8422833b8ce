/-
The branding holds. A colour that passes the check has a style sheet, made of colours in the one form `#rrggbb`, of
which the first means what the setting means. And whatever admins submit, in any order and with any statement failing,
what the pages show passes the checks that the configuration file has to pass.
-/
import Didicafe.Admin.Settings
import Didicafe.Daemon.House
import Didicafe.Model.Branding

namespace Didicafe

open Effect Runs

/-! ## Digits -/

def isHexDigit (c : Char) : Bool := c.isDigit || ('a' ≤ c && c ≤ 'f') || ('A' ≤ c && c ≤ 'F')

/-- The value of a hexadecimal digit. -/
def hexValue (c : Char) : Nat := (toDigit 16 c).getD 0

theorem toNat_of_isHexDigit {c : Char} (h : isHexDigit c = true) :
    (48 ≤ c.toNat ∧ c.toNat ≤ 57) ∨ (97 ≤ c.toNat ∧ c.toNat ≤ 102) ∨ (65 ≤ c.toNat ∧ c.toNat ≤ 70) := by
  simp only [isHexDigit, Bool.or_eq_true, Bool.and_eq_true, decide_eq_true_eq, or_assoc] at h
  rcases h with h | ⟨h, h'⟩ | ⟨h, h'⟩
  · exact .inl (Decimal.toNat_of_isDigit h)
  · exact .inr (.inl ⟨h, h'⟩)
  · exact .inr (.inr ⟨h, h'⟩)

theorem toDigit_hex (c : Char) : toDigit 16 c =
    if 48 ≤ c.toNat ∧ c.toNat ≤ 57 then some (c.toNat - 48)
    else if 97 ≤ c.toNat ∧ c.toNat ≤ 102 then some (c.toNat - 97 + 10)
    else if 65 ≤ c.toNat ∧ c.toNat ≤ 70 then some (c.toNat - 65 + 10)
    else none := by
  have filter {n : Nat} (h : n < 16) : (some n).filter (· < 16) = some n := by simp [h]
  unfold toDigit
  simp only [Char.le_def, UInt32.le_iff_toNat_le]
  split
  · rename_i h
    exact (filter (by change 48 ≤ c.toNat ∧ c.toNat ≤ 57 at h; show c.toNat - 48 < 16; omega)).trans (if_pos h).symm
  · rename_i h
    refine Eq.trans ?_ (if_neg h).symm
    split
    · rename_i h
      exact (filter (by change 97 ≤ c.toNat ∧ c.toNat ≤ 102 at h; show c.toNat - 97 + 10 < 16; omega)).trans
        (if_pos h).symm
    · rename_i h
      refine Eq.trans ?_ (if_neg h).symm
      split
      · rename_i h
        exact (filter (by change 65 ≤ c.toNat ∧ c.toNat ≤ 70 at h; show c.toNat - 65 + 10 < 16; omega)).trans
          (if_pos h).symm
      · rename_i h
        exact (if_neg h).symm

theorem toDigit_of_isHexDigit {c : Char} (h : isHexDigit c = true) :
    toDigit 16 c = some (hexValue c) ∧ hexValue c < 16 := by
  have hc := toNat_of_isHexDigit h
  have digit : ∃ d, toDigit 16 c = some d ∧ d < 16 := by
    rw [toDigit_hex]
    split_ifs
    · exact ⟨_, rfl, by omega⟩
    · exact ⟨_, rfl, by omega⟩
    · exact ⟨_, rfl, by omega⟩
    · omega
  obtain ⟨d, hd, hlt⟩ := digit
  rw [hexValue, hd]
  exact ⟨rfl, hlt⟩

theorem isAscii_of_isHexDigit {c : Char} (h : isHexDigit c = true) : isAscii c = true := by
  have := toNat_of_isHexDigit h
  exact decide_eq_true (by omega)

theorem ne_plus_of_isHexDigit {c : Char} (h : isHexDigit c = true) : c ≠ '+' := by
  rintro rfl
  cases h

/-! ## Reading a colour -/

/-- Digits and nothing else are the number they are. -/
theorem fromStrRadix16_one {a : Char} (ha : isHexDigit a = true) : fromStrRadix16 [a] = some (hexValue a) := by
  obtain ⟨hd, hlt⟩ := toDigit_of_isHexDigit ha
  have hle : hexValue a ≤ 255 := by omega
  simp [fromStrRadix16, ofDigits, hd, guard, hle]

theorem fromStrRadix16_two {a b : Char} (ha : isHexDigit a = true) (hb : isHexDigit b = true) :
    fromStrRadix16 [a, b] = some (hexValue a * 16 + hexValue b) := by
  obtain ⟨hda, hlta⟩ := toDigit_of_isHexDigit ha
  obtain ⟨hdb, hltb⟩ := toDigit_of_isHexDigit hb
  have hle : hexValue a * 16 + hexValue b ≤ 255 := by omega
  simp [fromStrRadix16, ofDigits, hda, hdb, guard, hle, ne_plus_of_isHexDigit ha]

theorem sliceFrom_ascii {s : List Char} (hs : ∀ c ∈ s, isAscii c = true) {n : Nat} (hn : n ≤ s.length) :
    sliceFrom n s = some (s.drop n) := by
  induction s generalizing n with
  | nil =>
    obtain rfl : n = 0 := by simpa using hn
    rfl
  | cons c s ih =>
    obtain ⟨hc, hs⟩ := List.forall_mem_cons.1 hs
    have hsize := utf8Size_eq_one_iff.2 hc
    cases n with
    | zero => rfl
    | succ n =>
      rw [sliceFrom, if_neg (by omega), if_pos (by omega), hsize, Nat.add_sub_cancel, List.drop_succ_cons]
      exact ih hs (by simpa using hn)

theorem sliceTo_ascii {s : List Char} (hs : ∀ c ∈ s, isAscii c = true) {n : Nat} (hn : n ≤ s.length) :
    sliceTo n s = some (s.take n) := by
  induction s generalizing n with
  | nil =>
    obtain rfl : n = 0 := by simpa using hn
    rfl
  | cons c s ih =>
    obtain ⟨hc, hs⟩ := List.forall_mem_cons.1 hs
    have hsize := utf8Size_eq_one_iff.2 hc
    cases n with
    | zero => rfl
    | succ n =>
      rw [sliceTo, if_neg (by omega), if_pos (by omega), hsize, Nat.add_sub_cancel, List.take_succ_cons,
        ih hs (by simpa using hn)]
      rfl

/-- A channel of a text of ASCII characters. -/
theorem channel_ascii {s : List Char} (hs : ∀ c ∈ s, isAscii c = true) {i j : Nat} (hi : i ≤ s.length)
    (hj : j ≤ s.length) : channel s i j = .ok ((fromStrRadix16 ((s.drop i).take (j - i))).getD 0) := by
  rw [channel, sliceFrom_ascii hs hi, Option.bind_some,
    sliceTo_ascii (fun c hc => hs c (List.mem_of_mem_drop hc)) (by rw [List.length_drop]; omega)]

/-- What passes the check: a number sign and three or six digits. -/
inductive HexColor : String → Prop where
  | short {a b c : Char} (h : ∀ x ∈ [a, b, c], isHexDigit x = true) : HexColor (String.ofList ['#', a, b, c])
  | long {a b c d e f : Char} (h : ∀ x ∈ [a, b, c, d, e, f], isHexDigit x = true) :
    HexColor (String.ofList ['#', a, b, c, d, e, f])

theorem isValidHexColor_iff {s : String} : isValidHexColor s = true ↔ HexColor s := by
  constructor
  · intro h
    rw [← String.ofList_toList (s := s)]
    unfold isValidHexColor at h
    split at h
    · rename_i digits hs
      rw [hs]
      obtain ⟨hlen, hdigits⟩ := (Bool.and_eq_true _ _).mp h
      have hdigits : ∀ x ∈ digits, isHexDigit x = true := List.all_eq_true.1 hdigits
      rw [byteLen_eq_length_iff.2 fun c hc => isAscii_of_isHexDigit (hdigits c hc), Bool.or_eq_true, beq_iff_eq,
        beq_iff_eq] at hlen
      rcases hlen with hlen | hlen
      · obtain ⟨a, b, c, rfl⟩ := List.length_eq_three.1 hlen
        exact .short hdigits
      · match digits, hlen with
        | [a, b, c, d, e, f], _ => exact .long hdigits
    · cases h
  · intro h
    have check {digits : List Char} (hlen : digits.length = 3 ∨ digits.length = 6)
        (h : ∀ x ∈ digits, isHexDigit x = true) : isValidHexColor (String.ofList ('#' :: digits)) = true := by
      unfold isValidHexColor
      rw [String.toList_ofList]
      refine (Bool.and_eq_true _ _).mpr ⟨?_, List.all_eq_true.2 h⟩
      rw [byteLen_eq_length_iff.2 fun c hc => isAscii_of_isHexDigit (h c hc), Bool.or_eq_true, beq_iff_eq, beq_iff_eq]
      exact hlen
    cases h with
    | short h => exact check (.inl rfl) h
    | long h => exact check (.inr rfl) h

theorem parseHexRgb_long {a b c d e f : Char} (h : ∀ x ∈ [a, b, c, d, e, f], isHexDigit x = true) :
    parseHexRgb (String.ofList ['#', a, b, c, d, e, f]) =
      .ok ⟨hexValue a * 16 + hexValue b, hexValue c * 16 + hexValue d, hexValue e * 16 + hexValue f⟩ := by
  have hascii : ∀ x ∈ [a, b, c, d, e, f], isAscii x = true := fun x hx => isAscii_of_isHexDigit (h x hx)
  have pair {x y : Char} {i j : Nat} (hi : i ≤ 6) (hj : j ≤ 6) (hxy : ([a, b, c, d, e, f].drop i).take (j - i) = [x, y])
      (hx : isHexDigit x = true) (hy : isHexDigit y = true) :
      channel [a, b, c, d, e, f] i j = .ok (hexValue x * 16 + hexValue y) := by
    rw [channel_ascii hascii hi hj, hxy, fromStrRadix16_two hx hy]
    rfl
  simp only [List.forall_mem_cons] at h
  obtain ⟨ha, hb, hc, hd, he, hf, -⟩ := h
  have hlen : byteLen [a, b, c, d, e, f] = 6 := byteLen_eq_length_iff.2 hascii
  unfold parseHexRgb
  simp only [String.toList_ofList, List.head?_cons, List.tail_cons, if_true, hlen]
  rw [pair (i := 0) (j := 2) (by decide) (by decide) rfl ha hb,
    pair (i := 2) (j := 4) (by decide) (by decide) rfl hc hd, pair (i := 4) (j := 6) (by decide) (by decide) rfl he hf]
  rfl

/-- In the short form every digit stands for two. -/
theorem parseHexRgb_short {a b c : Char} (h : ∀ x ∈ [a, b, c], isHexDigit x = true) :
    parseHexRgb (String.ofList ['#', a, b, c]) = parseHexRgb (String.ofList ['#', a, a, b, b, c, c]) := by
  have hascii : ∀ x ∈ [a, b, c], isAscii x = true := fun x hx => isAscii_of_isHexDigit (h x hx)
  have single {x : Char} {i j : Nat} (hi : i ≤ 3) (hj : j ≤ 3) (hx : ([a, b, c].drop i).take (j - i) = [x])
      (hdigit : isHexDigit x = true) : channel [a, b, c] i j = .ok (hexValue x) := by
    rw [channel_ascii hascii hi hj, hx, fromStrRadix16_one hdigit]
    rfl
  rw [parseHexRgb_long (by simpa using h)]
  simp only [List.forall_mem_cons] at h
  obtain ⟨ha, hb, hc, -⟩ := h
  have hlen : byteLen [a, b, c] = 3 := byteLen_eq_length_iff.2 hascii
  unfold parseHexRgb
  simp only [String.toList_ofList, List.head?_cons, List.tail_cons, if_true, hlen]
  rw [single (i := 0) (j := 1) (by decide) (by decide) rfl ha, single (i := 1) (j := 2) (by decide) (by decide) rfl hb,
    single (i := 2) (j := 3) (by decide) (by decide) rfl hc]
  rfl

/-! ## Writing a colour -/

/-- The channels are bytes. -/
structure Rgb.Bytes (c : Rgb) : Prop where
  r : c.r ≤ 255
  g : c.g ≤ 255
  b : c.b ≤ 255

theorem parseHexRgb_valid {s : String} (h : isValidHexColor s = true) : ∃ c, parseHexRgb s = .ok c ∧ c.Bytes := by
  have long {a b c d e f : Char} (h : ∀ x ∈ [a, b, c, d, e, f], isHexDigit x = true) :
      ∃ col, parseHexRgb (String.ofList ['#', a, b, c, d, e, f]) = .ok col ∧ col.Bytes := by
    refine ⟨_, parseHexRgb_long h, ?_⟩
    have hlt := fun x hx => (toDigit_of_isHexDigit (h x hx)).2
    simp only [List.forall_mem_cons] at hlt
    obtain ⟨ha, hb, hc, hd, he, hf, -⟩ := hlt
    exact ⟨by simp only; omega, by simp only; omega, by simp only; omega⟩
  cases isValidHexColor_iff.1 h with
  | short hdigits =>
    rw [parseHexRgb_short hdigits]
    exact long (by simpa using hdigits)
  | long hdigits => exact long hdigits

/-- A byte is two digits. -/
theorem hex2_byte {n : Nat} (h : n ≤ 255) : ∃ a b, hex2 n = [a, b] ∧ isHexDigit a = true ∧ isHexDigit b = true ∧
    hexValue a * 16 + hexValue b = n := by
  have bytes : ∀ n : Fin 256, hex2 n = [Nat.digitChar (n / 16), Nat.digitChar (n % 16)] := by decide +kernel
  have digits : ∀ d : Fin 16, isHexDigit (Nat.digitChar d) = true ∧ hexValue (Nat.digitChar d) = d := by decide
  have high := digits ⟨n / 16, by omega⟩
  have low := digits ⟨n % 16, Nat.mod_lt n (by decide)⟩
  refine ⟨_, _, bytes ⟨n, by omega⟩, high.1, low.1, ?_⟩
  rw [high.2, low.2]
  exact Nat.div_add_mod' n 16

/-- The text of a colour passes the check and means the colour. -/
theorem Rgb.Bytes.text {c : Rgb} (h : c.Bytes) : isValidHexColor c.text = true ∧ parseHexRgb c.text = .ok c := by
  obtain ⟨r₁, r₂, hr, hr₁, hr₂, hrv⟩ := hex2_byte h.r
  obtain ⟨g₁, g₂, hg, hg₁, hg₂, hgv⟩ := hex2_byte h.g
  obtain ⟨b₁, b₂, hb, hb₁, hb₂, hbv⟩ := hex2_byte h.b
  have hdigits : ∀ x ∈ [r₁, r₂, g₁, g₂, b₁, b₂], isHexDigit x = true := by simp [hr₁, hr₂, hg₁, hg₂, hb₁, hb₂]
  have htext : c.text = String.ofList ['#', r₁, r₂, g₁, g₂, b₁, b₂] := by
    unfold Rgb.text
    rw [hr, hg, hb]
    rfl
  rw [htext]
  refine ⟨isValidHexColor_iff.2 (.long hdigits), ?_⟩
  rw [parseHexRgb_long hdigits, hrv, hgv, hbv]

/-- The shades of a colour: each channel of the hover colour is at most the colour's, and those of the light ones are
further and further above it. -/
theorem shades_le {x : Nat} (h : x ≤ 255) : darkenChannel 15 x ≤ x ∧ x ≤ lightenChannel 85 x ∧
    lightenChannel 85 x ≤ lightenChannel 93 x ∧ lightenChannel 93 x ≤ 255 := by
  unfold darkenChannel lightenChannel
  omega

theorem Rgb.Bytes.darken {c : Rgb} (h : c.Bytes) : (darken 15 c).Bytes where
  r := (shades_le h.r).1.trans h.r
  g := (shades_le h.g).1.trans h.g
  b := (shades_le h.b).1.trans h.b

theorem Rgb.Bytes.lighten93 {c : Rgb} (h : c.Bytes) : (lighten 93 c).Bytes where
  r := (shades_le h.r).2.2.2
  g := (shades_le h.g).2.2.2
  b := (shades_le h.b).2.2.2

theorem Rgb.Bytes.lighten85 {c : Rgb} (h : c.Bytes) : (lighten 85 c).Bytes where
  r := (shades_le h.r).2.2.1.trans (shades_le h.r).2.2.2
  g := (shades_le h.g).2.2.1.trans (shades_le h.g).2.2.2
  b := (shades_le h.b).2.2.1.trans (shades_le h.b).2.2.2

/-- Characters that mean something to HTML. -/
def isMarkup (c : Char) : Bool := c == '<' || c == '>' || c == '&' || c == '"' || c == '\''

theorem Rgb.Bytes.no_markup {c : Rgb} (h : c.Bytes) : ∀ x ∈ c.text.toList, isMarkup x = false := by
  have plain {x : Char} (hx : isHexDigit x = true) : isMarkup x = false := by
    unfold isMarkup
    simp only [Bool.or_eq_false_iff, beq_eq_false_iff_ne]
    refine ⟨⟨⟨⟨?_, ?_⟩, ?_⟩, ?_⟩, ?_⟩ <;> rintro rfl <;> cases hx
  have digits {n : Nat} (hn : n ≤ 255) : ∀ x ∈ hex2 n, isMarkup x = false := by
    obtain ⟨a, b, hab, ha, hb, -⟩ := hex2_byte hn
    rw [hab]
    simp [plain ha, plain hb]
  unfold Rgb.text
  rw [String.toList_ofList]
  simp only [List.mem_append, List.mem_cons]
  rintro x (((rfl | hx) | hx) | hx)
  · rfl
  · exact digits h.r x hx
  · exact digits h.g x hx
  · exact digits h.b x hx

/-- The style sheet cannot leave its element. -/
theorem themeCss_no_markup {c : Rgb} (h : c.Bytes) : ∀ x ∈ (themeCss c).toList, isMarkup x = false := by
  unfold themeCss
  simp only [String.toList_append, List.mem_append]
  have fixed {s : String} (hs : s.toList.all (fun x => !isMarkup x) = true) : ∀ x ∈ s.toList, isMarkup x = false :=
    fun x hx => by simpa using List.all_eq_true.1 hs x hx
  rintro x ((((((((hx | hx) | hx) | hx) | hx) | hx) | hx) | hx) | hx)
  · exact fixed (by decide) x hx
  · exact h.no_markup x hx
  · exact fixed (by decide) x hx
  · exact h.darken.no_markup x hx
  · exact fixed (by decide) x hx
  · exact h.lighten85.no_markup x hx
  · exact fixed (by decide) x hx
  · exact h.lighten93.no_markup x hx
  · exact fixed (by decide) x hx

/-! ## Settings -/

/-- What the form checks of the value of a setting. -/
structure Setting.Sound (x : Setting) : Prop where
  name : x.key = "cafe_name" → x.value ≠ "" ∧ x.value.utf8ByteSize ≤ 100
  color : x.key = "theme_color" → isValidHexColor x.value = true

theorem SettingsForm.sound {form : SettingsForm} (h : form.validate = .ok ()) : ∀ x ∈ form.settings, x.Sound := by
  unfold validate at h
  split_ifs at h with hname hlong _ hcolor
  have hsize : form.cafeName.utf8ByteSize ≤ 100 := by omega
  have hcolor : isValidHexColor form.themeColor = true := by simpa using hcolor
  intro x hx
  simp only [settings, List.mem_cons, List.not_mem_nil, or_false] at hx
  rcases hx with rfl | rfl | rfl | rfl | rfl | rfl
  · exact ⟨fun _ => ⟨hname, hsize⟩, by simp⟩
  · exact ⟨by simp, by simp⟩
  · exact ⟨by simp, fun _ => hcolor⟩
  · exact ⟨by simp, by simp⟩
  · exact ⟨by simp, by simp⟩
  · exact ⟨by simp, by simp⟩

def SettingsSound (t : Tables) : Prop := ∀ x ∈ t.setting, x.Sound

theorem PortalSection.validate_ok {p : PortalSection} : p.validate = .ok () ↔
    p.domain ≠ "" ∧ p.domain.toList.all isDomainChar = true ∧ p.adminDomain ≠ "" ∧
      p.adminDomain.toList.all isDomainChar = true ∧ p.domain ≠ p.adminDomain ∧ p.cafeName ≠ "" ∧
        p.cafeName.utf8ByteSize ≤ 100 ∧ isValidHexColor p.themeColor = true := by
  unfold validate
  simp only [ensure_bind_ok, ensure_ok]

/-- Sound settings keep a section valid. -/
theorem Tables.effective_valid {t : Tables} {base : PortalSection} (h : SettingsSound t)
    (hbase : base.validate = .ok ()) : (t.effective base).validate = .ok () := by
  have stored {key value : String} (hv : t.settingAt key = some value) : (⟨key, value⟩ : Setting).Sound := by
    obtain ⟨x, hx, rfl⟩ := Option.map_eq_some_iff.1 hv
    have hkey : x.key = key := by simpa using List.find?_some hx
    subst hkey
    exact h x (List.mem_of_find?_eq_some hx)
  obtain ⟨h₁, h₂, h₃, h₄, h₅, hname, hsize, hcolor⟩ := PortalSection.validate_ok.1 hbase
  have name : t.effectiveAt base "cafe_name" ≠ "" ∧ (t.effectiveAt base "cafe_name").utf8ByteSize ≤ 100 := by
    unfold effectiveAt
    cases hv : t.settingAt "cafe_name" with
    | none => exact ⟨hname, hsize⟩
    | some value =>
      obtain ⟨hne, hle⟩ := (stored hv).name rfl
      rw [Option.filter_some, if_pos (show accepts "cafe_name" value = true from decide_eq_true hne)]
      exact ⟨hne, hle⟩
  have color : isValidHexColor (t.effectiveAt base "theme_color") = true := by
    unfold effectiveAt
    cases hv : t.settingAt "theme_color" with
    | none => exact hcolor
    | some value =>
      have hvalid := (stored hv).color rfl
      rw [Option.filter_some, if_pos (show accepts "theme_color" value = true from hvalid)]
      exact hvalid
  exact PortalSection.validate_ok.2 ⟨h₁, h₂, h₃, h₄, h₅, name.1, name.2, color⟩

/-! ## Runs -/

/-- Settings are written with checked values only. -/
def Op.WritesChecked : Op → Prop
  | .sql (.setSetting key value) => (⟨key, value⟩ : Setting).Sound
  | _ => True

theorem SettingsSound.setSetting {t : Tables} (h : SettingsSound t) {key value : String}
    (hx : (⟨key, value⟩ : Setting).Sound) : SettingsSound (t.setSetting key value) := by
  unfold SettingsSound Tables.setSetting
  split
  · refine Table.forall_updateWhere h fun x _ hkey => ?_
    obtain rfl : x.key = key := by simpa using hkey
    exact hx
  · intro x hmem
    rcases List.mem_append.1 hmem with hmem | hmem
    · exact h x hmem
    · rw [List.mem_singleton.1 hmem]
      exact hx

/-- The others may do anything that keeps the settings sound. -/
def brand : Rules Op Op.Out World (Option Err) where
  rely w w' := SettingsSound w.db.tables → SettingsSound w'.db.tables
  allowed _ op := op.WritesChecked
  handler := World.exec
  refl _ h := h
  trans h h' hs := h' (h hs)
  keeps fault op w hok h := by
    by_cases hpart : op.part = some .setting
    · rcases op with _ | cmd | q
      · cases hpart
      · cases hpart
      · cases q with
        | setSetting key value =>
          cases fault with
          | some e => rw [World.exec_some]; exact h
          | none => exact h.setSetting hok
        | _ => cases hpart
    · have same : _ = w.db.tables.setting := World.same_exec hpart fault
      unfold SettingsSound
      rw [same]
      exact h

theorem writesChecked_of_part {op : Op} (h : op.part ≠ some .setting) : op.WritesChecked := by
  rcases op with _ | cmd | q
  · trivial
  · trivial
  · cases q with
    | setSetting => exact absurd rfl h
    | _ => trivial

theorem brand_settingsSubmit (adminUser csrf : String) (form : SettingsForm) :
    Fallible.Uses Op.WritesChecked (settingsSubmit adminUser csrf form) := by
  unfold settingsSubmit
  split
  · trivial
  simp only
  cases hv : form.trimmed.validate with
  | error e => trivial
  | ok =>
    refine Fallible.Uses.bind (x := Api.ofExcept (.ok ())) trivial fun _ => ?_
    refine Fallible.Uses.bind (Fallible.Uses.forM_mem fun x hx => ?_) fun _ => ?_
    · exact uses_internal (uses_sql (q := .setSetting x.key x.value) (form.trimmed.sound hv x hx))
    · exact Fallible.Uses.bind (uses_ignore (uses_sql trivial)) fun _ => trivial

/-- Only the settings form has the settings in its footprint. -/
theorem setting_mem_footprint {c : CafeConfig} {k : HouseCall c} (h : Part.setting ∈ k.footprint) :
    ∃ csrf form, k = .admin (.action (some csrf) (.settingsSubmit form)) := by
  cases k with
  | admin r =>
    cases r with
    | login => simp [HouseCall.footprint] at h
    | action session a =>
      cases session with
      | none => simp [HouseCall.footprint] at h
      | some csrf =>
        cases a with
        | settingsSubmit form => exact ⟨csrf, form, rfl⟩
        | manageSubmit form =>
          simp only [HouseCall.footprint, AdminAction.footprint] at h
          split_ifs at h <;> simp at h
        | _ => simp [HouseCall.footprint, AdminAction.footprint] at h
  | _ => simp [HouseCall.footprint] at h

theorem brand_program {c : CafeConfig} (k : HouseCall c) : k.program.Uses Op.WritesChecked := by
  by_cases hpart : Part.setting ∈ k.footprint
  · obtain ⟨csrf, form, rfl⟩ := setting_mem_footprint hpart
    have handler : Fallible.Uses Op.WritesChecked (Api.void (settingsSubmit c.adminUsername csrf form)) :=
      Fallible.Uses.bind (brand_settingsSubmit c.adminUsername csrf form) fun _ => Fallible.Uses.pure ()
    exact Prog.Uses.bind (f := fun _ => pure ()) handler fun _ => trivial
  · exact (Within.program k).mono fun _ hop => writesChecked_of_part (Op.part_ne_of_within hop hpart)

/-- The settings stay sound, and every program under way keeps them so. -/
theorem settingsSound_of_path {c : CafeConfig} {s s' : House c} (hidle : ∀ t ∈ s.threads, ∃ a, t.rest = .done a)
    (h : SettingsSound s.shared.db.tables) (hp : Path (house c) Free s s') : SettingsSound s'.shared.db.tables := by
  have run : SettingsSound s'.shared.db.tables ∧ ∀ t ∈ s'.threads, brand.Heeds t.rest s'.shared := by
    refine hp.invariant
      (I := fun s' => SettingsSound s'.shared.db.tables ∧ ∀ t ∈ s'.threads, brand.Heeds t.rest s'.shared)
      (fun s₁ l s₂ h _ hs => ?_) ⟨h, fun t ht => ?_⟩
    · cases l with
      | start k =>
        cases hs
        refine ⟨h.1, fun t ht => ?_⟩
        rcases List.mem_append.1 ht with ht | ht
        · exact h.2 t ht
        · rw [List.mem_singleton.1 ht]
          exact (brand_program k).heeds fun _ _ hop => hop
      | advance i fault =>
        obtain ⟨hrely, hthreads⟩ := brand.heeds_advance h.2 hs
        exact ⟨hrely h.1, hthreads⟩
      | elapse nanos =>
        cases hs
        exact ⟨h.1, fun t ht => (h.2 t ht).later fun hs => hs⟩
    · obtain ⟨a, ha⟩ := hidle t ht
      rw [ha]
      trivial
  exact run.1

/-! ## What the pages show -/

/-- The section passes the checks of the configuration file, and its style sheet is made of a colour that is written in
one form and means what the setting means. -/
structure PortalSection.Presentable (p : PortalSection) : Prop where
  valid : p.validate = .ok ()
  theme : ∃ c : Rgb, parseHexRgb p.themeColor = .ok c ∧ isValidHexColor c.text = true ∧ parseHexRgb c.text = .ok c ∧
    p.generateThemeCss = .ok (themeCss c) ∧ ∀ x ∈ (themeCss c).toList, isMarkup x = false

theorem PortalSection.presentable {p : PortalSection} (h : p.validate = .ok ()) : p.Presentable := by
  obtain ⟨c, hc, hbytes⟩ := parseHexRgb_valid (validate_ok.1 h).2.2.2.2.2.2.2
  exact ⟨h, c, hc, hbytes.text.1, hbytes.text.2, by rw [generateThemeCss, hc]; rfl, themeCss_no_markup hbytes⟩

/-- Whatever is under way and whatever fails, every page is presentable. -/
theorem pages_presentable {c : CafeConfig} {base : PortalSection} (hbase : base.validate = .ok ()) {s s' : House c}
    (hidle : ∀ t ∈ s.threads, ∃ a, t.rest = .done a) (hsettings : SettingsSound s.shared.db.tables)
    (hp : Path (house c) Free s s') (env : Op → Option Err) :
    ((portalConfigFromDb base).run (failing env) s'.shared).1.Presentable := by
  apply PortalSection.presentable
  unfold portalConfigFromDb
  rw [Prog.run_bind]
  cases he : env (.sql .getAllSettings) with
  | none =>
    have hread : (sql .getAllSettings).run.run (failing env) s'.shared =
        (.ok s'.shared.db.tables.settingList, s'.shared) := exec_query s'.shared he rfl
    rw [hread]
    show (s'.shared.db.tables.settingList.foldl PortalSection.overlay base).validate = _
    rw [Tables.foldl_settingList s'.shared.db.schema]
    exact Tables.effective_valid (settingsSound_of_path hidle hsettings hp) hbase
  | some e =>
    have hread : (sql .getAllSettings).run.run (failing env) s'.shared = (.error e, s'.shared) :=
      exec_sql_of_some s'.shared he
    rw [hread]
    exact hbase

/-- The defaults pass the checks. -/
theorem defaultSection_valid : defaultSection.validate = .ok () := by decide

/-- Two admins save at the same time, and the third statement of the first one fails. -/
def twoAdmins : List (HouseLabel .small) :=
  .start (.admin (.action (some "5eed") (.settingsSubmit branding))) ::
    .start (.admin (.action (some "5eed")
      (.settingsSubmit { branding with cafeName := "Didi", themeColor := "#123456" }))) ::
      performs 0 2 ++ performs 1 3 ++ [.advance 0 (some (.sqlx "database is locked"))]

theorem pages_presentable_twoAdmins : ∃ s, (house .small).trace newHouse twoAdmins = some s ∧
    s.shared.db.tables.settingAt "cafe_name" = some "Didi" ∧
      ((portalConfigFromDb defaultSection).run noFault s.shared).1.Presentable :=
  ⟨_, rfl, by decide +kernel, pages_presentable defaultSection_valid (s := newHouse) (fun t ht => by cases ht)
    (fun x hx => by cases hx) (Machine.path_trace (t := twoAdmins) rfl) fun _ => none⟩

end Didicafe
