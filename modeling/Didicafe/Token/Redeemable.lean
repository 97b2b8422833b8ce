/-
Which configurations generate codes that the portal accepts: the code is the same after trimming and upper-casing, it
has the expected format, and it is found. The validation of the configuration lets others through, whose codes no
customer can redeem.
-/
import Didicafe.Model.Codes
import Didicafe.Store.Rows

namespace Didicafe

open Effect

variable {c : TokenConfig} {u : CaseTable}

/-- Whatever is drawn and whatever fails, every code that `generate_tokens` returns is unchanged by the portal, has a
valid format and is found unused. -/
def GeneratesRedeemable (u : CaseTable) (c : TokenConfig) : Prop :=
  ∀ (env : Op → Option Err) (w w' : World) (planId : Int) (count : Nat) (name : Option String) (draws : Nat → Draws c)
    (codes : List String), Fallible.exec (failing env) (generateTokens c planId count name draws) w = (.ok codes, w') →
    ∀ code ∈ codes, normalizeCode u code = code ∧ validateTokenFormat c code = .ok (.ok ()) ∧
      ∃ token : Token, token.code = code ∧ Fallible.exec noFault (validateToken code) w' = (.ok (.unused token), w')

/-- The prefix does not start with white space and is in upper case, and the characters of the set are ASCII, no white
space and in upper case. -/
structure SurvivesPortal (u : CaseTable) (c : TokenConfig) : Prop where
  prefixStart : ∀ x ∈ c.codePrefix.toList.head?, isWhitespace x = false
  prefixUpper : u.toUppercase c.codePrefix.toList = c.codePrefix.toList
  charset : ∀ x ∈ c.charset.toList, isAscii x ∧ isWhitespace x = false ∧ x.toUpper = x

/-! ## The text of a code -/

theorem TokenConfig.validate_ok (h : c.validate = .ok ()) :
    c.charset ≠ "" ∧ (6 ≤ c.length ∧ c.length % 2 = 0) ∧ c.codePrefix ≠ "" := by
  simpa only [validate, ensure_bind_ok, ensure_ok] using h

/-- One of the two parts of a code. -/
def codePart (c : TokenConfig) (draws : Nat → Fin c.charset.toList.length) : List Char :=
  (List.range (c.length / 2)).map fun i => c.charset.toList.get (draws i)

theorem toList_generateCode (draws : Draws c) : (generateCode c draws).toList = (c.codePrefix.toList ++ ['-']) ++
    (codePart c draws ++ '-' :: codePart c fun i => draws (c.length / 2 + i)) := by
  unfold generateCode codePart
  simp

theorem length_codePart (draws : Nat → Fin c.charset.toList.length) : (codePart c draws).length = c.length / 2 := by
  simp [codePart]

theorem mem_codePart {x : Char} (h : x ∈ codePart c draws) : x ∈ c.charset.toList := by
  obtain ⟨i, -, rfl⟩ := List.mem_map.1 h
  exact List.get_mem ..

/-- A part that repeats one character ends in it. -/
theorem last_mem_codePart (hlen : 6 ≤ c.length) (j : Fin c.charset.toList.length) :
    c.charset.toList.get j ∈ codePart c (fun _ => j) ∧
      (codePart c fun _ => j).getLast? = some (c.charset.toList.get j) := by
  have hpart : (codePart c fun _ => j) = List.replicate (c.length / 2) (c.charset.toList.get j) := by
    unfold codePart
    rw [List.map_const', List.length_range]
  obtain ⟨n, hn⟩ : ∃ n, c.length / 2 = n + 1 := ⟨c.length / 2 - 1, by omega⟩
  rw [hpart, hn]
  constructor
  · exact List.mem_replicate.2 ⟨Nat.succ_ne_zero n, rfl⟩
  · simp [List.getLast?_replicate]

/-! ## The portal -/

theorem normalizeCode_iff {code : String} :
    normalizeCode u code = code ↔ Trimmed code.toList ∧ ∀ x ∈ code.toList, u.upper x = [x] := by
  rw [← u.toUppercase_trim_iff, normalizeCode, ← String.toList_inj, String.toList_ofList]

theorem normalizeCode_generateCode (h : SurvivesPortal u c) (hc : c.validate = .ok ()) (draws : Draws c) :
    normalizeCode u (generateCode c draws) = generateCode c draws := by
  obtain ⟨-, ⟨hlen, -⟩, hprefix⟩ := TokenConfig.validate_ok hc
  have hchar (x : Char) (hx : x ∈ c.charset.toList) : u.upper x = [x] := by
    obtain ⟨ha, -, hu⟩ := h.charset x hx
    rw [u.ascii x ha, hu]
  rw [normalizeCode_iff, toList_generateCode]
  -- the code starts in the prefix and ends in a character of the set
  refine ⟨⟨?_, ?_⟩, ?_⟩
  · intro x hx
    apply h.prefixStart x
    have hne : c.codePrefix.toList ≠ [] := by simpa using hprefix
    rwa [List.append_assoc, List.head?_append_of_ne_nil _ hne] at hx
  · intro x hx
    have hne : (codePart c fun i => draws (c.length / 2 + i)) ≠ [] := by
      rw [← List.length_pos_iff, length_codePart]
      omega
    rw [List.getLast?_append_of_ne_nil _ (by simp), List.getLast?_append_of_ne_nil _ (by simp),
      List.getLast?_cons_of_ne_nil hne] at hx
    exact (h.charset x (mem_codePart (List.mem_of_mem_getLast? hx))).2.1
  · intro x hx
    simp only [List.mem_append, List.mem_cons, List.not_mem_nil, or_false] at hx
    rcases hx with (hx | rfl) | hx | rfl | hx
    · exact (flatMap_eq_self u.ne_nil).1 h.prefixUpper x hx
    · exact u.ascii _ (by decide)
    · exact hchar x (mem_codePart hx)
    · exact u.ascii _ (by decide)
    · exact hchar x (mem_codePart hx)

/-! ## The format -/

/-- The check of a code with the expected prefix is that of the rest. -/
theorem validateTokenFormat_append (body : List Char) :
    validateTokenFormat c (String.ofList (c.codePrefix.toList ++ ['-'] ++ body)) =
      if byteLen body ≠ c.length / 2 + 1 + c.length / 2 then .ok (.error "Invalid token format.")
      else
        match (utf8 body)[c.length / 2]? with
        | none => .error (.panic "index out of bounds")
        | some separator =>
          if separator ≠ '-'.toUInt8 then .ok (.error "Invalid token format.")
          else if ∀ x ∈ body.zipIdx, x.2 = c.length / 2 ∨ x.1 ∈ c.charset.toList then .ok (.ok ())
          else .ok (.error "Invalid token format.") := by
  unfold validateTokenFormat
  simp only [String.toList_ofList]
  rewrite [if_neg (by simp), sliceFrom_append]
  rfl

section Body

variable {p₁ p₂ : List Char}

/-- A code of two parts of the right length, from the set, is accepted when it is ASCII. -/
theorem validateTokenFormat_ascii (h₁ : p₁.length = c.length / 2) (h₂ : p₂.length = c.length / 2)
    (hc₁ : ∀ x ∈ p₁, x ∈ c.charset.toList) (hc₂ : ∀ x ∈ p₂, x ∈ c.charset.toList)
    (ha : ∀ x ∈ p₁ ++ '-' :: p₂, isAscii x) :
    validateTokenFormat c (String.ofList (c.codePrefix.toList ++ ['-'] ++ (p₁ ++ '-' :: p₂))) = .ok (.ok ()) := by
  have hlen : byteLen (p₁ ++ '-' :: p₂) = c.length / 2 + 1 + c.length / 2 := by
    rw [byteLen_eq_length_iff.2 ha, List.length_append, List.length_cons, h₁, h₂]
    omega
  -- one byte for each character, so the separator is where the format expects it
  have hsep : (utf8 (p₁ ++ '-' :: p₂))[c.length / 2]? = some '-'.toUInt8 := by
    have hu : (utf8 p₁).length = c.length / 2 := by
      rw [length_utf8, byteLen_eq_length_iff.2 fun x hx => ha x (List.mem_append_left _ hx), h₁]
    rw [utf8_append, List.getElem?_append_right hu.le, hu, Nat.sub_self]
    rfl
  rw [validateTokenFormat_append, if_neg (by simpa using hlen), hsep]
  simp only [ne_eq, not_true_eq_false, if_false]
  rw [if_pos]
  rintro ⟨x, i⟩ hx
  rw [List.zipIdx_append, List.zipIdx_cons, Nat.zero_add, h₁, List.mem_append, List.mem_cons] at hx
  rcases hx with hx | hx | hx
  · exact .inr (hc₁ x (List.fst_mem_of_mem_zipIdx hx))
  · exact .inl (Prod.mk.inj hx).2
  · exact .inr (hc₂ x (List.fst_mem_of_mem_zipIdx hx))

/-- It is accepted only then. -/
theorem ascii_of_accepted (h₁ : p₁.length = c.length / 2) (h₂ : p₂.length = c.length / 2)
    (h : validateTokenFormat c (String.ofList (c.codePrefix.toList ++ ['-'] ++ (p₁ ++ '-' :: p₂))) = .ok (.ok ())) :
    ∀ x ∈ p₁ ++ '-' :: p₂, isAscii x := by
  rw [validateTokenFormat_append] at h
  -- the format counts bytes where the generator counts characters
  rw [← byteLen_eq_length_iff, List.length_append, List.length_cons, h₁, h₂]
  split at h
  · cases h
  · omega

end Body

/-! ## The generator -/

/-- The insertions that all succeed leave every code as an unused token. -/
theorem exec_createTokens_ok {env : Op → Option Err} {planId : Int} {name : Option String} {u : PUnit} :
    ∀ {codes : List String} {w w' : World}, Fallible.exec (failing env) (codes.forM fun code => do
      let _ ← sql (.createToken code name planId)) w = (.ok u, w') →
      (∀ r ∈ w.db.tables.token, r ∈ w'.db.tables.token) ∧
        ∀ code ∈ codes, ∃ r ∈ w'.db.tables.token, r.code = code ∧ r.status = .unused
  | [], _, _, h => by
    cases h
    exact ⟨fun _ hr => hr, nofun⟩
  | code :: codes, w, w', h => by
    obtain ⟨_, w₁, hone, hrest⟩ := Fallible.exec_bind_inv _ h
    obtain ⟨id, _, hsql, hpure⟩ := Fallible.exec_bind_inv _ hone
    cases hpure
    obtain ⟨hid, rfl⟩ := exec_sql_ok w hsql
    obtain ⟨-, htab⟩ := Tables.createToken_ok hid
    obtain ⟨hkeep, hcodes⟩ := exec_createTokens_ok hrest
    have hmem (r : TokenRow) (hr : r ∈ (w.db.tables.createToken w.now code name planId).2.token) :
        r ∈ w'.db.tables.token := hkeep r hr
    rw [htab] at hmem
    constructor
    · exact fun r hr => hmem r (List.mem_append_left _ hr)
    · rintro x (_ | ⟨_, hx⟩)
      · exact ⟨_, hmem _ (List.mem_append_right _ (.head _)), rfl, rfl⟩
      · exact hcodes x hx

theorem exec_generateTokens_ok {env : Op → Option Err} {w w' : World} {planId : Int} {count : Nat}
    {name : Option String} {draws : Nat → Draws c} {codes : List String}
    (h : Fallible.exec (failing env) (generateTokens c planId count name draws) w = (.ok codes, w')) :
    (∀ code ∈ codes, ∃ k, code = generateCode c (draws k)) ∧
      ∀ code ∈ codes, ∃ r ∈ w'.db.tables.token, r.code = code ∧ r.status = .unused := by
  obtain ⟨_, _, hins, hret⟩ := Fallible.exec_bind_inv _ h
  cases hret
  refine ⟨fun code hcode => ?_, (exec_createTokens_ok hins).2⟩
  obtain ⟨k, -, rfl⟩ := List.mem_map.1 hcode
  exact ⟨k, rfl⟩

theorem exec_validateToken_unused {w : World} {r : TokenRow} (hr : r ∈ w.db.tables.token) (hst : r.status = .unused) :
    ∃ token : Token, token.code = r.code ∧
      Fallible.exec noFault (validateToken r.code) w = (.ok (.unused token), w) := by
  obtain ⟨k, hk, rfl⟩ := Tables.tokenByCode_of_mem w.db.schema hr
  refine ⟨k, rfl, ?_⟩
  unfold validateToken
  have hx : Fallible.exec noFault (sql (.getTokenByCode k.code)) w = (.ok (w.db.tables.tokenByCode k.code), w) :=
    exec_query w rfl rfl
  rw [Fallible.exec_bind_ok _ hx, hk, Fallible.exec_pure]
  unfold TokenLookup.ofToken
  simp only [hst]

/-! ## Which configurations -/

/-- No code of the small shop has a dash. -/
theorem exec_generateTokens_shop (draws : Draws c) : ∃ w', Fallible.exec noFault
    (generateTokens c 1 1 none fun _ => draws) ⟨0, shop, fun _ => none⟩ = (.ok [generateCode c draws], w') := by
  have hdash : '-' ∈ (generateCode c draws).toList := by
    rw [toList_generateCode]
    simp
  have hshop : ∀ r ∈ shop.tables.token, '-' ∉ r.code.toList := by decide
  have hnew : shop.tables.token.any (fun r => r.code == generateCode c draws) = false := by
    refine List.any_eq_false.2 fun r hr he => hshop r hr ?_
    rwa [eq_of_beq he]
  have hok : (shop.tables.createToken 0 (generateCode c draws) none 1).1 = .ok 4 := by
    unfold Tables.createToken
    rw [if_neg (by simp [hnew])]
    rfl
  have hsql : Fallible.exec noFault (sql (.createToken (generateCode c draws) none 1)) ⟨0, shop, fun _ => none⟩ = _ :=
    exec_sql_of_none _ rfl
  rw [show (Sql.run 0 shop.tables (.createToken (generateCode c draws) none 1)).1 = .ok 4 from hok] at hsql
  unfold generateTokens
  refine ⟨_, Fallible.exec_bind_ok _ (a := ⟨⟩) (Fallible.exec_bind_ok _ (a := ⟨⟩) (Fallible.exec_bind_ok _ hsql _) _) _⟩

/-- The code that repeats one character is unchanged and accepted. -/
theorem GeneratesRedeemable.repeated (h : GeneratesRedeemable u c) (j : Fin c.charset.toList.length) :
    normalizeCode u (generateCode c fun _ => j) = generateCode c (fun _ => j) ∧
      validateTokenFormat c (generateCode c fun _ => j) = .ok (.ok ()) := by
  obtain ⟨w', hw⟩ := exec_generateTokens_shop fun _ => j
  obtain ⟨hn, hv, -⟩ := h _ _ w' 1 1 none _ _ hw _ (.head _)
  exact ⟨hn, hv⟩

/-- It tells whether this character survives. -/
theorem GeneratesRedeemable.char (h : GeneratesRedeemable u c) (hlen : 6 ≤ c.length) :
    ∀ x ∈ c.charset.toList, isAscii x ∧ isWhitespace x = false ∧ x.toUpper = x := by
  intro x hx
  obtain ⟨j, rfl⟩ := List.get_of_mem hx
  obtain ⟨hn, hv⟩ := h.repeated j
  obtain ⟨⟨-, hlast⟩, hupper⟩ := normalizeCode_iff.1 hn
  rw [← String.ofList_toList (s := generateCode c fun _ => j), toList_generateCode] at hv
  rw [toList_generateCode] at hlast hupper
  have hascii := ascii_of_accepted (length_codePart _) (length_codePart _) hv
  have hmem := last_mem_codePart hlen j
  have hx := hascii _ (List.mem_append_right _ (.tail _ hmem.1))
  have hu := hupper _ (List.mem_append_right _ (List.mem_append_right _ (.tail _ hmem.1)))
  rw [u.ascii _ hx] at hu
  refine ⟨hx, hlast _ ?_, (List.cons.inj hu).1⟩
  rw [List.getLast?_append_of_ne_nil _ (by simp), List.getLast?_append_of_ne_nil _ (by simp),
    List.getLast?_cons_of_ne_nil (List.ne_nil_of_mem hmem.1)]
  exact hmem.2

theorem SurvivesPortal.generatesRedeemable (h : SurvivesPortal u c) (hc : c.validate = .ok ()) :
    GeneratesRedeemable u c := by
  intro env w w' planId count name draws codes hx code hcode
  obtain ⟨hgen, hrow⟩ := exec_generateTokens_ok hx
  obtain ⟨r, hr, rfl, hst⟩ := hrow code hcode
  obtain ⟨k, hk⟩ := hgen r.code hcode
  refine ⟨by rw [hk]; exact normalizeCode_generateCode h hc (draws k), ?_, exec_validateToken_unused hr hst⟩
  rw [hk, ← String.ofList_toList (s := generateCode c (draws k)), toList_generateCode]
  refine validateTokenFormat_ascii (length_codePart _) (length_codePart _) (fun _ => mem_codePart)
    (fun _ => mem_codePart) ?_
  intro x hx
  simp only [List.mem_append, List.mem_cons] at hx
  rcases hx with hx | rfl | hx
  · exact (h.charset x (mem_codePart hx)).1
  · decide
  · exact (h.charset x (mem_codePart hx)).1

/-- A validated configuration generates codes that can be redeemed exactly when these survive the portal. -/
theorem generatesRedeemable_iff (hc : c.validate = .ok ()) : GeneratesRedeemable u c ↔ SurvivesPortal u c := by
  obtain ⟨hcharset, ⟨hlen, -⟩, hprefix⟩ := TokenConfig.validate_ok hc
  constructor
  · intro h
    -- the prefix is the same in every code, so one of them is enough
    obtain ⟨hn, -⟩ := h.repeated ⟨0, List.length_pos_iff.2 (by simpa using hcharset)⟩
    obtain ⟨⟨hhead, -⟩, hupper⟩ := normalizeCode_iff.1 hn
    rw [toList_generateCode] at hhead hupper
    refine ⟨fun x hx => hhead x ?_, ?_, h.char hlen⟩
    · rwa [List.append_assoc, List.head?_append_of_ne_nil _ (by simpa using hprefix)]
    · refine (flatMap_eq_self u.ne_nil).2 fun x hx => hupper x ?_
      exact List.mem_append_left _ (List.mem_append_left _ hx)
  · intro h
    exact h.generatesRedeemable hc

/-- An upper-case letter is no white space. -/
theorem isWhitespace_toUpper {x : Char} (h : isWhitespace x = false) : isWhitespace x.toUpper = false := by
  unfold Char.toUpper
  split
  · rename_i hx
    obtain ⟨ha, hz⟩ := hx
    rw [UInt32.le_iff_toNat_le] at ha hz
    have hval : (x.val + ('A'.val - 'a'.val)).toNat = x.val.toNat - 32 := by
      rw [UInt32.toNat_add, show ('A'.val - 'a'.val).toNat = 2 ^ 32 - 32 from rfl]
      rw [show 'a'.val.toNat = 97 from rfl] at ha
      have := x.val.toNat_lt
      omega
    rw [show 'a'.val.toNat = 97 from rfl] at ha
    rw [show 'z'.val.toNat = 122 from rfl] at hz
    unfold isWhitespace Char.toNat
    simp only [hval, Bool.or_eq_false_iff, Bool.and_eq_false_iff, decide_eq_false_iff_not, beq_eq_false_iff_ne]
    omega
  · exact h

/-- The case mapping of ASCII alone. -/
def asciiTable : CaseTable where
  upper x := [x.toUpper]
  ascii _ _ := rfl
  ne_nil x := List.cons_ne_nil x.toUpper []
  notWhitespace x hx d hd := by
    rw [List.mem_singleton.1 hd]
    exact isWhitespace_toUpper hx

/-- The shipped configuration. -/
theorem generatesRedeemable_shipped :
    GeneratesRedeemable asciiTable ⟨"DIDI", "ABCDEFGHJKLMNPQRSTUVWXYZ23456789", 8⟩ := by
  refine (generatesRedeemable_iff rfl).2 ?_
  have hset : "ABCDEFGHJKLMNPQRSTUVWXYZ23456789".toList.all
      (fun x => isAscii x && (!isWhitespace x && x.toUpper == x)) = true := by decide
  constructor
  case prefixStart =>
    rintro x ⟨⟩
    rfl
  case prefixUpper => decide
  case charset =>
    intro x hx
    simpa using List.all_eq_true.1 hset x hx

/-- A set of lower-case characters passes the validation, but the portal changes every code of it. -/
theorem lowercase_notRedeemable :
    ¬ ∃ u : CaseTable, ∀ c : TokenConfig, c.validate = .ok () → GeneratesRedeemable u c := by
  rintro ⟨u, h⟩
  obtain ⟨w', hw⟩ := exec_generateTokens_shop (c := ⟨"DIDI", "abcdef", 8⟩) fun _ => ⟨0, by decide⟩
  obtain ⟨hn, -⟩ := h ⟨"DIDI", "abcdef", 8⟩ rfl _ _ w' 1 1 none _ _ hw _ (.head _)
  have ha := (normalizeCode_iff.1 hn).2 'a' (by decide)
  rw [u.ascii 'a' (by decide)] at ha
  exact absurd ha (by decide)

end Didicafe
