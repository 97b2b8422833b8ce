/-
The grammar of token codes: over an ASCII character set, `validate_token_format` accepts the texts of the grammar and
no others, and it panics on none.
-/
import Didicafe.Token.Redeemable

namespace Didicafe

variable {c : TokenConfig} {body : List Char}

/-- `PREFIX-XXXX-XXXX`: the prefix, a dash and two parts of half the length each, from the character set, with a dash
between them. -/
def TokenConfig.Grammar (c : TokenConfig) (code : String) : Prop :=
  ∃ part₁ part₂ : List Char,
    code = String.ofList (c.codePrefix.toList ++ ['-'] ++ (part₁ ++ '-' :: part₂)) ∧
      (part₁.length = c.length / 2 ∧ ∀ x ∈ part₁, x ∈ c.charset.toList) ∧
      part₂.length = c.length / 2 ∧ ∀ x ∈ part₂, x ∈ c.charset.toList

/-- Only the dash is encoded with the byte of the dash in front. -/
theorem eq_dash_of_head {x : Char} (h : (String.utf8EncodeChar x)[0]? = some '-'.toUInt8) : x = '-' := by
  by_cases hx : isAscii x
  · rw [utf8EncodeChar_of_isAscii hx] at h
    have hn := congrArg UInt8.toNat (Option.some.inj h)
    have hlt : x.toNat < 128 := of_decide_eq_true hx
    rw [UInt8.toNat_ofNat', Nat.mod_eq_of_lt (hlt.trans (by decide))] at hn
    exact Char.toNat_inj.1 hn
  · obtain ⟨b, bs, hb, hle⟩ := utf8EncodeChar_of_not_isAscii hx
    rw [hb] at h
    obtain rfl : b = '-'.toUInt8 := Option.some.inj h
    exact absurd hle (by decide)

/-- A text whose characters other than that at position `n` are ASCII and which has a dash at byte `n`, of more than
`n` bytes: up to there it is ASCII, and the character at position `n` is the dash. -/
theorem split_at_dash {n : Nat} (hascii : ∀ x ∈ body.zipIdx, x.2 ≠ n → isAscii x.1) (hlen : n < byteLen body)
    (hdash : (utf8 body)[n]? = some '-'.toUInt8) :
    ∃ part₁ part₂, body = part₁ ++ '-' :: part₂ ∧ part₁.length = n ∧ ∀ x ∈ part₁ ++ '-' :: part₂, isAscii x := by
  have each (i : Nat) (hi : i < body.length) (hne : i ≠ n) : isAscii body[i] := by
    refine hascii (body[i], i) ?_ hne
    rw [List.mem_zipIdx_iff_getElem?, List.getElem?_eq_getElem hi]
  have hn : n < body.length := by
    by_contra hle
    have hall : ∀ x ∈ body, isAscii x := by
      intro x hx
      obtain ⟨i, hi, rfl⟩ := List.getElem_of_mem hx
      exact each i hi (by omega)
    rw [byteLen_eq_length_iff.2 hall] at hlen
    omega
  have hsplit : body = body.take n ++ body[n] :: body.drop (n + 1) := by
    rw [← List.drop_eq_getElem_cons hn, List.take_append_drop]
  have htake : ∀ x ∈ body.take n, isAscii x := by
    intro x hx
    obtain ⟨i, hi, rfl⟩ := List.getElem_of_mem hx
    rw [List.length_take] at hi
    rw [List.getElem_take]
    exact each i (by omega) (by omega)
  have hdrop : ∀ x ∈ body.drop (n + 1), isAscii x := by
    intro x hx
    obtain ⟨i, hi, rfl⟩ := List.getElem_of_mem hx
    rw [List.length_drop] at hi
    rw [List.getElem_drop]
    exact each (n + 1 + i) (by omega) (by omega)
  have hlen₁ : (body.take n).length = n := List.length_take_of_le (by omega)
  have hmid : body[n] = '-' := by
    apply eq_dash_of_head
    have hbytes : (utf8 (body.take n)).length = n := by
      rw [length_utf8, byteLen_eq_length_iff.2 htake, hlen₁]
    rw [hsplit, utf8_append, List.getElem?_append_right hbytes.le, hbytes, Nat.sub_self] at hdash
    rwa [utf8, List.flatMap_cons, List.getElem?_append_left (List.length_pos_iff.2 String.utf8EncodeChar_ne_nil)]
      at hdash
  rw [hmid] at hsplit
  refine ⟨_, _, hsplit, hlen₁, ?_⟩
  intro x hx
  rcases List.mem_append.1 hx with hx | hx
  · exact htake x hx
  · rcases List.mem_cons.1 hx with rfl | hx
    · decide
    · exact hdrop x hx

/-- The checks of `validate_token_format`, none of which panics: the slice is behind the prefix, and the index in the
body. -/
theorem validateTokenFormat_cases (c : TokenConfig) (code : String) :
    validateTokenFormat c code = .ok (.error "Invalid token format.") ∨
      ∃ body, code = String.ofList (c.codePrefix.toList ++ ['-'] ++ body) ∧ validateTokenFormat c code = .ok (.ok ()) ∧
        byteLen body = c.length / 2 + 1 + c.length / 2 ∧ (utf8 body)[c.length / 2]? = some '-'.toUInt8 ∧
        ∀ x ∈ body.zipIdx, x.2 = c.length / 2 ∨ x.1 ∈ c.charset.toList := by
  by_cases hpre : c.codePrefix.toList ++ ['-'] <+: code.toList
  · obtain ⟨body, hbody⟩ := hpre
    have hcode : code = String.ofList (c.codePrefix.toList ++ ['-'] ++ body) := by
      rw [hbody, String.ofList_toList]
    rw [hcode, validateTokenFormat_append]
    split
    · exact .inl rfl
    · rename_i hlen
      have hlt : c.length / 2 < (utf8 body).length := by
        rw [length_utf8]
        omega
      rw [List.getElem?_eq_getElem hlt]
      simp only
      split
      · exact .inl rfl
      · rename_i hdash
        split
        · rename_i hset
          refine .inr ⟨body, rfl, rfl, by omega, ?_, hset⟩
          rw [List.getElem?_eq_getElem hlt, not_not.1 hdash]
        · exact .inl rfl
  · left
    unfold validateTokenFormat
    simp only [hpre, not_false_eq_true, if_true]

/-- With an ASCII character set, every text is accepted or rejected without a panic, and the accepted ones are those
of the grammar. -/
theorem validateTokenFormat_iff (hset : ∀ x ∈ c.charset.toList, isAscii x) (code : String) :
    (∃ r, validateTokenFormat c code = .ok r) ∧ (validateTokenFormat c code = .ok (.ok ()) ↔ c.Grammar code) := by
  have cases := validateTokenFormat_cases c code
  refine ⟨?_, fun hok => ?_, ?_⟩
  · rcases cases with h | ⟨_, _, h, _⟩
    · exact ⟨_, h⟩
    · exact ⟨_, h⟩
  · rcases cases with h | ⟨body, hcode, -, hlen, hdash, hchars⟩
    · rw [h] at hok
      cases hok
    · have hascii : ∀ x ∈ body.zipIdx, x.2 ≠ c.length / 2 → isAscii x.1 :=
        fun x hx hne => hset _ ((hchars x hx).resolve_left hne)
      obtain ⟨part₁, part₂, rfl, h₁, ha⟩ := split_at_dash hascii (by omega) hdash
      -- every character is one byte, so the rest has the right length
      rw [byteLen_eq_length_iff.2 ha, List.length_append, List.length_cons, h₁] at hlen
      rw [List.zipIdx_append, List.zipIdx_cons, Nat.zero_add, h₁] at hchars
      refine ⟨part₁, part₂, hcode, ⟨h₁, fun x hx => ?_⟩, by omega, fun x hx => ?_⟩
      · obtain ⟨i, hi, rfl⟩ := List.getElem_of_mem hx
        have hmem : (part₁[i], i) ∈ part₁.zipIdx := by
          rw [List.mem_zipIdx_iff_getElem?, List.getElem?_eq_getElem hi]
        exact (hchars _ (List.mem_append_left _ hmem)).resolve_left (show i ≠ _ by omega)
      · obtain ⟨i, hi, rfl⟩ := List.getElem_of_mem hx
        have hmem : (part₂[i], c.length / 2 + 1 + i) ∈ part₂.zipIdx (c.length / 2 + 1) := by
          rw [List.mk_add_mem_zipIdx_iff_getElem?, List.getElem?_eq_getElem hi]
        exact (hchars _ (List.mem_append_right _ (.tail _ hmem))).resolve_left (show _ ≠ _ by omega)
  · rintro ⟨part₁, part₂, rfl, ⟨h₁, hc₁⟩, h₂, hc₂⟩
    refine validateTokenFormat_ascii h₁ h₂ hc₁ hc₂ ?_
    intro x hx
    rcases List.mem_append.1 hx with hx | hx
    · exact hset x (hc₁ x hx)
    · rcases List.mem_cons.1 hx with rfl | hx
      · decide
      · exact hset x (hc₂ x hx)

/-- A dash among two-byte characters, at its byte but not at its position. -/
theorem validateTokenFormat_iff_shipped :
    (∃ r, validateTokenFormat ⟨"DIDI", "ABCDEFGHJKLMNPQRSTUVWXYZ23456789", 8⟩ "DIDI-éé-ABCD" = .ok r) ∧
      (validateTokenFormat ⟨"DIDI", "ABCDEFGHJKLMNPQRSTUVWXYZ23456789", 8⟩ "DIDI-éé-ABCD" = .ok (.ok ()) ↔
        TokenConfig.Grammar ⟨"DIDI", "ABCDEFGHJKLMNPQRSTUVWXYZ23456789", 8⟩ "DIDI-éé-ABCD") := by
  refine validateTokenFormat_iff ?_ _
  have hset : "ABCDEFGHJKLMNPQRSTUVWXYZ23456789".toList.all isAscii = true := by decide
  exact fun x hx => List.all_eq_true.1 hset x hx

end Didicafe
