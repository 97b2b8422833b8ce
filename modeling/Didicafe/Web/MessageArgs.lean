/-
The interpolation arguments of a translated message, which the page gets as hand-written JSON: the text can be parsed
back exactly when no value has a control character, which the encoder does not escape.
-/
import Didicafe.Lib.Json
import Didicafe.Model.Admin
import Didicafe.Model.Net

namespace Didicafe

/-- `replace` of a character. -/
def replaceChar (c : Char) (escape s : List Char) : List Char :=
  s.flatMap fun x => if x = c then escape else [x]

namespace I18nMessage

/-- The value of an argument with double quotes and backslashes escaped. -/
def escapeValue (v : List Char) : List Char := replaceChar '"' ['\\', '"'] (replaceChar '\\' ['\\', '\\'] v)

def pairText (arg : String × String) : List Char :=
  '"' :: (arg.1.toList ++ '"' :: ':' :: '"' :: (escapeValue arg.2.toList ++ ['"']))

def argsJson (m : I18nMessage) : String :=
  if m.args = [] then "" else String.ofList ('\x7b' :: (separated ',' (m.args.map pairText) ++ ['\x7d']))

/-! ## Keys and values -/

/-- A key that is an identifier. -/
def isPlainKey (key : String) : Bool := key ≠ "" && key.toList.all fun c => c.isAlphanum || c = '_'

/-- No control character. -/
def Clean (v : String) : Prop := ∀ c ∈ v.toList, 0x20 ≤ c.toNat

theorem clean_iff {v : String} : v.toList.all (Json.Unescaped ·) = true ↔ Clean v :=
  List.all_eq_true.trans (forall₂_congr fun _ _ => decide_eq_true_iff)

instance (v : String) : Decidable (Clean v) := decidable_of_iff _ clean_iff

variable {key v rest : List Char} {c : Char} {arg : String × String}

theorem escapeValue_cons (c : Char) (v : List Char) :
    escapeValue (c :: v) =
      (if c = '\\' then ['\\', '\\'] else if c = '"' then ['\\', '"'] else [c]) ++ escapeValue v := by
  unfold escapeValue replaceChar
  rw [List.flatMap_cons, List.flatMap_append]
  congr 1
  split
  · rfl
  · split <;> simp_all

/-- The value is read back up to its closing quote, unless a control character stands in it. -/
theorem chars_escapeValue (v rest : List Char) :
    Json.chars (escapeValue v ++ '"' :: rest) = if v.all (Json.Unescaped ·) then some (v, rest) else none := by
  induction v with
  | nil => simp [escapeValue, replaceChar]
  | cons c v ih =>
    rw [escapeValue_cons, List.append_assoc]
    by_cases hc : Json.Unescaped c
    · have hread : ∀ s, Json.chars ((if c = '\\' then ['\\', '\\'] else if c = '"' then ['\\', '"'] else [c]) ++ s) =
          Json.more c (Json.chars s) := by
        intro s
        split
        · next h => subst h; exact Json.chars_escaped rfl
        · next hbackslash =>
          split
          · next h => subst h; exact Json.chars_escaped rfl
          · next hquote => exact Json.chars_unescaped hquote hbackslash hc
      rw [hread, ih]
      simp only [List.all_cons, hc, decide_true, Bool.true_and]
      split <;> rfl
    · have hbackslash : c ≠ '\\' := by
        rintro rfl
        exact hc (by decide)
      have hquote : c ≠ '"' := by
        rintro rfl
        exact hc (by decide)
      rw [if_neg hbackslash, if_neg hquote, List.singleton_append, Json.chars_control hc]
      simp [hc]

/-- An identifier character stands for itself. -/
theorem keyChar {c : Char} (h : (c.isAlphanum || c = '_') = true) : c ≠ '"' ∧ c ≠ '\\' ∧ Json.Unescaped c := by
  refine ⟨?_, ?_, ?_⟩
  · rintro rfl
    exact absurd h (by decide)
  · rintro rfl
    exact absurd h (by decide)
  · by_contra hc
    have control : (List.range 0x20).all (fun n => !((Char.ofNat n).isAlphanum || Char.ofNat n = '_')) = true := by
      decide
    have hnot := List.all_eq_true.1 control c.toNat (List.mem_range.2 (Nat.not_le.1 hc))
    rw [Char.ofNat_toNat, h] at hnot
    cases hnot

theorem chars_plainKey {key : List Char} (h : ∀ c ∈ key, (c.isAlphanum || c = '_') = true) (rest : List Char) :
    Json.chars (key ++ '"' :: rest) = some (key, rest) := by
  induction key with
  | nil => exact Json.chars_quote rest
  | cons c key ih =>
    obtain ⟨hc, hkey⟩ := List.forall_mem_cons.1 h
    obtain ⟨hquote, hbackslash, hunescaped⟩ := keyChar hc
    rw [List.cons_append, Json.chars_unescaped hquote hbackslash hunescaped, ih hkey]
    rfl

/-! ## The object -/

/-- The members that are meant. -/
def members (args : List (String × String)) : List (List Char × Json) :=
  args.map fun arg => (arg.1.toList, .string arg.2.toList)

theorem length_le_separated (sep : Char) : ∀ {parts : List (List Char)}, (∀ part ∈ parts, part ≠ []) →
    parts.length ≤ (separated sep parts).length
  | [], _ => Nat.zero_le _
  | [part], h => List.length_pos_iff.2 (h part (List.mem_singleton_self _))
  | part :: p :: parts, h => by
    have ih := length_le_separated sep (List.forall_mem_cons.1 h).2
    simp only [separated, List.length_append, List.length_cons] at ih ⊢
    omega

/-- One argument is read back, unless its value has a control character. -/
theorem chars_pair {arg : String × String} (hkey : isPlainKey arg.1) (rest : List Char) :
    ∃ s t, pairText arg ++ rest = '"' :: s ∧ Json.chars s = some (arg.1.toList, ':' :: '"' :: t) ∧
      Json.chars t = if Clean arg.2 then some (arg.2.toList, rest) else none := by
  have hchars := List.all_eq_true.1 (Bool.and_eq_true_iff.1 hkey).2
  refine ⟨arg.1.toList ++ '"' :: ':' :: '"' :: (escapeValue arg.2.toList ++ '"' :: rest),
    escapeValue arg.2.toList ++ '"' :: rest, by simp [pairText], chars_plainKey hchars _, ?_⟩
  rw [chars_escapeValue]
  exact if_congr clean_iff rfl rfl

/-- The arguments from one on are read back, unless one of their values has a control character. -/
theorem members_separated {fuel : Nat} : ∀ {args : List (String × String)}, args ≠ [] → args.length < fuel →
    (∀ arg ∈ args, isPlainKey arg.1) → ∀ rest,
    Json.members fuel (separated ',' (args.map pairText) ++ '\x7d' :: rest) =
      if ∀ arg ∈ args, Clean arg.2 then some (members args, rest) else none := by
  induction fuel with
  | zero => exact fun _ hlt => absurd hlt (Nat.not_lt_zero _)
  | succ fuel ih =>
    intro args hne hlt hkeys rest
    match args, hne with
    | arg :: args, _ =>
      obtain ⟨hkey, hkeys⟩ := List.forall_mem_cons.1 hkeys
      obtain ⟨fuel, rfl⟩ : ∃ n, fuel = n + 1 := Nat.exists_eq_succ_of_ne_zero (by simp at hlt; omega)
      cases args with
      | nil =>
        obtain ⟨s, t, htext, hs, ht⟩ := chars_pair hkey ('\x7d' :: rest)
        show Json.members _ (pairText arg ++ '\x7d' :: rest) = _
        have hone : (∀ a ∈ [arg], Clean a.2) ↔ Clean arg.2 := List.forall_mem_singleton
        rw [htext, if_congr hone rfl rfl]
        by_cases hclean : Clean arg.2
        · rw [if_pos hclean] at ht ⊢
          rw [Json.members_last hs ht]
          rfl
        · rw [if_neg hclean] at ht ⊢
          rw [Json.members_none hs ht]
      | cons arg' args =>
        obtain ⟨s, t, htext, hs, ht⟩ :=
          chars_pair hkey (',' :: (separated ',' ((arg' :: args).map pairText) ++ '\x7d' :: rest))
        have happend : separated ',' ((arg :: arg' :: args).map pairText) ++ '\x7d' :: rest = '"' :: s := by
          rw [← htext]
          simp [separated]
        rw [happend]
        by_cases hclean : Clean arg.2
        · rw [if_pos hclean] at ht
          rw [Json.members_more hs ht, ih (List.cons_ne_nil _ _) (Nat.lt_of_succ_lt_succ hlt) hkeys]
          simp only [List.forall_mem_cons (a := arg), hclean, true_and]
          split <;> rfl
        · rw [if_neg hclean] at ht
          have hdirty : ¬ ∀ a ∈ arg :: arg' :: args, Clean a.2 := fun h => hclean (List.forall_mem_cons.1 h).1
          rw [Json.members_none hs ht, if_neg hdirty]

/-- The whole text. -/
theorem parse_argsJson {m : I18nMessage} (hne : m.args ≠ []) (hkeys : ∀ arg ∈ m.args, isPlainKey arg.1) :
    Json.parse m.argsJson = if ∀ arg ∈ m.args, Clean arg.2 then some (.object (members m.args)) else none := by
  obtain ⟨text, htext⟩ : ∃ s, separated ',' (m.args.map pairText) ++ ['\x7d'] = '"' :: s := by
    match hargs : m.args, hne with
    | [arg], _ => exact ⟨_, rfl⟩
    | arg :: arg' :: args, _ => exact ⟨_, rfl⟩
  have hlist : m.argsJson.toList = '\x7b' :: '"' :: text := by
    rw [argsJson, if_neg hne, String.toList_ofList, htext]
  have hfuel : m.args.length < 2 * m.argsJson.length := by
    have hpairs : ∀ part ∈ m.args.map pairText, part ≠ [] := List.forall_mem_map.2 fun _ _ => List.cons_ne_nil _ _
    have hle := length_le_separated ',' hpairs
    have hlen : m.argsJson.length = (separated ',' (m.args.map pairText)).length + 2 := by
      rw [← String.length_toList, hlist, ← htext]
      simp
    rw [List.length_map] at hle
    omega
  unfold Json.parse
  rw [hlist, Json.value_object, ← htext, members_separated hne hfuel hkeys]
  split <;> rfl

end I18nMessage

open I18nMessage

/-- The text parses to the keys and values exactly when no value has a control character; otherwise it is not JSON. -/
theorem argsJson_faithful_iff {m : I18nMessage} (hne : m.args ≠ []) (hkeys : ∀ arg ∈ m.args, isPlainKey arg.1) :
    (Json.parse m.argsJson = some (.object (members m.args)) ↔ ∀ arg ∈ m.args, Clean arg.2) ∧
      ((∃ arg ∈ m.args, ¬ Clean arg.2) → Json.parse m.argsJson = none) := by
  rw [parse_argsJson hne hkeys]
  constructor
  · split
    · exact iff_of_true rfl ‹_›
    · exact iff_of_false nofun ‹_›
  · rintro ⟨arg, hmem, hdirty⟩
    rw [if_neg fun h => hdirty (h arg hmem)]

theorem argsJson_faithful_iff_quotes :
    let m : I18nMessage := ⟨"admin.manage.plan_created", [("name", "the \"1h\" plan \\ é")]⟩
    (Json.parse m.argsJson = some (.object (members m.args)) ↔ ∀ arg ∈ m.args, Clean arg.2) ∧
      ((∃ arg ∈ m.args, ¬ Clean arg.2) → Json.parse m.argsJson = none) :=
  argsJson_faithful_iff (List.cons_ne_nil _ _) (by decide)

/-- A plan can be named with a tab, and the message that it was created then has no JSON. -/
theorem argsJson_tab :
    let m : I18nMessage := ⟨"admin.manage.plan_created", [("name", "WiFi\t1h")]⟩
    validatePlanInput "WiFi\t1h" 60 500 = .ok () ∧ (∀ arg ∈ m.args, isPlainKey arg.1) ∧
      Json.parse m.argsJson = none := by
  intro m
  have hkeys : ∀ arg ∈ m.args, isPlainKey arg.1 := by decide
  have hdirty : ¬ ∀ arg ∈ m.args, Clean arg.2 := by
    intro h
    exact absurd (h _ (List.mem_singleton_self _) '\t' (by decide)) (by decide)
  refine ⟨by decide, hkeys, ?_⟩
  rw [parse_argsJson (List.cons_ne_nil _ _) hkeys, if_neg hdirty]

end Didicafe
