/-
The batches of `generate_tokens`. A batch that succeeds adds exactly its codes. Its insertions are statements of their
own, so one that fails leaves the codes in front of the one that was refused.
-/
import Didicafe.Token.Redeemable

namespace Didicafe

open Effect

variable {c : TokenConfig} {env : Op → Option Err} {planId : Int} {name : Option String}

/-- The codes of a batch. -/
def batchCodes (c : TokenConfig) (count : Nat) (draws : Nat → Draws c) : List String :=
  (List.range count).map fun k => generateCode c (draws k)

theorem length_batchCodes (count : Nat) (draws : Nat → Draws c) : (batchCodes c count draws).length = count := by
  simp [batchCodes]

/-- Rows of unused tokens of a plan with the given codes. -/
structure Batch (planId : Int) (codes : List String) (rows : List TokenRow) : Prop where
  codes : rows.map (·.code) = codes
  unused : ∀ r ∈ rows, r.status = .unused ∧ r.planId = planId

/-- A result with all of its codes added, or an error with none of them. -/
structure AllOrNone (planId : Int) (count : Nat) (t : Tables) (r : Except Err (List String) × World) : Prop where
  ok : ∀ codes, r.1 = .ok codes → codes.length = count ∧ codes.Nodup ∧ (∀ x ∈ t.token, x.code ∉ codes) ∧
    ∃ rows, r.2.db.tables.token = t.token ++ rows ∧ Batch planId codes rows
  error : ∀ e, r.1 = .error e → r.2.db.tables.token = t.token

/-- The insertion of a code goes through: it is not made to fail, the code is new and the plan exists. -/
structure Insertable (env : Op → Option Err) (planId : Int) (name : Option String) (t : Tables) (code : String) :
    Prop where
  noFault : env (.sql (.createToken code name planId)) = none
  fresh : ∀ r ∈ t.token, r.code ≠ code
  plan : ∃ p ∈ t.plan, p.id = planId

/-! ## One insertion -/

/-- The row that is inserted for a code. -/
def Tables.newToken (t : Tables) (now planId : Int) (name : Option String) (code : String) : TokenRow :=
  { id := t.tokenSeq, code := code, name := name, planId := planId, status := .unused, createdAt := datetimeNow now,
    redeemedAt := none, expiresAt := none }

theorem Tables.createToken_insertable {t : Tables} {code : String} (now : Int) (h : Insertable env planId name t code) :
    t.createToken now code name planId =
      (.ok t.tokenSeq,
        { t with token := t.token ++ [t.newToken now planId name code], tokenSeq := t.tokenSeq + 1 }) := by
  have hnew : t.token.any (fun r => r.code == code) = false := by simpa using h.fresh
  have hplan : t.plan.any (fun p => p.id == planId) = true := by simpa using h.plan
  unfold createToken
  rw [hnew, hplan]
  rfl

theorem Tables.createToken_refused {t : Tables} {code : String} (now : Int)
    (he : env (.sql (.createToken code name planId)) = none) (h : ¬ Insertable env planId name t code) :
    ∃ e, t.createToken now code name planId = (.error e, t) := by
  unfold createToken
  split
  · exact ⟨_, rfl⟩
  · rename_i hcode
    split
    · rename_i hplan
      exact absurd ⟨he, by simpa using hcode, by simpa using hplan⟩ h
    · exact ⟨_, rfl⟩

/-- An insertion that goes through adds its row, any other leaves everything as it was. -/
theorem exec_createToken (env : Op → Option Err) (planId : Int) (name : Option String) (w : World) (code : String) :
    (Insertable env planId name w.db.tables code ∧
      ∃ w', Fallible.exec (failing env) (sql (.createToken code name planId)) w = (.ok w.db.tables.tokenSeq, w') ∧
        w'.db.tables =
          { w.db.tables with
            token := w.db.tables.token ++ [w.db.tables.newToken w.now planId name code]
            tokenSeq := w.db.tables.tokenSeq + 1 }) ∨
    (¬ Insertable env planId name w.db.tables code ∧
      ∃ e, Fallible.exec (failing env) (sql (.createToken code name planId)) w = (.error e, w)) := by
  by_cases h : Insertable env planId name w.db.tables code
  · have hrun := Tables.createToken_insertable w.now h
    refine .inl ⟨h, { w with db := (w.db.exec w.now (.createToken code name planId)).2 }, ?_, congrArg Prod.snd hrun⟩
    have hid : (Sql.run w.now w.db.tables (.createToken code name planId)).1 = .ok w.db.tables.tokenSeq :=
      congrArg Prod.fst hrun
    rw [exec_sql_of_none w h.noFault, hid]
  · refine .inr ⟨h, ?_⟩
    cases he : env (.sql (.createToken code name planId)) with
    | some e => exact ⟨e, exec_sql_of_some w he⟩
    | none =>
      obtain ⟨e, hrun⟩ := Tables.createToken_refused w.now he h
      exact ⟨e, exec_query w he hrun⟩

/-! ## The insertions of a batch -/

theorem Tables.append_no_token (t : Tables) : ∃ seq, t = { t with token := t.token ++ [], tokenSeq := seq } :=
  ⟨t.tokenSeq, by rw [List.append_nil]⟩

/-- The insertions stop at the first one that does not go through. -/
theorem exec_createTokens (env : Op → Option Err) (planId : Int) (name : Option String) (codes : List String)
    (w : World) :
    ∃ r w' done rest rows, Fallible.exec (failing env) (codes.forM fun code => do
        let _ ← sql (.createToken code name planId)) w = (r, w') ∧
      codes = done ++ rest ∧ (r.isOk ↔ rest = []) ∧
      (∃ seq, w'.db.tables = { w.db.tables with token := w.db.tables.token ++ rows, tokenSeq := seq }) ∧
      Batch planId done rows ∧ (∀ code ∈ done, Insertable env planId name w.db.tables code) ∧
      ∀ code ∈ rest.head?, ¬ Insertable env planId name w'.db.tables code := by
  induction codes generalizing w with
  | nil =>
    refine ⟨.ok ⟨⟩, w, [], [], [], rfl, rfl, ?_, w.db.tables.append_no_token,
      ⟨rfl, List.forall_mem_nil _⟩, List.forall_mem_nil _, nofun⟩
    simp [Except.isOk, Except.toBool]
  | cons code codes ih =>
    rcases exec_createToken env planId name w code with ⟨hins, w₁, hx, htab₁⟩ | ⟨hnot, e, hx⟩
    · obtain ⟨r, w', done, rest, rows, hrun, rfl, hr, ⟨seq, htab⟩, hbatch, hdone, hrest⟩ := ih w₁
      refine ⟨r, w', code :: done, rest, w.db.tables.newToken w.now planId name code :: rows, ?_, rfl, hr,
        ⟨seq, ?_⟩, ⟨?_, ?_⟩, ?_, hrest⟩
      · exact (Fallible.exec_bind_ok _ (Fallible.exec_bind_ok _ hx _) _).trans hrun
      · rw [htab, htab₁, List.append_assoc]
        rfl
      · rw [List.map_cons, hbatch.codes]
        rfl
      · exact List.forall_mem_cons.2 ⟨⟨rfl, rfl⟩, hbatch.unused⟩
      · refine List.forall_mem_cons.2 ⟨hins, fun x hx => ?_⟩
        have h := hdone x hx
        rw [htab₁] at h
        exact ⟨h.noFault, fun r hr => h.fresh r (List.mem_append_left _ hr), h.plan⟩
    · refine ⟨.error e, w, [], code :: codes, [], ?_, rfl, ?_, w.db.tables.append_no_token,
        ⟨rfl, List.forall_mem_nil _⟩, List.forall_mem_nil _, ?_⟩
      · exact Fallible.exec_bind_error _ (Fallible.exec_bind_error _ hx _) _
      · simp [Except.isOk, Except.toBool]
      · rintro x ⟨⟩
        exact hnot

/-- How the insertions of a batch end, and the rows they have added. -/
structure BatchRun (env : Op → Option Err) (planId : Int) (name : Option String) (w : World) (codes : List String)
    (ok : Bool) (w' : World) (rows : List TokenRow) : Prop where
  tables : ∃ seq, w'.db.tables = { w.db.tables with token := w.db.tables.token ++ rows, tokenSeq := seq }
  batch : ok = true → Batch planId codes rows
  ok_iff : ok = true ↔ codes.Nodup ∧ ∀ code ∈ codes, Insertable env planId name w.db.tables code
  rows_iff : rows = [] ↔ ∀ code ∈ codes.head?, ¬ Insertable env planId name w.db.tables code

theorem BatchRun.token {w w' : World} {codes : List String} {ok : Bool} {rows : List TokenRow}
    (h : BatchRun env planId name w codes ok w' rows) : w'.db.tables.token = w.db.tables.token ++ rows := by
  obtain ⟨seq, htab⟩ := h.tables
  rw [htab]

/-- The rows that a batch has added have codes of their own. -/
theorem BatchRun.fresh {w w' : World} {codes : List String} {ok : Bool} {rows : List TokenRow}
    (h : BatchRun env planId name w codes ok w' rows) :
    (rows.map (·.code)).Nodup ∧ ∀ x ∈ w.db.tables.token, x.code ∉ rows.map (·.code) := by
  have hnodup := w'.db.schema.tokenCode
  rw [h.token, List.map_append, List.nodup_append] at hnodup
  obtain ⟨-, hnd, hfresh⟩ := hnodup
  exact ⟨hnd, fun x hx hmem => hfresh _ (List.mem_map.2 ⟨x, hx, rfl⟩) _ hmem rfl⟩

/-- A batch goes through exactly when every code can be inserted and none twice, and it adds something when the first
one can. -/
theorem exec_batch (env : Op → Option Err) (planId : Int) (name : Option String) (codes : List String) (w : World) :
    ∃ r w' rows, Fallible.exec (failing env) (codes.forM fun code => do
        let _ ← sql (.createToken code name planId)) w = (r, w') ∧
      BatchRun env planId name w codes r.isOk w' rows := by
  obtain ⟨r, w', done, rest, rows, hrun, rfl, hr, ⟨seq, htab⟩, hbatch, hdone, hrest⟩ :=
    exec_createTokens env planId name codes w
  rw [htab] at hrest
  refine ⟨r, w', rows, hrun, ⟨seq, htab⟩, fun hok => ?_, ⟨fun hok => ?_, ?_⟩, ?_, ?_⟩
  · rw [hr.1 hok, List.append_nil]
    exact hbatch
  · have hnodup := w'.db.schema.tokenCode
    rw [htab, List.map_append, hbatch.codes, List.nodup_append] at hnodup
    rw [hr.1 hok, List.append_nil]
    exact ⟨hnodup.2.1, hdone⟩
  · rintro ⟨hall, hins⟩
    refine hr.2 ?_
    cases rest with
    | nil => rfl
    | cons code rest =>
      -- the code that was refused is neither in the table nor in front of itself
      have hi := hins code (List.mem_append_right _ (.head _))
      refine absurd ⟨hi.noFault, fun x hx => ?_, hi.plan⟩ (hrest code rfl)
      rcases List.mem_append.1 hx with hx | hx
      · exact hi.fresh x hx
      · have hmem : x.code ∈ done := hbatch.codes ▸ List.mem_map.2 ⟨x, hx, rfl⟩
        exact (List.nodup_append.1 hall).2.2 _ hmem _ (.head _)
  · rintro rfl
    obtain rfl : done = [] := hbatch.codes.symm
    exact fun code hcode hi => hrest code hcode ⟨hi.noFault, fun x hx => hi.fresh x (by simpa using hx), hi.plan⟩
  · intro h
    cases done with
    | nil => exact List.map_eq_nil_iff.1 hbatch.codes
    | cons code done => exact absurd (hdone code (.head _)) (h code rfl)

theorem exec_generateTokens (env : Op → Option Err) (planId : Int) (count : Nat) (name : Option String)
    (draws : Nat → Draws c) (w : World) :
    ∃ r w' rows, Fallible.exec (failing env) (generateTokens c planId count name draws) w = (r, w') ∧
      (∀ codes, r = .ok codes → codes = batchCodes c count draws) ∧
      BatchRun env planId name w (batchCodes c count draws) r.isOk w' rows := by
  have hgen : generateTokens c planId count name draws = (do
      (batchCodes c count draws).forM fun code => do
        let _ ← sql (.createToken code name planId)
      return batchCodes c count draws) := rfl
  rw [hgen]
  obtain ⟨r, w', rows, hrun, h⟩ := exec_batch env planId name (batchCodes c count draws) w
  cases r with
  | ok u =>
    refine ⟨_, w', rows, Fallible.exec_bind_ok _ hrun _, ?_, h⟩
    rintro _ ⟨⟩
    rfl
  | error e => exact ⟨.error e, w', rows, Fallible.exec_bind_error _ hrun _, nofun, h⟩

/-- A call is all or nothing exactly when every code can be inserted, and none twice, or not even the first one. -/
theorem allOrNone_iff (c : TokenConfig) (env : Op → Option Err) (planId : Int) (count : Nat) (name : Option String)
    (draws : Nat → Draws c) (w : World) :
    AllOrNone planId count w.db.tables (Fallible.exec (failing env) (generateTokens c planId count name draws) w) ↔
      ((batchCodes c count draws).Nodup ∧
          ∀ code ∈ batchCodes c count draws, Insertable env planId name w.db.tables code) ∨
        ∃ code ∈ (batchCodes c count draws).head?, ¬ Insertable env planId name w.db.tables code := by
  have hcount := length_batchCodes count draws
  obtain ⟨r, w', rows, hrun, hcodes, h⟩ := exec_generateTokens env planId count name draws w
  rw [hrun]
  generalize batchCodes c count draws = codes at hcount hcodes h ⊢
  cases r with
  | ok codes' =>
    obtain rfl := hcodes codes' rfl
    have hbatch := h.batch rfl
    refine iff_of_true ⟨?_, nofun⟩ (.inl (h.ok_iff.1 rfl))
    rintro _ ⟨⟩
    refine ⟨hcount, (h.ok_iff.1 rfl).1, fun x hx => ?_, rows, h.token, hbatch⟩
    rw [← hbatch.codes]
    exact h.fresh.2 x hx
  | error e =>
    have hfail : ¬ (codes.Nodup ∧ ∀ code ∈ codes, Insertable env planId name w.db.tables code) :=
      fun hall => nomatch h.ok_iff.2 hall
    rw [or_iff_right hfail]
    constructor
    · intro hnone
      have hrows : rows = [] := by simpa [h.token] using hnone.error e rfl
      cases codes with
      | nil => exact absurd ⟨.nil, nofun⟩ hfail
      | cons code codes => exact ⟨code, rfl, h.rows_iff.1 hrows code rfl⟩
    · rintro ⟨code, hcode, hnot⟩
      have hrows : rows = [] := h.rows_iff.2 fun x hx => by rwa [Option.mem_unique hx hcode]
      refine ⟨nofun, fun _ _ => ?_⟩
      rw [h.token, hrows, List.append_nil]

/-- A batch of two with the same draws twice: the second insertion breaks `UNIQUE`, and the first row stays. -/
theorem collision_not_allOrNone : ¬ ∀ (c : TokenConfig) (env : Op → Option Err) (planId : Int) (count : Nat)
    (name : Option String) (draws : Nat → Draws c) (w : World),
    AllOrNone planId count w.db.tables (Fallible.exec (failing env) (generateTokens c planId count name draws) w) := by
  intro h
  have hrun := h ⟨"DIDI", "ABCDEF", 8⟩ (fun _ => none) 1 2 none (fun _ _ => ⟨0, by decide⟩) ⟨0, shop, fun _ => none⟩
  have hsame := hrun.error (.sqlx "UNIQUE constraint failed: token.code") (by decide +kernel)
  exact absurd (congrArg List.length hsame) (by decide +kernel)

end Didicafe
