/-
Pages of tokens and of audit entries: up to the last page whose offset is an `i64`, the pages are the listing cut into
pieces, and the number of pages and the link to the next one are right. The page number of the query is bounded from
below only: beyond that page the offset overflows, and a release build starts again at the first row.
-/
import Didicafe.Model.Paging
import Didicafe.Store.Views

namespace Didicafe

open Effect Table

/-- What a page shows of a listing. -/
structure Shown (α : Type) where
  rows : List α
  totalPages : Int
  hasNext : Bool

def TokenPage.shown (p : TokenPage) : Shown Token := ⟨p.tokens, p.totalPages, p.hasNext⟩

def AuditPage.shown (p : AuditPage) : Shown AuditLogEntry := ⟨p.entries, p.totalPages, p.hasNext⟩

/-- A listing of `rows` at the page number `page`, where `load` is what each page shows: the pages are the rows in
order, the link to the next page is there when a later page has rows, the pages beyond the last one have none, and the
offset and the number of pages are computed without an overflow. -/
structure Lossless {α : Type} (b : Build) (perPage : Int) (rows : List α) (load : Int → Except Err (Shown α))
    (page : Int) : Prop where
  concat : ∃ first pages, load 1 = .ok first ∧
    (List.range first.totalPages.toNat).mapM (fun i : Nat => (load (i + 1)).map (·.rows)) = .ok pages ∧
    pages.flatten = rows
  hasNext : ∃ s, load page = .ok s ∧ (s.hasNext = true ↔
    ∃ q s', page < q ∧ FitsI64 ((q - 1) * perPage) ∧ load q = .ok s' ∧ s'.rows ≠ [])
  beyond : ∃ s, load page = .ok s ∧ (s.totalPages < page → s.rows = [])
  offset : b.offset page perPage = .ok ((page - 1) * perPage)
  count : FitsI64 (rows.length + perPage - 1)

section Listing

variable {α : Type} {b : Build} {perPage page : Int} {rows : List α} {load : Int → Except Err (Shown α)}

/-- A listing that reads its rows with `LIMIT` and `OFFSET`. -/
def Pages (b : Build) (perPage : Int) (rows : List α) (load : Int → Except Err (Shown α)) : Prop :=
  ∀ page, 1 ≤ page → load page = (b.offset page perPage).map fun offset =>
    { rows := limitOffset perPage offset rows, totalPages := (rows.length + perPage - 1) / perPage,
      hasNext := decide (page < (rows.length + perPage - 1) / perPage) }

/-- A page with an exact offset. -/
theorem Pages.load_eq (h : Pages b perPage rows load) (hper : 0 < perPage) (h1 : 1 ≤ page)
    (hfit : FitsI64 ((page - 1) * perPage)) : load page = .ok
      { rows := limitOffset perPage ((page - 1) * perPage) rows,
        totalPages := (rows.length + perPage - 1) / perPage,
        hasNext := decide (page < (rows.length + perPage - 1) / perPage) } := by
  rw [h page h1, (Build.offset_exact h1 hper).2 hfit]
  rfl

/-- It has rows exactly when it is one of the pages. -/
theorem rows_ne_nil_iff (hper : 0 < perPage) (h1 : 1 ≤ page) (rows : List α) :
    limitOffset perPage ((page - 1) * perPage) rows ≠ [] ↔ page ≤ (rows.length + perPage - 1) / perPage := by
  have hoff : 0 ≤ (page - 1) * perPage := Int.mul_nonneg (by omega) (by omega)
  rw [ne_eq, limitOffset_eq_nil_iff hper hoff, ← pages_le_iff hper]
  omega

theorem Pages.concat (h : Pages b perPage rows load) (hper : 0 < perPage)
    (hcount : FitsI64 (rows.length + perPage - 1)) :
    ∃ first pages, load 1 = .ok first ∧
      (List.range first.totalPages.toNat).mapM (fun i : Nat => (load (i + 1)).map (·.rows)) = .ok pages ∧
      pages.flatten = rows := by
  refine ⟨_, (List.range ((rows.length + perPage - 1) / perPage).toNat).map
    fun i : Nat => limitOffset perPage (i * perPage) rows, h.load_eq hper (Int.le_refl 1) (by simp [FitsI64]), ?_, ?_⟩
  · apply mapM_ok
    intro i hi
    -- the page is one of those that the listing has, so its offset is below the number of rows
    have hi' : ((i : Int) + 1) ≤ (rows.length + perPage - 1) / perPage := by
      have := List.mem_range.1 hi
      simp only at this
      omega
    have hlt : ¬ rows.length ≤ (i : Int) * perPage := by
      rw [← pages_le_iff hper]; omega
    have hnonneg : 0 ≤ (i : Int) * perPage := Int.mul_nonneg (by omega) (by omega)
    have hsub : ((i : Int) + 1 - 1) = i := by omega
    have hfit : FitsI64 (((i : Int) + 1 - 1) * perPage) := by
      rw [hsub]
      unfold FitsI64 at *
      omega
    rw [h.load_eq hper (by omega) hfit, hsub]
    rfl
  · rw [← List.flatMap_def]
    exact flatMap_pages hper rows

theorem Pages.hasNext_iff (h : Pages b perPage rows load) (hper : 0 < perPage)
    (hcount : FitsI64 (rows.length + perPage - 1)) (h1 : 1 ≤ page) :
    page < (rows.length + perPage - 1) / perPage ↔
      ∃ q s', page < q ∧ FitsI64 ((q - 1) * perPage) ∧ load q = .ok s' ∧ s'.rows ≠ [] := by
  constructor
  · intro hlt
    have hrows : ¬ rows.length ≤ page * perPage := by
      rw [← pages_le_iff hper]; omega
    have hnonneg : 0 ≤ page * perPage := Int.mul_nonneg (by omega) (by omega)
    have hfit : FitsI64 ((page + 1 - 1) * perPage) := by
      rw [Int.add_sub_cancel]
      unfold FitsI64 at *
      omega
    exact ⟨page + 1, _, by omega, hfit, h.load_eq hper (by omega) hfit,
      (rows_ne_nil_iff hper (by omega) rows).2 (by omega)⟩
  · rintro ⟨q, s', hq, hfit, hload, hne⟩
    rw [h.load_eq hper (by omega) hfit] at hload
    cases hload
    have := (rows_ne_nil_iff hper (by omega) rows).1 hne
    omega

/-- The listing is right at a page exactly when the offset of the page is an `i64`. -/
theorem Pages.lossless_iff (h : Pages b perPage rows load) (hper : 0 < perPage)
    (hcount : FitsI64 (rows.length + perPage - 1)) (h1 : 1 ≤ page) :
    Lossless b perPage rows load page ↔ FitsI64 ((page - 1) * perPage) := by
  constructor
  · intro hl
    exact (Build.offset_exact h1 hper).1 hl.offset
  · intro hfit
    have hload := h.load_eq hper h1 hfit
    exact {
      concat := h.concat hper hcount
      hasNext := ⟨_, hload, by rw [decide_eq_true_iff, h.hasNext_iff hper hcount h1]⟩
      beyond := ⟨_, hload, fun hlt => Classical.not_not.1 fun hne => by
        have := (rows_ne_nil_iff hper h1 rows).1 hne
        simp only at hlt
        omega⟩
      offset := (Build.offset_exact h1 hper).2 hfit
      count := hcount }

end Listing

/-! ## The two listings -/

/-- A database file is at most `2^48` bytes long, so that no table has as many rows. -/
structure Tables.Storable (t : Tables) : Prop where
  token : t.token.length < 281474976710656
  auditLog : t.auditLog.length < 281474976710656

instance (t : Tables) : Decidable t.Storable :=
  decidable_of_iff (t.token.length < 281474976710656 ∧ t.auditLog.length < 281474976710656)
    ⟨fun ⟨h, h'⟩ => ⟨h, h'⟩, fun ⟨h, h'⟩ => ⟨h, h'⟩⟩

namespace Build

variable (b : Build) (w : World)

/-- The unpaged tokens of a filter of the management page. -/
def tokenRows (filter : String) : List Token :=
  w.db.tables.listQuery w.now (if filter = "all" then none else some filter)

def tokensShown (filter : String) (page : Int) : Except Err (Shown Token) :=
  (Fallible.exec noFault (b.tokenPage filter page) w).1.map TokenPage.shown

def entriesShown (page : Int) : Except Err (Shown AuditLogEntry) :=
  (Fallible.exec noFault (b.auditPage (some page)) w).1.map AuditPage.shown

theorem pages_tokens (filter : String) :
    Pages b tokensPerPage (tokenRows w filter) (b.tokensShown w filter) := by
  intro page _
  unfold tokensShown tokenPage listTokensPaged
  simp only [bind_assoc]
  cases hoff : b.offset page tokensPerPage with
  | error e => rfl
  | ok offset =>
    rw [Fallible.exec_bind_ok _ (exec_ofExcept ..), Fallible.exec_bind_ok _ (exec_query w rfl rfl),
      Fallible.exec_bind_ok _ (exec_query w rfl rfl), Tables.countQuery_eq w.db.schema]
    rfl

theorem pages_entries : Pages b auditPerPage w.db.tables.auditLogList (b.entriesShown w) := by
  intro page h1
  unfold entriesShown auditPage getAuditLogPaged
  rw [Option.getD_some, Int.max_eq_left h1]
  simp only [bind_assoc]
  cases hoff : b.offset page auditPerPage with
  | error e => rfl
  | ok offset =>
    rw [Fallible.exec_bind_ok _ (exec_ofExcept ..), Fallible.exec_bind_ok _ (exec_query w rfl rfl),
      Fallible.exec_bind_ok _ (exec_query w rfl rfl), Tables.auditLogList, List.length_insertionSort]
    rfl

end Build

namespace Tables

variable {t : Tables}

/-- The join and the shown status leave the id of a row, so each token is listed once. -/
theorem nodup_listQuery (hs : t.Schema) (now : Int) (f : Option String) : ((t.listQuery now f).map (·.id)).Nodup := by
  obtain ⟨cond, shown, hq, -⟩ := listQuery_spec now f
  rw [(hq t).1, tokensWhere, ((List.perm_insertionSort _ _).map _).nodup_iff]
  have hids : t.token.Pairwise fun r r' => r.id ≠ r'.id := List.pairwise_map.1 hs.tokenId
  refine List.pairwise_map.2 (List.pairwise_filterMap.2 ((hids.filter _).imp fun {r r'} hne => ?_))
  intro k hk k' hk'
  obtain ⟨j, hj, rfl⟩ := Option.map_eq_some_iff.1 hk
  obtain ⟨j', hj', rfl⟩ := Option.map_eq_some_iff.1 hk'
  rw [show j.id = r.id from congrArg TokenRow.id (joinToken_row hj),
    show j'.id = r'.id from congrArg TokenRow.id (joinToken_row hj')]
  exact hne

theorem length_listQuery_le (hs : t.Schema) (now : Int) (f : Option String) :
    (t.listQuery now f).length ≤ t.token.length := by
  obtain ⟨cond, shown, hq, -⟩ := listQuery_spec now f
  have hlen := length_tokensWhere hs cond shown
  rw [← (hq t).1, countWhere] at hlen
  rw [Int.ofNat_inj.1 hlen]
  exact List.countP_le_length

end Tables

/-- `ORDER BY … DESC` of a text. -/
theorem pairwise_newestFirst {α : Type} (text : α → String) (rows : List α) :
    (rows.insertionSort fun a b => text b ≤ text a).Pairwise fun a b => text b ≤ text a :=
  haveI : Std.Total fun a b : α => text b ≤ text a := ⟨fun a b => String.le_total (text b) (text a)⟩
  haveI : IsTrans α fun a b => text b ≤ text a := ⟨fun _ _ _ hab hbc => String.le_trans hbc hab⟩
  List.pairwise_insertionSort _ rows

/-- The token pages at a page number: each selected token is on one page, the newest first. -/
structure TokensLossless (b : Build) (w : World) (filter : String) (page : Int) : Prop where
  pages : Lossless b tokensPerPage (Build.tokenRows w filter) (b.tokensShown w filter) page
  once : ((Build.tokenRows w filter).map (·.id)).Nodup
  newestFirst : (Build.tokenRows w filter).Pairwise fun a a' => a'.createdAt ≤ a.createdAt

/-- The audit pages at a page number. -/
structure EntriesLossless (b : Build) (w : World) (page : Int) : Prop where
  pages : Lossless b auditPerPage w.db.tables.auditLogList (b.entriesShown w) page
  all : w.db.tables.auditLogList.Perm w.db.tables.auditLog
  newestFirst : w.db.tables.auditLogList.Pairwise fun e e' => e'.timestamp ≤ e.timestamp

/-- The last page of 50 rows whose offset is an `i64`. -/
def lastPage : Int := 184467440737095517

theorem pages_lossless_iff (b : Build) (w : World) (hw : w.db.tables.Storable) (filter : String)
    (number : Option Int) :
    TokensLossless b w filter (max (number.getD 1) 1) ∧ EntriesLossless b w (max (number.getD 1) 1) ↔
      max (number.getD 1) 1 ≤ lastPage := by
  obtain ⟨htoken, haudit⟩ := hw
  have h1 : 1 ≤ max (number.getD 1) 1 := Int.le_max_right ..
  have hfit : FitsI64 ((max (number.getD 1) 1 - 1) * 50) ↔ max (number.getD 1) 1 ≤ lastPage := by
    unfold FitsI64 lastPage
    omega
  have htokens : FitsI64 ((Build.tokenRows w filter).length + tokensPerPage - 1) := by
    have hle := Tables.length_listQuery_le w.db.schema w.now (if filter = "all" then none else some filter)
    rw [Build.tokenRows]
    unfold FitsI64 tokensPerPage
    omega
  have hentries : FitsI64 (w.db.tables.auditLogList.length + auditPerPage - 1) := by
    rw [Tables.auditLogList, List.length_insertionSort]
    unfold FitsI64 auditPerPage
    omega
  constructor
  · intro h
    exact hfit.1 (((Build.pages_tokens b w filter).lossless_iff (by decide) htokens h1).1 h.1.pages)
  · intro h
    refine ⟨⟨?_, Tables.nodup_listQuery w.db.schema _ _, ?_⟩, ⟨?_, List.perm_insertionSort .., ?_⟩⟩
    · exact ((Build.pages_tokens b w filter).lossless_iff (by decide) htokens h1).2 (hfit.2 h)
    · obtain ⟨cond, shown, hq, -⟩ := Tables.listQuery_spec w.now (if filter = "all" then none else some filter)
      rw [Build.tokenRows, (hq _).1]
      exact pairwise_newestFirst (fun k : Token => k.createdAt) _
    · exact ((Build.pages_entries b w).lossless_iff (by decide) hentries h1).2 (hfit.2 h)
    · exact pairwise_newestFirst AuditLogEntry.timestamp _

/-- The second page of the tokens at the opening, of which there are three. -/
theorem pages_lossless_second : (2 : Int) ≤ lastPage ∧ World.opening.db.tables.Storable ∧
    TokensLossless .release .opening "all" 2 ∧ EntriesLossless .release .opening 2 :=
  ⟨by decide, by decide, (pages_lossless_iff .release .opening (by decide) "all" (some 2)).2 (by decide)⟩

/-- The largest page number: its offset is `-100`, so that a release build shows the tokens of the first page once more,
and a debug build panics. -/
theorem pages_overflow :
    (∃ s, Build.release.tokensShown .opening "all" 9223372036854775807 = .ok s ∧
      s.totalPages < 9223372036854775807 ∧ s.rows ≠ []) ∧
    Build.debug.tokensShown .opening "all" 9223372036854775807 =
      .error (.panic "attempt to multiply with overflow") ∧
    ∀ b, ¬ TokensLossless b .opening "all" 9223372036854775807 := by
  refine ⟨⟨_, rfl, by decide, by decide⟩, rfl, fun b h => ?_⟩
  exact absurd ((Build.offset_exact (by decide) (by decide)).1 h.pages.offset) (by decide)

end Didicafe
