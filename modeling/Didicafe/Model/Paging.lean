/-
The paged listings of `db/mod.rs` with their offset in `i64`, and the pages that the handlers of `web/admin.rs` show
of them.
-/
import Didicafe.Model.Admin

namespace Didicafe

def TokenPage.hasNext (p : TokenPage) : Bool := decide (p.page < p.totalPages)

structure AuditPage where
  entries : List AuditLogEntry
  total : Int
  page : Int
  perPage : Int
deriving DecidableEq, Repr

namespace AuditPage

def totalPages (p : AuditPage) : Int := if p.perPage ≤ 0 then 1 else (p.total + p.perPage - 1) / p.perPage

def hasNext (p : AuditPage) : Bool := decide (p.page < p.totalPages)

end AuditPage

def auditPerPage : Int := 50

namespace Build

variable (b : Build)

/-- `(page - 1) * per_page`. -/
def offset (page perPage : Int) : Except Err Int := do
  let before ← b.i64 "subtract" (page - 1)
  b.i64 "multiply" (before * perPage)

def listTokensPaged (statusFilter : Option String) (page perPage : Int) : App (List Token × Int) := do
  let offset ← App.ofExcept (b.offset page perPage)
  let total ← sql (.countTokens statusFilter)
  let tokens ← sql (.pageTokens statusFilter perPage offset)
  return (tokens, total)

def getAuditLogPaged (page perPage : Int) : App (List AuditLogEntry × Int) := do
  let offset ← App.ofExcept (b.offset page perPage)
  let total ← sql .countAuditLog
  let entries ← sql (.pageAuditLog perPage offset)
  return (entries, total)

/-- The token page of `load_manage_data`. -/
def tokenPage (statusFilter : String) (page : Int) : App TokenPage := do
  let dbFilter := if statusFilter = "all" then none else some statusFilter
  let (tokens, total) ← b.listTokensPaged dbFilter page tokensPerPage
  return { tokens := tokens, total := total, page := page, perPage := tokensPerPage, statusFilter := statusFilter }

/-- The page of `audit_page`, for the page number of the query. -/
def auditPage (page : Option Int) : App AuditPage := do
  let page := max (page.getD 1) 1
  let (entries, total) ← b.getAuditLogPaged page auditPerPage
  return { entries := entries, total := total, page := page, perPage := auditPerPage }

/-! ## The offset -/

variable {b}

/-- It is exact as long as the product is an `i64`. -/
theorem offset_exact {page perPage : Int} (h1 : 1 ≤ page) (hper : 0 < perPage) :
    b.offset page perPage = .ok ((page - 1) * perPage) ↔ FitsI64 ((page - 1) * perPage) := by
  constructor
  · intro h
    unfold offset at h
    cases hb : b.i64 "subtract" (page - 1) with
    | error e => rw [hb] at h; cases h
    | ok before => rw [hb] at h; exact i64_fits h
  · intro h
    have hle : (page - 1) * 1 ≤ (page - 1) * perPage := Int.mul_le_mul_of_nonneg_left (by omega) (by omega)
    have hsub : FitsI64 (page - 1) := by unfold FitsI64 at *; omega
    unfold offset
    rw [i64_of_fits hsub]
    exact i64_of_fits h b _

end Build

end Didicafe
