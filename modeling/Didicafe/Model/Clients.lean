/-
What a request tells of its client: the session in its cookie (`web/extractors.rs`, with the cookies that `web/admin.rs`
sets), and the MAC address that the system has for its IP address (`net/arp.rs`).
-/
import Didicafe.Model.Codes
import Didicafe.Model.Web
import Mathlib.Data.List.Infix

namespace Didicafe

/-! ## Texts -/

/-- `strip_prefix`. -/
def stripPrefix (start s : List Char) : Option (List Char) := if start <+: s then some (s.drop start.length) else none

/-- `strip_suffix('\r')`, or the line itself. -/
def stripReturn (s : List Char) : List Char := if s.getLast? = some '\r' then s.dropLast else s

/-- `lines`: a line ends with a newline or with a carriage return and a newline; an empty rest is none. -/
def lines (s : List Char) : List (List Char) :=
  let parts := s.splitOn '\n'
  parts.dropLast.map stripReturn ++ parts.getLast?.toList.filter (· ≠ [])

/-- `split_whitespace`. -/
def splitWhitespace (s : List Char) : List (List Char) := (s.splitOnP isWhitespace).filter (· ≠ [])

/-! ## Cookies -/

def adminCookieName : String := "didicafe_admin"

def sessionCookie (sessionId : String) (tlsEnabled : Bool) : String :=
  let secure := if tlsEnabled then "; Secure" else ""
  adminCookieName ++ "=" ++ sessionId ++ "; HttpOnly; SameSite=Strict; Path=/" ++ secure

def clearSessionCookie (tlsEnabled : Bool) : String :=
  let secure := if tlsEnabled then "; Secure" else ""
  adminCookieName ++ "=; HttpOnly; SameSite=Strict; Path=/; Max-Age=0" ++ secure

/-- `extract_cookie`, for the first `Cookie` header; `to_str` takes what `HeaderValue::from_str` does. -/
def extractCookie (header : Option String) (name : String) : Option String := do
  let cookieHeader ← header.bind headerValue
  (cookieHeader.toList.splitOn ';').findSome? fun pair =>
    (stripPrefix (name.toList ++ ['=']) (trim pair)).map String.ofList

/-! ## MAC addresses -/

section Arp

variable (lower : String → String)

def nullMac : String := "00:00:00:00:00:00"

/-- `lookup_proc_net_arp`, for the content of the file if it can be read. -/
def lookupProcNetArp (content : Option String) (ip : String) : Option String := do
  let content ← content
  ((lines content.toList).drop 1).findSome? fun line =>
    let fields := splitWhitespace line
    match fields[0]?, fields[3]? with
    | some first, some field =>
      let mac := lower (String.ofList field)
      if first = ip.toList ∧ mac ≠ nullMac then some mac else none
    | _, _ => none

/-- The field behind the first one that is `name`. -/
def fieldBehind (name : String) (line : List Char) : Option String :=
  let fields := splitWhitespace line
  (fields.idxOf? name.toList).bind fun i => fields[i + 1]?.map String.ofList

/-- `lookup_ip_neigh`, for what the command prints if it succeeds. -/
def lookupIpNeigh (stdout : Option String) : Option String := do
  let stdout ← stdout
  (lines stdout.toList).findSome? fun line => (fieldBehind "lladdr" line).map lower

/-- `lookup_arp_command`. -/
def lookupArpCommand (stdout : Option String) (ip : String) : Option String := do
  let stdout ← stdout
  let needle := "(" ++ ip ++ ")"
  (lines stdout.toList).findSome? fun line =>
    if needle.toList <:+: line then do
      let mac := lower (← fieldBehind "at" line)
      if ':' ∈ mac.toList ∧ mac ≠ nullMac then some mac else none
    else none

end Arp

/-- `validate_mac_or_err`. -/
def validateMacOrErr : (mac : Option String) → Except AppError String
  | none => .error (.badRequest "portal.error.device")
  | some mac => if isValidMac mac then .ok mac else .error (.badRequest "portal.error.device")

theorem validateMacOrErr_ok {arp : Option String} {mac : String} (h : validateMacOrErr arp = .ok mac) :
    arp = some mac ∧ isValidMac mac = true := by
  unfold validateMacOrErr at h
  split at h
  · cases h
  · split at h
    · cases h
      exact ⟨rfl, ‹_›⟩
    · cases h

end Didicafe
