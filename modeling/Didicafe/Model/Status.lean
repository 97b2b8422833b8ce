/-
`web/portal.rs`: the pages and the JSON that tell a client about its session. They look it up by the MAC address of the
client and read the clock afterwards, once or twice. `captive_api` tells the same to the client's operating system.
-/
import Didicafe.Model.Branding
import Didicafe.Model.Clients
import Didicafe.Model.Plans

namespace Didicafe

/-- `compute_total_seconds`. -/
def computeTotalSeconds (startedAt expiresAt : String) : Int :=
  match parseTimestamp startedAt, parseTimestamp expiresAt with
  | some start, some stop => max (stop - start) 0
  | _, _ => 0

structure SuccessTemplate where
  remainingSeconds : Int
  totalSeconds : Int
  planName : String
  cafeName : String
  themeCss : String

structure StatusTemplate where
  connected : Bool
  remainingSeconds : Int
  totalSeconds : Int
  planName : String
  cafeName : String
  themeCss : String

structure PortalStatusResponse where
  connected : Bool
  remainingSeconds : Int

/-- `success_page`; without a session that lasts it redirects to `/portal`. -/
def successPage (base : PortalSection) (mac : String) : App (Option SuccessTemplate) := do
  match ← sql (.getSessionByMac mac) with
  | some s =>
    let remaining ← s.remainingSeconds
    if remaining > 0 then
      let portal ← portalConfigFromDb base
      let themeCss ← App.ofExcept portal.generateThemeCss
      return some
        { remainingSeconds := remaining, totalSeconds := computeTotalSeconds s.startedAt s.expiresAt,
          planName := s.planName.getD "", cafeName := portal.cafeName, themeCss := themeCss }
    else return none
  | none => return none

def statusPage (base : PortalSection) (mac : String) : App StatusTemplate := do
  let session ← sql (.getSessionByMac mac)
  let portal ← portalConfigFromDb base
  let themeCss ← App.ofExcept portal.generateThemeCss
  let away : StatusTemplate :=
    { connected := false, remainingSeconds := 0, totalSeconds := 0, planName := "", cafeName := portal.cafeName,
      themeCss := themeCss }
  match session with
  | some s =>
    let remaining ← s.remainingSeconds
    if remaining > 0 then
      -- the template reads the clock once more
      let remaining ← s.remainingSeconds
      return { away with
        connected := true, remainingSeconds := remaining
        totalSeconds := computeTotalSeconds s.startedAt s.expiresAt, planName := s.planName.getD "" }
    else return away
  | none => return away

def portalStatus (mac : String) : App PortalStatusResponse := do
  match ← sql (.getSessionByMac mac) with
  | some s =>
    let remaining ← s.remainingSeconds
    return { connected := remaining > 0, remainingSeconds := remaining }
  | none => return { connected := false, remainingSeconds := 0 }

/-- What a client reads: whether it is connected, for how many seconds, and of how many in all. -/
structure StatusView where
  connected : Bool
  remaining : Int
  total : Option Int
deriving DecidableEq

inductive StatusCall where
  | successPage (base : PortalSection)
  | statusPage (base : PortalSection)
  | portalStatus
  | captiveApi (config : PortalConfig)

def SuccessTemplate.view (t : SuccessTemplate) : StatusView := ⟨true, t.remainingSeconds, some t.totalSeconds⟩

def StatusTemplate.view (t : StatusTemplate) : StatusView := ⟨t.connected, t.remainingSeconds, some t.totalSeconds⟩

def PortalStatusResponse.view (r : PortalStatusResponse) : StatusView := ⟨r.connected, r.remainingSeconds, none⟩

def CapportResponse.view (r : CapportResponse) : StatusView := ⟨!r.captive, r.secondsRemaining.getD 0, none⟩

/-- A page, behind the extractor `ClientInfo`: a client for whose address the ARP table has no valid MAC address is
refused. -/
def StatusCall.page {α : Type} (arp : Option String) (handler : String → App α) (view : α → StatusView) :
    Api StatusView := do
  let mac ← Api.ofExcept (validateMacOrErr arp)
  return view (← Api.internal (handler mac))

/-- What the client reads in the answer, given what the ARP table says. -/
def StatusCall.program (arp : Option String) : StatusCall → Api StatusView
  | .successPage base =>
    page arp (Didicafe.successPage base) fun t => t.elim ⟨false, 0, none⟩ SuccessTemplate.view
  | .statusPage base => page arp (Didicafe.statusPage base) StatusTemplate.view
  | .portalStatus => page arp Didicafe.portalStatus PortalStatusResponse.view
  | .captiveApi config => do return (← Api.internal (Didicafe.captiveApi config arp)).view

end Didicafe
