/-
`net/mac.rs` and `firewall/nftables.rs`: the MAC address check, and the two client operations of
the nftables controller as programs that run one `nft` command each.
-/
import Didicafe.Model.World

namespace Didicafe

open Effect

/-! ## MAC addresses -/

def isAsciiHexdigit (b : UInt8) : Bool := (48 ≤ b && b ≤ 57) || (65 ≤ b && b ≤ 70) || (97 ≤ b && b ≤ 102)

def isAsciiLowercase (b : UInt8) : Bool := 97 ≤ b && b ≤ 122

def isAsciiAlphabetic (b : UInt8) : Bool := (65 ≤ b && b ≤ 90) || isAsciiLowercase b

/-- The loop of `validate_mac` from byte `i` on. -/
def validateMacBytes : Nat → List UInt8 → Except Err Unit
  | _, [] => .ok ()
  | i, b :: bytes =>
    if i % 3 = 2 then
      if b ≠ 58 then .error (.anyhow s!"invalid MAC separator at position {i}")
      else validateMacBytes (i + 1) bytes
    else if !isAsciiHexdigit b || (isAsciiAlphabetic b && !isAsciiLowercase b) then
      .error (.anyhow s!"invalid MAC character at position {i}")
    else validateMacBytes (i + 1) bytes

def validateMac (mac : String) : Except Err Unit :=
  let bytes := mac.toUTF8.data.toList
  if bytes.length ≠ 17 then .error (.anyhow s!"invalid MAC length: {bytes.length}")
  else
    match validateMacBytes 0 bytes with
    | .error e => .error e
    | .ok () =>
      if mac = "00:00:00:00:00:00" then .error (.anyhow "null MAC address rejected")
      else if mac = "ff:ff:ff:ff:ff:ff" then .error (.anyhow "broadcast MAC address rejected")
      else .ok ()

def isValidMac (mac : String) : Bool := (validateMac mac).isOk

theorem isValidMac_iff {mac : String} : isValidMac mac = true ↔ validateMac mac = .ok () := by
  unfold isValidMac
  cases validateMac mac <;> simp [Except.isOk, Except.toBool]

/-! ## The controller -/

def authorizeClient (mac ip : String) (timeoutSecs : Nat) : App Unit := do
  App.ofExcept (withContext s!"refusing to authorize invalid MAC: {mac}" (validateMac mac))
  (runNft (.addElement mac ip timeoutSecs)).context s!"failed to authorize client {mac}/{ip}"

def deauthorizeClient (mac ip : String) : App Unit := do
  App.ofExcept (withContext s!"refusing to deauthorize invalid MAC: {mac}" (validateMac mac))
  -- every error of the command is ignored, not only that of a missing element
  let _ ← (runNft (.deleteElement mac ip)).attempt
  return ()

section Exec

variable (env : Op → Option Err) (w : World) {mac : String} (ip : String)

theorem exec_authorizeClient (hm : validateMac mac = .ok ()) (t : Nat) (he : env (.nft (.addElement mac ip t)) = none) :
    Fallible.exec (failing env) (authorizeClient mac ip t) w =
      (.ok (), { w with set := w.set.insert (mac, ip) (w.now + t * nanosPerSec) }) := by
  unfold authorizeClient
  rw [hm]
  simp only [withContext, Fallible.exec_bind, exec_ofExcept, exec_context, exec_runNft, failing, World.exec, he]
  rfl

theorem exec_authorizeClient_invalid (hm : validateMac mac ≠ .ok ()) (t : Nat) :
    ∃ e, Fallible.exec (failing env) (authorizeClient mac ip t) w = (.error e, w) := by
  unfold authorizeClient
  cases hv : validateMac mac with
  | ok u => exact absurd hv hm
  | error e => exact ⟨_, Fallible.exec_bind_error _ (exec_ofExcept ..) _⟩

theorem exec_authorizeClient_fault {t : Nat} (he : env (.nft (.addElement mac ip t)) ≠ none) :
    ∃ e, Fallible.exec (failing env) (authorizeClient mac ip t) w = (.error e, w) := by
  obtain ⟨e, he⟩ := Option.ne_none_iff_exists'.1 he
  by_cases hm : validateMac mac = .ok ()
  · unfold authorizeClient
    rw [hm]
    simp only [withContext, Fallible.exec_bind, exec_ofExcept, exec_context, exec_runNft, failing, World.exec, he]
    exact ⟨_, rfl⟩
  · exact exec_authorizeClient_invalid env w ip hm t

/-- An authorization that succeeds was for a valid MAC and set the timeout. -/
theorem exec_authorizeClient_ok {t : Nat} {u : Unit} {w' : World}
    (h : Fallible.exec noFault (authorizeClient mac ip t) w = (.ok u, w')) :
    validateMac mac = .ok () ∧ w' = { w with set := w.set.insert (mac, ip) (w.now + t * nanosPerSec) } := by
  by_cases hm : validateMac mac = .ok ()
  · rw [exec_authorizeClient _ w ip hm t rfl] at h
    cases h; exact ⟨hm, rfl⟩
  · obtain ⟨e, he⟩ := exec_authorizeClient_invalid (fun _ => none) w ip hm t
    rw [he] at h; cases h

/-- Deauthorizing succeeds whatever the command does; the pair is gone unless the command is made to
fail. -/
theorem exec_deauthorizeClient (hm : validateMac mac = .ok ()) :
    Fallible.exec (failing env) (deauthorizeClient mac ip) w =
      (.ok (), if env (.nft (.deleteElement mac ip)) = none then { w with set := w.set.erase (mac, ip) } else w) := by
  unfold deauthorizeClient
  rw [hm]
  simp only [withContext, Fallible.exec_bind, exec_ofExcept, exec_attempt, exec_runNft, failing, World.exec]
  cases env (.nft (.deleteElement mac ip)) <;> rfl

theorem exec_deauthorizeClient_invalid (hm : validateMac mac ≠ .ok ()) :
    ∃ e, Fallible.exec (failing env) (deauthorizeClient mac ip) w = (.error e, w) := by
  unfold deauthorizeClient
  cases hv : validateMac mac with
  | ok u => exact absurd hv hm
  | error e => exact ⟨_, Fallible.exec_bind_error _ (exec_ofExcept ..) _⟩

end Exec

example : validateMac "02:00:00:00:00:0G" = .error (.anyhow "invalid MAC character at position 16") := by decide

end Didicafe
