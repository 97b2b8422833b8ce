/-
`config/nftables.conf`: the ruleset of the router. The counters of its last rules are left out.
-/
import Didicafe.Lib.Netfilter

namespace Didicafe

open Netfilter

/-- Both WiFi interfaces, 2.4 GHz and 5 GHz. -/
def wifi : List String := ["wlan0", "wlan1"]

/-- Chain `prerouting`. -/
def preroutingChain : Chain String where
  policy := .accept
  rules :=
    -- authenticated clients are left alone
    [ ⟨[.iifname wifi, .etherIpSaddr "auth_clients"], .accept⟩,
      ⟨[.iifname wifi, .dport .udp [67, 68]], .accept⟩,
      -- all DNS goes to the local dnsmasq
      ⟨[.iifname wifi, .dport .udp [53]], .dnat ⟨"10.10.0.1", 53⟩⟩,
      ⟨[.iifname wifi, .dport .tcp [53]], .dnat ⟨"10.10.0.1", 53⟩⟩,
      -- HTTP goes to the captive portal
      ⟨[.iifname wifi, .dport .tcp [80]], .dnat ⟨"10.10.0.1", 8080⟩⟩ ]

/-- Chain `input`. -/
def inputChain : Chain String where
  policy := .drop
  rules :=
    [ ⟨[.iifname ["lo"]], .accept⟩,
      ⟨[.ctState [.established, .related]], .accept⟩,
      ⟨[.iifname wifi, .dport .udp [67, 68]], .accept⟩,
      ⟨[.iifname wifi, .dport .udp [53]], .accept⟩,
      ⟨[.iifname wifi, .dport .tcp [53]], .accept⟩,
      ⟨[.iifname wifi, .dport .tcp [8080]], .accept⟩,
      -- admin HTTPS, on every interface
      ⟨[.dport .tcp [443]], .accept⟩,
      ⟨[.iifname ["eth0"], .sport .udp [67], .dport .udp [68]], .accept⟩,
      ⟨[], .drop⟩ ]

/-- Chain `forward`. -/
def forwardChain : Chain String where
  policy := .drop
  rules :=
    [ ⟨[.ctState [.established, .related]], .accept⟩,
      ⟨[.iifname wifi, .oifname "eth0", .etherIpSaddr "auth_clients"], .accept⟩,
      ⟨[], .drop⟩ ]

/-- Chain `postrouting`. -/
def postroutingChain : Chain String where
  policy := .accept
  rules := [ ⟨[.oifname "eth0"], .masquerade⟩ ]

/-- Table `inet didicafe`. -/
def ruleset : Ruleset String := ⟨preroutingChain, inputChain, forwardChain, postroutingChain⟩

/-- The sets of the table, for the pairs of `auth_clients`. -/
def namedSets (authClients : String × String → Bool) : Sets String := fun set =>
  if set = "auth_clients" then authClients else fun _ => false

end Didicafe
