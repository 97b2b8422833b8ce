/-
The allowlist of the admin networks: the listener that serves the admin pages refuses the clients outside of them when
TLS is enabled, and never when it is not, since the combined router has no such filter.
-/
import Didicafe.Model.Web

namespace Didicafe

open Http

variable {app : Handler → Response} {config : ListenConfig} {req : Http.Request IpAddr}

/-- A path of the admin pages or of the REST API. -/
def AdminPath (path : String) : Prop :=
  Below "/admin" path ∨ "/api/".toList <+: path.toList ∧ path ≠ "/api/captive"

instance (path : String) : Decidable (AdminPath path) := by unfold AdminPath; infer_instance

/-- The request is answered with 403, and no admin handler has run. -/
def Refused (reply : Reply Handler) : Prop := reply.response.status = 403 ∧ ∀ h, reply.ran = some h → h.isAdmin = false

/-! ## Routes of admin paths -/

/-- Only admin handlers are routed to from an admin path. -/
theorem isAdmin_of_route {r : Route Handler} {m : Method} {h : Handler}
    (hr : findRoute (portalRoutes ++ cpdRoutes ++ captiveRoutes ++ adminRoutes ++ apiRoutes) req.path = some r)
    (hpath : AdminPath req.path) (hh : r.handler m = some h) : h.isAdmin = true := by
  obtain ⟨hmem, hmatch⟩ := findRoute_some hr
  obtain ⟨m', hm⟩ := Route.handler_some hh
  have outside : ∀ r ∈ portalRoutes ++ cpdRoutes ++ captiveRoutes, Literal r.path ∧ ¬ AdminPath r.path := by decide
  rw [List.append_assoc] at hmem
  rcases List.mem_append.1 hmem with hpub | hadm
  · obtain ⟨hlit, hno⟩ := outside r hpub
    have heq : r.path = req.path := hmatch.elim id hlit.eq_of_match
    rw [heq] at hno
    exact absurd hpath hno
  · exact List.any_eq_true.2 ⟨r, hadm, List.any_eq_true.2 ⟨_, hm, decide_eq_true rfl⟩⟩

/-- The character behind the slash, `a` here and `s` there. -/
theorem not_static (hpath : AdminPath req.path) : ¬ Below "/static" req.path := by
  have admin : req.path.toList[1]? = some 'a' := by
    rcases hpath with (h | ⟨t, h⟩) | ⟨⟨t, h⟩, -⟩
    · rw [h]; rfl
    · rw [← h]; rfl
    · rw [← h]; rfl
  intro hs
  have static : req.path.toList[1]? = some 's' := by
    rcases hs with h | ⟨t, h⟩
    · rw [h]; rfl
    · rw [← h]; rfl
  rw [admin] at static
  exact absurd static (by decide)

/-! ## The listeners -/

/-- Behind the filter nothing is reached from outside of the networks. -/
theorem adminNetworkFilter_outside {next : Service IpAddr Handler} (hne : config.allowedNetworks ≠ [])
    (hout : ∀ cidr ∈ config.allowedNetworks, ipInCidr req.addr cidr = false) :
    adminNetworkFilter config next req =
      ⟨⟨403, [("content-type", "text/plain; charset=utf-8")], "access denied"⟩, none⟩ := by
  unfold adminNetworkFilter
  apply if_pos
  constructor
  · simpa using hne
  · simpa using hout

theorem adminRouter_refused (hne : config.allowedNetworks ≠ [])
    (hout : ∀ cidr ∈ config.allowedNetworks, ipInCidr req.addr cidr = false) :
    Refused (adminRouter app config req) := by
  unfold adminRouter securityHeaders hstsHeader Refused
  rw [status_addHeaders, status_addHeaders, ran_addHeaders, ran_addHeaders, adminNetworkFilter_outside hne hout]
  exact ⟨rfl, nofun⟩

/-- Without the filter an admin handler runs, or the routing answers otherwise. -/
theorem combinedRouter_not_refused (hpath : AdminPath req.path) : ¬ Refused (combinedRouter app config req) := by
  unfold combinedRouter securityHeaders captivePortalHeader Refused
  rw [status_addHeaders, status_addHeaders, ran_addHeaders, ran_addHeaders]
  rintro ⟨hstatus, hran⟩
  unfold dispatch at hstatus hran
  cases hr : findRoute (portalRoutes ++ cpdRoutes ++ captiveRoutes ++ adminRoutes ++ apiRoutes) req.path with
  | none =>
    rw [hr] at hstatus
    simp only [if_neg (not_static hpath)] at hstatus
    cases hstatus
  | some r =>
    rw [hr] at hstatus hran
    cases hh : r.handler req.method with
    | none =>
      simp only [hh] at hstatus
      cases hstatus
    | some h =>
      simp only [hh] at hran
      have hadmin := isAdmin_of_route hr hpath hh
      rw [hran h rfl] at hadmin
      cases hadmin

/-- The portal's listener runs no admin handler for anyone. -/
theorem portalRouter_ran {h : Handler} (hh : (portalRouter app config req).ran = some h) : h.isAdmin = false := by
  unfold portalRouter securityHeaders captivePortalHeader dispatch at hh
  rw [ran_addHeaders, ran_addHeaders] at hh
  have handlers : ∀ r ∈ portalRoutes ++ cpdRoutes ++ captiveRoutes, ∀ x ∈ r.methods, x.2.isAdmin = false := by decide
  cases hr : findRoute (portalRoutes ++ cpdRoutes ++ captiveRoutes) req.path with
  | none =>
    simp only [hr] at hh
    split at hh <;> cases hh
    decide
  | some r =>
    simp only [hr] at hh
    cases hm : r.handler req.method with
    | none => rw [hm] at hh; cases hh
    | some h' =>
      rw [hm] at hh
      cases hh
      obtain ⟨m, hmem⟩ := Route.handler_some hm
      exact handlers r (findRoute_some hr).1 _ hmem

/-- A client outside of the configured networks is refused on every admin path exactly when TLS is enabled. -/
theorem refused_iff_tlsEnabled (hne : config.allowedNetworks ≠ []) (hpath : AdminPath req.path)
    (hout : ∀ cidr ∈ config.allowedNetworks, ipInCidr req.addr cidr = false) :
    Refused (mainRouter app config req) ↔ config.tlsEnabled = true := by
  unfold mainRouter
  split
  · exact iff_of_true (adminRouter_refused hne hout) ‹_›
  · exact iff_of_false (combinedRouter_not_refused hpath) ‹_›

/-- The shop's own network, and a client of another one. -/
def restricted (tlsEnabled : Bool) : ListenConfig := ⟨⟨"wifi.didicafe", 80⟩, ["10.10.0.0/24"], tlsEnabled⟩

def stranger : Http.Request IpAddr := ⟨.get, "/admin/login", .v4 0xC0A80105#32⟩

theorem refused_stranger : Refused (mainRouter (fun _ => ⟨200, [], ""⟩) (restricted true) stranger) :=
  (refused_iff_tlsEnabled (by decide) (by decide) (by decide)).2 rfl

/-- Without TLS the stranger gets the login page. -/
theorem stranger_admitted : ¬ ∀ (app : Handler → Response) (config : ListenConfig) (req : Http.Request IpAddr),
    config.allowedNetworks ≠ [] → AdminPath req.path →
    (∀ cidr ∈ config.allowedNetworks, ipInCidr req.addr cidr = false) → Refused (mainRouter app config req) := by
  intro h
  have hr := h (fun _ => ⟨200, [], ""⟩) (restricted false) stranger (by decide) (by decide) (by decide)
  exact absurd (hr.2 .loginPage (by decide)) (by decide)

end Didicafe
