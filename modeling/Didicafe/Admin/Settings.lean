/-
The settings page: what `portal_config_from_db` reads back of the six settings that `settings_submit` writes one after
the other, and when a write that fails leaves the effective configuration as it was.
-/
import Didicafe.Admin.AuditTrail
import Didicafe.Session.Calls

namespace Didicafe

open Effect Table

/-! ## Reading -/

/-- The settings that are read. -/
def settingKeys : List String :=
  ["cafe_name", "welcome_message", "theme_color", "contact_phone", "contact_name", "contact_hours"]

/-- The values that are taken over. -/
def accepts (key value : String) : Bool :=
  if key = "cafe_name" then value ≠ "" else if key = "theme_color" then isValidHexColor value else true

/-- The stored value of a key. -/
def Tables.settingAt (t : Tables) (key : String) : Option String := (t.setting.find? (·.key == key)).map (·.value)

namespace PortalSection

/-- The field of a setting. -/
def shown (cfg : PortalSection) (key : String) : String :=
  if key = "cafe_name" then cfg.cafeName
  else if key = "welcome_message" then cfg.welcomeMessage
  else if key = "theme_color" then cfg.themeColor
  else if key = "contact_name" then cfg.contactName
  else if key = "contact_phone" then cfg.contactPhone
  else cfg.contactHours

/-- The section with other values for the settings. -/
def withShown (base : PortalSection) (f : String → String) : PortalSection :=
  { base with
    cafeName := f "cafe_name", welcomeMessage := f "welcome_message", themeColor := f "theme_color",
    contactName := f "contact_name", contactPhone := f "contact_phone", contactHours := f "contact_hours" }

variable {base : PortalSection} {f g : String → String}

theorem shown_withShown {key : String} (h : key ∈ settingKeys) : (base.withShown f).shown key = f key := by
  simp only [settingKeys, List.mem_cons, List.not_mem_nil, or_false] at h
  rcases h with rfl | rfl | rfl | rfl | rfl | rfl <;> rfl

theorem withShown_withShown : (base.withShown f).withShown g = base.withShown g := rfl

theorem withShown_inj : base.withShown f = base.withShown g ↔ ∀ key ∈ settingKeys, f key = g key := by
  simp [withShown, settingKeys]

/-- What one row does to the field of a key. -/
def take (key : String) (value : String) (x : Setting) : String :=
  if x.key = key ∧ accepts key x.value then x.value else value

/-- A row changes its own field only. -/
theorem overlay_eq (cfg : PortalSection) (x : Setting) :
    cfg.overlay x = cfg.withShown fun key => take key (cfg.shown key) x := by
  obtain ⟨key, value⟩ := x
  by_cases hkey : key ∈ settingKeys
  · simp only [settingKeys, List.mem_cons, List.not_mem_nil, or_false] at hkey
    rcases hkey with rfl | rfl | rfl | rfl | rfl | rfl
    · by_cases hname : value = "" <;> simp [overlay, withShown, take, shown, accepts, hname]
    · simp [overlay, withShown, take, shown, accepts]
    · by_cases hcolor : isValidHexColor value <;> simp [overlay, withShown, take, shown, accepts, hcolor]
    · simp [overlay, withShown, take, shown, accepts]
    · simp [overlay, withShown, take, shown, accepts]
    · simp [overlay, withShown, take, shown, accepts]
  · simp only [settingKeys, List.mem_cons, List.not_mem_nil, or_false, not_or] at hkey
    simp [overlay, withShown, take, shown, hkey]

theorem foldl_overlay (rows : List Setting) (base : PortalSection) :
    rows.foldl overlay base = base.withShown fun key => rows.foldl (take key) (base.shown key) := by
  induction rows generalizing base with
  | nil => rfl
  | cons x rows ih =>
    rw [List.foldl_cons, ih, overlay_eq, withShown_withShown, withShown_inj]
    intro key hkey
    rw [shown_withShown hkey]
    rfl

/-- Rows of other keys leave a field. -/
theorem foldl_take_of_ne {key : String} {rows : List Setting} (h : ∀ x ∈ rows, x.key ≠ key) (value : String) :
    rows.foldl (take key) value = value := by
  induction rows with
  | nil => rfl
  | cons x rows ih =>
    obtain ⟨hx, hrows⟩ := List.forall_mem_cons.1 h
    rw [List.foldl_cons, show take key value x = value by simp [take, hx]]
    exact ih hrows

/-- Of rows with distinct keys, a field depends on the one of its key alone. -/
theorem foldl_take {key : String} {rows : List Setting} (hn : (rows.map (·.key)).Nodup) (value : String) :
    rows.foldl (take key) value =
      (((rows.find? (·.key == key)).map (·.value)).filter (accepts key)).getD value := by
  induction rows with
  | nil => rfl
  | cons x rows ih =>
    obtain ⟨hnew, hn⟩ := List.nodup_cons.1 hn
    rw [List.foldl_cons]
    by_cases hx : x.key = key
    · have hrows : ∀ y ∈ rows, y.key ≠ key :=
        fun y hy h => hnew (List.mem_map.2 ⟨y, hy, h.trans hx.symm⟩)
      rw [foldl_take_of_ne hrows, List.find?_cons_of_pos (by simp [hx]), Option.map_some]
      by_cases hv : accepts key x.value <;> simp [take, hx, hv, Option.filter_some]
    · rw [show take key value x = value by simp [take, hx], ih hn, List.find?_cons_of_neg (by simp [hx])]

end PortalSection

namespace Tables

variable {t : Tables} {base : PortalSection} {key : String}

/-- The field that the stored settings give. -/
def effectiveAt (t : Tables) (base : PortalSection) (key : String) : String :=
  ((t.settingAt key).filter (accepts key)).getD (base.shown key)

/-- The effective configuration. -/
def effective (t : Tables) (base : PortalSection) : PortalSection := base.withShown (t.effectiveAt base)

/-- The order of the rows does not matter. -/
theorem foldl_settingList (h : t.Schema) (base : PortalSection) :
    t.settingList.foldl PortalSection.overlay base = t.effective base := by
  have hperm : t.settingList.Perm t.setting := List.perm_insertionSort ..
  have hn : (t.settingList.map (·.key)).Nodup := (hperm.map _).nodup_iff.2 h.settingKey
  have hfind (key : String) : t.settingList.find? (·.key == key) = t.setting.find? (·.key == key) := by
    ext x
    rw [find_key_iff hn, find_key_iff h.settingKey, hperm.mem_iff]
  rw [PortalSection.foldl_overlay]
  refine PortalSection.withShown_inj.2 fun key _ => ?_
  rw [PortalSection.foldl_take hn, hfind]
  rfl

/-! ## Writing -/

theorem settingAt_setSetting (t : Tables) (key value key' : String) :
    (t.setSetting key value).settingAt key' = if key' = key then some value else t.settingAt key' := by
  unfold setSetting settingAt
  simp only
  split
  · next hany =>
    obtain ⟨x, hx, hkey⟩ := List.any_eq_true.1 hany
    have hsame : ((fun x : Setting => x.key == key') ∘ fun x => if x.key == key then { x with value := value } else x) =
        fun x => x.key == key' := by
      funext x
      by_cases h : x.key = key <;> simp [h]
    rw [updateWhere, List.find?_map, hsame]
    split
    · next h =>
      subst h
      have hfound : (t.setting.find? (·.key == key')).isSome := List.find?_isSome.2 ⟨x, hx, hkey⟩
      obtain ⟨y, hy⟩ := Option.isSome_iff_exists.1 hfound
      have hykey := List.find?_some hy
      simp only [hy, Option.map_some, hykey, if_true]
    · next h =>
      cases hy : t.setting.find? (·.key == key') with
      | none => rfl
      | some y =>
        have hykey : y.key = key' := by simpa using List.find?_some hy
        simp [hykey, h]
  · next hany =>
    rw [List.find?_append]
    have hnone : t.setting.find? (·.key == key) = none := List.find?_eq_none.2 fun x hx hkey =>
      hany (List.any_eq_true.2 ⟨x, hx, hkey⟩)
    split
    · next h =>
      subst h
      simp [hnone]
    · next h => simp [Ne.symm h]

/-- Each of the keys is written once. -/
theorem settingAt_setSettings {settings : List Setting} (hn : (settings.map (·.key)).Nodup) (t : Tables)
    (key : String) :
    (t.setSettings settings).settingAt key =
      ((settings.find? (·.key == key)).map (·.value)).or (t.settingAt key) := by
  induction settings generalizing t with
  | nil => rfl
  | cons x settings ih =>
    obtain ⟨hnew, hn⟩ := List.nodup_cons.1 hn
    show ((t.setSetting x.key x.value).setSettings settings).settingAt key = _
    rw [ih hn, settingAt_setSetting]
    by_cases hx : x.key = key
    · have hnone : settings.find? (·.key == key) = none := List.find?_eq_none.2 fun y hy h =>
        hnew (List.mem_map.2 ⟨y, hy, (beq_iff_eq.1 h).trans hx.symm⟩)
      simp [hx, hnone]
    · simp [hx, Ne.symm hx]

/-- A field after accepted values are written. -/
theorem effectiveAt_setSettings {settings : List Setting} (hn : (settings.map (·.key)).Nodup)
    (hacc : ∀ x ∈ settings, accepts x.key x.value) (t : Tables) (base : PortalSection) (key : String) :
    (t.setSettings settings).effectiveAt base key =
      ((settings.find? (·.key == key)).map (·.value)).getD (t.effectiveAt base key) := by
  unfold effectiveAt
  rw [settingAt_setSettings hn]
  cases hx : settings.find? (·.key == key) with
  | none => rfl
  | some x =>
    have hkey : x.key = key := by simpa using List.find?_some hx
    have hv : accepts key x.value := hkey ▸ hacc x (List.mem_of_find?_eq_some hx)
    simp [Option.filter_some, hv]

/-- Accepted values leave the effective configuration exactly when it shows them already. -/
theorem effective_setSettings_iff {settings : List Setting} (hn : (settings.map (·.key)).Nodup)
    (hacc : ∀ x ∈ settings, accepts x.key x.value) (hkeys : ∀ x ∈ settings, x.key ∈ settingKeys) (t : Tables)
    (base : PortalSection) : (t.setSettings settings).effective base = t.effective base ↔
      ∀ x ∈ settings, (t.effective base).shown x.key = x.value := by
  unfold effective
  rw [PortalSection.withShown_inj]
  constructor
  · intro h x hx
    have hfind : settings.find? (·.key == x.key) = some x := (find_key_iff hn).2 ⟨hx, rfl⟩
    have heq := h x.key (hkeys x hx)
    rw [effectiveAt_setSettings hn hacc, hfind] at heq
    rw [PortalSection.shown_withShown (hkeys x hx)]
    exact heq.symm
  · intro h key hkey
    rw [effectiveAt_setSettings hn hacc]
    cases hx : settings.find? (·.key == key) with
    | none => rfl
    | some x =>
      obtain ⟨hmem, rfl⟩ := (find_key_iff hn).1 hx
      have heq := h x hmem
      rw [PortalSection.shown_withShown hkey] at heq
      exact heq.symm

end Tables

/-- Reading when the query is not made to fail. -/
theorem run_portalConfigFromDb (base : PortalSection) (w : World) :
    (portalConfigFromDb base).run noFault w = (w.db.tables.effective base, w) := by
  unfold portalConfigFromDb
  have hread : (sql .getAllSettings).run.run noFault w = (.ok w.db.tables.settingList, w) :=
    exec_query w rfl rfl
  rw [Prog.run_bind, hread]
  show (w.db.tables.settingList.foldl PortalSection.overlay base, w) = _
  rw [Tables.foldl_settingList w.db.schema]

/-! ## The form -/

namespace SettingsForm

variable {form : SettingsForm}

/-- The configuration that the form asks for. -/
def saved (form : SettingsForm) (base : PortalSection) : PortalSection :=
  { base with
    cafeName := form.cafeName, welcomeMessage := form.welcomeMessage, themeColor := form.themeColor,
    contactName := form.contactName, contactPhone := form.contactPhone, contactHours := form.contactHours }

theorem nodup_settings (form : SettingsForm) : (form.settings.map (·.key)).Nodup := by
  show List.Nodup ["cafe_name", "welcome_message", "theme_color", "contact_name", "contact_phone", "contact_hours"]
  decide

theorem key_mem (form : SettingsForm) : ∀ x ∈ form.settings, x.key ∈ settingKeys := by
  simp [settings, settingKeys]

/-- The validation admits what the reader accepts. -/
theorem accepts_of_validate (h : form.validate = .ok ()) : ∀ x ∈ form.settings, accepts x.key x.value := by
  have hname : form.cafeName ≠ "" := by
    intro hempty
    rw [validate, if_pos hempty] at h
    cases h
  have hcolor : isValidHexColor form.themeColor = true := by
    unfold validate at h
    split_ifs at h with _ _ _ hcolor
    exact Bool.not_eq_false _ ▸ hcolor
  simp [settings, accepts, hname, hcolor]

/-- After all of the settings are written the fields are those of the form. -/
theorem effective_saved (h : form.validate = .ok ()) (t : Tables) (base : PortalSection) :
    (t.setSettings form.settings).effective base = form.saved base := by
  show _ = base.withShown (form.saved base).shown
  refine PortalSection.withShown_inj.2 fun key hkey => ?_
  rw [Tables.effectiveAt_setSettings form.nodup_settings (accepts_of_validate h)]
  simp only [settingKeys, List.mem_cons, List.not_mem_nil, or_false] at hkey
  rcases hkey with rfl | rfl | rfl | rfl | rfl | rfl <;> rfl

end SettingsForm

/-! ## Saving -/

variable {env : Op → Option Err} {adminUser csrf : String} {form : SettingsForm} {base : PortalSection}

/-- The audit insert writes no setting, whether it fails or not. -/
theorem setting_audit (w : World) (action : String) (targetType : Option String) (targetId : Option Int)
    (detail : Option String) :
    (Fallible.exec (failing env) (sql (.auditLog adminUser action targetType targetId detail)) w).2.db.tables.setting =
      w.db.tables.setting := by
  cases he : env (.sql (.auditLog adminUser action targetType targetId detail)) with
  | none => rw [exec_sql_of_none w he]; rfl
  | some e => rw [exec_sql_of_some w he]

/-- A refused form: nothing is written. -/
theorem exec_settingsSubmit_refused (env : Op → Option Err) (adminUser : String) (w : World)
    (h : ¬ (form.csrfToken = csrf ∧ form.trimmed.validate = .ok ())) :
    ∃ e, Fallible.exec (failing env) (settingsSubmit adminUser csrf form) w = (.error e, w) := by
  unfold settingsSubmit
  by_cases hcsrf : form.csrfToken = csrf
  · rw [if_neg (not_not_intro hcsrf)]
    simp only
    cases hv : form.trimmed.validate with
    | ok u => exact absurd ⟨hcsrf, hv⟩ h
    | error e => exact ⟨e, Fallible.exec_bind_error _ (Api.exec_ofExcept ..) _⟩
  · rw [if_pos hcsrf]
    exact ⟨_, rfl⟩

/-- An accepted form: the settings in front of the first statement that fails are written, and the audit entry is not
one of them. -/
theorem exec_settingsSubmit (env : Op → Option Err) (adminUser : String) (w : World)
    (hcsrf : form.csrfToken = csrf) (hv : form.trimmed.validate = .ok ()) :
    ∃ r w', Fallible.exec (failing env) (settingsSubmit adminUser csrf form) w = (r, w') ∧
      w'.db.tables.setting = (w.db.tables.setSettings (writtenSettings env form.trimmed.settings)).setting ∧
      (r.isOk ↔ ∀ x ∈ form.trimmed.settings, env (.sql (.setSetting x.key x.value)) = none) := by
  obtain ⟨r, w', hrun, htab, hok⟩ := exec_setSettings env form.trimmed.settings w
  unfold settingsSubmit
  rw [if_neg (not_not_intro hcsrf)]
  simp only
  rw [hv, Fallible.exec_bind_ok _ (Api.exec_ofExcept ..)]
  cases r with
  | error e =>
    rw [Fallible.exec_bind_error _ hrun]
    exact ⟨_, _, rfl, by rw [htab], hok⟩
  | ok u =>
    rw [Fallible.exec_bind_ok _ hrun, Fallible.exec_bind_ok _ (Api.exec_ignore ..)]
    refine ⟨_, _, rfl, (setting_audit ..).trans ?_, hok⟩
    rw [htab]

/-- A success is read back in the six fields and in no other, and a failure leaves what is read as it was. -/
def SavesAtomically (env : Op → Option Err) (adminUser csrf : String) (form : SettingsForm) (base : PortalSection)
    (w : World) : Prop :=
  let result := Fallible.exec (failing env) (settingsSubmit adminUser csrf form) w
  let read (w : World) := ((portalConfigFromDb base).run noFault w).1
  (result.1.isOk → read result.2 = form.trimmed.saved base) ∧ (¬ result.1.isOk → read result.2 = read w)

theorem Tables.effective_congr {t t' : Tables} (h : t'.setting = t.setting) (base : PortalSection) :
    t'.effective base = t.effective base := by
  unfold effective effectiveAt settingAt
  rw [h]

/-- A submission saves atomically exactly when it is refused, or no statement fails, or what is written in front of the
first statement that fails is shown already. -/
theorem savesAtomically_iff (w : World) : SavesAtomically env adminUser csrf form base w ↔
    (form.csrfToken = csrf → form.trimmed.validate = .ok () →
      (∀ x ∈ form.trimmed.settings, env (.sql (.setSetting x.key x.value)) = none) ∨
        ∀ x ∈ writtenSettings env form.trimmed.settings, (w.db.tables.effective base).shown x.key = x.value) := by
  unfold SavesAtomically
  simp only [run_portalConfigFromDb]
  by_cases haccepted : form.csrfToken = csrf ∧ form.trimmed.validate = .ok ()
  · obtain ⟨hcsrf, hv⟩ := haccepted
    obtain ⟨r, w', hrun, hset, hok⟩ := exec_settingsSubmit env adminUser w hcsrf hv
    have hsub : (writtenSettings env form.trimmed.settings).Sublist form.trimmed.settings :=
      List.takeWhile_sublist _
    have hn := form.trimmed.nodup_settings.sublist (hsub.map _)
    have hacc := fun x hx => form.trimmed.accepts_of_validate hv x (hsub.subset hx)
    have hkeys := fun x hx => form.trimmed.key_mem x (hsub.subset hx)
    rw [hrun, Tables.effective_congr hset, forall_prop_of_true hcsrf, forall_prop_of_true hv,
      ← Tables.effective_setSettings_iff hn hacc hkeys, ← hok]
    cases r with
    | ok u =>
      have hall : writtenSettings env form.trimmed.settings = form.trimmed.settings := by
        refine List.takeWhile_eq_self_iff.2 fun x hx => ?_
        rw [hok.1 rfl x hx]
        rfl
      rw [hall]
      exact iff_of_true ⟨fun _ => SettingsForm.effective_saved hv _ _, fun h => absurd rfl h⟩ (.inl rfl)
    | error e =>
      have herr : ¬ (Except.error e : Except AppError String).isOk := Bool.false_ne_true
      exact ⟨fun h => .inr (h.2 herr), fun h => ⟨fun hok => absurd hok herr, fun _ => h.resolve_left herr⟩⟩
  · obtain ⟨e, hrun⟩ := exec_settingsSubmit_refused env adminUser w haccepted
    rw [hrun]
    exact iff_of_true ⟨nofun, fun _ => rfl⟩ fun hcsrf hv => absurd ⟨hcsrf, hv⟩ haccepted

/-- The portal section with its defaults. -/
def defaultSection : PortalSection :=
  ⟨"wifi.didicafe", "admin.wifi.didicafe", "DidiCafe", "", "#b45309", "", "", ""⟩

def branding : SettingsForm := ⟨"Chez Didi", " Tonga soa! ", "#0a7", "Didi", "034 00 000 00", "8h - 18h", "5eed"⟩

/-- The second of the statements fails. -/
def welcomeFails : Op → Option Err := fun op =>
  if op = .sql (.setSetting "welcome_message" "Tonga soa!") then some (.sqlx "database is locked") else none

/-- The submission fails, and the new name is shown. -/
theorem savesAtomically_welcomeFails :
    ¬ SavesAtomically welcomeFails "admin" "5eed" branding defaultSection .opening := by
  intro h
  exact absurd (h.2 (by decide +kernel)) (by decide +kernel)

end Didicafe
