/-
What the portal says about codes that open nothing. Two databases may differ in all their tokens, sessions, plans and
audit entries: as long as the codes that are posted can be used in neither of them, the same requests get the same
answers from both, in whatever order they take turns. So nobody outside learns whether such a code has ever existed.
-/
import Didicafe.Front.Authority
import Didicafe.Lib.Twins

namespace Didicafe

open Effect Runs

variable {c : FrontConfig} {ip : IpAddr} {form : AuthForm} {draws : FrontDraws} {D : String → Prop} {w w' : World}

/-! ## What is looked at -/

/-- The answer to the lookup of a code that cannot be used. -/
def Unusable (r : Except Err (Option Token)) : Prop := ∃ t, r = .ok t ∧ TokenLookup.ofToken t = .invalid

/-- Two such answers are like each other, and otherwise only the same ones are. -/
def LikeAnswers : Likeness Access Access.Out
  | .world (.sql (.getTokenByCode _)), r, r' => (∃ e, r = .error e ∧ r' = .error e) ∨ Unusable r ∧ Unusable r'
  | _, r, r' => r = r'

/-- The operations that tell nothing of tokens, sessions and plans. -/
def Public : Access → Prop
  | .world (.sql .getAllSettings) | .world (.sql (.auditLog ..)) | .world (.nft (.addElement ..)) => True
  | .world _ => False
  | _ => True

/-- These, and the lookup of a code in the class. -/
def PublicOr (D : String → Prop) (op : Access) : Prop :=
  Public op ∨ ∃ code, D code ∧ op = .world (.sql (.getTokenByCode code))

/-- Two worlds with the same settings and the same firewall, in none of which a code of the class can be used. -/
structure SameOutside (D : String → Prop) (w w' : World) : Prop where
  now : w.now = w'.now
  set : w.set = w'.set
  setting : w.db.tables.setting = w'.db.tables.setting
  unusable : ∀ code, D code → TokenLookup.ofToken (w.db.tables.tokenByCode code) = .invalid ∧
    TokenLookup.ofToken (w'.db.tables.tokenByCode code) = .invalid

/-- The same of the whole state, which is the same in all that is kept in memory. -/
structure SameMemory (D : String → Prop) (s s' : AppState) : Prop where
  memory : s' = { s with world := s'.world }
  world : SameOutside D s.world s'.world

/-! ## The handlers do not tell them apart -/

section Blind

theorem likeAnswers_public {op : Access} (h : Public op) {r r' : op.Out} (hr : LikeAnswers op r r') : r = r' := by
  cases op with
  | world op =>
    cases op with
    | sql q => cases q <;> first | exact hr | exact h.elim
    | _ => exact hr
  | _ => exact hr

theorem blind_of_public {α : Type} {p : Front α} (h : p.Uses Public) :
    p.Blind (PublicOr D) LikeAnswers fun _ => True :=
  Prog.blind_of_uses (fun _ hop => ⟨.inl hop, fun _ _ => likeAnswers_public hop⟩) h

theorem public_of_renews {door : Door} {key : String} {op : Access} (h : Renews c door key op) : Public op := by
  unfold Renews at h
  split at h
  · trivial
  · trivial
  · cases h

theorem public_validate {door : Door} {key submitted : String} : (Front.validate c door key submitted).Uses Public :=
  ⟨trivial, fun _ => trivial⟩

theorem public_checkAndRecord {door : Door} : (Front.limiter door (checkAndRecord ip)).Uses Public :=
  Prog.uses_embed (Prog.uses_of_forall (fun _ => trivial) _)

theorem public_getOrGenerate {door : Door} {key : String} : (Front.getOrGenerate c door key draws).Uses Public :=
  Prog.Uses.bind (Prog.uses_embed (Prog.uses_of_forall (fun _ => trivial) _)) fun _ => trivial

theorem public_clientInfo : (Front.clientInfo c ip).Uses Public :=
  Prog.Uses.bind (uses_lookupMac ⟨trivial, trivial, trivial⟩) fun _ => trivial

theorem public_settings : (Front.world (portalConfigFromDb c.portal)).Uses Public := uses_portalConfigFromDb trivial

theorem public_portalError {error mac : String} : (Front.portalError c error mac draws).Uses Public := by
  refine renews_portalError.mono fun op hop => ?_
  rcases hop with hop | rfl
  · exact public_of_renews hop
  · trivial

theorem public_portalPage : (Front.portalPage c ip draws).Uses Public := by
  refine public_clientInfo.bind fun client => ?_
  cases client with
  | error e => trivial
  | ok mac => exact public_getOrGenerate.bind fun _ => public_settings.bind fun _ => trivial

theorem public_loginPage : (Front.loginPage c ip draws).Uses Public :=
  public_getOrGenerate.bind fun _ => public_settings.bind fun _ => trivial

theorem public_loginSubmit {header : Option String} {form : LoginForm} :
    (Front.loginSubmit c ip header form draws).Uses Public := by
  have error {status : Nat} {retryAfter : Option Nat} {error : String} {portal : PortalSection} :
      (Front.loginError c status retryAfter error ip portal draws).Uses Public :=
    renews_loginError.mono fun _ => public_of_renews
  refine public_settings.bind fun portal => public_validate.bind fun own => ?_
  split
  · exact error
  refine public_checkAndRecord.bind fun verdict => ?_
  rcases verdict with e | _ | _ | retryAfterSeconds
  · trivial
  · show Prog.Uses _ (ite _ _ _)
    split
    · exact error
    · refine ⟨trivial, fun passwordOk => ?_⟩
      show Prog.Uses _ (ite _ _ _)
      split
      · exact uses_logIn trivial (fun _ => trivial) ⟨trivial, trivial, trivial⟩ fun _ => trivial
      · exact ⟨trivial, fun _ => error⟩
  · exact error
  · exact error

/-- The lookup of a code in the class, and what follows it. -/
theorem blind_lookup {code mac address : String} (hcode : D code) :
    (Front.world (Didicafe.portalAuth code mac address)).Blind (PublicOr D) LikeAnswers fun _ => True := by
  refine ⟨.inr ⟨code, hcode, rfl⟩, fun r r' hr => ?_⟩
  rcases hr with ⟨e, rfl, rfl⟩ | ⟨⟨t, rfl, ht⟩, t', rfl, ht'⟩
  · exact ⟨rfl, trivial⟩
  · -- the answer comes after the classification
    refine ⟨?_, ?_⟩
    · show Prog.embed _ _ (Prog.bind (Prog.done (Except.ok (TokenLookup.ofToken t))) _) =
        Prog.embed _ _ (Prog.bind (Prog.done (Except.ok (TokenLookup.ofToken t'))) _)
      rw [ht, ht']
    · show Prog.Blind _ _ _ (Prog.embed _ _ (Prog.bind (Prog.done (Except.ok (TokenLookup.ofToken t))) _))
      rw [ht]
      trivial

/-- The class contains the code of the form, if it has the format of a code. -/
def PostsWithin (c : FrontConfig) (D : String → Prop) (form : AuthForm) : Prop :=
  validateTokenFormat c.token (form.code c) = .ok (.ok ()) → D (form.code c)

theorem blind_enterCode {code mac : String} (hcode : validateTokenFormat c.token code = .ok (.ok ()) → D code) :
    (Front.enterCode c ip code mac draws).Blind (PublicOr D) LikeAnswers fun _ => True := by
  unfold Front.enterCode
  split
  · trivial
  · exact blind_of_public public_portalError
  · rename_i hformat
    refine (blind_lookup (hcode hformat)).bind fun answer _ => ?_
    cases answer with
    | internal e => trivial
    | success => trivial
    | error key => exact blind_of_public public_portalError

theorem blind_portalAuth (hform : PostsWithin c D form) :
    (Front.portalAuth c ip form draws).Blind (PublicOr D) LikeAnswers fun _ => True := by
  refine (blind_of_public public_clientInfo).bind fun client _ => ?_
  cases client with
  | error e => trivial
  | ok mac =>
    refine (blind_of_public public_validate).bind fun own _ => ?_
    split
    · exact blind_of_public public_portalError
    refine (blind_of_public public_checkAndRecord).bind fun verdict _ => ?_
    rcases verdict with e | _ | _ | _
    · trivial
    · exact blind_enterCode hform
    · trivial
    · trivial

/-- A request from outside: it has nothing to do with the admin's pages, and the codes it posts are in the class. -/
def FrontCall.Outside (D : String → Prop) : FrontCall c → Prop
  | .portalAuth _ form _ => PostsWithin c D form
  | .admin .. => False
  | _ => True

theorem blind_program {k : FrontCall c} (h : k.Outside D) :
    k.program.Blind (PublicOr D) LikeAnswers fun _ => True := by
  cases k with
  | portalPage => exact blind_of_public public_portalPage
  | portalAuth => exact blind_portalAuth h
  | loginPage => exact blind_of_public public_loginPage
  | loginSubmit => exact blind_of_public public_loginSubmit
  | logout =>
    exact blind_of_public (Prog.Uses.bind (uses_sessions _ fun _ => trivial) fun _ => trivial)
  | redirectToLogin =>
    exact blind_of_public (Prog.Uses.bind (uses_sessions _ fun _ => trivial) fun r => by cases r <;> trivial)
  | admin => exact h.elim

end Blind

/-! ## The states stay alike -/

section Alike

variable {env : Surroundings} {s s' : AppState}

theorem likeAnswers_error {op : Op} (e : Err) (h : PublicOr D (.world op)) :
    LikeAnswers (.world op) (World.exec (some e) op w).1 (World.exec (some e) op w').1 := by
  rcases h with h | ⟨code, -, h⟩
  · cases op with
    | utcNow => exact h.elim
    | nft cmd => rfl
    | sql q => cases q <;> first | rfl | exact h.elim
  · cases h
    exact .inl ⟨e, rfl, rfl⟩

theorem exec_error (e : Err) (op : Op) : (World.exec (some e) op w).2 = w := by
  cases op <;> rfl

theorem SameOutside.exec {op : Op} (fault : Option Err) (h : SameOutside D w w') (hop : PublicOr D (.world op)) :
    LikeAnswers (.world op) (World.exec fault op w).1 (World.exec fault op w').1 ∧
      SameOutside D (World.exec fault op w).2 (World.exec fault op w').2 := by
  cases fault with
  | some e =>
    rw [exec_error, exec_error]
    exact ⟨likeAnswers_error e hop, h⟩
  | none =>
    rcases hop with hop | ⟨code, hcode, hop⟩
    · cases op with
      | utcNow => exact hop.elim
      | nft cmd =>
        cases cmd with
        | deleteElement mac ip => exact hop.elim
        | addElement mac ip timeoutSecs =>
          refine ⟨rfl, h.now, ?_, h.setting, h.unusable⟩
          show w.set.insert _ _ = w'.set.insert _ _
          rw [h.set, h.now]
      | sql q =>
        cases q with
        | getAllSettings =>
          refine ⟨?_, h⟩
          show Except.ok w.db.tables.settingList = .ok w'.db.tables.settingList
          unfold Tables.settingList
          rw [h.setting]
        | auditLog => exact ⟨rfl, h.now, h.set, h.setting, h.unusable⟩
        | _ => exact hop.elim
    · cases hop
      exact ⟨.inr ⟨⟨_, rfl, (h.unusable code hcode).1⟩, _, rfl, (h.unusable code hcode).2⟩, h⟩

theorem SameMemory.exec {op : Access} (h : SameMemory D s s') (hop : PublicOr D op) :
    LikeAnswers op (AppState.exec env op s).1 (AppState.exec env op s').1 ∧
      SameMemory D (AppState.exec env op s).2 (AppState.exec env op s').2 := by
  obtain ⟨memory, world⟩ := h
  generalize hw : s'.world = w' at memory world
  subst memory
  cases op with
  | world op =>
    obtain ⟨hanswer, hworld⟩ := world.exec (env.fault op) hop
    exact ⟨hanswer, rfl, hworld⟩
  | sessions op => exact ⟨rfl, rfl, world⟩
  | limiter door op => cases door <;> exact ⟨rfl, rfl, world⟩
  | csrf door op => cases door <;> exact ⟨rfl, rfl, world⟩
  | _ => exact ⟨rfl, rfl, world⟩

end Alike

/-! ## Runs -/

/-- Two turns are the same, but that the worlds they bring about may differ in what is not looked at. -/
def SameTurn (D : String → Prop) : FrontTurn c → FrontTurn c → Prop
  | .start k, .start k' => k = k' ∧ k.Outside D
  | .advance i env, .advance i' env' => i = i' ∧ env = env'
  | .other (.elapse nanos), .other (.elapse nanos') => nanos = nanos'
  | .other (.world w), .other (.world w') => SameOutside D w w'
  | _, _ => False

theorem likeTurns_of_sameTurn {l l' : FrontTurn c} (h : SameTurn D l l') :
    (frontDesk c).LikeTurns (FrontCall.Outside D) (SameMemory D) l l' := by
  cases l with
  | start k =>
    cases l' with
    | start k' => exact h
    | _ => exact h.elim
  | advance i env =>
    cases l' with
    | advance i' env' => exact h
    | _ => exact h.elim
  | other m =>
    cases l' with
    | other m' =>
      cases m with
      | elapse nanos =>
        cases m' with
        | elapse nanos' =>
          cases (h : nanos = nanos')
          rintro s s' ⟨memory, world⟩
          rw [memory]
          exact ⟨rfl, world⟩
        | world w' => exact h.elim
      | world w =>
        cases m' with
        | elapse nanos' => exact h.elim
        | world w' =>
          rintro s s' ⟨memory, world⟩
          rw [memory]
          exact ⟨rfl, h⟩
    | _ => exact (show False by cases m <;> exact h).elim

/-- The front desk before its first request. -/
def openedDesk (c : FrontConfig) (clock : Nat) (w : World) : FrontJournal c :=
  ⟨⟨.new c.rateLimit c.sessionTimeoutSeconds clock w, []⟩, []⟩

/-- Whatever order requests from outside take turns in, whatever fails, and whatever the rest of the daemon does to the
two databases as long as none of the posted codes can be used: what a request has been answered, and what it will do
next, is the same with both databases. -/
theorem codes_hidden (clock : Nat) {turns turns' : List (FrontTurn c)} (h : SameOutside D w w')
    (hturns : List.Forall₂ (SameTurn D) turns turns') :
    Option.Rel (fun s s' => s.pool.threads = s'.pool.threads ∧ SameMemory D s.pool.shared s'.pool.shared)
      ((frontRuns c).trace (openedDesk c clock w) turns) ((frontRuns c).trace (openedDesk c clock w') turns') := by
  have twins : Twins (PublicOr D) LikeAnswers (SameMemory D) (openedDesk c clock w) (openedDesk c clock w') :=
    ⟨rfl, ⟨rfl, h⟩, fun t ht => by cases ht⟩
  have hrel := Workshop.twins_trace (Started c) (fun _ => blind_program) (fun _ _ _ _ hop hs => hs.exec hop)
    (hturns.imp fun _ _ => likeTurns_of_sameTurn) twins
  generalize (frontRuns c).trace (openedDesk c clock w) turns = x at hrel ⊢
  generalize (frontRuns c).trace (openedDesk c clock w') turns' = x' at hrel ⊢
  cases hrel with
  | none => exact .none
  | some h => exact .some ⟨h.same, h.like⟩

/-- The shop with a code that was made and revoked. -/
def World.withRevoked : World :=
  let created := (World.exec none (.sql (.createToken "CAFE-AAAA-AAAA" none 1)) .opening).2
  (World.exec none (.sql (.revokeToken 4)) created).2

/-- A guest who posts the code gets the same page as in a shop that has never had it. -/
theorem codes_hidden_revoked : ∃ s s' : FrontJournal .small,
    (frontRuns .small).trace (openedDesk .small 0 .opening) (visit ++ advances 1 3) = some s ∧
      (frontRuns .small).trace (openedDesk .small 0 .withRevoked) (visit ++ advances 1 3) = some s' ∧
      s.pool.threads = s'.pool.threads := by
  have same : SameOutside (· = "CAFE-AAAA-AAAA") .opening .withRevoked := by
    refine ⟨rfl, rfl, rfl, ?_⟩
    rintro _ rfl
    exact ⟨by decide, by decide⟩
  have hturns : List.Forall₂ (SameTurn (· = "CAFE-AAAA-AAAA")) (visit ++ advances 1 3) (visit ++ advances 1 3) := by
    refine List.forall₂_same.2 fun l hl => ?_
    simp only [visit, advances, List.mem_append, List.mem_cons, List.mem_replicate] at hl
    rcases hl with ((rfl | ⟨-, rfl⟩) | rfl | ⟨-, rfl⟩) | ⟨-, rfl⟩
    · exact ⟨rfl, trivial⟩
    · exact ⟨rfl, rfl⟩
    · exact ⟨rfl, fun _ => by decide⟩
    · exact ⟨rfl, rfl⟩
    · exact ⟨rfl, rfl⟩
  have hsome : ((frontRuns .small).trace (openedDesk .small 0 .opening) (visit ++ advances 1 3)).isSome = true := by
    decide +kernel
  obtain ⟨s, hs⟩ := Option.isSome_iff_exists.1 hsome
  have hrel := codes_hidden (c := .small) 0 same hturns
  rw [hs] at hrel
  generalize (frontRuns .small).trace (openedDesk .small 0 .withRevoked) (visit ++ advances 1 3) = x at hrel
  cases hrel with
  | @some s s' h => exact ⟨s, s', hs, rfl, h.1⟩

end Didicafe
