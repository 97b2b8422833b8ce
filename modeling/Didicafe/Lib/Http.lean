/-
HTTP routers as functions from requests to replies: routes with path parameters, method routers, nested services, a
fallback, and layers around them. The handlers are opaque: a reply says which one has run.
-/
import Mathlib.Tactic.Common

namespace Didicafe.Http

inductive Method where
  | get
  | head
  | post
  | put
  | patch
  | delete
  | options
  | connect
  | trace
  | extension (name : String)
deriving DecidableEq

/-- A request as the routing sees it, with the address of the client. -/
structure Request (Addr : Type) where
  method : Method
  path : String
  addr : Addr

structure Response where
  status : Nat
  headers : List (String × String)
  body : String
deriving DecidableEq

/-- A response, and the handler that has produced it, if one has run. -/
structure Reply (H : Type) where
  response : Response
  ran : Option H

abbrev Service (Addr H : Type) := Request Addr → Reply H

/-- A path and the handlers of its methods. -/
structure Route (H : Type) where
  path : String
  methods : List (Method × H)

variable {Addr H : Type}

/-! ## Paths -/

/-- A segment of a route's path: `{name}` takes any text but the empty one. -/
def matchSegment (pattern segment : List Char) : Bool :=
  if pattern.head? = some '{' then segment ≠ [] else pattern = segment

def segments (path : String) : List (List Char) := path.toList.splitOn '/'

def matchPath (pattern path : String) : Bool :=
  (segments pattern).length = (segments path).length &&
    ((segments pattern).zip (segments path)).all fun x => matchSegment x.1 x.2

/-- A path without parameters. -/
def Literal (pattern : String) : Prop := ∀ s ∈ segments pattern, s.head? ≠ some '{'

instance (pattern : String) : Decidable (Literal pattern) := by unfold Literal; infer_instance

theorem segments_inj {p q : String} (h : segments p = segments q) : p = q := by
  have h' := congrArg (List.intercalate ['/']) h
  unfold segments at h'
  rw [List.intercalate_splitOn, List.intercalate_splitOn] at h'
  exact String.toList_inj.1 h'

/-- A path without parameters matches itself alone. -/
theorem Literal.eq_of_match {pattern path : String} (hl : Literal pattern) (h : matchPath pattern path) :
    pattern = path := by
  apply segments_inj
  unfold Literal at hl
  unfold matchPath at h
  rw [Bool.and_eq_true, decide_eq_true_iff] at h
  obtain ⟨hlen, hall⟩ := h
  generalize segments pattern = ps at hl hlen hall
  generalize segments path = ss at hlen hall
  induction ps generalizing ss with
  | nil => exact (List.length_eq_zero_iff.1 hlen.symm).symm
  | cons p ps ih =>
    cases ss with
    | nil => cases hlen
    | cons s ss =>
      rw [List.zip_cons_cons, List.all_cons, Bool.and_eq_true] at hall
      obtain ⟨hp, hps⟩ := List.forall_mem_cons.1 hl
      have heq : p = s := by
        have h1 := hall.1
        unfold matchSegment at h1
        rw [if_neg hp] at h1
        exact of_decide_eq_true h1
      rw [heq, ih hps ss (Nat.succ.inj hlen) hall.2]

/-! ## Dispatching -/

/-- The route of a path: one without parameters comes first. -/
def findRoute (routes : List (Route H)) (path : String) : Option (Route H) :=
  (routes.find? fun r => r.path = path).or (routes.find? fun r => matchPath r.path path)

/-- The handler of a method; `get` also answers `HEAD`. -/
def Route.handler (r : Route H) (m : Method) : Option H :=
  ((r.methods.find? fun x => x.1 = m).or
    (if m = .head then r.methods.find? fun x => x.1 = .get else none)).map (·.2)

def methodNotAllowed : Response := ⟨405, [], ""⟩

/-- `Redirect::to`. -/
def redirectTo (uri : String) : Response := ⟨303, [("location", uri)], ""⟩

/-- A path is that of a nested service, or lies below it. -/
def Below (base path : String) : Prop := path = base ∨ (base ++ "/").toList <+: path.toList

instance (base path : String) : Decidable (Below base path) := by unfold Below; infer_instance

/-- A router without layers: its routes, one nested service, and a fallback that redirects. `app` is what each handler
answers. -/
def dispatch (app : H → Response) (routes : List (Route H)) (nest : String × H) (fallback : String) : Service Addr H :=
  fun req =>
    match findRoute routes req.path with
    | some r =>
      match r.handler req.method with
      | some h => ⟨app h, some h⟩
      | none => ⟨methodNotAllowed, none⟩
    | none => if Below nest.1 req.path then ⟨app nest.2, some nest.2⟩ else ⟨redirectTo fallback, none⟩

theorem findRoute_some {routes : List (Route H)} {path : String} {r : Route H} (h : findRoute routes path = some r) :
    r ∈ routes ∧ (r.path = path ∨ matchPath r.path path) := by
  unfold findRoute at h
  rcases Option.or_eq_some_iff.1 h with h | ⟨-, h⟩
  · exact ⟨List.mem_of_find?_eq_some h, .inl (by simpa using List.find?_some h)⟩
  · exact ⟨List.mem_of_find?_eq_some h, .inr (by simpa using List.find?_some h)⟩

theorem Route.handler_some {r : Route H} {m : Method} {h : H} (hh : r.handler m = some h) :
    ∃ m', (m', h) ∈ r.methods := by
  obtain ⟨⟨m', h'⟩, hx, rfl⟩ := Option.map_eq_some_iff.1 hh
  rcases Option.or_eq_some_iff.1 hx with hx | ⟨-, hx⟩
  · exact ⟨m', List.mem_of_find?_eq_some hx⟩
  · split at hx
    · exact ⟨m', List.mem_of_find?_eq_some hx⟩
    · cases hx

/-! ## Layers -/

/-- A middleware: it sees the request first, and may answer without the service it wraps. -/
abbrev Layer (Addr H : Type) := Service Addr H → Service Addr H

/-- `HeaderMap::insert`. -/
def Response.insert (r : Response) (name value : String) : Response :=
  { r with headers := r.headers.filter (·.1 ≠ name) ++ [(name, value)] }

def Response.insertAll (r : Response) (headers : List (String × String)) : Response :=
  headers.foldl (fun r h => r.insert h.1 h.2) r

/-- A middleware that adds headers to the response. -/
def addHeaders (headers : Request Addr → List (String × String)) : Layer Addr H :=
  fun next req => { next req with response := (next req).response.insertAll (headers req) }

@[simp] theorem Response.status_insertAll (r : Response) (headers : List (String × String)) :
    (r.insertAll headers).status = r.status := by
  induction headers generalizing r with
  | nil => rfl
  | cons h headers ih => exact ih _

@[simp] theorem status_addHeaders (headers : Request Addr → List (String × String)) (next : Service Addr H)
    (req : Request Addr) : (addHeaders headers next req).response.status = (next req).response.status :=
  Response.status_insertAll ..

@[simp] theorem ran_addHeaders (headers : Request Addr → List (String × String)) (next : Service Addr H)
    (req : Request Addr) : (addHeaders headers next req).ran = (next req).ran := rfl

end Didicafe.Http
