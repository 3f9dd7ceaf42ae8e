import Mathlib.Data.String.Basic
import NexusPilot.Machine.Lists

/-!
# The router of deep links

A link that the system opens is dispatched to the route of its host and path. Until a handler is attached to the route
the link waits in a queue of bounded length, whose oldest link makes room for the newest. Attaching a handler drains
the queue in rounds: a round takes what is queued while the lock on the routes is held, and hands it over after the
lock is released, so that links may be queued in between. The flag `drainingPending` says that such a loop is going on;
without it, and with a handler, a link is handed over at once.

What is done under the lock is one step here, and so is each call of a handler.
-/

namespace DeepLink

open Machine

/-! ### Links and routes -/

/-- `Url`, as far as it is read. -/
structure Url where
  /-- `as_str`. -/
  text : String
  scheme : String
  host : Option String
  path : String
  username : String := ""
  password : Option String := none
  port : Option Nat := none
  fragment : Option String := none
  deriving DecidableEq

/-- `DesktopDeepLinkRoute`. -/
structure Route where
  id : String
  host : String
  path : String
  deriving DecidableEq

/-- `DesktopDeepLinkRoute::is_valid`. -/
def Route.isValid (route : Route) : Bool :=
  !route.id.isEmpty && !route.host.isEmpty &&
    (route.host.toList.all fun c ↦ c.isLower || c.isDigit || c = '.' || c = '-') &&
    (route.path.toList.head? = some '/') && !route.path.toList.contains '?' && !route.path.toList.contains '#'

/-- `DesktopDeepLinkSource`. -/
inductive Source
  | launch | runtime
  deriving DecidableEq

/-- `DesktopDeepLinkRequest`. The ticket is the number of its call of `dispatch`, which tells equal requests apart;
nothing reads it. -/
structure Request where
  route : Route
  source : Source
  url : Url
  ticket : Nat
  deriving DecidableEq

/-- `DesktopDeepLinkRejectionReason`. -/
inductive RejectionReason
  | tooLong | unexpectedScheme | missingHost | credentialsNotAllowed | portNotAllowed | fragmentNotAllowed
  | unknownRoute
  deriving DecidableEq

/-- `MAX_DEEP_LINK_LENGTH`. -/
def maxDeepLinkLength : Nat := 8 * 1024

/-- `DEFAULT_PENDING_CAPACITY_PER_ROUTE`. -/
def defaultPendingCapacityPerRoute : Nat := 8

/-- `validate_structure`. -/
def validateStructure (scheme : String) (url : Url) : Option RejectionReason :=
  if maxDeepLinkLength < url.text.utf8ByteSize then some .tooLong
  else if url.scheme ≠ scheme then some .unexpectedScheme
  else if url.host = none then some .missingHost
  else if url.username ≠ "" ∨ url.password.isSome then some .credentialsNotAllowed
  else if url.port.isSome then some .portNotAllowed
  else if url.fragment.isSome then some .fragmentNotAllowed
  else none

/-- `DesktopDeepLinkRouterError`. -/
inductive RouterError
  | invalidRoute | duplicateRoute | unknownRoute | handlerAlreadyAttached
  deriving DecidableEq

/-- `DesktopDeepLinkHandlerError`. -/
structure HandlerError where
  code : String
  deriving DecidableEq

/-- `DesktopDeepLinkAttachReport`. -/
structure AttachReport where
  delivered : Nat := 0
  rejected : Nat := 0
  deriving DecidableEq

/-- One more link that a handler has taken, or refused with an error. -/
def AttachReport.count (report : AttachReport) : Option HandlerError → AttachReport
  | none => { report with delivered := report.delivered + 1 }
  | some _ => { report with rejected := report.rejected + 1 }

/-! ### What is done under the lock -/

variable {H : Type}

/-- `RouteEntry`. -/
structure RouteEntry (H : Type) where
  route : Route
  handler : Option H := none
  drainingPending : Bool := false
  pending : List Request := []

/-- `register_route`. -/
def registerRoute (routes : List Route) (route : Route) : Except RouterError Unit :=
  if route.isValid = false then .error .invalidRoute
  else if routes.any fun other ↦ other.id = route.id ∨ (other.host = route.host ∧ other.path = route.path) then
    .error .duplicateRoute
  else .ok ()

/-- The section with which `attach_handler` starts. -/
def RouteEntry.attach (entry : RouteEntry H) (handler : H) : Except RouterError (RouteEntry H) :=
  if entry.handler.isSome then .error .handlerAlreadyAttached
  else .ok { entry with handler := some handler, drainingPending := true }

/-- The section of the loop of `attach_handler`: a round, or the end of the loop. -/
def RouteEntry.takePending (entry : RouteEntry H) : Option (List Request) × RouteEntry H :=
  if entry.pending = [] then (none, { entry with drainingPending := false })
  else (some entry.pending, { entry with pending := [] })

/-- What `dispatch` leaves its section with. -/
inductive Turn (H : Type)
  | ready (handler : H)
  | queued (droppedOldest : Bool) (evicted : Option Request)

/-- The handler of a route that links are handed to at once. -/
def RouteEntry.readyHandler (entry : RouteEntry H) : Option H :=
  if entry.drainingPending then none else entry.handler

/-- The section of `dispatch`, for the entry that it finds. -/
def RouteEntry.dispatch (capacity : Nat) (entry : RouteEntry H) (request : Request) : Turn H × RouteEntry H :=
  match entry.readyHandler with
  | some handler => (.ready handler, entry)
  | none =>
    let droppedOldest := decide (capacity ≤ entry.pending.length)
    let kept := if droppedOldest then entry.pending.tail else entry.pending
    (.queued droppedOldest (if droppedOldest then entry.pending.head? else none),
      { entry with pending := kept ++ [request] })

/-! ### Calls that are going on -/

/-- A call of `attach_handler` in its loop: what is left of the round, and the report. -/
structure Round where
  taken : List Request := []
  report : AttachReport := {}

/-- What has happened at a route. -/
inductive Happening
  /-- A call of `dispatch` has queued its link, and perhaps thrown one out. -/
  | queued (link : Request) (droppedOldest : Bool) (evicted : Option Request)
  /-- A call of `dispatch` has found a handler for its link. -/
  | granted (link : Request)
  /-- The loop of `attach_handler` has handed a link over. -/
  | drained (link : Request)
  /-- A call of `dispatch` has handed its link over. -/
  | delivered (link : Request) (error : Option HandlerError)
  /-- A call of `attach_handler` has returned. -/
  | attached (report : AttachReport)
  deriving DecidableEq

/-- `DesktopDeepLinkDispatchOutcome`, of a link that is not rejected by the router. -/
inductive DispatchOutcome
  | delivered (routeId : String)
  | queued (routeId : String) (droppedOldest : Bool)
  | handlerRejected (routeId errorCode : String)
  deriving DecidableEq

/-- What a call of `dispatch` returns. -/
def Happening.outcome : Happening → Option DispatchOutcome
  | .queued link droppedOldest _ => some (.queued link.route.id droppedOldest)
  | .delivered link none => some (.delivered link.route.id)
  | .delivered link (some error) => some (.handlerRejected link.route.id error.code)
  | _ => none

/-- A route with the calls that are going on and what has happened. -/
structure RouteState (H : Type) where
  entry : RouteEntry H
  attaching : Option Round := none
  /-- The links of the calls of `dispatch` that have a handler and have not called it yet. -/
  ready : List Request := []
  history : List Happening := []

namespace RouteState

def attach (handler : H) (s : RouteState H) : RouteState H :=
  match s.entry.attach handler with
  | .error _ => s
  | .ok entry => { s with entry, attaching := some {} }

/-- The loop goes on when its round is handed over. -/
def drain (s : RouteState H) : RouteState H :=
  match s.attaching with
  | some ⟨[], report⟩ =>
    match s.entry.takePending with
    | (none, entry) => { s with entry, attaching := none, history := s.history ++ [.attached report] }
    | (some taken, entry) => { s with entry, attaching := some ⟨taken, report⟩ }
  | _ => s

/-- The next link of the round is handed over. -/
def handle (error : Option HandlerError) (s : RouteState H) : RouteState H :=
  match s.attaching with
  | some ⟨link :: taken, report⟩ =>
    { s with attaching := some ⟨taken, report.count error⟩, history := s.history ++ [.drained link] }
  | _ => s

def dispatch (capacity : Nat) (request : Request) (s : RouteState H) : RouteState H :=
  match s.entry.dispatch capacity request with
  | (.ready _, entry) =>
    { s with entry, ready := s.ready ++ [request], history := s.history ++ [.granted request] }
  | (.queued droppedOldest evicted, entry) =>
    { s with entry, history := s.history ++ [.queued request droppedOldest evicted] }

/-- One of the calls that have a handler calls it. -/
def deliver (index : Nat) (error : Option HandlerError) (s : RouteState H) : RouteState H :=
  match s.ready[index]? with
  | some link => { s with ready := s.ready.eraseIdx index, history := s.history ++ [.delivered link error] }
  | none => s

end RouteState

/-! ### The router -/

/-- `DesktopDeepLinkRouter`, and the calls that are going on. -/
structure Router (H : Type) where
  scheme : String
  pendingCapacityPerRoute : Nat
  routes : List (RouteState H) := []
  next : Nat := 0

/-- `with_pending_capacity`. -/
def Router.withPendingCapacity (scheme : String) (capacity : Nat) : Router H :=
  { scheme, pendingCapacityPerRoute := max capacity 1 }

/-- `DesktopDeepLinkRouter::new`. -/
def Router.new (scheme : String) : Router H :=
  .withPendingCapacity scheme defaultPendingCapacityPerRoute

/-- The steps that the calls on a router take, in whatever order. -/
inductive Event (H : Type)
  | register (route : Route)
  | attach (route : Route) (handler : H)
  | drain (route : Route)
  | handle (route : Route) (error : Option HandlerError)
  | dispatch (url : Url) (source : Source)
  | deliver (route : Route) (index : Nat) (error : Option HandlerError)

/-- The entry of a route. -/
def isRoute (route : Route) (s : RouteState H) : Bool :=
  s.entry.route = route

/-- The entry that a link is for. -/
def isFor (url : Url) (s : RouteState H) : Bool :=
  some s.entry.route.host = url.host ∧ s.entry.route.path = url.path

/-- What an event does. -/
def step : Event H → Router H → Router H
  | .register route, r =>
    match registerRoute (r.routes.map (·.entry.route)) route with
    | .ok () => { r with routes := r.routes ++ [{ entry := { route } }] }
    | .error _ => r
  | .attach route handler, r => { r with routes := modifyFirst (isRoute route) (·.attach handler) r.routes }
  | .drain route, r => { r with routes := modifyFirst (isRoute route) (·.drain) r.routes }
  | .handle route error, r => { r with routes := modifyFirst (isRoute route) (·.handle error) r.routes }
  | .deliver route index error, r =>
    { r with routes := modifyFirst (isRoute route) (·.deliver index error) r.routes }
  | .dispatch url source, r =>
    match validateStructure r.scheme url with
    | some _ => { r with next := r.next + 1 }
    | none =>
      { r with
        next := r.next + 1
        routes := modifyFirst (isFor url)
          (fun s ↦ s.dispatch r.pendingCapacityPerRoute ⟨s.entry.route, source, url, r.next⟩) r.routes }

end DeepLink
