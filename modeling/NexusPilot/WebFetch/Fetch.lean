import NexusPilot.WebFetch.Address

/-!
# The connections of a fetch

`fetchPublicResponse` follows the redirects of a page. Before each request it looks at the host of the URL and at what the
name resolves to, and the connection itself resolves the name once more: what it is handed then is looked at again, so it
does not matter whether the resolver answers the same.

The resolver, the HTTP client and the reading of URLs are a `World`. A client is **honest** if it connects to nothing but
the addresses that it was handed, or to the address that the URL names. **`connections_safe`** says that then no address
is reached that the access scope denies, along any chain of redirects.
-/

namespace WebFetch

/-! ### Results -/

inductive NetworkAccessScope
  | publicOnly | localAndPublic
  deriving DecidableEq

/-- A parsed URL, with the text that `toString` gives. -/
structure Url where
  protocol : String
  hostname : List Char
  href : String
  deriving DecidableEq

/-- The details of an error. -/
inductive ErrorDetails
  | none
  | url (href : String)
  | hostname (hostname : List Char)
  /-- `networkAccessScopeDeniedDetails`. -/
  | accessScopeDenied
  | response (status : ℕ) (href : String)
  | redirects (redirects : ℕ) (href : Option String)
  /-- What `getAbortErrorDetails` says. -/
  | aborted (reason : String)
  deriving DecidableEq

/-- What `errorResult` is given. -/
structure FetchError where
  code : String
  message : String
  retryable : Bool
  details : ErrorDetails := .none
  deriving DecidableEq

/-- `networkAccessScopeDeniedResult`. -/
def networkAccessScopeDeniedResult : FetchError :=
  ⟨"NETWORK_ACCESS_SCOPE_DENIED", "当前网络访问范围设为“仅公网”，不能访问本地或私有网络目标。", false, .accessScopeDenied⟩

/-! ### Validation -/

/-- `canUseTunFakeIp` of a host name. -/
def canUseTunFakeIp (normalizedHostname : List Char) : Bool :=
  isIP normalizedHostname = 0 ∧ '.' ∈ normalizedHostname ∧ normalizedHostname ≠ "localhost".toList ∧
    ¬ ".localhost".toList <:+ normalizedHostname

/-- `validateResolvedAddresses`. -/
def validateResolvedAddresses (scope : NetworkAccessScope) (hostname : List Char) (addresses : List (List Char)) :
    Option FetchError :=
  if addresses = [] then
    some ⟨"NETWORK_ERROR", "Hostname did not resolve to an address", false, .hostname hostname⟩
  else
    let normalizedHostname := normalizeHostname hostname
    if scope = .localAndPublic then none
    else
      let blockedAddress := addresses.find? fun address ↦
        isBlockedWebFetchHostname address && !(canUseTunFakeIp normalizedHostname && isTunFakeIpAddress address)
      if blockedAddress.isSome then some networkAccessScopeDeniedResult else none

/-- `validatePublicHttpUrl`, with what the resolver answers. -/
def validatePublicHttpUrl (scope : NetworkAccessScope) (url : Url)
    (resolveAddress : List Char → Except String (List (List Char))) : Option FetchError :=
  if url.protocol ≠ "http:" ∧ url.protocol ≠ "https:" then
    some ⟨"VALIDATION_ERROR", "Only http and https URLs are supported", false, .url url.href⟩
  else
    let hostname := normalizeHostname url.hostname
    if scope = .publicOnly ∧ isBlockedWebFetchHostname hostname = true then some networkAccessScopeDeniedResult
    else if isIP hostname ≠ 0 then none
    else
      match resolveAddress hostname with
      | .error message => some ⟨"NETWORK_ERROR", message, true, .hostname hostname⟩
      | .ok addresses =>
        if addresses = [] then
          some ⟨"NETWORK_ERROR", "Hostname did not resolve to an address", false, .hostname hostname⟩
        else validateResolvedAddresses scope hostname addresses

/-! ### One request -/

/-- An address that is connected to, and the name that it was resolved from. -/
structure Target where
  hostname : List Char
  address : List Char
  deriving DecidableEq

/-- What the HTTP client does: it calls `lookup`, for which the resolver has an answer, and opens connections. -/
inductive ClientStep
  | lookup (hostname : List Char) (all : Bool) (answer : Except String (List (List Char)))
  | connect (target : Target)

/-- How a request ends. -/
inductive ClientEnd
  | response (status : ℕ) (location : Option String)
  /-- The `error` event, with the reason of the abort if the signal is aborted. -/
  | error (message : String) (aborted : Option String)

/-- What the client does for one request. -/
structure Exchange where
  steps : List ClientStep
  ending : ClientEnd

/-- The state of a request. -/
structure ClientState where
  /-- What the callbacks of `lookup` were handed. -/
  handed : List Target := []
  connectionValidationError : Option FetchError := none
  connections : List Target := []

/-- The callback of `createWebFetchLookup`, and a connection. -/
def ClientState.step (scope : NetworkAccessScope) (state : ClientState) : ClientStep → ClientState
  | .lookup _ _ (.error _) => state
  | .lookup hostname all (.ok addresses) =>
    let normalized := normalizeHostname hostname
    match validateResolvedAddresses scope normalized addresses with
    | some validationError => { state with connectionValidationError := some validationError }
    | none =>
      { state with handed := state.handed ++ (if all then addresses else addresses.take 1).map (⟨normalized, ·⟩) }
  | .connect target => { state with connections := state.connections ++ [target] }

structure Response where
  status : ℕ
  location : Option String
  /-- `response.url`, if it is not empty. -/
  url : Option Url
  deriving DecidableEq

/-- `fetchWithValidatedConnection`, and the connections that were opened. -/
def fetchWithValidatedConnection (scope : NetworkAccessScope) (exchange : Exchange) :
    Except FetchError Response × List Target :=
  let state := exchange.steps.foldl (ClientState.step scope) {}
  let fetched :=
    match exchange.ending with
    | .response status location => .ok ⟨status, location, none⟩
    | .error message aborted =>
      match state.connectionValidationError, aborted with
      | some error, _ => .error error
      | none, some reason => .error ⟨"TIMEOUT", reason, false, .aborted reason⟩
      | none, none => .error ⟨"NETWORK_ERROR", message, true, .none⟩
  (fetched, state.connections)

/-! ### Redirects -/

/-- `isRedirectStatus`. -/
def isRedirectStatus (status : ℕ) : Bool :=
  status = 301 || status = 302 || status = 303 || status = 307 || status = 308

/-- What a fetch gives. -/
inductive FetchResult
  | response (response : Response) (finalUrl : Url)
  | error (error : FetchError)
  /-- A redirect to something that is no URL throws. -/
  | thrown
  deriving DecidableEq

/-- A fetch: the URLs that were requested, the connections and the result. -/
structure FetchRun where
  requests : List Url
  connections : List Target
  result : FetchResult

/-- What is outside of the program. -/
structure World where
  /-- The answer to the `n`-th question before a request. -/
  resolveAddress : ℕ → List Char → Except String (List (List Char))
  /-- What the client does for the `n`-th request. -/
  client : ℕ → Url → Exchange
  /-- `new URL(location, base)`. -/
  parseUrl : String → Url → Option Url

/-- The loop of `fetchPublicResponse` behind its request: what is done with the response, where `follow` goes on with the
next round. -/
def followResponse (world : World) (scope : NetworkAccessScope) (maxRedirects redirectCount : ℕ) (currentUrl : Url)
    (follow : Url → FetchRun) : Except FetchError Response → FetchRun
  | .error error => ⟨[], [], .error error⟩
  | .ok response =>
    let responseUrl := response.url.getD currentUrl
    let responseUrlValidationError :=
      if response.url.isSome ∧ responseUrl.href ≠ currentUrl.href then
        validatePublicHttpUrl scope responseUrl (world.resolveAddress (2 * redirectCount + 1))
      else none
    match responseUrlValidationError with
    | some error => ⟨[], [], .error error⟩
    | none =>
      if isRedirectStatus response.status = false then ⟨[], [], .response response responseUrl⟩
      else
        match response.location.filter (· ≠ "") with
        | none =>
          ⟨[], [], .error ⟨"HTTP_ERROR", "Redirect response is missing a Location header", false,
            .response response.status responseUrl.href⟩⟩
        | some location =>
          if redirectCount = maxRedirects then
            ⟨[], [], .error ⟨"HTTP_ERROR", "web_fetch exceeded the redirect limit", false,
              .redirects redirectCount (some responseUrl.href)⟩⟩
          else
            match world.parseUrl location responseUrl with
            | none => ⟨[], [], .thrown⟩
            | some url => follow url

/-- The loop of `fetchPublicResponse`, with the rounds that are left. -/
def fetchRounds (world : World) (scope : NetworkAccessScope) (maxRedirects : ℕ) : ℕ → ℕ → Url → FetchRun
  | 0, _, _ =>
    ⟨[], [], .error ⟨"HTTP_ERROR", "web_fetch exceeded the redirect limit", false, .redirects maxRedirects none⟩⟩
  | left + 1, redirectCount, currentUrl =>
    match validatePublicHttpUrl scope currentUrl (world.resolveAddress (2 * redirectCount)) with
    | some error => ⟨[], [], .error error⟩
    | none =>
      let fetched := fetchWithValidatedConnection scope (world.client redirectCount currentUrl)
      let rest := followResponse world scope maxRedirects redirectCount currentUrl
        (fetchRounds world scope maxRedirects left (redirectCount + 1)) fetched.1
      ⟨currentUrl :: rest.requests, fetched.2 ++ rest.connections, rest.result⟩

/-- `fetchPublicResponse`, with `fetchWithValidatedConnection`. -/
def fetchPublicResponse (world : World) (scope : NetworkAccessScope) (maxRedirects : ℕ) (url : Url) : FetchRun :=
  fetchRounds world scope maxRedirects (maxRedirects + 1) 0 url

/-! ### Safety -/

/-- The address is not blocked, or a fake address of a dotted name that is not local. -/
def Target.Safe (target : Target) : Prop :=
  isBlockedWebFetchHostname target.address = false ∨
    (canUseTunFakeIp (normalizeHostname target.hostname) = true ∧ isTunFakeIpAddress target.address = true)

/-- The address that the URL names. -/
def Url.Names (url : Url) (target : Target) : Prop :=
  isIP (normalizeHostname url.hostname) ≠ 0 ∧ target.address = normalizeHostname url.hostname

/-- The client connects to what it was handed, or to the address that the URL names. -/
def Honest (scope : NetworkAccessScope) (url : Url) : ClientState → List ClientStep → Prop
  | _, [] => True
  | state, step :: steps =>
    (match step with
      | .lookup .. => True
      | .connect target => target ∈ state.handed ∨ url.Names target) ∧
      Honest scope url (state.step scope step) steps

/-- The client is honest in each request. -/
def World.Honest (world : World) (scope : NetworkAccessScope) : Prop :=
  ∀ n url, WebFetch.Honest scope url {} (world.client n url).steps

variable {world : World} {url : Url}

/-- **Resolved addresses** that are let through are safe. -/
theorem safe_of_validateResolvedAddresses {hostname : List Char} {addresses : List (List Char)}
    (h : validateResolvedAddresses .publicOnly hostname addresses = none) {address : List Char}
    (haddress : address ∈ addresses) : Target.Safe ⟨hostname, address⟩ := by
  unfold validateResolvedAddresses at h
  split at h
  · cases h
  dsimp only at h
  rw [if_neg (by decide)] at h
  split at h
  · cases h
  next hfound =>
  rw [Option.not_isSome_iff_eq_none, List.find?_eq_none] at hfound
  have haccepted := hfound address haddress
  rw [Bool.and_eq_true, Bool.not_eq_true', not_and_or, Bool.not_eq_true, Bool.not_eq_false, Bool.and_eq_true] at haccepted
  exact haccepted

variable {resolveAddress : List Char → Except String (List (List Char))}

/-- An address that the URL names is safe if the URL is let through. -/
theorem safe_of_names {target : Target} (h : validatePublicHttpUrl .publicOnly url resolveAddress = none)
    (hnames : url.Names target) : target.Safe := by
  obtain ⟨-, haddress⟩ := hnames
  unfold validatePublicHttpUrl at h
  split at h
  · cases h
  dsimp only at h
  split at h
  · cases h
  next hblocked =>
  left
  rw [haddress]
  exact Bool.eq_false_iff.2 fun hblocked' ↦ hblocked ⟨rfl, hblocked'⟩

theorem protocol_of_validatePublicHttpUrl {scope : NetworkAccessScope}
    (h : validatePublicHttpUrl scope url resolveAddress = none) :
    url.protocol = "http:" ∨ url.protocol = "https:" := by
  unfold validatePublicHttpUrl at h
  split at h
  · cases h
  · next hprotocol =>
    rw [not_and_or, not_not, not_not] at hprotocol
    exact hprotocol

/-- What was handed out and what was connected to is safe. -/
structure ClientState.Safe (state : ClientState) : Prop where
  handed : ∀ target ∈ state.handed, target.Safe
  connections : ∀ target ∈ state.connections, target.Safe

theorem safe_start : ClientState.Safe {} :=
  ⟨fun _ h ↦ absurd h List.not_mem_nil, fun _ h ↦ absurd h List.not_mem_nil⟩

/-- **A step of an honest client** keeps to safe addresses. -/
theorem ClientState.Safe.step {state : ClientState} (hsafe : state.Safe) {step : ClientStep}
    (hconnect : ∀ target, step = .connect target → target.Safe) : (state.step .publicOnly step).Safe := by
  cases step with
  | connect target =>
    refine ⟨hsafe.handed, fun other hother ↦ ?_⟩
    obtain hother | hother := List.mem_append.1 hother
    · exact hsafe.connections other hother
    · rw [List.mem_singleton.1 hother]
      exact hconnect target rfl
  | lookup hostname all answer =>
    cases answer with
    | error message => exact hsafe
    | ok addresses =>
      show ClientState.Safe (match validateResolvedAddresses .publicOnly (normalizeHostname hostname) addresses with
        | some validationError => _
        | none => _)
      split
      · exact ⟨hsafe.handed, hsafe.connections⟩
      · next hvalid =>
        refine ⟨fun target htarget ↦ ?_, hsafe.connections⟩
        obtain htarget | htarget := List.mem_append.1 htarget
        · exact hsafe.handed target htarget
        · obtain ⟨address, haddress, rfl⟩ := List.mem_map.1 htarget
          refine safe_of_validateResolvedAddresses hvalid ?_
          split at haddress
          · exact haddress
          · exact List.mem_of_mem_take haddress

/-- **A request of an honest client** connects to safe addresses, whatever the resolver answers. -/
theorem ClientState.Safe.run {state : ClientState} (hsafe : state.Safe) {steps : List ClientStep}
    (hnames : ∀ target, url.Names target → target.Safe) (hhonest : Honest .publicOnly url state steps) :
    (steps.foldl (ClientState.step .publicOnly) state).Safe := by
  induction steps generalizing state with
  | nil => exact hsafe
  | cons step steps ih =>
    obtain ⟨hstep, hrest⟩ := hhonest
    refine ih (hsafe.step fun target htarget ↦ ?_) hrest
    rw [htarget] at hstep
    exact hstep.elim (hsafe.handed target) (hnames target)

/-- What a fetch may have done. -/
structure FetchRun.Within (run : FetchRun) (rounds : ℕ) : Prop where
  connections : ∀ target ∈ run.connections, target.Safe
  requests : ∀ url ∈ run.requests, url.protocol = "http:" ∨ url.protocol = "https:"
  length : run.requests.length ≤ rounds

theorem within_of_result (result : FetchResult) (rounds : ℕ) : FetchRun.Within ⟨[], [], result⟩ rounds :=
  ⟨nofun, nofun, Nat.zero_le rounds⟩

theorem within_followResponse {scope : NetworkAccessScope} {maxRedirects redirectCount rounds : ℕ}
    {follow : Url → FetchRun} (hfollow : ∀ url, (follow url).Within rounds) (fetched : Except FetchError Response) :
    (followResponse world scope maxRedirects redirectCount url follow fetched).Within rounds := by
  fun_cases followResponse world scope maxRedirects redirectCount url follow fetched with
  | case7 => exact hfollow _
  | _ => exact within_of_result _ _

/-- **The rounds that are left** bound the requests, and each of them keeps to safe addresses. -/
theorem within_fetchRounds (hhonest : world.Honest .publicOnly) (maxRedirects left redirectCount : ℕ) (url : Url) :
    (fetchRounds world .publicOnly maxRedirects left redirectCount url).Within left := by
  induction left generalizing redirectCount url with
  | zero => exact within_of_result _ 0
  | succ left ih =>
    unfold fetchRounds
    split
    · exact within_of_result _ _
    next hvalid =>
    have hclient : ((world.client redirectCount url).steps.foldl (ClientState.step .publicOnly) {}).Safe :=
      safe_start.run (fun target hnames ↦ safe_of_names hvalid hnames) (hhonest redirectCount url)
    have hrest := @within_followResponse world url .publicOnly maxRedirects redirectCount left _
      (ih (redirectCount + 1)) (fetchWithValidatedConnection .publicOnly (world.client redirectCount url)).1
    refine ⟨fun target htarget ↦ ?_, ?_, Nat.succ_le_succ hrest.length⟩
    · obtain htarget | htarget := List.mem_append.1 htarget
      · exact hclient.connections target htarget
      · exact hrest.connections target htarget
    · exact List.forall_mem_cons.2 ⟨protocol_of_validatePublicHttpUrl hvalid, hrest.requests⟩

/-- **No denied address is reached.** With an honest client, each connection goes to an address that is not blocked, or to
a fake address of a dotted name that is not local; no request goes past the limit or to another scheme. -/
theorem connections_safe (hhonest : world.Honest .publicOnly) (maxRedirects : ℕ) (url : Url) :
    (fetchPublicResponse world .publicOnly maxRedirects url).Within (maxRedirects + 1) :=
  within_fetchRounds hhonest maxRedirects (maxRedirects + 1) 0 url

namespace Sample

def page (hostname : String) : Url :=
  ⟨"https:", hostname.toList, "https://" ++ hostname ++ "/"⟩

/-- The client looks the host up and connects to the address that it is handed; the first page redirects to another. -/
def redirecting : World where
  resolveAddress _ _ := .ok ["198.51.101.7".toList]
  client n url :=
    { steps := [.lookup url.hostname false (.ok ["198.51.101.7".toList]),
        .connect ⟨normalizeHostname url.hostname, "198.51.101.7".toList⟩]
      ending := .response (if n = 0 then 302 else 200) (some "https://other.example/") }
  parseUrl _ _ := some (page "other.example")

theorem honest_redirecting : redirecting.Honest .publicOnly := by
  intro n url
  have hvalid (hostname : List Char) :
      validateResolvedAddresses .publicOnly hostname ["198.51.101.7".toList] = none := by
    have hfree : isBlockedWebFetchHostname "198.51.101.7".toList = false := by decide +kernel
    unfold validateResolvedAddresses
    rw [if_neg (List.cons_ne_nil _ _)]
    dsimp only
    rw [if_neg (by decide), List.find?_cons, hfree]
    rfl
  refine ⟨trivial, Or.inl ?_, trivial⟩
  unfold ClientState.step
  dsimp only
  rw [hvalid]
  exact List.mem_singleton_self _

end Sample

open Sample in
theorem connections_safe_redirecting :
    (fetchPublicResponse redirecting .publicOnly 5 (page "first.example")).requests =
        [page "first.example", page "other.example"] ∧
      (fetchPublicResponse redirecting .publicOnly 5 (page "first.example")).Within 6 :=
  ⟨by decide +kernel, connections_safe honest_redirecting 5 (page "first.example")⟩

end WebFetch
