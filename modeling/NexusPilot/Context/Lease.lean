import NexusPilot.Context.Planner
import NexusPilot.Drivers.Error
import NexusPilot.Machine.Holder
import NexusPilot.Machine.Run

/-!
# Leases on a preparation

Several processes may prepare the context of one request of a run. Each claims the preparation first; a claim
expires, and then another one takes it over. What is written, a plan or a checkpoint, is written under a claim, in a
transaction that first looks whether the claim is still in its row and has not expired.

A row is matched by the hash of the request, the owner and a fencing token, which counts the take-overs since the
row was inserted. The clock is read anew by each operation and may say anything.
-/

namespace Context.Lease

open Machine

open Drivers (bind_eq_ok_iff ite_error_eq_ok_iff)

/-! ### Claims -/

/-- What a row is matched by. -/
structure ContextPreparationClaimRelease where
  runId : String
  requestIndex : Int
  requestHash : String
  ownerId : String
  fencingToken : Int
  deriving DecidableEq

structure ContextPreparationClaim extends ContextPreparationClaimRelease where
  claimedAt : Int
  expiresAt : Int
  deriving DecidableEq

structure ContextPreparationClaimRequest where
  runId : String
  requestIndex : Int
  requestHash : String
  ownerId : String
  ttlMs : Int
  deriving DecidableEq

/-- The request of a run whose context is prepared. -/
abbrev RequestKey := String × Int

def ContextPreparationClaimRelease.key (claim : ContextPreparationClaimRelease) : RequestKey :=
  (claim.runId, claim.requestIndex)

/-- What a plan says of the request that it is for. -/
structure PlanKey where
  id : String
  runId : String
  requestIndex : Int
  requestHash : String
  deriving DecidableEq

/-- What a checkpoint says of the run that it was made in. -/
structure CheckpointKey where
  id : String
  sourceHeadRunId : String
  deriving DecidableEq

structure Store where
  /-- The identifiers of `runtime_runs`. -/
  runs : List String
  claims : Table RequestKey ContextPreparationClaim := ∅
  plans : List PlanKey := []
  checkpoints : List CheckpointKey := []

/-! ### Checks -/

/-- `Number.isSafeInteger`. -/
def isSafeInteger (value : Int) : Bool :=
  -(maxSafeInteger : Int) ≤ value ∧ value ≤ maxSafeInteger

/-- `isSha256`. -/
def isSha256 (value : String) : Bool :=
  let digest := value.toList.drop 7
  value.toList.take 7 = "sha256:".toList ∧ digest.length = 64 ∧
    digest.all (fun c ↦ c.isDigit || ('a' ≤ c && c ≤ 'f')) = true

/-- `assertContextPreparationRequestKey`. -/
def assertContextPreparationRequestKey (runId : String) (requestIndex : Int) : Except String Unit :=
  if runId.toList.take 4 ≠ "run_".toList ∨ isSafeInteger requestIndex = false ∨ requestIndex < 0 then
    .error "Context preparation claim request key is invalid"
  else .ok ()

/-- `assertContextPreparationClaimRequest`. -/
def assertContextPreparationClaimRequest (request : ContextPreparationClaimRequest) : Except String Unit := do
  assertContextPreparationRequestKey request.runId request.requestIndex
  if isSha256 request.requestHash = false ∨ request.ownerId = "" ∨ isSafeInteger request.ttlMs = false ∨
      request.ttlMs ≤ 0 then
    .error "Context preparation claim request is invalid"
  else .ok ()

/-- `assertContextPreparationClaim`. -/
def assertContextPreparationClaim (claim : ContextPreparationClaim) : Except String Unit := do
  assertContextPreparationRequestKey claim.runId claim.requestIndex
  if isSha256 claim.requestHash = false ∨ claim.ownerId = "" ∨ isSafeInteger claim.fencingToken = false ∨
      claim.fencingToken < 1 ∨ isSafeInteger claim.claimedAt = false ∨ claim.claimedAt < 0 ∨
      isSafeInteger claim.expiresAt = false ∨ claim.expiresAt ≤ claim.claimedAt then
    .error "Context preparation claim is invalid"
  else .ok ()

/-- `contextPreparationNow`, from what the clock says. -/
def contextPreparationNow (now : Int) : Except String Int :=
  if isSafeInteger now = false ∨ now < 0 then .error "Context preparation clock is invalid" else .ok now

/-- The end of a lease. -/
def expiry (now ttlMs : Int) : Except String Int :=
  if isSafeInteger (now + ttlMs) = false then .error "Context preparation claim expiry is invalid"
  else .ok (now + ttlMs)

/-! ### The five operations -/

/-- What an operation returns. -/
inductive Outcome
  | acquired (claim : ContextPreparationClaim)
  | inProgress (claim : ContextPreparationClaim)
  | conflict (claim : ContextPreparationClaim)
  | renewed (changed : Bool)
  /-- The claim that `releaseContextPreparationClaim` deleted, if it did. -/
  | released (claim : Option ContextPreparationClaimRelease)
  | planSaved
  | committed
  | stale
  | threw (message : String)
  deriving DecidableEq

/-- `claimContextPreparation`. -/
def claimContextPreparation (s : Store) (request : ContextPreparationClaimRequest) (now : Int) :
    Except String (Outcome × Store) := do
  assertContextPreparationClaimRequest request
  if request.runId ∉ s.runs then
    .error ("Context preparation claim Run was not found: " ++ request.runId)
  else
    let claimedAt ← contextPreparationNow now
    let expiresAt ← expiry claimedAt request.ttlMs
    let key : RequestKey := (request.runId, request.requestIndex)
    let claim (fencingToken : Int) : ContextPreparationClaim :=
      { request with fencingToken, claimedAt, expiresAt }
    match s.claims.lookup key with
    | none => .ok (.acquired (claim 1), { s with claims := s.claims.insert key (claim 1) })
    | some existing =>
      if existing.requestHash ≠ request.requestHash then .ok (.conflict existing, s)
      else if existing.expiresAt > claimedAt then .ok (.inProgress existing, s)
      else
        let acquired := claim (existing.fencingToken + 1)
        .ok (.acquired acquired, { s with claims := s.claims.insert key acquired })

/-- The row that a claim matches. -/
def matchingRow (s : Store) (claim : ContextPreparationClaimRelease) : Option ContextPreparationClaim :=
  (s.claims.lookup claim.key).filter fun row ↦
    row.requestHash = claim.requestHash ∧ row.ownerId = claim.ownerId ∧ row.fencingToken = claim.fencingToken

/-- What `renewContextPreparationClaim` and `releaseContextPreparationClaim` check. -/
def assertRelease (claim : ContextPreparationClaimRelease) (message : String) : Except String Unit := do
  assertContextPreparationRequestKey claim.runId claim.requestIndex
  if isSha256 claim.requestHash = false ∨ claim.ownerId = "" ∨ isSafeInteger claim.fencingToken = false ∨
      claim.fencingToken < 1 then .error message
  else .ok ()

/-- `renewContextPreparationClaim`. -/
def renewContextPreparationClaim (s : Store) (claim : ContextPreparationClaimRelease) (ttlMs now : Int) :
    Except String (Outcome × Store) := do
  assertRelease claim "Context preparation claim renewal is invalid"
  if isSafeInteger ttlMs = false ∨ ttlMs ≤ 0 then .error "Context preparation claim renewal is invalid"
  else
    let renewedAt ← contextPreparationNow now
    let expiresAt ← expiry renewedAt ttlMs
    match (matchingRow s claim).filter (renewedAt < ·.expiresAt) with
    | none => .ok (.renewed false, s)
    | some row =>
      .ok (.renewed true,
        { s with claims := s.claims.insert claim.key { row with expiresAt := max row.expiresAt expiresAt } })

/-- `releaseContextPreparationClaim`. -/
def releaseContextPreparationClaim (s : Store) (claim : ContextPreparationClaimRelease) :
    Except String (Outcome × Store) := do
  assertRelease claim "Context preparation claim release is invalid"
  if (matchingRow s claim).isSome then
    .ok (.released (some claim), { s with claims := s.claims.erase claim.key })
  else .ok (.released none, s)

/-- The message of `ContextPreparationLeaseLostError`. -/
def leaseLost (runId : String) (requestIndex : Int) : String :=
  "Context preparation lease is expired or superseded: " ++ runId ++ "/" ++ toString requestIndex

/-- `assertActiveContextPreparationClaim`. -/
def assertActiveContextPreparationClaim (s : Store) (claim : ContextPreparationClaim) (now : Int) :
    Except String Unit := do
  assertContextPreparationClaim claim
  let now ← contextPreparationNow now
  match (matchingRow s claim.toContextPreparationClaimRelease).filter (now < ·.expiresAt) with
  | some _ => .ok ()
  | none => .error (leaseLost claim.runId claim.requestIndex)

/-- `saveContextPlan`. `rest` is what the checks of the other tables say, and the insertion into them. -/
def saveContextPlan (s : Store) (plan : PlanKey) (preparationClaim : ContextPreparationClaim) (now : Int)
    (rest : Except String Unit) : Except String (Outcome × Store) := do
  assertActiveContextPreparationClaim s preparationClaim now
  if preparationClaim.runId ≠ plan.runId ∨ preparationClaim.requestIndex ≠ plan.requestIndex ∨
      preparationClaim.requestHash ≠ plan.requestHash then
    .error (leaseLost plan.runId plan.requestIndex)
  else
    rest
    .ok (.planSaved, { s with plans := s.plans ++ [plan] })

/-- `commitContextCheckpoint`. `rest` is what the checks of the other tables say: whether the checkpoint is
current, or an error. -/
def commitContextCheckpoint (s : Store) (checkpoint : CheckpointKey) (preparationClaim : ContextPreparationClaim)
    (now : Int) (rest : Except String Bool) : Except String (Outcome × Store) := do
  assertActiveContextPreparationClaim s preparationClaim now
  if preparationClaim.runId ≠ checkpoint.sourceHeadRunId then
    .error (leaseLost preparationClaim.runId preparationClaim.requestIndex)
  else if ← rest then .ok (.committed, { s with checkpoints := s.checkpoints ++ [checkpoint] })
  else .ok (.stale, s)

/-! ### Runs -/

/-- An operation, with the reading of the clock that it finds. -/
inductive Event
  | claim (request : ContextPreparationClaimRequest) (now : Int)
  | renew (claim : ContextPreparationClaimRelease) (ttlMs now : Int)
  | release (claim : ContextPreparationClaimRelease)
  | savePlan (plan : PlanKey) (claim : ContextPreparationClaim) (now : Int) (rest : Except String Unit)
  | commit (checkpoint : CheckpointKey) (claim : ContextPreparationClaim) (now : Int) (rest : Except String Bool)

/-- One operation. An error leaves the store as it was. -/
def perform (s : Store) : Event → Except String (Outcome × Store)
  | .claim request now => claimContextPreparation s request now
  | .renew claim ttlMs now => renewContextPreparationClaim s claim ttlMs now
  | .release claim => releaseContextPreparationClaim s claim
  | .savePlan plan claim now rest => saveContextPlan s plan claim now rest
  | .commit checkpoint claim now rest => commitContextCheckpoint s checkpoint claim now rest

def outcome (s : Store) (event : Event) : Outcome :=
  match perform s event with
  | .ok (outcome, _) => outcome
  | .error message => .threw message

/-- What an outcome says of the preparation of a request. -/
def Outcome.handovers : Outcome → List (RequestKey × Handover ContextPreparationClaimRelease)
  | .acquired claim => [(claim.key, .acquired claim.toContextPreparationClaimRelease)]
  | .released (some claim) => [(claim.key, .released)]
  | _ => []

/-- The store, and what was acquired and released so far. -/
structure State where
  store : Store
  history : List (RequestKey × Handover ContextPreparationClaimRelease) := []

def step (event : Event) (s : State) : State where
  store :=
    match perform s.store event with
    | .ok (_, store) => store
    | .error _ => s.store
  history := s.history ++ (outcome s.store event).handovers

/-- The acquisitions and releases of one request. -/
def State.historyOf (s : State) (key : RequestKey) : List (Handover ContextPreparationClaimRelease) :=
  (s.history.filter (·.1 = key)).map (·.2)

/-- **The claim that was acquired last and not released.** -/
def State.holder (s : State) (key : RequestKey) : Option ContextPreparationClaimRelease :=
  Machine.holder (s.historyOf key)

/-! ### What an operation does to the claims -/

/-- Everything that one operation does to the claims, and what its outcome says of it. -/
inductive Effect (s s' : Store) : Outcome → Prop
  | kept {outcome : Outcome} (hclaims : s'.claims = s.claims) (hquiet : outcome.handovers = []) :
    Effect s s' outcome
  | acquired (claim : ContextPreparationClaim) (hclaims : s'.claims = s.claims.insert claim.key claim) :
    Effect s s' (.acquired claim)
  | renewed {row : ContextPreparationClaim} {key : RequestKey} {expiresAt : Int}
    (hrow : s.claims.lookup key = some row)
    (hclaims : s'.claims = s.claims.insert key { row with expiresAt }) : Effect s s' (.renewed true)
  | released (claim : ContextPreparationClaimRelease) (hclaims : s'.claims = s.claims.erase claim.key) :
    Effect s s' (.released (some claim))

variable {s s' : Store} {result : Outcome}

variable {now : Int} {event : Event}

theorem effect_claim {request : ContextPreparationClaimRequest}
    (h : claimContextPreparation s request now = .ok (result, s')) : Effect s s' result := by
  unfold claimContextPreparation at h
  obtain ⟨-, -, h⟩ := bind_eq_ok_iff.1 h
  obtain ⟨-, h⟩ := ite_error_eq_ok_iff.1 h
  obtain ⟨claimedAt, -, h⟩ := bind_eq_ok_iff.1 h
  obtain ⟨expiresAt, -, h⟩ := bind_eq_ok_iff.1 h
  dsimp only at h
  split at h
  · cases h
    exact .acquired _ rfl
  · split at h
    · cases h
      exact .kept rfl rfl
    · split at h
      · cases h
        exact .kept rfl rfl
      · cases h
        exact .acquired _ rfl

theorem lookup_of_matchingRow {claim : ContextPreparationClaimRelease} {row : ContextPreparationClaim}
    (h : matchingRow s claim = some row) : s.claims.lookup claim.key = some row ∧
      row.requestHash = claim.requestHash ∧ row.ownerId = claim.ownerId ∧
        row.fencingToken = claim.fencingToken := by
  obtain ⟨hrow, hsame⟩ := Option.filter_eq_some_iff.1 h
  exact ⟨hrow, by simpa using hsame⟩

theorem effect_renew {claim : ContextPreparationClaimRelease} {ttlMs : Int}
    (h : renewContextPreparationClaim s claim ttlMs now = .ok (result, s')) : Effect s s' result := by
  unfold renewContextPreparationClaim at h
  obtain ⟨-, -, h⟩ := bind_eq_ok_iff.1 h
  obtain ⟨-, h⟩ := ite_error_eq_ok_iff.1 h
  obtain ⟨renewedAt, -, h⟩ := bind_eq_ok_iff.1 h
  obtain ⟨expiresAt, -, h⟩ := bind_eq_ok_iff.1 h
  split at h
  · cases h
    exact .kept rfl rfl
  · next row hrow =>
    cases h
    obtain ⟨hrow, -⟩ := Option.filter_eq_some_iff.1 hrow
    exact .renewed (lookup_of_matchingRow hrow).1 rfl

theorem effect_release {claim : ContextPreparationClaimRelease}
    (h : releaseContextPreparationClaim s claim = .ok (result, s')) : Effect s s' result := by
  unfold releaseContextPreparationClaim at h
  obtain ⟨-, -, h⟩ := bind_eq_ok_iff.1 h
  split at h
  · cases h
    exact .released claim rfl
  · cases h
    exact .kept rfl rfl

theorem effect_savePlan {plan : PlanKey} {claim : ContextPreparationClaim} {rest : Except String Unit}
    (h : saveContextPlan s plan claim now rest = .ok (result, s')) : Effect s s' result := by
  unfold saveContextPlan at h
  obtain ⟨-, -, h⟩ := bind_eq_ok_iff.1 h
  obtain ⟨-, h⟩ := ite_error_eq_ok_iff.1 h
  obtain ⟨-, -, h⟩ := bind_eq_ok_iff.1 h
  cases h
  exact .kept rfl rfl

theorem effect_commit {checkpoint : CheckpointKey} {claim : ContextPreparationClaim}
    {rest : Except String Bool} (h : commitContextCheckpoint s checkpoint claim now rest = .ok (result, s')) :
    Effect s s' result := by
  unfold commitContextCheckpoint at h
  obtain ⟨-, -, h⟩ := bind_eq_ok_iff.1 h
  obtain ⟨-, h⟩ := ite_error_eq_ok_iff.1 h
  obtain ⟨current, -, h⟩ := bind_eq_ok_iff.1 h
  cases current with
  | true =>
    cases h
    exact .kept rfl rfl
  | false =>
    cases h
    exact .kept rfl rfl

theorem effect_perform (h : perform s event = .ok (result, s')) : Effect s s' result := by
  cases event with
  | claim request now => exact effect_claim h
  | renew claim ttlMs now => exact effect_renew h
  | release claim => exact effect_release h
  | savePlan plan claim now rest => exact effect_savePlan h
  | commit checkpoint claim now rest => exact effect_commit h

/-! ### The row is the holder's -/

/-- The row of each request is that of the claim that holds it. -/
def Held (s : State) : Prop :=
  ∀ key, (s.store.claims.lookup key).map (·.toContextPreparationClaimRelease) = s.holder key ∧
    ∀ row, s.store.claims.lookup key = some row → row.key = key

theorem holder_append_acquired (s : State) (store : Store) (claim : ContextPreparationClaim) (key : RequestKey) :
    State.holder ⟨store, s.history ++ (Outcome.acquired claim).handovers⟩ key =
      if key = claim.key then some claim.toContextPreparationClaimRelease else s.holder key := by
  unfold State.holder State.historyOf
  simp only [Outcome.handovers, List.filter_append, List.map_append]
  split
  · next hkey => simp [hkey]
  · next hkey => simp [Ne.symm hkey]

theorem holder_append_released (s : State) (store : Store) (claim : ContextPreparationClaimRelease)
    (key : RequestKey) :
    State.holder ⟨store, s.history ++ (Outcome.released (some claim)).handovers⟩ key =
      if key = claim.key then none else s.holder key := by
  unfold State.holder State.historyOf
  simp only [Outcome.handovers, List.filter_append, List.map_append]
  split
  · next hkey => simp [hkey]
  · next hkey => simp [Ne.symm hkey]

theorem Held.of_effect {s : State} (hheld : Held s) {store : Store} (heffect : Effect s.store store result) :
    Held ⟨store, s.history ++ result.handovers⟩ := by
  intro key
  obtain ⟨hholder, hkey⟩ := hheld key
  cases heffect with
  | kept hclaims hquiet =>
    rw [hquiet, List.append_nil]
    exact ⟨by rw [hclaims]; exact hholder, fun row hrow ↦ hkey row (hclaims ▸ hrow)⟩
  | acquired claim hclaims =>
    rw [holder_append_acquired, hclaims, Table.lookup_insert]
    split
    · next hsame => exact ⟨rfl, fun row hrow ↦ Option.some.inj hrow ▸ hsame.symm⟩
    · exact ⟨hholder, hkey⟩
  | @renewed row renewedKey expiresAt hrow hclaims =>
    rw [show (Outcome.renewed true).handovers = [] from rfl, List.append_nil, hclaims, Table.lookup_insert]
    split
    · next hsame =>
      rw [hsame] at hholder hkey
      rw [hrow] at hholder
      refine ⟨hsame ▸ hholder, fun found hfound ↦ ?_⟩
      rw [← Option.some.inj hfound, hsame]
      exact hkey row hrow
    · exact ⟨hholder, hkey⟩
  | released claim hclaims =>
    rw [holder_append_released, hclaims, Table.lookup_erase]
    split
    · exact ⟨rfl, fun row hrow ↦ nomatch hrow⟩
    · exact ⟨hholder, hkey⟩

theorem Held.step {s : State} (hheld : Held s) (event : Event) : Held (step event s) := by
  unfold Lease.step outcome
  cases hperform : perform s.store event with
  | ok found =>
    obtain ⟨result, store⟩ := found
    exact hheld.of_effect (effect_perform hperform)
  | error message =>
    have heffect : Effect s.store s.store (.threw message) := .kept rfl rfl
    exact hheld.of_effect heffect

/-- No claims, and nothing written. -/
def initial (runs : List String) : State :=
  ⟨⟨runs, ∅, [], []⟩, []⟩

theorem held_initial (runs : List String) : Held (initial runs) :=
  fun _ ↦ ⟨rfl, fun _ hrow ↦ nomatch hrow⟩

theorem held_run (runs : List String) (events : List Event) : Held (run step (initial runs) events) :=
  run_invariant_of_forall (fun _ event hheld ↦ hheld.step event) (held_initial runs) events

/-! ### Guarded writes -/

/-- The claim under which an event writes a plan or a checkpoint. -/
def Event.writes? : Event → Option ContextPreparationClaim
  | .savePlan _ writer _ _ | .commit _ writer _ _ => some writer
  | _ => none

/-- A plan or a checkpoint is written. -/
def Outcome.written : Outcome → Bool
  | .planSaved | .committed => true
  | _ => false

theorem matches_of_assertActive {claim : ContextPreparationClaim}
    (h : assertActiveContextPreparationClaim s claim now = .ok ()) :
    ∃ row, matchingRow s claim.toContextPreparationClaimRelease = some row := by
  unfold assertActiveContextPreparationClaim at h
  obtain ⟨-, -, h⟩ := bind_eq_ok_iff.1 h
  obtain ⟨now, -, h⟩ := bind_eq_ok_iff.1 h
  split at h
  · next row hrow => exact ⟨row, (Option.filter_eq_some_iff.1 hrow).1⟩
  · cases h

/-- A write finds its claim in the row. -/
theorem matches_of_written {claim : ContextPreparationClaim} (hclaim : event.writes? = some claim)
    (hwritten : (outcome s event).written = true) :
    ∃ row, matchingRow s claim.toContextPreparationClaimRelease = some row := by
  unfold outcome at hwritten
  cases hperform : perform s event with
  | error message =>
    rw [hperform] at hwritten
    cases hwritten
  | ok found =>
    cases event with
    | claim request now => cases hclaim
    | renew claim ttlMs now => cases hclaim
    | release claim => cases hclaim
    | savePlan plan claim' now rest =>
      obtain rfl := Option.some.inj hclaim
      obtain ⟨⟨⟩, hactive, -⟩ := bind_eq_ok_iff.1 hperform
      exact matches_of_assertActive hactive
    | commit checkpoint claim' now rest =>
      obtain rfl := Option.some.inj hclaim
      obtain ⟨⟨⟩, hactive, -⟩ := bind_eq_ok_iff.1 hperform
      exact matches_of_assertActive hactive

/-- The claim of a row that matches is the holder. -/
theorem Held.holder_of_matches {s : State} (hheld : Held s) {claim : ContextPreparationClaimRelease}
    {row : ContextPreparationClaim} (hrow : matchingRow s.store claim = some row) :
    s.holder claim.key = some claim := by
  obtain ⟨hlookup, hhash, howner, htoken⟩ := lookup_of_matchingRow hrow
  obtain ⟨hholder, hkey⟩ := hheld claim.key
  have hsame : row.toContextPreparationClaimRelease = claim := by
    have hkey := hkey row hlookup
    obtain ⟨hrun, hindex⟩ := Prod.mk.inj hkey
    obtain ⟨⟨runId, requestIndex, requestHash, ownerId, fencingToken⟩, claimedAt, expiresAt⟩ := row
    obtain ⟨runId', requestIndex', requestHash', ownerId', fencingToken'⟩ := claim
    simp_all
  rw [← hholder, hlookup, Option.map_some, hsame]

/-- The owners of acquisitions are different ones. -/
def DistinctOwners (history : List (Handover ContextPreparationClaimRelease)) : Prop :=
  (history.filterMap fun
    | .acquired claim => some claim.ownerId
    | .released => none).Nodup

theorem DistinctOwners.ne_of_after {before after : List (Handover ContextPreparationClaimRelease)}
    (h : DistinctOwners (before ++ after)) {first later : ContextPreparationClaimRelease}
    (hfirst : .acquired first ∈ before) (hlater : .acquired later ∈ after) : later.ownerId ≠ first.ownerId := by
  unfold DistinctOwners at h
  rw [List.filterMap_append, List.nodup_append] at h
  refine (h.2.2 _ (List.mem_filterMap.2 ⟨_, hfirst, rfl⟩) _ (List.mem_filterMap.2 ⟨_, hlater, rfl⟩)).symm

/-- Once another owner has acquired the request, a write succeeds only under a claim that was acquired after it. -/
theorem Held.acquired_after {s : State} (hheld : Held s) {claim : ContextPreparationClaim}
    (hclaim : event.writes? = some claim) (hwritten : (outcome s.store event).written = true)
    {before after : List (Handover ContextPreparationClaimRelease)} {second : ContextPreparationClaimRelease}
    (hhistory : s.historyOf claim.key = before ++ .acquired second :: after)
    (hother : second.ownerId ≠ claim.ownerId) :
    .acquired claim.toContextPreparationClaimRelease ∈ after := by
  obtain ⟨row, hrow⟩ := matches_of_written hclaim hwritten
  have hholder := hheld.holder_of_matches hrow
  unfold State.holder at hholder
  rw [hhistory] at hholder
  refine (eq_or_mem_of_holder hholder).resolve_left fun hsame ↦ hother ?_
  rw [← hsame]

/-- **Stale owners are excluded.** In every state that operations lead to, whatever the clock says: a plan or a
checkpoint is written only under the claim that was acquired last and was not released. Once another owner has
acquired the request, an owner that does not acquire it again never writes; so with a new owner for each claim,
the earlier ones never write. -/
theorem writes_of_holder (runs : List String) (events : List Event) (event : Event)
    (claim : ContextPreparationClaim) (hclaim : event.writes? = some claim) :
    let s := run step (initial runs) events
    ((outcome s.store event).written = true →
      s.holder claim.key = some claim.toContextPreparationClaimRelease) ∧
    (∀ before second after, s.historyOf claim.key = before ++ .acquired second :: after →
      second.ownerId ≠ claim.ownerId → (∀ later, .acquired later ∈ after → later.ownerId ≠ claim.ownerId) →
      (outcome s.store event).written = false) ∧
    (∀ before first second after, s.historyOf claim.key = before ++ .acquired second :: after →
      DistinctOwners (s.historyOf claim.key) → .acquired first ∈ before → first.ownerId = claim.ownerId →
      (outcome s.store event).written = false) := by
  have hheld := held_run runs events
  dsimp only
  generalize run step (initial runs) events = s at hheld ⊢
  refine ⟨fun hwritten ↦ ?_, fun before second after hhistory hother hlater ↦ ?_,
    fun before first second after hhistory hdistinct hfirst hsame ↦ ?_⟩
  · obtain ⟨row, hrow⟩ := matches_of_written hclaim hwritten
    exact hheld.holder_of_matches hrow
  · by_contra hwritten
    have hafter := hheld.acquired_after hclaim (by simpa using hwritten) hhistory hother
    exact hlater _ hafter rfl
  · rw [hhistory] at hdistinct
    by_contra hwritten
    have hsecond := hdistinct.ne_of_after hfirst (List.mem_cons_self ..)
    have hafter := hheld.acquired_after hclaim (by simpa using hwritten) hhistory (hsame ▸ hsecond)
    exact hdistinct.ne_of_after hfirst (List.mem_cons_of_mem _ hafter) hsame.symm

/-! ### A take-over -/

namespace Sample

def hash : String := "sha256:0000000000000000000000000000000000000000000000000000000000000000"

def request (ownerId : String) : ContextPreparationClaimRequest :=
  ⟨"run_1", 0, hash, ownerId, 10⟩

def claim (ownerId : String) (fencingToken claimedAt : Int) : ContextPreparationClaim :=
  ⟨⟨"run_1", 0, hash, ownerId, fencingToken⟩, claimedAt, claimedAt + 10⟩

/-- The second owner takes over an expired claim; then the clock goes back. -/
def takeOver : List Event :=
  [.claim (request "first") 0, .claim (request "second") 20]

def save (claim : ContextPreparationClaim) : Event :=
  .savePlan ⟨"plan_1", "run_1", 0, hash⟩ claim 5 (.ok ())

/-- The first owner cannot write, although its own claim has not expired by the clock; the second one can. -/
theorem takeOver_excludes_first :
    (outcome (run step (initial ["run_1"]) takeOver).store (save (claim "first" 1 0))).written = false ∧
    (outcome (run step (initial ["run_1"]) takeOver).store (save (claim "second" 2 20))).written = true ∧
    (run step (initial ["run_1"]) takeOver).holder ("run_1", 0) =
      some (claim "second" 2 20).toContextPreparationClaimRelease := by
  have hwritten : (outcome (run step (initial ["run_1"]) takeOver).store
      (save (claim "second" 2 20))).written = true := by
    decide
  have hhistory : (run step (initial ["run_1"]) takeOver).historyOf (claim "first" 1 0).key =
      [.acquired (claim "first" 1 0).toContextPreparationClaimRelease] ++
        .acquired (claim "second" 2 20).toContextPreparationClaimRelease :: [] := by
    decide
  have hdistinct : DistinctOwners
      ((run step (initial ["run_1"]) takeOver).historyOf (claim "first" 1 0).key) := by
    rw [hhistory]
    unfold DistinctOwners
    decide
  refine ⟨?_, hwritten, ?_⟩
  · exact (writes_of_holder ["run_1"] takeOver (save (claim "first" 1 0)) _ rfl).2.2 _ _ _ _ hhistory hdistinct
      (List.mem_singleton_self _) rfl
  · exact (writes_of_holder ["run_1"] takeOver (save (claim "second" 2 20)) _ rfl).1 hwritten

end Sample

end Context.Lease
