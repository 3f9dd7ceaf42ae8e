import NexusPilot.Tools.Immutable

/-!
# An approval is for one input

A Permission is asked for when a call is dispatched or authorized, and the call is dispatched again, with its
input, when the user has approved it. The input is stored with its secrets taken out, so the second one
cannot be compared with the first: `assertExistingToolCall` takes it as an argument and does not look at it.
Only a prepared tool is protected, since the registry of plans compares the input with the one that the plan
was made for. For the other tools a call that was approved for one input runs on any other.

`CarefulApproval` asks for what the code leaves open, for calls of one identifier that come one after the
other: the dispatch of a call that is not prepared comes with the input that the Permission was requested for,
and a risk that is resolved again is not above the one of the Permission. Then whatever reaches an executor
under a Permission is what that Permission was requested for (`Binds`).
-/

namespace Tools

open Machine

/-- What a Permission is about; a decision of the user does not change it. -/
structure Terms where
  id : String
  toolId : String
  risk : ResolvedToolRisk

def Permission.terms (permission : Permission) : Terms where
  id := permission.id
  toolId := permission.toolId
  risk := permission.risk

namespace Core

variable {cfg : Config} {s s' : Core} {e : Event} {id : String} {key : Nat} {call : Call} {tool : Tool}

/-! ### What is asked of a run -/

/-- The Permission of a call was requested for an input and, for a prepared tool, for a plan. -/
def RequestedFor (log : List Observation) (id permissionId : String) (input : JsonObject)
    (plan : Option PreparedToolInvocation) : Prop :=
  ∃ permission, .requested permission input plan ∈ log ∧ permission.id = permissionId ∧
    permission.toolCallId = id

/-- **An execution is what was approved.** -/
def Binds (cfg : Config) (log : List Observation) : Observation → Prop
  | .executed id _ _ input risk (some permission) =>
    risk.level.rank ≤ permission.risk.level.rank ∧
      ∃ requested plan, RequestedFor log id permission.id requested plan ∧
        sameJson cfg.localeCompare requested input = true
  | .backendExecuted id _ (.input input) (some permission) =>
    ∃ requested plan, RequestedFor log id permission.id requested plan ∧
      sameJson cfg.localeCompare requested input = true
  | .backendExecuted id _ (.plan planId) (some permission) =>
    ∃ requested plan, RequestedFor log id permission.id requested (some plan) ∧ plan.planId = planId
  | _ => True

/-- Whatever the event makes the core execute is what was approved. -/
def BindsApproval (cfg : Config) (s : Core) (e : Event) : Prop :=
  ∀ o, (step cfg e s).log = s.log ++ [o] → Binds cfg s.log o

/-- **The condition.** Calls of one identifier come one after the other; a dispatch of a tool without plans
has the input that the Permission of its call was requested for, and a risk that is resolved for a dispatch
is not above the one of its Permission. -/
def CarefulApproval (cfg : Config) (s : Core) : Event → Prop
  | .start _ kind invocation id _ _ =>
    (∀ key, ¬ LiveAt s.calls id key) ∧
      ∀ tool input, kind = .dispatch → resolveActiveTool cfg invocation = .ok tool →
        tool.prepare = none → parseObjectInput tool invocation.input = some input →
        ∀ permissionId requested plan, RequestedFor s.log id permissionId requested plan →
          sameJson cfg.localeCompare requested input = true
  | .riskAnswered key (.ok risk) =>
    ∀ call permission, s.calls.lookup key = some call → call.kind = .dispatch →
      s.permissions.lookup call.toolCallId = some permission →
      risk.level.rank ≤ permission.risk.level.rank
  | _ => True

/-! ### Inputs -/

variable {compare : String → String → Ordering} {left right input : JsonObject}
  {risk : ResolvedToolRisk} {permissionId toolCallId : String} {plan : Option PreparedToolInvocation}
  {call' : Call} {other : Nat} {invocation : Invocation} {kind : CallKind}

theorem sameJson_symm (h : sameJson compare left right = true) : sameJson compare right left = true := by
  rw [sameJson, decide_eq_true_eq] at h ⊢
  exact h.symm

theorem sameJson_trans {middle : JsonObject} (h : sameJson compare left middle = true)
    (h' : sameJson compare middle right = true) :
    sameJson compare left right = true := by
  rw [sameJson, decide_eq_true_eq] at h h' ⊢
  exact h.trans h'

/-! ### The invariant -/

/-- What the Permission of a call is about. -/
def terms (s : Core) (id : String) : Option Terms :=
  (s.permissions.lookup id).map Permission.terms

/-- The risk of a call fits its tool: it is the declared one, or the one of the plan, which was made for
the input. -/
structure Fits (cfg : Config) (plans : PreparedRegistry) (id : String) (tool : Tool) (input : JsonObject)
    (risk : ResolvedToolRisk) : Prop where
  static : ∀ level reversible sideEffect, tool.risk = .static level reversible sideEffect →
    risk = ⟨level, reversible, [sideEffect]⟩
  plan : tool.prepare.isSome = true → ∀ record, plans.lookup id = some record →
    record.invocation.risk = risk ∧ sameJson cfg.localeCompare record.input input = true

/-- A Permission was requested for an input and for the plan of its call, with a risk that fits. -/
structure Asks (cfg : Config) (s : Core) (id : String) (terms : Terms) (input : JsonObject)
    (plan : Option PreparedToolInvocation) : Prop where
  requested : RequestedFor s.log id terms.id input plan
  fits : ∃ tool, cfg.getTool terms.toolId = some tool ∧ Fits cfg s.prepared id tool input terms.risk
  plan : ∀ record, s.prepared.lookup id = some record → plan = some record.invocation

/-- A call that waits: it is new, or continues a call with a Permission on the same input and with no
higher risk. -/
structure Awaits (cfg : Config) (s : Core) (call : Call) (tool : Tool) : Prop where
  tool_eq : call.tool = some tool
  getTool_eq : cfg.getTool tool.id = some tool
  prepares : call.existing = true → call.position = .resolving → tool.prepare = none
  dynamic : call.position = .resolving → ∀ level reversible sideEffect,
    tool.risk ≠ .static level reversible sideEffect
  fits : s.terms call.toolCallId = none → ∀ risk, call.position.risk? = some risk →
    Fits cfg s.prepared call.toolCallId tool call.normalizedInput risk
  existing : s.terms call.toolCallId ≠ none → call.existing = true
  same : ∀ terms, s.terms call.toolCallId = some terms → call.kind = .dispatch → terms.toolId = tool.id →
    call.position = .resolving ∨ call.position.risk?.isSome = true →
    ∃ requested plan, Asks cfg s call.toolCallId terms requested plan ∧
      sameJson cfg.localeCompare requested call.normalizedInput = true
  rank : ∀ terms, s.terms call.toolCallId = some terms → call.kind = .dispatch → terms.toolId = tool.id →
    ∀ risk, call.position.risk? = some risk → risk.level.rank ≤ terms.risk.level.rank

/-- A tool at work under a Permission. -/
structure Runs (cfg : Config) (s : Core) (execution : Execution) (permission : Permission) : Prop where
  asked : s.terms execution.identity.toolCallId ≠ none
  bound : ∃ requested plan,
    RequestedFor s.log execution.identity.toolCallId permission.id requested plan ∧
      sameJson cfg.localeCompare requested execution.input = true ∧
      ∀ record, s.prepared.lookup execution.identity.toolCallId = some record →
        plan = some record.invocation

/-- **The invariant.** -/
structure Approval (cfg : Config) (s : Core) : Prop where
  unique : ∀ id key key', LiveAt s.calls id key → LiveAt s.calls id key' → key = key'
  stored : ∀ id, s.terms id ≠ none → (s.toolCalls.lookup id).isSome = true
  permissions : ∀ id terms, s.terms id = some terms → ∃ requested plan, Asks cfg s id terms requested plan
  calls : ∀ key call, s.calls.lookup key = some call → call.position.waiting = true →
    ∃ tool, Awaits cfg s call tool
  executions : ∀ key execution permission, s.executions.lookup key = some execution →
    execution.permission = some permission → Runs cfg s execution permission

/-! ### What steps keep -/

/-- The plan of a call was there before, for the same input. -/
def KeepsPlan (plans plans' : PreparedRegistry) (id : String) : Prop :=
  ∀ record', plans'.lookup id = some record' → ∃ record, plans.lookup id = some record ∧
    record.input = record'.input ∧ record.invocation = record'.invocation

theorem Fits.mono {plans plans' : PreparedRegistry} (h : Fits cfg plans id tool input risk)
    (hplans : KeepsPlan plans plans' id) :
    Fits cfg plans' id tool input risk where
  static := h.static
  plan hprepare record' hrecord' := by
    obtain ⟨record, hrecord, hinput, hinvocation⟩ := hplans record' hrecord'
    rw [← hinput, ← hinvocation]
    exact h.plan hprepare record hrecord

theorem RequestedFor.mono {log log' : List Observation} (h : RequestedFor log id permissionId input plan)
    (hlog : ∀ o ∈ log, o ∈ log') : RequestedFor log' id permissionId input plan := by
  obtain ⟨permission, hmem, hid⟩ := h
  exact ⟨permission, hlog _ hmem, hid⟩

theorem Asks.mono {terms : Terms} {input : JsonObject} {plan : Option PreparedToolInvocation}
    (h : Asks cfg s id terms input plan) (hlog : ∀ o ∈ s.log, o ∈ s'.log)
    (hplans : KeepsPlan s.prepared s'.prepared id) : Asks cfg s' id terms input plan where
  requested := h.requested.mono hlog
  fits := by
    obtain ⟨tool, htool, hfits⟩ := h.fits
    exact ⟨tool, htool, hfits.mono hplans⟩
  plan record' hrecord' := by
    obtain ⟨record, hrecord, -, hinvocation⟩ := hplans record' hrecord'
    rw [← hinvocation]
    exact h.plan record hrecord

theorem Awaits.mono (h : Awaits cfg s call tool) (hlog : ∀ o ∈ s.log, o ∈ s'.log)
    (hterms : s'.terms call.toolCallId = s.terms call.toolCallId)
    (hplans : KeepsPlan s.prepared s'.prepared call.toolCallId) : Awaits cfg s' call tool where
  tool_eq := h.tool_eq
  getTool_eq := h.getTool_eq
  prepares := h.prepares
  dynamic := h.dynamic
  fits hnone risk hrisk := (h.fits (hterms ▸ hnone) risk hrisk).mono hplans
  existing hsome := h.existing (hterms ▸ hsome)
  same terms hsome hkind htool hposition := by
    obtain ⟨requested, plan, hasks, hsame⟩ := h.same terms (hterms ▸ hsome) hkind htool hposition
    exact ⟨requested, plan, hasks.mono hlog hplans, hsame⟩
  rank terms hsome := h.rank terms (hterms ▸ hsome)

theorem Runs.mono {execution execution' : Execution} {permission : Permission}
    (h : Runs cfg s execution permission) (hidentity : execution.identity = execution'.identity)
    (hinput : execution.input = execution'.input) (hlog : ∀ o ∈ s.log, o ∈ s'.log)
    (hterms : s'.terms execution.identity.toolCallId = s.terms execution.identity.toolCallId)
    (hplans : KeepsPlan s.prepared s'.prepared execution.identity.toolCallId) :
    Runs cfg s' execution' permission where
  asked := by
    rw [← hidentity, hterms]
    exact h.asked
  bound := by
    obtain ⟨requested, plan, hrequested, hsame, hplan⟩ := h.bound
    refine ⟨requested, plan, hidentity ▸ hrequested.mono hlog, hinput ▸ hsame, fun record' hrecord' ↦ ?_⟩
    rw [← hidentity] at hrecord'
    obtain ⟨record, hrecord, -, hinvocation⟩ := hplans record' hrecord'
    rw [← hinvocation]
    exact hplan record hrecord

/-- An execution with a Permission was there before, or it runs what was approved. -/
def Accounted (cfg : Config) (s s' : Core) (executions : Table Nat Execution) : Prop :=
  ∀ key execution permission, executions.lookup key = some execution → execution.permission = some permission →
    (∃ old, s.executions.lookup key = some old ∧ old.identity = execution.identity ∧
      old.input = execution.input ∧ old.permission = execution.permission) ∨ Runs cfg s' execution permission

section

variable (h : Approval cfg s)
include h

/-- A step that keeps what is known of the calls with a Permission. -/
theorem Approval.update (hlog : ∀ o ∈ s.log, o ∈ s'.log)
    (hasked : ∀ id, s.terms id ≠ none → s'.terms id = s.terms id ∧ KeepsPlan s.prepared s'.prepared id)
    (hrequested : ∀ id terms, s.terms id = none → s'.terms id = some terms →
      ∃ requested plan, Asks cfg s' id terms requested plan)
    (hstored : ∀ id, s'.terms id ≠ none → (s'.toolCalls.lookup id).isSome = true)
    (hunique : ∀ id key key', LiveAt s'.calls id key → LiveAt s'.calls id key' → key = key')
    (hcalls : ∀ key call, s'.calls.lookup key = some call → call.position.waiting = true →
      (s.calls.lookup key = some call ∧ s'.terms call.toolCallId = s.terms call.toolCallId ∧
        KeepsPlan s.prepared s'.prepared call.toolCallId) ∨ ∃ tool, Awaits cfg s' call tool)
    (hexecutions : Accounted cfg s s' s'.executions) : Approval cfg s' where
  unique := hunique
  stored := hstored
  permissions id terms hterms := by
    obtain hnone | ⟨old, hold⟩ := Option.eq_none_or_eq_some (s.terms id)
    · exact hrequested id terms hnone hterms
    · obtain ⟨heq, hplans⟩ := hasked id (by rw [hold]; exact Option.some_ne_none old)
      obtain ⟨requested, plan, hasks⟩ := h.permissions id terms (heq ▸ hterms)
      exact ⟨requested, plan, hasks.mono hlog hplans⟩
  calls key call hcall hwaiting := by
    rcases hcalls key call hcall hwaiting with ⟨hold, hterms, hplans⟩ | hnew
    · obtain ⟨tool, hawaits⟩ := h.calls key call hold hwaiting
      exact ⟨tool, hawaits.mono hlog hterms hplans⟩
    · exact hnew
  executions key execution permission hexecution hpermission := by
    rcases hexecutions key execution permission hexecution hpermission with
      ⟨old, hold, hidentity, hinput, hsame⟩ | hnew
    · have hruns := h.executions key old permission hold (hsame.trans hpermission)
      obtain ⟨hterms, hplans⟩ := hasked _ hruns.asked
      exact hruns.mono hidentity hinput hlog hterms hplans
    · exact hnew

/-- A step that requests and prepares nothing. -/
theorem Approval.keep (hlog : ∀ o ∈ s.log, o ∈ s'.log) (hterms : ∀ id, s'.terms id = s.terms id)
    (hplans : KeepsPlans s.prepared s'.prepared)
    (hstored : ∀ id, (s.toolCalls.lookup id).isSome = true → (s'.toolCalls.lookup id).isSome = true)
    (hunique : ∀ id key key', LiveAt s'.calls id key → LiveAt s'.calls id key' → key = key')
    (hcalls : ∀ key call, s'.calls.lookup key = some call → call.position.waiting = true →
      s.calls.lookup key = some call ∨ ∃ tool, Awaits cfg s' call tool)
    (hexecutions : Accounted cfg s s' s'.executions) : Approval cfg s' := by
  refine h.update hlog (fun id _ ↦ ⟨hterms id, hplans id⟩) ?_ ?_ hunique ?_ hexecutions
  · intro id terms hnone hsome
    rw [hterms, hnone] at hsome
    cases hsome
  · intro id hsome
    exact hstored id (h.stored id (hterms id ▸ hsome))
  · intro key call hcall hwaiting
    exact (hcalls key call hcall hwaiting).imp_left fun hold ↦ ⟨hold, hterms _, hplans _⟩

/-! ### The calls of an identifier -/

theorem Approval.unique_ended (hdone : call'.position.live = false) (id : String) (other other' : Nat)
    (ho : LiveAt (s.calls.insert key call') id other) (ho' : LiveAt (s.calls.insert key call') id other') :
    other = other' :=
  h.unique id other other' (callAt_of_insert hdone ho) (callAt_of_insert hdone ho')

theorem Approval.unique_moved (hcall : s.calls.lookup key = some call) (hlive : call.position.live = true)
    (hid : call'.toolCallId = call.toolCallId) (id : String) (other other' : Nat)
    (ho : LiveAt (s.calls.insert key call') id other) (ho' : LiveAt (s.calls.insert key call') id other') :
    other = other' :=
  h.unique id other other' (callAt_of_insert_same hcall hid hlive ho)
    (callAt_of_insert_same hcall hid hlive ho')

theorem Approval.unique_started (hnone : ∀ other, ¬ LiveAt s.calls call'.toolCallId other) (id : String)
    (other other' : Nat) (ho : LiveAt (s.calls.insert key call') id other)
    (ho' : LiveAt (s.calls.insert key call') id other') : other = other' := by
  rw [LiveAt, callAt_insert] at ho ho'
  split at ho
  · next heq =>
    split at ho'
    · next heq' => exact heq.trans heq'.symm
    · exact absurd (ho.1 ▸ ho') (hnone other')
  · split at ho'
    · exact absurd (ho'.1 ▸ ho) (hnone other)
    · exact h.unique id other other' ho ho'

/-- Only one call of an identifier is under way. -/
theorem Approval.ne_of_live (hcall : s.calls.lookup key = some call) (hlive : call.position.live = true)
    (hother : s.calls.lookup other = some call') (hlive' : call'.position.live = true) (hne : other ≠ key) :
    call'.toolCallId ≠ call.toolCallId := by
  intro heq
  exact hne (h.unique _ other key ⟨call', hother, heq, hlive'⟩ ⟨call, hcall, rfl, hlive⟩)

end

/-- A call that waits, when the one that was written does not. -/
theorem lookup_of_insert {calls : Table Nat Call} {found : Call} (hdone : call'.position.waiting = false)
    (h : (calls.insert key call').lookup other = some found) (hwaiting : found.position.waiting = true) :
    other ≠ key ∧ calls.lookup other = some found := by
  rw [Table.lookup_insert] at h
  split at h
  · rw [← Option.some.inj h, hdone] at hwaiting
    cases hwaiting
  · next hne => exact ⟨hne, h⟩

theorem isSome_failedRows {rows : Table String ToolCall} (hrows : FailedRows s.toolCalls call rows)
    (h : (s.toolCalls.lookup id).isSome = true) : (rows.lookup id).isSome = true := by
  rcases hrows with rfl | ⟨row, -, -, rfl⟩
  · exact h
  · exact Table.isSome_lookup_insert (.inr h)

/-- A decision of the user keeps what a Permission is about. -/
theorem terms_insert {permissions : Table String Permission} {permission permission' : Permission}
    {other : String} (h : permissions.lookup other = some permission)
    (hterms : permission'.terms = permission.terms) :
    ((permissions.insert other permission').lookup id).map Permission.terms =
      (permissions.lookup id).map Permission.terms := by
  rw [Table.lookup_insert]
  split
  · next heq =>
    rw [heq, h]
    exact congrArg some hterms
  · rfl

/-! ### The start of a call -/

theorem getTool_of_resolveActiveTool (h : resolveActiveTool cfg invocation = .ok tool) :
    cfg.getTool tool.id = some tool := by
  unfold resolveActiveTool at h
  split at h
  · cases h
  · split at h
    · cases h
    · split at h
      · cases h
      · split at h
        · next htool =>
          obtain rfl := Except.ok.inj h
          rw [cfg.id_of_getTool htool]
          exact htool
        · cases h

theorem fits_of_resolves (h : Resolves cfg s call tool risk) :
    Fits cfg s.prepared call.toolCallId tool call.normalizedInput risk := by
  unfold Resolves at h
  split at h
  · next level reversible sideEffect hstatic =>
    refine ⟨fun level' reversible' sideEffect' hstatic' ↦ ?_, fun hprepare ↦ ?_⟩
    · obtain ⟨rfl, rfl, rfl⟩ := ToolRiskDefinition.static.inj (hstatic.symm.trans hstatic')
      exact h
    · rw [tool.prepare_of_static level reversible sideEffect hstatic] at hprepare
      cases hprepare
  · next hdynamic =>
    obtain ⟨-, record, hrecord, hsame, hrisk⟩ := h
    refine ⟨fun _ _ _ hstatic ↦ ?_, fun _ found hfound ↦ ?_⟩
    · cases hdynamic.symm.trans hstatic
    · obtain rfl := Option.some.inj (hrecord.symm.trans hfound)
      exact ⟨hrisk, hsame⟩

/-- The risk that a call resolves for a Permission of its tool is the one of the Permission, and a plan was
made for the same input. -/
theorem Asks.of_resolves {terms : Terms} {requested : JsonObject}
    (h : Asks cfg s call.toolCallId terms requested plan) (htool : terms.toolId = tool.id)
    (hget : cfg.getTool tool.id = some tool) (hresolves : Resolves cfg s call tool risk) :
    risk = terms.risk ∧ (tool.prepare.isSome = true →
      sameJson cfg.localeCompare requested call.normalizedInput = true) := by
  obtain ⟨tool', htool', hfits⟩ := h.fits
  rw [htool] at htool'
  obtain rfl := Option.some.inj (hget.symm.trans htool')
  unfold Resolves at hresolves
  split at hresolves
  · next level reversible sideEffect hstatic =>
    refine ⟨hresolves.trans (hfits.static level reversible sideEffect hstatic).symm, fun hprepare ↦ ?_⟩
    rw [tool.prepare_of_static level reversible sideEffect hstatic] at hprepare
    cases hprepare
  · obtain ⟨hprepare, record, hrecord, hsame, hrisk⟩ := hresolves
    obtain ⟨hrisk', hsame'⟩ := hfits.plan hprepare record hrecord
    exact ⟨hrisk.symm.trans hrisk', fun _ ↦ sameJson_trans (sameJson_symm hsame') hsame⟩

/-- A call that begins finds no Permission. -/
theorem Approval.terms_eq_none (h : Approval cfg s) (hrow : s.toolCalls.lookup id = none) :
    s.terms id = none := by
  by_contra hsome
  have hstored := h.stored id hsome
  rw [hrow] at hstored
  cases hstored

/-- **A call that continues another one** is on the input that was approved. -/
theorem Approval.awaits_continues (h : Approval cfg s)
    (hbrought : Brought cfg kind invocation toolCallId call tool) (hexisting : call.existing = true)
    (hrisk : ∀ risk, call.position.risk? = some risk → Resolves cfg s call tool risk)
    (hresolving : call.position = .resolving → tool.prepare = none)
    (hdynamic : call.position = .resolving → ∀ level reversible sideEffect,
      tool.risk ≠ .static level reversible sideEffect)
    (hc : kind = .dispatch → tool.prepare = none → ∀ permissionId requested plan,
      RequestedFor s.log toolCallId permissionId requested plan →
      sameJson cfg.localeCompare requested call.normalizedInput = true) :
    Awaits cfg s call tool := by
  have hget := getTool_of_resolveActiveTool hbrought.resolve_eq
  refine ⟨hbrought.tool_eq, hget, fun _ ↦ hresolving, hdynamic, fun _ risk h ↦ fits_of_resolves (hrisk risk h),
    fun _ ↦ hexisting, fun terms hterms hkind htool hposition ↦ ?_, fun terms hterms hkind htool risk h' ↦ ?_⟩
  · obtain ⟨requested, plan, hasks⟩ := h.permissions _ terms hterms
    refine ⟨requested, plan, hasks, ?_⟩
    obtain hnone | ⟨operation, hsome⟩ := Option.eq_none_or_eq_some tool.prepare
    · refine hc (hbrought.kind_eq ▸ hkind) hnone terms.id requested plan ?_
      exact hbrought.toolCallId_eq ▸ hasks.requested
    · have hprepare : tool.prepare.isSome = true := by
        rw [hsome]
        rfl
      rcases hposition with hposition | hposition
      · rw [hresolving hposition] at hprepare
        cases hprepare
      · obtain ⟨risk, hrisk'⟩ := Option.isSome_iff_exists.1 hposition
        exact (hasks.of_resolves htool hget (hrisk risk hrisk')).2 hprepare
  · obtain ⟨requested, plan, hasks⟩ := h.permissions _ terms hterms
    rw [(hasks.of_resolves htool hget (hrisk risk h')).1]

/-- **A call that begins.** -/
theorem awaits_begins (hterms : s.terms call.toolCallId = none)
    (hbrought : Brought cfg kind invocation toolCallId call tool) (hexisting : call.existing = false)
    (hrisk : ∀ risk, call.position.risk? = some risk → Resolves cfg s call tool risk)
    (hdynamic : call.position = .resolving → ∀ level reversible sideEffect,
      tool.risk ≠ .static level reversible sideEffect) : Awaits cfg s call tool where
  tool_eq := hbrought.tool_eq
  getTool_eq := getTool_of_resolveActiveTool hbrought.resolve_eq
  prepares htrue := by cases hexisting.symm.trans htrue
  dynamic := hdynamic
  fits _ risk h := fits_of_resolves (hrisk risk h)
  existing hsome := absurd hterms hsome
  same terms hsome := by cases hterms.symm.trans hsome
  rank terms hsome := by cases hterms.symm.trans hsome

/-! ### A call that waits -/

/-- The tool of a call. -/
theorem Approval.awaits (h : Approval cfg s) (hcall : s.calls.lookup key = some call)
    (hwaiting : call.position.waiting = true) (htool : call.tool = some tool) : Awaits cfg s call tool := by
  obtain ⟨tool', hawaits⟩ := h.calls key call hcall hwaiting
  obtain rfl := Option.some.inj (htool.symm.trans hawaits.tool_eq)
  exact hawaits

/-- A call that goes on waiting: a risk that is resolved now is not above the one of the Permission. -/
theorem Awaits.goesOn (h : Awaits cfg s call tool) (hsame : Same call call')
    (hresolving : call'.position ≠ .resolving)
    (hrisk : ∀ risk, call'.position.risk? = some risk → call.position.risk? = some risk ∨
      (tool.prepare = none ∧ call.position = .resolving ∧ (call.kind = .dispatch →
        ∀ terms, s.terms call.toolCallId = some terms → risk.level.rank ≤ terms.risk.level.rank))) :
    Awaits cfg s call' tool where
  tool_eq := hsame.tool.trans h.tool_eq
  getTool_eq := h.getTool_eq
  prepares _ hposition := absurd hposition hresolving
  dynamic hposition := absurd hposition hresolving
  fits hnone risk h' := by
    rw [hsame.toolCallId] at hnone ⊢
    rw [hsame.normalizedInput]
    rcases hrisk risk h' with hold | ⟨hprepare, hposition, -⟩
    · exact h.fits hnone risk hold
    · refine ⟨fun _ _ _ hstatic ↦ absurd hstatic (h.dynamic hposition _ _ _), fun hsome ↦ ?_⟩
      rw [hprepare] at hsome
      cases hsome
  existing hsome := by
    rw [hsame.toolCallId] at hsome
    exact hsame.existing.trans (h.existing hsome)
  same terms hsome hkind htool hposition := by
    rw [hsame.toolCallId] at hsome ⊢
    rw [hsame.normalizedInput]
    refine h.same terms hsome (hsame.kind ▸ hkind) htool ?_
    obtain ⟨risk, h'⟩ := Option.isSome_iff_exists.1 (hposition.resolve_left hresolving)
    rcases hrisk risk h' with hold | ⟨-, hold, -⟩
    · exact .inr (by rw [hold]; rfl)
    · exact .inl hold
  rank terms hsome hkind htool risk h' := by
    rw [hsame.toolCallId] at hsome
    rcases hrisk risk h' with hold | ⟨-, -, hrank⟩
    · exact h.rank terms hsome (hsame.kind ▸ hkind) htool risk hold
    · exact hrank (hsame.kind ▸ hkind) terms hsome

/-- A call whose plan was prepared. -/
theorem Awaits.prepared {record : PreparedInvocationRecord} {risk : ResolvedToolRisk}
    (h : Awaits cfg s call tool)
    (hnone : s'.terms call.toolCallId = none) (hprepare : tool.prepare.isSome = true)
    (hrecord : s'.prepared.lookup call.toolCallId = some record)
    (hinput : record.input = call.normalizedInput) (hrisk : record.invocation.risk = risk) :
    Awaits cfg s' { call with position := .resolved (.ok risk) } tool where
  tool_eq := h.tool_eq
  getTool_eq := h.getTool_eq
  prepares _ hposition := nomatch hposition
  dynamic hposition := nomatch hposition
  fits _ risk' hrisk' := by
    refine ⟨fun level reversible sideEffect hstatic ↦ ?_, fun _ found hfound ↦ ?_⟩
    · rw [tool.prepare_of_static level reversible sideEffect hstatic] at hprepare
      cases hprepare
    · obtain rfl := Option.some.inj (hrecord.symm.trans hfound)
      exact ⟨hrisk.trans (Option.some.inj hrisk'), decide_eq_true (by rw [hinput])⟩
  existing hsome := absurd hnone hsome
  same _ hsome := nomatch hnone.symm.trans hsome
  rank _ hsome := nomatch hnone.symm.trans hsome

/-! ### One step -/

section

variable (h : Approval cfg s) (hcall : s.calls.lookup key = some call) (htool : call.tool = some tool)
include h hcall htool

/-- A plan is prepared for a call without a Permission. -/
theorem Approval.prepares {plan : PreparedToolInvocation} (hposition : call.position = .resolving)
    (hprepare : tool.prepare.isSome = true) :
    Approval cfg { s with
      prepared := s.prepared.insert call.toolCallId
        { identity := call.identity tool, input := call.normalizedInput, invocation := plan }
      calls := s.calls.insert key { call with position := .resolved (.ok plan.risk) } } := by
  have hlive : call.position.live = true := by
    rw [hposition]
    rfl
  have hawaits := h.awaits hcall (by rw [hposition]; rfl) htool
  have hnone : s.terms call.toolCallId = none := by
    by_contra hsome
    rw [hawaits.prepares (hawaits.existing hsome) hposition] at hprepare
    cases hprepare
  have hplans {other : String} {record : PreparedInvocationRecord} (hne : other ≠ call.toolCallId) :
      KeepsPlan s.prepared (s.prepared.insert call.toolCallId record) other := by
    intro record' hrecord'
    rw [Table.lookup_insert, if_neg hne] at hrecord'
    exact ⟨record', hrecord', rfl, rfl⟩
  refine h.update (fun _ ho ↦ ho) (fun id hsome ↦ ⟨rfl, hplans ?_⟩) ?_ h.stored
    (h.unique_moved hcall hlive rfl) ?_ fun _ execution _ hexecution _ ↦ .inl ⟨execution, hexecution, rfl, rfl, rfl⟩
  · rintro rfl
    exact hsome hnone
  · intro id terms hnone' hsome
    cases hnone'.symm.trans hsome
  · intro other found hfound hwaiting
    change (s.calls.insert key _).lookup other = some found at hfound
    rw [Table.lookup_insert] at hfound
    split at hfound
    · obtain rfl := Option.some.inj hfound
      have hrecord (record : PreparedInvocationRecord) :
          (s.prepared.insert call.toolCallId record).lookup call.toolCallId = some record := by
        rw [Table.lookup_insert, if_pos rfl]
      exact .inr ⟨tool, hawaits.prepared hnone hprepare (hrecord _) rfl rfl⟩
    · next hne =>
      exact .inl ⟨hfound, rfl, hplans (h.ne_of_live hcall hlive hfound (live_of_waiting hwaiting) hne)⟩

/-- A Permission is requested for the input and the plan of a call. -/
theorem Approval.requests {call' : Call} {risk : ResolvedToolRisk}
    {description : Except Thrown PermissionDescription} {row : ToolCall} {permission : Permission}
    {counters : Table String Nat} {answer : Answer} (hposition : call.position = .described risk description)
    (hpermission : s.permissions.lookup call.toolCallId = none) (hid : permission.toolCallId = call.toolCallId)
    (hrisk : permission.risk = risk) (htoolId : permission.toolId = tool.id) :
    Approval cfg { s with
      toolCalls := s.toolCalls.insert call.toolCallId row
      permissions := s.permissions.insert call.toolCallId permission
      inFlightByRun := counters
      calls := s.calls.insert key { call' with position := .returned answer }
      log := s.log ++ [.requested permission call.normalizedInput
        ((s.prepared.lookup call.toolCallId).map (·.invocation))] } := by
  have hlive : call.position.live = true := by
    rw [hposition]
    rfl
  have hawaits := h.awaits hcall (by rw [hposition]; rfl) htool
  have hnone : s.terms call.toolCallId = none := by
    rw [terms, hpermission]
    rfl
  have hlog : ∀ o ∈ s.log, o ∈ s.log ++ [.requested permission call.normalizedInput
      ((s.prepared.lookup call.toolCallId).map (·.invocation))] :=
    fun o ho ↦ List.mem_append_left _ ho
  have hother {other : String} (hne : other ≠ call.toolCallId) :
      ((s.permissions.insert call.toolCallId permission).lookup other).map Permission.terms =
        s.terms other := by
    rw [Table.lookup_insert, if_neg hne]
    rfl
  have hkeeps (other : String) : KeepsPlan s.prepared s.prepared other :=
    KeepsPlans.refl s.prepared other
  refine h.update hlog (fun id hsome ↦ ⟨hother ?_, hkeeps id⟩) ?_ ?_ (h.unique_ended rfl) ?_
    fun _ execution _ hexecution _ ↦ .inl ⟨execution, hexecution, rfl, rfl, rfl⟩
  · rintro rfl
    exact hsome hnone
  · intro id terms hnone' hsome
    change ((s.permissions.insert call.toolCallId permission).lookup id).map _ = some terms at hsome
    rcases eq_or_ne id call.toolCallId with rfl | hne
    · rw [Table.lookup_insert, if_pos rfl] at hsome
      obtain rfl := Option.some.inj hsome
      refine ⟨call.normalizedInput, _, ⟨permission, List.mem_append_right _ (List.mem_singleton_self _), rfl, hid⟩,
        ⟨tool, ?_, ?_⟩, fun record hrecord ↦ ?_⟩
      · show cfg.getTool permission.toolId = some tool
        rw [htoolId]
        exact hawaits.getTool_eq
      · show Fits cfg s.prepared call.toolCallId tool call.normalizedInput permission.risk
        rw [hrisk]
        exact hawaits.fits hnone risk (by rw [hposition]; rfl)
      · show (s.prepared.lookup call.toolCallId).map _ = _
        rw [hrecord]
        rfl
    · rw [hother hne, hnone'] at hsome
      cases hsome
  · intro id hsome
    rcases eq_or_ne id call.toolCallId with rfl | hne
    · exact Table.isSome_lookup_insert (.inl rfl)
    · refine Table.isSome_lookup_insert (.inr (h.stored id ?_))
      rw [← hother hne]
      exact hsome
  · intro other found hfound hwaiting
    obtain ⟨hne, hold⟩ := lookup_of_insert rfl hfound hwaiting
    exact .inl ⟨hold, hother (h.ne_of_live hcall hlive hold (live_of_waiting hwaiting) hne), hkeeps _⟩

/-- **A tool that is executed under a Permission** runs on the input that was approved. -/
theorem Approval.executes {risk : ResolvedToolRisk} {permission : Permission} (hkind : call.kind = .dispatch)
    (hposition : call.position = .resolved (.ok risk))
    (hpermission : s.permissions.lookup call.toolCallId = some permission)
    (hbinds : permission.toolId = tool.id) :
    risk.level.rank ≤ permission.risk.level.rank ∧
      ∃ requested plan, Asks cfg s call.toolCallId permission.terms requested plan ∧
        sameJson cfg.localeCompare requested call.normalizedInput = true := by
  have hawaits := h.awaits hcall (by rw [hposition]; rfl) htool
  have hterms : s.terms call.toolCallId = some permission.terms := by
    rw [terms, hpermission]
    rfl
  have hrisk : call.position.risk? = some risk := by
    rw [hposition]
    rfl
  exact ⟨hawaits.rank _ hterms hkind hbinds risk hrisk,
    hawaits.same _ hterms hkind hbinds (.inr (by rw [hrisk]; rfl))⟩

end

/-- The calls that wait once a call goes on. -/
theorem waits_of_insert {call' : Call} {p : Call → Prop} (hnew : p call') (other : Nat) (found : Call)
    (hfound : (s.calls.insert key call').lookup other = some found) (_ : found.position.waiting = true) :
    s.calls.lookup other = some found ∨ p found := by
  rw [Table.lookup_insert] at hfound
  split at hfound
  · obtain rfl := Option.some.inj hfound
    exact .inr hnew
  · exact .inl hfound

theorem approval_step (h : Approval cfg s) (hc : CarefulApproval cfg s e) : Approval cfg (step cfg e s) := by
  have hstep := step_cases cfg e s
  revert hstep hc
  generalize step cfg e s = s'
  intro hc hstep
  have hsame : Accounted cfg s s' s.executions :=
    fun _ execution _ hexecution _ ↦ .inl ⟨execution, hexecution, rfl, rfl, rfl⟩
  have hkept {executions : Table Nat Execution} (hexecutions : KeepsExecutions s.executions executions) :
      Accounted cfg s s' executions := by
    intro key execution _ hexecution _
    obtain ⟨old, hold, -, hidentity, hinput, hpermission⟩ := hexecutions key execution hexecution
    exact .inl ⟨old, hold, hidentity, hinput, hpermission⟩
  have hwaits {key : Nat} {call' : Call} {p : Call → Prop} (hdone : call'.position.waiting = false) :
      ∀ other found, (s.calls.insert key call').lookup other = some found →
        found.position.waiting = true → s.calls.lookup other = some found ∨ p found :=
    fun _ _ hfound hwaiting ↦ .inl (lookup_of_insert hdone hfound hwaiting).2
  have hlog {o : Observation} : ∀ o' ∈ s.log, o' ∈ s.log ++ [o] :=
    fun o' ho ↦ List.mem_append_left _ ho
  cases hstep with
  | idle => exact h
  | refused _ _ _ _ hrows hplans =>
    exact h.keep hlog (fun _ ↦ rfl) hplans (fun _ ↦ isSome_failedRows hrows) (h.unique_ended rfl)
      (hwaits rfl) hsame
  | notStarted _ _ _ _ hrows hplans | fails _ _ _ _ hrows hplans =>
    exact h.keep (fun _ ho ↦ ho) (fun _ ↦ rfl) hplans (fun _ ↦ isSome_failedRows hrows)
      (h.unique_ended rfl) (hwaits rfl) hsame
  | @begins key kind _ _ _ _ call tool _ _ hbrought hrow _ _ hexisting _ hplans hrisk hdynamic =>
    rw [← hbrought.toolCallId_eq] at hrow
    have hawaits := awaits_begins (h.terms_eq_none hrow) hbrought hexisting hrisk hdynamic
    refine h.keep (fun _ ho ↦ ho) (fun _ ↦ rfl) hplans (fun _ hrow ↦ hrow)
      (h.unique_started (hbrought.toolCallId_eq ▸ hc.1))
      (waits_of_insert ⟨tool, hawaits.mono (fun _ ho ↦ ho) rfl (hplans _)⟩) hsame
  | @continues key kind _ _ _ _ call tool _ _ _ hbrought _ _ _ _ _ hexisting _ hplans hrisk hresolving hdynamic =>
    have hawaits := h.awaits_continues hbrought hexisting hrisk hresolving hdynamic
      fun hkind hprepare ↦ hc.2 tool _ hkind hbrought.resolve_eq hprepare hbrought.parse_eq
    refine h.keep (fun _ ho ↦ ho) (fun _ ↦ rfl) hplans (fun _ hrow ↦ hrow)
      (h.unique_started (hbrought.toolCallId_eq ▸ hc.1))
      (waits_of_insert ⟨tool, hawaits.mono (fun _ ho ↦ ho) rfl (hplans _)⟩) hsame
  | replays | answers =>
    exact h.keep (fun _ ho ↦ ho) (fun _ ↦ rfl) (.refl _) (fun _ hrow ↦ hrow) (h.unique_ended rfl)
      (hwaits rfl) hsame
  | @waits _ key call call' tool _ hcall htool hwaiting hsame' _ hplans hresolving hrisk =>
    have hawaits : Awaits cfg s call' tool := by
      refine (h.awaits hcall hwaiting htool).goesOn hsame' hresolving fun risk hrisk' ↦ ?_
      refine (hrisk risk hrisk').imp_right fun ⟨hprepare, hposition, he⟩ ↦ ⟨hprepare, hposition, ?_⟩
      intro hkind terms hterms
      obtain ⟨permission, hpermission, rfl⟩ := Option.map_eq_some_iff.1 hterms
      rw [he] at hc
      exact hc call permission hcall hkind hpermission
    refine h.keep (fun _ ho ↦ ho) (fun _ ↦ rfl) hplans (fun _ hrow ↦ hrow)
      (h.unique_moved hcall (live_of_waiting hwaiting) hsame'.toolCallId)
      (waits_of_insert ⟨tool, hawaits.mono (fun _ ho ↦ ho) rfl (hplans _)⟩) hsame
  | prepares hcall htool hposition hprepare => exact h.prepares hcall htool hposition hprepare
  | requests _ hcall htool hposition hpermission _ hid hrisk htoolId =>
    exact h.requests hcall htool hposition hpermission hid hrisk htoolId
  | @executes _ key call call' tool risk row hcall htool hkind hposition hsame' hposition' hpermission hbinds =>
    refine h.keep hlog (fun _ ↦ rfl) (.refl _) (fun _ hrow ↦ Table.isSome_lookup_insert (.inr hrow))
      (h.unique_moved hcall (by rw [hposition]; rfl) hsame'.toolCallId) (hwaits (by rw [hposition']; rfl)) ?_
    intro other found permission hfound hfpermission
    change (s.executions.insert key _).lookup other = some found at hfound
    rw [Table.lookup_insert] at hfound
    split at hfound
    · obtain rfl := Option.some.inj hfound
      have hlookup : s.permissions.lookup call.toolCallId = some permission :=
        hpermission.symm.trans hfpermission
      obtain ⟨-, requested, plan, hasks, hinput⟩ :=
        h.executes hcall htool hkind hposition hlookup (hbinds permission hlookup)
      refine .inr ⟨?_, requested, plan, hasks.requested.mono hlog, hinput, hasks.plan⟩
      show (s.permissions.lookup call.toolCallId).map _ ≠ none
      rw [hlookup]
      exact Option.some_ne_none _
    · exact hsame other found permission hfound hfpermission
  | unavailable hcall _ hwaiting hsame' _ hwaiting' =>
    exact h.keep (fun _ ho ↦ ho) (fun _ ↦ rfl) (.refl _)
      (fun _ hrow ↦ Table.isSome_lookup_insert (.inr hrow))
      (h.unique_moved hcall (live_of_waiting hwaiting) hsame'.toolCallId) (hwaits hwaiting') hsame
  | settles hcall hposition =>
    exact h.keep (fun _ ho ↦ ho) (fun _ ↦ rfl) (.refl _) (fun _ hrow ↦ hrow)
      (h.unique_moved hcall (by rw [hposition]; rfl) (Same.moves _ _).toolCallId) (hwaits rfl) hsame
  | completes =>
    exact h.keep (fun _ ho ↦ ho) (fun _ ↦ rfl) (.refl _)
      (fun _ hrow ↦ Table.isSome_lookup_insert (.inr hrow)) (h.unique_ended rfl) (hwaits rfl) hsame
  | proceeds _ hplans hexecutions =>
    exact h.keep hlog (fun _ ↦ rfl) hplans (fun _ hrow ↦ hrow) h.unique (fun _ _ hcall _ ↦ .inl hcall)
      (hkept hexecutions)
  | background hplans hexecutions =>
    exact h.keep (fun _ ho ↦ ho) (fun _ ↦ rfl) hplans (fun _ hrow ↦ hrow) h.unique
      (fun _ _ hcall _ ↦ .inl hcall) (hkept hexecutions)
  | approves hpermission =>
    exact h.keep (fun _ ho ↦ ho) (fun _ ↦ terms_insert hpermission rfl) (.refl _) (fun _ hrow ↦ hrow)
      h.unique (fun _ _ hcall _ ↦ .inl hcall) hsame
  | denies hpermission =>
    exact h.keep (fun _ ho ↦ ho) (fun _ ↦ terms_insert hpermission rfl) (.refl _)
      (fun _ hrow ↦ Table.isSome_lookup_insert (.inr hrow)) h.unique (fun _ _ hcall _ ↦ .inl hcall) hsame

theorem approval_empty (cfg : Config) : Approval cfg {} where
  unique _ _ _ := fun ⟨_, h, _⟩ ↦ nomatch h
  stored _ h := absurd rfl h
  permissions _ _ h := nomatch h
  calls _ _ h := nomatch h
  executions _ _ _ h := nomatch h

/-- **What a step executes is what was approved.** -/
theorem bindsApproval_of_approval (h : Approval cfg s) : BindsApproval cfg s e := by
  intro o ho
  have hstep := step_cases cfg e s
  revert hstep ho
  generalize step cfg e s = s'
  intro ho hstep
  have hsame (heq : s'.log = s.log) : False := by
    rw [heq] at ho
    exact absurd (congrArg List.length ho) (by simp)
  have hlast {o' : Observation} (heq : s'.log = s.log ++ [o']) : o = o' := by
    rw [heq] at ho
    exact (List.singleton_inj.1 (List.append_cancel_left ho)).symm
  cases hstep with
  | refused =>
    rw [hlast rfl]
    trivial
  | requests =>
    rw [hlast rfl]
    trivial
  | @executes _ _ call call' _ risk _ hcall htool hkind hposition _ _ hpermission hbinds =>
    rw [hlast rfl]
    obtain hnone | ⟨permission, hsome⟩ := Option.eq_none_or_eq_some call'.permission
    · rw [hnone]
      trivial
    · rw [hsome]
      have hlookup := hpermission.symm.trans hsome
      obtain ⟨hrank, requested, plan, hasks, hinput⟩ :=
        h.executes hcall htool hkind hposition hlookup (hbinds permission hlookup)
      exact ⟨hrank, requested, plan, hasks.requested, hinput⟩
  | @proceeds _ _ execution _ _ input hexecution _ _ hinput =>
    rw [hlast rfl]
    obtain hnone | ⟨permission, hsome⟩ := Option.eq_none_or_eq_some execution.permission
    · rw [hnone]
      cases input with
      | plan => trivial
      | input => trivial
    · rw [hsome]
      obtain ⟨requested, plan, hrequested, hsame', hplan⟩ :=
        (h.executions _ execution permission hexecution hsome).bound
      rcases hinput with ⟨-, rfl⟩ | ⟨-, record, hrecord, rfl⟩
      · exact ⟨requested, plan, hrequested, hsame'⟩
      · exact ⟨requested, record.invocation, hplan record hrecord ▸ hrequested, rfl⟩
  | _ => exact (hsame rfl).elim

/-! ### Every run -/

/-- **An approval binds the input**, in every run in which the calls of one identifier come one after the
other, the dispatch of a call without plans brings the input that its Permission was requested for, and no
risk is resolved above the one of the Permission. -/
theorem bindsApproval_of_careful (cfg : Config) (events : List Event)
    (h : Along (step cfg) (CarefulApproval cfg) {} events) :
    Along (step cfg) (BindsApproval cfg) {} events := by
  refine along_of_forall fun before e after heq ↦ bindsApproval_of_approval ?_
  subst heq
  exact run_invariant (fun _ _ ↦ approval_step) (approval_empty cfg) (along_append.1 h).1

/-- A tool that writes, and is asked about. -/
def writer : Tool where
  id := "test.write"
  title := "Write"
  inputSchema := some
  outputSchema := some
  executionTarget := .runtime
  risk := .static .high true .businessWrite

/-- A call asks for a Permission for one input, and the user approves it. -/
def approvedRun : List Event :=
  [.start 0 .dispatch (invocationOf writer [("row", .num "1")]) "call" false 1, .resume 0 "" true 2,
    .resume 0 "permission" true 3, .respond "call" true none 4]

/-- The call is dispatched again, with an input. -/
def continuedRun (input : JsonObject) : List Event :=
  approvedRun ++ [.start 1 .dispatch (invocationOf writer input) "call" false 5, .resume 1 "" true 6]

/-- What is left of a run of a tool: its only request. -/
theorem requested_approvedRun
    (h : RequestedFor (run (step (.single writer 32)) {} approvedRun).log "call" permissionId input plan) :
    input = [("row", .num "1")] := by
  obtain ⟨permission, hmem, -⟩ := h
  have hlog : ∃ permission' plan', (run (step (.single writer 32)) {} approvedRun).log =
      [.requested permission' [("row", .num "1")] plan'] := ⟨_, _, rfl⟩
  obtain ⟨permission', plan', hlog⟩ := hlog
  rw [hlog, List.mem_singleton] at hmem
  exact (Observation.requested.inj hmem).2.1

theorem bindsApproval_continuedRun :
    Along (step (.single writer 32)) (BindsApproval (.single writer 32)) {}
      (continuedRun [("row", .num "1")]) := by
  refine bindsApproval_of_careful (.single writer 32) _ ?_
  have hlive : ∀ entry ∈ (run (step (.single writer 32)) {} approvedRun).calls.entries,
      entry.2.position.live = false := by
    decide
  have hfirst {permissionId : String} {input : JsonObject} {plan : Option PreparedToolInvocation} :
      ¬ RequestedFor [] "call" permissionId input plan := fun ⟨_, hmem, _⟩ ↦ nomatch hmem
  refine ⟨⟨fun _ ⟨_, h, _⟩ ↦ (nomatch h), fun _ _ _ _ _ _ _ _ _ h ↦ absurd h hfirst⟩, trivial, trivial,
    trivial, ⟨?_, ?_⟩, trivial, trivial⟩
  · rintro key ⟨call, hcall, -, hcalllive⟩
    rw [hlive ⟨key, call⟩ (AList.mem_lookup_iff.1 hcall)] at hcalllive
    cases hcalllive
  · intro tool input _ hresolve _ hparse permissionId requested plan hrequested
    have hactive : resolveActiveTool (.single writer 32) (invocationOf writer [("row", .num "1")]) =
        .ok writer := rfl
    obtain rfl := Except.ok.inj (hactive.symm.trans hresolve)
    have hinput : parseObjectInput writer (.obj [("row", .num "1")]) = some [("row", .num "1")] := rfl
    obtain rfl := Option.some.inj (hinput.symm.trans hparse)
    rw [requested_approvedRun hrequested]
    decide

/-- **A call that was approved for one row writes another one.** -/
theorem not_bindsApproval_changedRun :
    ¬ Along (step (.single writer 32)) (BindsApproval (.single writer 32)) {}
      (continuedRun [("row", .num "2")]) := by
  intro h
  rw [continuedRun, List.append_cons] at h
  have hexecuted : ∃ risk permission, (step (.single writer 32) (.resume 1 "" true 6)
      (run (step (.single writer 32)) {} (approvedRun ++
        [.start 1 .dispatch (invocationOf writer [("row", .num "2")]) "call" false 5]))).log =
      (run (step (.single writer 32)) {} (approvedRun ++
        [.start 1 .dispatch (invocationOf writer [("row", .num "2")]) "call" false 5])).log ++
      [.executed "call" "run" writer [("row", .num "2")] risk (some permission)] := ⟨_, _, rfl⟩
  obtain ⟨risk, permission, hexecuted⟩ := hexecuted
  obtain ⟨-, requested, plan, hrequested, hsame⟩ := h.at_event _ hexecuted
  rw [requested_approvedRun hrequested] at hsame
  exact absurd hsame (by decide)

end Core

end Tools
