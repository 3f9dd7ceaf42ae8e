import NexusPilot.Tools.Once

/-!
# A finished call stays as it is

Both operations end in a `catch` that stores an error under the identifier of the call, whatever was stored
there before. So a finished call is overwritten by a later one that does not fit it: another identity, an
input that its tool rejects, or an authorization that fails or asks for a Permission again.

`CarefulFinished` is the condition under which that does not happen, for calls and decisions that come one
after the other: a later call of a finished one is accepted by it (or is not one of the core's tools at
all), and a later `authorize` of a completed one resolves its risk and does not have to ask. Then every row
that is finished at some time is the same at every later time.
-/

namespace Tools

open Machine

namespace Core

variable {cfg : Config} {s s' : Core} {e : Event} {id : String} {key : Nat} {call : Call} {tool : Tool}

/-! ### What is asked of a run -/

/-- **Finished calls stay as they are**, from any point of the run on. -/
def KeepsFinished (cfg : Config) (events : List Event) : Prop :=
  ∀ before after, events = before ++ after → ∀ id row,
    (run (step cfg) {} before).toolCalls.lookup id = some row → row.finished = true →
    (run (step cfg) {} events).toolCalls.lookup id = some row

/-- A call of the identifier is under way. -/
abbrev LiveAt (calls : Table Nat Call) (id : String) (key : Nat) : Prop :=
  CallAt Position.live calls id key

/-- The invocation names no tool that the core would store a call for. -/
def Unknown (cfg : Config) (kind : CallKind) (invocation : Invocation) : Prop :=
  (∃ thrown, resolveActiveTool cfg invocation = .error thrown) ∧
    (kind = .authorize → cfg.getCanonicalId invocation.providerName = none)

/-- An authorization that ends without writing: its risk is there, within the limits, and nothing has
to be asked. -/
def Settles (cfg : Config) (s : Core) (call : Call) : Prop :=
  ∃ tool risk, call.tool = some tool ∧ call.position = .resolved (.ok risk) ∧
    withinCeiling risk call.invocation.snapshot = true ∧
    match s.permissions.lookup call.toolCallId with
    | some permission => bindsPermission permission call tool = true
    | none => cfg.evaluatePolicy tool risk call.invocation.snapshot ≠ .ask

/-- **The condition.** Calls and decisions of one identifier come one after the other; a call of a finished
one is accepted by it, and an authorization of a finished one settles. -/
def CarefulFinished (cfg : Config) (s : Core) : Event → Prop
  | .start _ kind invocation id _ _ =>
    (∀ key, ¬ LiveAt s.calls id key) ∧
      ∀ row, s.toolCalls.lookup id = some row → row.finished = true →
        Accepts cfg row invocation ∨ Unknown cfg kind invocation
  | .respond id _ _ _ => ∀ key, ¬ LiveAt s.calls id key
  | .resume key _ _ _ =>
    ∀ call row, s.calls.lookup key = some call → call.kind = .authorize →
      s.toolCalls.lookup call.toolCallId = some row → row.finished = true → Settles cfg s call
  | _ => True

/-! ### Calls that write nothing -/

theorem releaseReserved_toolCalls (s : Core) (call : Call) :
    (s.releaseReserved call).toolCalls = s.toolCalls := by
  rw [releaseReserved_eq]

/-- A call of a finished one that is accepted, or of no known tool, writes nothing. -/
theorem toolCalls_start (key : Nat) (aborted : Bool) (now : Nat) {kind : CallKind}
    {invocation : Invocation} {row : ToolCall} (hrow : s.toolCalls.lookup id = some row) (hfinished : row.finished = true)
    (hfits : Accepts cfg row invocation ∨ Unknown cfg kind invocation) :
    (s.start cfg key kind invocation id aborted now).toolCalls = s.toolCalls := by
  rcases hfits with ⟨tool, input, htool, hinput, hmatches⟩ | ⟨⟨thrown, hthrown⟩, hcanonical⟩
  · obtain ⟨result, hresult⟩ : ∃ result, row.result = some result := by
      rw [ToolCall.finished, Bool.and_eq_true] at hfinished
      exact Option.isSome_iff_exists.1 hfinished.2
    cases kind with
    | dispatch =>
      simp only [start, htool, hinput, hrow, startExisting, hmatches, hfinished, hresult]
      rfl
    | authorize =>
      simp only [start, htool, hinput, hrow, startExisting, hmatches]
      split
      · cases ‹_›
      · split
        · rfl
        · rfl
  · cases kind with
    | dispatch =>
      simp only [start, hthrown, fail, failDispatch]
      exact releaseReserved_toolCalls s _
    | authorize =>
      simp only [start, hthrown, fail, failAuthorize, hcanonical rfl]
      exact releaseReserved_toolCalls s _

/-- An authorization that settles writes nothing. -/
theorem toolCalls_resume {permissionId : String} {accepted : Bool} {now : Nat}
    (hkind : call.kind = .authorize) (h : Settles cfg s call) :
    (s.resume cfg key call permissionId accepted now).toolCalls = s.toolCalls := by
  obtain ⟨tool, risk, htool, hposition, hceiling, hpermission⟩ := h
  simp only [resume, htool, hposition, resumeResolved, hkind, authorizeResolved, hceiling]
  split
  · cases ‹_›
  · split
    · next permission hlookup =>
      rw [hlookup] at hpermission
      split
      · next hbinds => cases hpermission.symm.trans hbinds
      · split
        · exact releaseReserved_toolCalls s _
        · exact releaseReserved_toolCalls s _
    · next hlookup =>
      rw [hlookup] at hpermission
      split
      · exact releaseReserved_toolCalls s _
      · exact releaseReserved_toolCalls s _
      · next hask => exact absurd hask hpermission

/-! ### The invariant -/

/-- **The invariant.** Of an identifier at most one call is under way, and when its row is finished that
call is an authorization that waits. -/
structure Orderly (id : String) (s : Core) : Prop where
  unique : ∀ key key', LiveAt s.calls id key → LiveAt s.calls id key' → key = key'
  finished : ∀ row, s.toolCalls.lookup id = some row → row.finished = true →
    ∀ key call, s.calls.lookup key = some call → call.toolCallId = id → call.position.live = true →
      call.kind = .authorize ∧ call.position.waiting = true

/-- Nothing of the identifier is under way after the step. -/
theorem orderly_of_idle (h : ∀ key, ¬ LiveAt s.calls id key) : Orderly id s where
  unique key _ hlive := absurd hlive (h key)
  finished _ _ _ key call hcall hid hlive := absurd ⟨call, hcall, hid, hlive⟩ (h key)

/-- The calls of other identifiers. -/
theorem Orderly.of_eq (h : Orderly id s) (hrow : s'.toolCalls.lookup id = s.toolCalls.lookup id)
    (hcalls : ∀ key call, s'.calls.lookup key = some call → call.toolCallId = id →
      call.position.live = true → ∃ old, s.calls.lookup key = some old ∧ old.toolCallId = id ∧
        old.position.live = true ∧ old.kind = call.kind ∧
        (old.position.waiting = true → call.position.waiting = true)) : Orderly id s' where
  unique := by
    rintro key key' ⟨call, hcall, hid, hlive⟩ ⟨call', hcall', hid', hlive'⟩
    obtain ⟨old, hold, hoid, holive, -⟩ := hcalls key call hcall hid hlive
    obtain ⟨old', hold', hoid', holive', -⟩ := hcalls key' call' hcall' hid' hlive'
    exact h.unique key key' ⟨old, hold, hoid, holive⟩ ⟨old', hold', hoid', holive'⟩
  finished row hlookup hfinished key call hcall hid hlive := by
    rw [hrow] at hlookup
    obtain ⟨old, hold, hoid, holive, hkind, hwaiting⟩ := hcalls key call hcall hid hlive
    obtain ⟨hkind', hwaiting'⟩ := h.finished row hlookup hfinished key old hold hoid holive
    exact ⟨hkind ▸ hkind', hwaiting hwaiting'⟩

variable {call' : Call}

section

variable (h : Orderly id s) (hcalls : s'.calls = s.calls.insert key call')
include h hcalls

/-- A call of another identifier moves. -/
theorem Orderly.other (hid : call'.toolCallId ≠ id) (hrow : s'.toolCalls.lookup id = s.toolCalls.lookup id) :
    Orderly id s' := by
  refine h.of_eq hrow fun other found hfound hfid hlive ↦ ?_
  rw [hcalls, Table.lookup_insert] at hfound
  split at hfound
  · obtain rfl := Option.some.inj hfound
    exact absurd hfid hid
  · exact ⟨found, hfound, hfid, hlive, rfl, fun hw ↦ hw⟩

/-- A call goes on, and the row stays. -/
theorem Orderly.moved (hcall : s.calls.lookup key = some call) (hlive : call.position.live = true)
    (hid : call'.toolCallId = call.toolCallId) (hkind : call'.kind = call.kind)
    (hwaiting : call.position.waiting = true → call'.position.waiting = true)
    (hrow : s'.toolCalls.lookup id = s.toolCalls.lookup id) : Orderly id s' := by
  refine h.of_eq hrow fun other found hfound hfid hflive ↦ ?_
  rw [hcalls, Table.lookup_insert] at hfound
  split at hfound
  · next heq =>
    obtain rfl := Option.some.inj hfound
    exact ⟨call, heq ▸ hcall, hid ▸ hfid, hlive, hkind.symm, hwaiting⟩
  · exact ⟨found, hfound, hfid, hflive, rfl, fun hw ↦ hw⟩

/-- The only call under way returns. -/
theorem Orderly.returned (hcall : s.calls.lookup key = some call) (hlive : call.position.live = true)
    (hid : call.toolCallId = id) (hdone : call'.position.live = false) : Orderly id s' := by
  refine orderly_of_idle fun other hother ↦ ?_
  rw [hcalls] at hother
  have hkey := h.unique other key (callAt_of_insert hdone hother) ⟨call, hcall, hid, hlive⟩
  rw [LiveAt, callAt_insert, if_pos hkey, hdone] at hother
  cases hother.2

/-- A call returns, of the identifier or of another one. -/
theorem Orderly.returns (hcall : s.calls.lookup key = some call) (hlive : call.position.live = true)
    (hid : call'.toolCallId = call.toolCallId) (hdone : call'.position.live = false)
    (hrow : call.toolCallId ≠ id → s'.toolCalls.lookup id = s.toolCalls.lookup id) : Orderly id s' := by
  rcases eq_or_ne call.toolCallId id with heq | hne
  · exact h.returned hcalls hcall hlive heq hdone
  · exact h.other hcalls (hid ▸ hne) (hrow hne)

/-- A call begins, where nothing of its identifier is under way. -/
theorem Orderly.started (hnone : call'.toolCallId = id → ∀ other, ¬ LiveAt s.calls id other)
    (hrow : call'.toolCallId ≠ id → s'.toolCalls.lookup id = s.toolCalls.lookup id)
    (hfinished : call'.position.live = true → ∀ row, s'.toolCalls.lookup call'.toolCallId = some row →
      row.finished = true → call'.kind = .authorize ∧ call'.position.waiting = true) :
    Orderly id s' := by
  rcases eq_or_ne call'.toolCallId id with rfl | hne
  · have hkey {other : Nat} (hother : LiveAt s'.calls call'.toolCallId other) : other = key := by
      rw [hcalls, LiveAt, callAt_insert] at hother
      split at hother
      · assumption
      · exact absurd hother (hnone rfl other)
    refine ⟨fun _ _ ho ho' ↦ (hkey ho).trans (hkey ho').symm, ?_⟩
    intro row hlookup hrow' other found hfound hfid hlive
    obtain rfl := hkey ⟨found, hfound, hfid, hlive⟩
    rw [hcalls, Table.lookup_insert, if_pos rfl] at hfound
    obtain rfl := Option.some.inj hfound
    exact hfinished hlive row hlookup hrow'
  · exact h.other hcalls hne (hrow hne)

/-- A row that is written for a call that goes on, and is not finished. -/
theorem Orderly.running {row : ToolCall} (hcall : s.calls.lookup key = some call)
    (hlive : call.position.live = true) (hid : call'.toolCallId = call.toolCallId)
    (hrows : s'.toolCalls = s.toolCalls.insert call.toolCallId row) (hrow : row.finished = false) :
    Orderly id s' := by
  rcases eq_or_ne call.toolCallId id with rfl | hne
  · refine ⟨fun other other' ho ho' ↦ ?_, fun found hfound hfinished ↦ ?_⟩
    · rw [hcalls] at ho ho'
      exact h.unique other other' (callAt_of_insert_same hcall hid hlive ho)
        (callAt_of_insert_same hcall hid hlive ho')
    · rw [hrows, Table.lookup_insert, if_pos rfl] at hfound
      rw [← Option.some.inj hfound, hrow] at hfinished
      cases hfinished
  · refine h.other hcalls (hid ▸ hne) ?_
    rw [hrows, Table.lookup_insert, if_neg hne.symm]

end

theorem lookup_failedRows {before rows : Table String ToolCall} (hrows : FailedRows before call rows)
    (hne : call.toolCallId ≠ id) : rows.lookup id = before.lookup id := by
  rcases hrows with rfl | ⟨row, -, -, rfl⟩
  · rfl
  · rw [Table.lookup_insert, if_neg hne.symm]

theorem not_finished {row : ToolCall} (h : row.state ≠ .completed) (h' : row.state ≠ .error) :
    row.finished = false := by
  simp [ToolCall.finished, h, h']

section

variable (h : Orderly id s) (hc : CarefulFinished cfg s e)
include h hc

theorem orderly_step : Orderly id (step cfg e s) := by
  have hstep := step_cases cfg e s
  revert hstep hc
  generalize step cfg e s = s'
  intro hc hstep
  have hsame (hrow : s'.toolCalls.lookup id = s.toolCalls.lookup id) (hcalls : s'.calls = s.calls) :
      Orderly id s' := by
    refine h.of_eq hrow fun key call hcall hid hlive ↦ ?_
    rw [hcalls] at hcall
    exact ⟨call, hcall, hid, hlive, rfl, fun hw ↦ hw⟩
  cases hstep with
  | idle => exact h
  | refused _ hcall _ _ hrows _ =>
    refine h.started rfl (fun hid ↦ ?_) (fun hne ↦ lookup_failedRows hrows hne) fun hlive ↦ nomatch hlive
    rw [← hid]
    exact hcall.toolCallId_eq ▸ hc.1
  | notStarted _ hid' _ _ hrows _ =>
    refine h.started rfl (fun hid ↦ ?_) (fun hne ↦ lookup_failedRows hrows hne) fun hlive ↦ nomatch hlive
    rw [← hid]
    exact hid' ▸ hc.1
  | begins _ hcall hrow =>
    refine h.started rfl (fun hid ↦ ?_) (fun _ ↦ rfl) fun _ row hlookup ↦ ?_
    · rw [← hid]
      exact hcall.toolCallId_eq ▸ hc.1
    · rw [hcall.toolCallId_eq] at hlookup
      cases hrow.symm.trans hlookup
  | @continues _ kind _ _ _ _ _ _ _ found _ hcall hrow _ hdispatch _ _ _ hwaiting =>
    refine h.started rfl (fun hid ↦ ?_) (fun _ ↦ rfl) fun _ row hlookup hfinished ↦ ⟨?_, hwaiting⟩
    · rw [← hid]
      exact hcall.toolCallId_eq ▸ hc.1
    · rw [hcall.toolCallId_eq] at hlookup
      obtain rfl := Option.some.inj (hrow.symm.trans hlookup)
      cases kind with
      | authorize => exact hcall.kind_eq
      | dispatch =>
        have hstate := hdispatch rfl
        rw [not_finished (by rw [hstate]; decide) (by rw [hstate]; decide)] at hfinished
        cases hfinished
  | replays _ hid' =>
    refine h.started rfl (fun hid ↦ ?_) (fun _ ↦ rfl) fun hlive ↦ nomatch hlive
    rw [← hid]
    exact hid' ▸ hc.1
  | waits hcall _ hwaiting hsame' hwaiting' =>
    exact h.moved rfl hcall (live_of_waiting hwaiting) hsame'.toolCallId hsame'.kind
      (fun _ ↦ hwaiting') rfl
  | prepares hcall _ hposition =>
    exact h.moved rfl hcall (by rw [hposition]; rfl) rfl rfl (fun _ ↦ rfl) rfl
  | fails _ hcall hlive hsame' hrows =>
    exact h.returns rfl hcall hlive hsame'.toolCallId rfl (lookup_failedRows hrows)
  | answers hcall hlive hsame' =>
    exact h.returns rfl hcall hlive hsame'.toolCallId rfl fun _ ↦ rfl
  | requests _ hcall _ hposition _ _ _ _ _ _ hid' =>
    refine h.returns rfl hcall (by rw [hposition]; rfl) hid' rfl fun hne ↦ ?_
    show (s.toolCalls.insert _ _).lookup id = _
    rw [Table.lookup_insert, if_neg hne.symm]
  | executes hcall _ _ hposition hsame' _ _ _ hrow =>
    exact h.running rfl hcall (by rw [hposition]; rfl) hsame'.toolCallId rfl
      (not_finished (by rw [hrow.state]; decide) (by rw [hrow.state]; decide))
  | unavailable hcall _ hwaiting hsame' _ _ hrow =>
    exact h.running rfl hcall (live_of_waiting hwaiting) hsame'.toolCallId rfl
      (not_finished (by rw [hrow.state]; decide) (by rw [hrow.state]; decide))
  | settles hcall hposition =>
    refine h.moved rfl hcall (by rw [hposition]; rfl) rfl rfl (fun hw ↦ ?_) rfl
    rw [hposition] at hw
    cases hw
  | completes hcall hposition =>
    refine h.returns rfl hcall (by rw [hposition]; rfl) rfl rfl fun hne ↦ ?_
    show (s.toolCalls.insert _ _).lookup id = _
    rw [Table.lookup_insert, if_neg hne.symm]
  | proceeds | background | approves => exact hsame rfl rfl
  | @denies toolCallId =>
    rcases eq_or_ne toolCallId id with rfl | hne
    · exact orderly_of_idle hc
    · refine hsame ?_ rfl
      show (s.toolCalls.insert _ _).lookup id = _
      rw [Table.lookup_insert, if_neg hne.symm]

/-- A call that is resumed on a finished row is an authorization that settles. -/
theorem toolCalls_step_of_resumes {row : ToolCall} (hrow : s.toolCalls.lookup id = some row)
    (hfinished : row.finished = true) (he : e.resumes = some key) (hcall : s.calls.lookup key = some call)
    (hid : call.toolCallId = id) (hlive : call.position.live = true) : (step cfg e s).toolCalls = s.toolCalls := by
  cases e with
  | resume key' permissionId accepted now =>
    obtain rfl := Option.some.inj he
    have hkind := (h.finished row hrow hfinished key' call hcall hid hlive).1
    have hsettles := hc call row hcall hkind (hid ▸ hrow) hfinished
    rw [step, hcall]
    exact toolCalls_resume hkind hsettles
  | _ => cases he

/-- **A finished row stays as it is.** -/
theorem keepsFinished_step {row : ToolCall} (hrow : s.toolCalls.lookup id = some row)
    (hfinished : row.finished = true) : (step cfg e s).toolCalls.lookup id = some row := by
  have hresumes {key : Nat} {call : Call} (he : e.resumes = some key)
      (hcall : s.calls.lookup key = some call) (hlive : call.position.live = true)
      (hid : call.toolCallId = id) : (step cfg e s).toolCalls = s.toolCalls :=
    toolCalls_step_of_resumes h hc hrow hfinished he hcall hid hlive
  have hbusy {key : Nat} {call : Call} (hcall : s.calls.lookup key = some call)
      (hlive : call.position.live = true) (hid : call.toolCallId = id) :
      call.kind = .authorize ∧ call.position.waiting = true :=
    h.finished row hrow hfinished key call hcall hid hlive
  have hinsert {other : String} {row' : ToolCall} (hne : other ≠ id) :
      (s.toolCalls.insert other row').lookup id = some row := by
    rw [Table.lookup_insert, if_neg hne.symm, hrow]
  have hstep := step_cases cfg e s
  revert hstep hc hresumes
  generalize hs' : step cfg e s = s'
  intro hc hresumes hstep
  cases hstep with
  | idle => exact hrow
  | refused _ hcall hnone _ hrows _ =>
    refine (lookup_failedRows hrows fun heq ↦ ?_).trans hrow
    rw [hcall.toolCallId_eq] at heq
    rw [heq] at hnone
    cases hnone.symm.trans hrow
  | @notStarted key kind invocation toolCallId aborted now call _ _ _ _ hkey hid _ _ hrows _ =>
    rcases eq_or_ne call.toolCallId id with heq | hne
    · -- the finished call accepts the new one, or there is nothing to write
      obtain rfl : toolCallId = id := hid.symm.trans heq
      have hstart := toolCalls_start key aborted now hrow hfinished (hc.2 row hrow hfinished)
      rw [step, hkey] at hs'
      have hrows' := congrArg Core.toolCalls hs'
      exact (congrArg _ (hrows'.symm.trans hstart)).trans hrow
    · exact (lookup_failedRows hrows hne).trans hrow
  | begins => exact hrow
  | continues => exact hrow
  | replays => exact hrow
  | waits => exact hrow
  | prepares => exact hrow
  | @fails _ _ call _ _ _ _ he hcall hlive _ hrows =>
    rcases eq_or_ne call.toolCallId id with heq | hne
    · exact (congrArg _ (hresumes he hcall hlive heq)).trans hrow
    · exact (lookup_failedRows hrows hne).trans hrow
  | answers => exact hrow
  | @requests _ _ call _ _ _ _ _ _ _ _ he hcall _ hposition =>
    rcases eq_or_ne call.toolCallId id with heq | hne
    · exact (congrArg _ (hresumes he hcall (by rw [hposition]; rfl) heq)).trans hrow
    · exact hinsert hne
  | @executes _ _ call _ _ _ _ hcall _ hkind hposition =>
    refine hinsert fun heq ↦ ?_
    cases hkind.symm.trans (hbusy hcall (by rw [hposition]; rfl) heq).1
  | unavailable hcall hkind hwaiting =>
    refine hinsert fun heq ↦ ?_
    cases hkind.symm.trans (hbusy hcall (live_of_waiting hwaiting) heq).1
  | settles => exact hrow
  | completes hcall hposition =>
    refine hinsert fun heq ↦ ?_
    have hwaiting := (hbusy hcall (by rw [hposition]; rfl) heq).2
    rw [hposition] at hwaiting
    cases hwaiting
  | proceeds => exact hrow
  | background => exact hrow
  | approves => exact hrow
  | denies _ hfound hstate =>
    refine hinsert fun heq ↦ ?_
    rw [heq] at hfound
    obtain rfl := Option.some.inj (hfound.symm.trans hrow)
    rw [not_finished (by rw [hstate]; decide) (by rw [hstate]; decide)] at hfinished
    cases hfinished

end

/-! ### Every run -/

/-- The row of the identifier, once it is finished. -/
def FinishedAs (id : String) (row : ToolCall) (s : Core) : Prop :=
  Orderly id s ∧ s.toolCalls.lookup id = some row

theorem orderly_empty (id : String) : Orderly id {} :=
  orderly_of_idle fun _ ⟨_, h, _⟩ ↦ nomatch h

/-- **A finished call is immutable** in every run of calls and decisions that come one after the other, in
which later calls fit the finished ones. -/
theorem keepsFinished_of_careful (cfg : Config) (events : List Event)
    (h : Along (step cfg) (CarefulFinished cfg) {} events) : KeepsFinished cfg events := by
  intro before after heq id row hrow hfinished
  subst heq
  rw [along_append] at h
  have horderly : Orderly id (run (step cfg) {} before) :=
    run_invariant (fun _ _ hs hc ↦ orderly_step hs hc) (orderly_empty id) h.1
  have hstep (s : Core) (e : Event) (hs : FinishedAs id row s) (hc : CarefulFinished cfg s e) :
      FinishedAs id row (step cfg e s) :=
    ⟨orderly_step hs.1 hc, keepsFinished_step hs.1 hc hs.2 hfinished⟩
  rw [run_append]
  exact (run_invariant hstep ⟨horderly, hrow⟩ h.2).2

theorem keepsFinished_repeatedRun :
    KeepsFinished (.single echo 32)
      (repeatedRun ++ [.start 1 .dispatch (invocationOf echo []) "call" false 4]) := by
  refine keepsFinished_of_careful _ _ ?_
  have hdispatch (n : Nat) (hn : n ≤ 4) (key : Nat) (call : Call)
      (hcall : (run (step (.single echo 32)) {} (repeatedRun.take n)).calls.lookup key = some call) :
      call.kind = .dispatch := by
    have hentries : ∀ n ≤ 4, ∀ entry ∈
        (run (step (.single echo 32)) {} (repeatedRun.take n)).calls.entries,
        entry.2.kind = .dispatch := by
      decide
    exact hentries n hn ⟨key, call⟩ (AList.mem_lookup_iff.1 hcall)
  have hlive : ∀ entry ∈ (run (step (.single echo 32)) {} repeatedRun).calls.entries,
      entry.2.position.live = false := by
    decide
  have hmatches : ((run (step (.single echo 32)) {} repeatedRun).toolCalls.lookup "call").all
      (matchesExisting · (invocationOf echo []) echo.id []) = true := by
    decide
  refine ⟨⟨fun _ ⟨_, h, _⟩ ↦ (nomatch h), fun _ h ↦ (nomatch h)⟩, ?_, trivial, ?_, ⟨?_, ?_⟩, trivial⟩
  · intro call row hcall hkind
    cases hkind.symm.trans (hdispatch 1 (by decide) 0 call hcall)
  · intro call row hcall hkind
    cases hkind.symm.trans (hdispatch 3 (by decide) 0 call hcall)
  · rintro key ⟨call, hcall, -, hcalllive⟩
    rw [hlive ⟨key, call⟩ (AList.mem_lookup_iff.1 hcall)] at hcalllive
    cases hcalllive
  · intro row hrow _
    refine .inl ⟨echo, [], rfl, rfl, ?_⟩
    rw [Option.all_eq_true] at hmatches
    exact hmatches row hrow

/-- **A completed call is overwritten** by a dispatch that belongs to another message: its identity does
not match, and the error is stored over the result. -/
theorem not_keepsFinished_foreignRun :
    ¬ KeepsFinished (.single echo 32)
      (repeatedRun ++
        [.start 1 .dispatch { invocationOf echo [] with messageId := "other" } "call" false 4]) := by
  intro h
  have hcompleted : ((run (step (.single echo 32)) {} repeatedRun).toolCalls.lookup "call").map
      (fun row ↦ (row.state, row.finished)) = some (.completed, true) := by
    decide
  have hfailed : ((run (step (.single echo 32)) {} (repeatedRun ++
      [.start 1 .dispatch { invocationOf echo [] with messageId := "other" } "call" false
        4])).toolCalls.lookup "call").map (·.state) = some .error := by
    decide
  obtain ⟨row, hrow, hstate⟩ := Option.map_eq_some_iff.1 hcompleted
  have hkept := h _ _ rfl "call" row hrow (congrArg Prod.snd hstate)
  rw [hkept] at hfailed
  cases (congrArg Prod.fst hstate).symm.trans (Option.some.inj hfailed)

end Core

end Tools
