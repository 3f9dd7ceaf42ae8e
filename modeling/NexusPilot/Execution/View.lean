import NexusPilot.Execution.Safety
import NexusPilot.Execution.Single

/-!
# What an execution sees of the manager

`Manager.view m o` is the `Local` state of the execution `o`. This module says what the operations of the
coordinator and of the artifact store do to it: an operation for an execution changes what that
execution sees of its entry and leaves the entries of the others alone, and the artifact store removes
by owner.
-/

namespace Execution

open Drivers Machine SqlExecutionCoordinator

/-! ### The entry of an execution -/

/-- The snapshot that is registered for an execution. -/
def registered (c : SqlExecutionCoordinator) (o : RawArtifactOwner) : Option SqlExecutionSnapshot :=
  ((c.entries.lookup o.tabId).filter fun entry ↦
    entry.snapshot.executionId == o.executionId).map (·.snapshot)

variable {c c' : SqlExecutionCoordinator} {o : RawArtifactOwner} {entry : ActiveSqlExecution}

theorem registered_eq_some_iff {s : SqlExecutionSnapshot} :
    registered c o = some s ↔
      ∃ entry, c.entries.lookup o.tabId = some entry ∧ entry.snapshot.executionId = o.executionId ∧
        entry.snapshot = s := by
  simp only [registered, Option.map_eq_some_iff, Option.filter_eq_some_iff, beq_iff_eq, and_assoc]

/-- What a coordinator registers depends on the entries alone. -/
theorem registered_congr (h : c'.entries.lookup o.tabId = c.entries.lookup o.tabId) :
    registered c' o = registered c o := by
  rw [registered, registered, h]

theorem registered_eq_none_of_lookup (h : c.entries.lookup o.tabId = some entry)
    (hne : entry.snapshot.executionId ≠ o.executionId) : registered c o = none := by
  rw [registered, h]
  simp [hne]

/-- An operation that changes the entries of one tab, where it finds the execution asked for. -/
theorem registered_of_put {tabId executionId : String} (entry' : ActiveSqlExecution)
    (hentry : c.entries.lookup tabId = some entry) (hid : entry.snapshot.executionId = executionId)
    (hid' : entry'.snapshot.executionId = executionId) (hput : ∀ other, c'.entries.lookup other =
      if other = tabId then some entry' else c.entries.lookup other) (o : RawArtifactOwner) :
    registered c' o =
      if o.tabId = tabId ∧ o.executionId = executionId then some entry'.snapshot
      else registered c o := by
  rcases eq_or_ne o.tabId tabId with htab | htab
  · rcases eq_or_ne o.executionId executionId with hexec | hexec
    · rw [if_pos ⟨htab, hexec⟩]
      refine registered_eq_some_iff.2 ⟨entry', ?_, hid'.trans hexec.symm, rfl⟩
      rw [hput, if_pos htab]
    · have hlookup : c'.entries.lookup o.tabId = some entry' := by rw [hput, if_pos htab]
      rw [if_neg fun h ↦ hexec h.2,
        registered_eq_none_of_lookup hlookup (hid'.trans_ne hexec.symm),
        registered_eq_none_of_lookup (htab ▸ hentry) (hid.trans_ne hexec.symm)]
  · rw [if_neg fun h ↦ htab h.1]
    exact registered_congr (by rw [hput, if_neg htab])

/-- What `update_snapshot` makes of a snapshot. -/
def updated (update : SqlExecutionSnapshot → IpcResult SqlExecutionSnapshot)
    (s : SqlExecutionSnapshot) : SqlExecutionSnapshot :=
  match update s with
  | .ok edited => edited.next
  | .error _ => s

section Update

variable {c : SqlExecutionCoordinator} {tabId executionId : String}
  {update : SqlExecutionSnapshot → IpcResult SqlExecutionSnapshot}

/-- `update_snapshot` changes the snapshot of the execution it is for, and no other. -/
theorem registered_updateSnapshot (hbelow : RevisionsBelow c)
    (hupdate : ∀ s edited, update s = .ok edited → Edit s edited) (o : RawArtifactOwner) :
    registered (c.updateSnapshot tabId executionId update).2 o =
      if o.tabId = tabId ∧ o.executionId = executionId then (registered c o).map (updated update)
      else registered c o := by
  cases hentry : c.entryMut tabId executionId with
  | error e =>
    have hsame : (c.updateSnapshot tabId executionId update).2 = c := by
      simp only [updateSnapshot, hentry]
    rw [hsame]
    split_ifs with ho
    · -- there is no such entry
      have hnone : registered c o = none := by
        by_contra hsome
        obtain ⟨s, hs⟩ := Option.ne_none_iff_exists'.1 hsome
        obtain ⟨entry, hlookup, hid, -⟩ := registered_eq_some_iff.1 hs
        rw [ho.1] at hlookup
        rw [entryMut_eq_ok_iff.2 ⟨hlookup, hid.trans ho.2⟩] at hentry
        cases hentry
      rw [hnone]
      rfl
    · rfl
  | ok entry =>
    obtain ⟨hlookup, hid⟩ := entryMut_eq_ok_iff.1 hentry
    have hself (ho : o.tabId = tabId ∧ o.executionId = executionId) :
        registered c o = some entry.snapshot :=
      registered_eq_some_iff.2 ⟨entry, ho.1 ▸ hlookup, hid.trans ho.2.symm, rfl⟩
    cases hedited : update entry.snapshot with
    | error e =>
      have hsame : (c.updateSnapshot tabId executionId update).2 = c := by
        simp only [updateSnapshot, hentry, hedited]
      rw [hsame]
      split_ifs with ho
      · rw [hself ho, Option.map_some, updated, hedited]
      · rfl
    | ok edited =>
      have hedit := hupdate _ _ hedited
      have hfits : edited.revision < u64Max := hedit.revision_eq ▸ hbelow _ _ hlookup
      rw [updateSnapshot_of_edit hlookup hid hedited hfits]
      refine (registered_of_put _ hlookup hid (hedit.executionId_eq.trans hid) (lookup_put c tabId _)
        o).trans ?_
      split_ifs with ho
      · rw [hself ho, Option.map_some, updated, hedited]
      · rfl

/-- `update_snapshot` answers for the execution that is registered, where the closure accepts. -/
theorem fst_updateSnapshot (hbelow : RevisionsBelow c)
    (hupdate : ∀ s edited, update s = .ok edited → Edit s edited) {o : RawArtifactOwner} :
    (∃ s, (c.updateSnapshot o.tabId o.executionId update).1 = .ok s) ↔
      ∃ s edited, registered c o = some s ∧ update s = .ok edited := by
  constructor
  · rintro ⟨s, hs⟩
    cases hentry : c.entryMut o.tabId o.executionId with
    | error e =>
      simp only [updateSnapshot, hentry] at hs
      cases hs
    | ok entry =>
      obtain ⟨hlookup, hid⟩ := entryMut_eq_ok_iff.1 hentry
      cases hedited : update entry.snapshot with
      | error e =>
        simp only [updateSnapshot, hentry, hedited] at hs
        cases hs
      | ok edited => exact ⟨_, edited, registered_eq_some_iff.2 ⟨entry, hlookup, hid, rfl⟩, hedited⟩
  · rintro ⟨s, edited, hs, hedited⟩
    obtain ⟨entry, hlookup, hid, rfl⟩ := registered_eq_some_iff.1 hs
    have hfits : edited.revision < u64Max :=
      (hupdate _ _ hedited).revision_eq ▸ hbelow _ _ hlookup
    exact ⟨edited.next, by rw [updateSnapshot_of_edit hlookup hid hedited hfits]⟩

end Update

/-! ### The operations of the coordinator -/

section Operations

variable {c : SqlExecutionCoordinator} {tabId executionId : String}

/-- The state of a snapshot, with the artifact that its outcome names. -/
def entryView (s : SqlExecutionSnapshot) : SqlExecutionState × Option String :=
  (s.state, s.outcome.bind SqlExecutionOutcome.artifactId?)

/-- What an execution sees of its entry. -/
def entryOf (c : SqlExecutionCoordinator) (o : RawArtifactOwner) :
    Option (SqlExecutionState × Option String) :=
  (registered c o).map entryView

/-- The operation is for the execution `o`. -/
abbrev For (tabId executionId : String) (o : RawArtifactOwner) : Prop :=
  o.tabId = tabId ∧ o.executionId = executionId

section

variable (hbelow : RevisionsBelow c)
include hbelow

/-- Operations that edit by `update_snapshot`, with their effect on the state and the outcome. -/
theorem entryOf_updateSnapshot {update : SqlExecutionSnapshot → IpcResult SqlExecutionSnapshot}
    (hupdate : ∀ s edited, update s = .ok edited → Edit s edited)
    {f : SqlExecutionState × Option String → SqlExecutionState × Option String}
    (hf : ∀ s, entryView (updated update s) = f (entryView s)) (o : RawArtifactOwner) :
    entryOf (c.updateSnapshot tabId executionId update).2 o =
      if For tabId executionId o then (entryOf c o).map f else entryOf c o := by
  rw [entryOf, registered_updateSnapshot hbelow hupdate]
  split_ifs with ho
  · rw [entryOf, Option.map_map, Option.map_map]
    exact congrArg (Option.map · (registered c o)) (funext hf)
  · rfl

theorem entryOf_transition (state : SqlExecutionState) (now : ℕ) (o : RawArtifactOwner) :
    entryOf (c.transition tabId executionId state now).2 o =
      if For tabId executionId o then
        (entryOf c o).map fun e ↦ if isValidTransition e.1 state then (state, e.2) else e
      else entryOf c o := by
  refine entryOf_updateSnapshot hbelow (fun _ _ ↦ .of_transition) (fun s ↦ ?_) o
  cases hvalid : isValidTransition s.state state <;>
    simp [updated, SqlExecutionSnapshot.transition, SqlExecutionSnapshot.next, entryView, hvalid]

theorem entryOf_completeSuccess (outcome : SqlExecutionOutcome) (now : ℕ) (o : RawArtifactOwner) :
    entryOf (c.completeSuccess tabId executionId outcome now).2 o =
      if For tabId executionId o then
        (entryOf c o).map fun e ↦
          if isValidTransition e.1 .succeeded then (.succeeded, outcome.artifactId?) else e
      else entryOf c o := by
  refine entryOf_updateSnapshot hbelow (fun _ _ ↦ .of_completeSuccess) (fun s ↦ ?_) o
  cases hvalid : isValidTransition s.state .succeeded <;>
    simp [updated, SqlExecutionSnapshot.completeSuccess, SqlExecutionSnapshot.next, entryView, hvalid]

theorem entryOf_completeFailure {state : SqlExecutionState}
    (hstate : state = .failed ∨ state = .timedOut ∨ state = .cancelFailed) (failure : SqlExecutionFailure)
    (now : ℕ) (o : RawArtifactOwner) :
    entryOf (c.completeFailure tabId executionId state failure now).2 o =
      if For tabId executionId o then
        (entryOf c o).map fun e ↦ if isValidTransition e.1 state then (state, none) else e
      else entryOf c o := by
  rw [completeFailure, if_pos hstate]
  refine entryOf_updateSnapshot hbelow (fun _ _ ↦ .of_completeFailure hstate) (fun s ↦ ?_) o
  cases hvalid : isValidTransition s.state state <;>
    simp [updated, SqlExecutionSnapshot.completeFailure, SqlExecutionSnapshot.next, entryView, hvalid]

theorem entryOf_completeCancel (message : String) (now : ℕ) (o : RawArtifactOwner) :
    entryOf (c.completeCancel tabId executionId message now).2 o =
      if For tabId executionId o then
        (entryOf c o).map fun e ↦ if isValidTransition e.1 .canceled then (.canceled, e.2) else e
      else entryOf c o := by
  refine entryOf_updateSnapshot hbelow (fun _ _ ↦ .of_completeCancel) (fun s ↦ ?_) o
  cases hvalid : isValidTransition s.state .canceled <;>
    simp [updated, SqlExecutionSnapshot.completeCancel, SqlExecutionSnapshot.next, entryView, hvalid]

theorem entryOf_updateSummary (summary : SqlExecutionSummary) (progressAvailable : Bool) (o : RawArtifactOwner) :
    entryOf (c.updateSummary tabId executionId summary progressAvailable).2 o = entryOf c o := by
  refine (entryOf_updateSnapshot (f := id) hbelow (fun _ _ ↦ .of_updateSummary) (fun s ↦ ?_) o).trans ?_
  · rw [updated, SqlExecutionSnapshot.updateSummary]
    cases isTerminal s.state <;> rfl
  · rw [Option.map_id_fun, id_eq, ite_self]

end

/-- The edit of `append_warning`. -/
def warned (message : String) (s : SqlExecutionSnapshot) : IpcResult SqlExecutionSnapshot :=
  if !isTerminal s.state && (!s.observationWarnings.contains message &&
      s.observationWarnings.length < maxObservationWarnings) then
    .ok { s with observationWarnings := s.observationWarnings ++ [message] }
  else .error artifactNotFound

theorem snd_appendWarning (c : SqlExecutionCoordinator) (tabId executionId message : String) :
    (c.appendWarning tabId executionId message).2 =
      (c.updateSnapshot tabId executionId (warned (normalizeWarning message))).2 := by
  rw [appendWarning, updateSnapshot]
  cases c.entryMut tabId executionId with
  | error e => rfl
  | ok entry =>
    show (if isTerminal entry.snapshot.state then _ else if _ then _ else _ :
      IpcResult SqlExecutionSnapshot × SqlExecutionCoordinator).2 = _
    dsimp only [warned]
    cases isTerminal entry.snapshot.state with
    | true => rfl
    | false =>
      cases !entry.snapshot.observationWarnings.contains (normalizeWarning message) &&
        decide (entry.snapshot.observationWarnings.length < maxObservationWarnings) with
      | true => rfl
      | false => rfl

theorem entryOf_appendWarning (hbelow : RevisionsBelow c) (message : String) (o : RawArtifactOwner) :
    entryOf (c.appendWarning tabId executionId message).2 o = entryOf c o := by
  rw [snd_appendWarning]
  refine (entryOf_updateSnapshot (f := id) hbelow (fun s edited h ↦ ?_) (fun s ↦ ?_) o).trans ?_
  · obtain ⟨hactive, h⟩ := ite_ok_else_error_eq_ok_iff.1 h
    rw [Bool.and_eq_true, Bool.not_eq_true'] at hactive
    exact h ▸ .warning _ hactive.1
  · rw [updated, warned]
    split_ifs <;> rfl
  · rw [Option.map_id_fun, id_eq, ite_self]

variable {o : RawArtifactOwner} {c' : SqlExecutionCoordinator}

/-- What an execution sees of its entry, where the coordinator finds it. -/
theorem entryOf_of_lookup {entry : ActiveSqlExecution} (hlookup : c.entries.lookup tabId = some entry)
    (hid : entry.snapshot.executionId = executionId) (ho : For tabId executionId o) :
    entryOf c o = some (entryView entry.snapshot) := by
  rw [entryOf, registered_eq_some_iff.2 ⟨entry, ho.1 ▸ hlookup, hid.trans ho.2.symm, rfl⟩]
  rfl

/-- And what it does not see. -/
theorem exists_of_entryOf (ho : For tabId executionId o) {e : SqlExecutionState × Option String}
    (h : entryOf c o = some e) :
    ∃ entry, c.entries.lookup tabId = some entry ∧ entry.snapshot.executionId = executionId ∧
      entryView entry.snapshot = e := by
  obtain ⟨s, hs, he⟩ := Option.map_eq_some_iff.1 h
  obtain ⟨entry, hlookup, hid, rfl⟩ := registered_eq_some_iff.1 hs
  exact ⟨entry, ho.1 ▸ hlookup, hid.trans ho.2, he⟩

theorem entryOf_beginCancel (hbelow : RevisionsBelow c) (tabId executionId : String)
    (o : RawArtifactOwner) :
    entryOf (c.beginCancel tabId executionId).2 o =
      if For tabId executionId o then
        (entryOf c o).map fun e ↦ if isValidTransition e.1 .canceling then (.canceling, e.2) else e
      else entryOf c o := by
  have hcancels := cancels_beginCancel c tabId executionId
  generalize c.beginCancel tabId executionId = r at hcancels
  -- an entry that is not moved is seen as it was
  have hkept (hnot : ∀ entry, c.entries.lookup tabId = some entry →
      entry.snapshot.executionId = executionId →
      isValidTransition entry.snapshot.state .canceling = false) :
      entryOf c o = if For tabId executionId o then
        (entryOf c o).map fun e ↦ if isValidTransition e.1 .canceling then (.canceling, e.2) else e
      else entryOf c o := by
    split_ifs with ho
    · cases he : entryOf c o with
      | none => rfl
      | some e =>
        obtain ⟨entry, hlookup, hid, rfl⟩ := exists_of_entryOf ho he
        rw [Option.map_some, if_neg (by simp [entryView, hnot entry hlookup hid])]
    · rfl
  cases hcancels with
  | refused _ hrefused => exact hkept fun entry hlookup hid ↦ (hrefused entry hlookup hid).2
  | overflowed _ hlookup _ _ hmax => exact absurd (hbelow _ _ hlookup) (Nat.not_lt.2 hmax)
  | @repeated _ entry hlookup _ hstate =>
    refine (show entryOf _ o = entryOf c o from rfl).trans (hkept fun other hother _ ↦ ?_)
    obtain rfl := Option.some.inj (hlookup.symm.trans hother)
    rw [hstate]
    rfl
  | @accepted _ entry hlookup hid hvalid =>
    have hput := registered_of_put { entry with
      snapshot := SqlExecutionSnapshot.next { entry.snapshot with state := .canceling } } hlookup hid
      hid (lookup_put c tabId _) o
    refine (congrArg (Option.map entryView) hput).trans ?_
    split_ifs with ho
    · rw [entryOf_of_lookup hlookup hid ho]
      exact congrArg some (if_pos hvalid).symm
    · rfl

/-- `begin_cancel` answers for an execution that is canceling or was moved there. -/
theorem entryOf_of_beginCancel_ok (hbelow : RevisionsBelow c) {o : RawArtifactOwner}
    {s : SqlExecutionSnapshot} (h : (c.beginCancel o.tabId o.executionId).1 = .ok s) :
    ∃ a, entryOf (c.beginCancel o.tabId o.executionId).2 o = some (.canceling, a) := by
  have hcancels := cancels_beginCancel c o.tabId o.executionId
  have hentry := entryOf_beginCancel hbelow o.tabId o.executionId o
  rw [if_pos ⟨rfl, rfl⟩] at hentry
  generalize c.beginCancel o.tabId o.executionId = r at hcancels hentry h
  rw [hentry]
  cases hcancels with
  | refused => cases h
  | overflowed => cases h
  | @repeated _ entry hlookup hid hstate =>
    rw [entryOf_of_lookup hlookup hid ⟨rfl, rfl⟩, Option.map_some, entryView, hstate]
    exact ⟨_, rfl⟩
  | @accepted _ entry hlookup hid hvalid =>
    rw [entryOf_of_lookup hlookup hid ⟨rfl, rfl⟩]
    exact ⟨_, congrArg some (if_pos hvalid)⟩

/-- A tab that is discarded. -/
theorem lookup_discardTab (c : SqlExecutionCoordinator) (tabId other : String) :
    (c.discardTab tabId).2.entries.lookup other =
      if other = tabId then none else c.entries.lookup other := by
  rw [discardTab]
  cases hentry : c.entries.lookup tabId with
  | none =>
    show c.entries.lookup other = _
    split_ifs with heq
    · rw [heq, hentry]
    · rfl
  | some entry => exact Table.lookup_erase c.entries tabId other

theorem lookup_discardTabs (tabIds : List String) (c : SqlExecutionCoordinator) (other : String) :
    (c.discardTabs tabIds).entries.lookup other =
      if other ∈ tabIds then none else c.entries.lookup other := by
  induction tabIds generalizing c with
  | nil => rfl
  | cons tabId tabIds ih =>
    refine (ih (c.discardTab tabId).2).trans ?_
    rw [lookup_discardTab]
    rcases eq_or_ne other tabId with heq | hne
    · simp [heq]
    · simp [hne]

/-- A profile that is discarded. -/
theorem lookup_discardProfile (c : SqlExecutionCoordinator) (profileId other : String) :
    (c.discardProfile profileId).2.entries.lookup other =
      (c.entries.lookup other).filter fun entry ↦ entry.profileId != profileId := by
  refine (lookup_discardTabs _ c other).trans ?_
  cases hentry : c.entries.lookup other with
  | none => rw [ite_self, Option.filter_none]
  | some entry =>
    have hmem : other ∈ c.entries.keys := AList.mem_keys.1 (AList.lookup_isSome.1 (by rw [hentry]; rfl))
    rcases eq_or_ne entry.profileId profileId with heq | hne
    · rw [if_pos (List.mem_filter.2 ⟨hmem, by simp [hentry, heq]⟩)]
      exact (Option.filter_some_neg (by simp [heq])).symm
    · rw [if_neg fun h ↦ hne (by simpa [hentry] using (List.mem_filter.1 h).2)]
      exact (Option.filter_some_pos (by simp [hne])).symm

theorem entryOf_congr {c : SqlExecutionCoordinator} (h : c'.entries.lookup o.tabId = c.entries.lookup o.tabId) :
    entryOf c' o = entryOf c o := by
  rw [entryOf, entryOf, registered_congr h]

theorem entryOf_eq_none_of_lookup (h : c.entries.lookup o.tabId = none) :
    entryOf c o = none := by
  rw [entryOf, registered, h]
  rfl

/-! ### Entries of other executions -/

/-- The entries of the other executions are as they were. -/
def Untouched (executionId : String) (c c' : SqlExecutionCoordinator) : Prop :=
  ∀ tabId entry, c.entries.lookup tabId = some entry → entry.snapshot.executionId ≠ executionId →
    c'.entries.lookup tabId = some entry

theorem untouched_updateSnapshot
    (update : SqlExecutionSnapshot → IpcResult SqlExecutionSnapshot) :
    Untouched executionId c (c.updateSnapshot tabId executionId update).2 := by
  intro other entry hlookup hne
  rw [updateSnapshot]
  cases hfound : c.entryMut tabId executionId with
  | error e => exact hlookup
  | ok found =>
    obtain ⟨hlookup', hid⟩ := entryMut_eq_ok_iff.1 hfound
    have htab : other ≠ tabId := by
      rintro rfl
      obtain rfl := Option.some.inj (hlookup.symm.trans hlookup')
      exact hne hid
    dsimp only
    cases update found.snapshot with
    | error e => exact hlookup
    | ok edited =>
      dsimp only
      rw [incrementRevision_eq]
      split_ifs
      · exact (lookup_put _ _ _ _).trans ((if_neg htab).trans hlookup)
      · exact (lookup_put _ _ _ _).trans ((if_neg htab).trans hlookup)

theorem untouched_completeFailure (state : SqlExecutionState) (failure : SqlExecutionFailure)
    (now : ℕ) : Untouched executionId c (c.completeFailure tabId executionId state failure now).2 := by
  rw [completeFailure]
  split_ifs
  · exact untouched_updateSnapshot _
  · exact fun _ _ hlookup _ ↦ hlookup

theorem untouched_appendWarning (message : String) :
    Untouched executionId c (c.appendWarning tabId executionId message).2 := by
  rw [snd_appendWarning]
  exact untouched_updateSnapshot _

theorem untouched_beginCancel :
    Untouched executionId c (c.beginCancel tabId executionId).2 := by
  intro other entry hlookup hne
  have hcancels := cancels_beginCancel c tabId executionId
  generalize c.beginCancel tabId executionId = r at hcancels
  have htab {found : ActiveSqlExecution} (hlookup' : c.entries.lookup tabId = some found)
      (hid : found.snapshot.executionId = executionId) : other ≠ tabId := by
    rintro rfl
    obtain rfl := Option.some.inj (hlookup.symm.trans hlookup')
    exact hne hid
  cases hcancels with
  | refused => exact hlookup
  | accepted _ hlookup' hid | overflowed _ hlookup' hid =>
    exact (lookup_put _ _ _ _).trans ((if_neg (htab hlookup' hid)).trans hlookup)
  | repeated => exact hlookup

/-- `release_for_profile` removes the entry of a finished execution, or does nothing. -/
theorem releaseForProfile_cases (c : SqlExecutionCoordinator) (o : RawArtifactOwner) :
    (∃ entry, c.entries.lookup o.tabId = some entry ∧ entry.profileId = o.profileId ∧
        entry.snapshot.executionId = o.executionId ∧ isTerminal entry.snapshot.state = true ∧
        (c.releaseForProfile o.profileId o.tabId o.executionId).2 =
          { c with entries := c.entries.erase o.tabId }) ∨
      (c.releaseForProfile o.profileId o.tabId o.executionId).2 = c ∧
        ∀ entry, c.entries.lookup o.tabId = some entry → entry.profileId = o.profileId →
          entry.snapshot.executionId = o.executionId → isTerminal entry.snapshot.state = false := by
  cases hlookup : c.entries.lookup o.tabId with
  | none =>
    refine .inr ⟨?_, fun _ h ↦ (nomatch h)⟩
    simp only [releaseForProfile, snapshotForProfile, hlookup]
  | some entry =>
    rcases em (entry.profileId = o.profileId ∧ entry.snapshot.executionId = o.executionId) with
      hmatch | hmatch
    · have hentry := entryMut_eq_ok_iff.2 ⟨hlookup, hmatch.2⟩
      cases hterminal : isTerminal entry.snapshot.state with
      | true =>
        refine .inl ⟨entry, rfl, hmatch.1, hmatch.2, hterminal, ?_⟩
        simp only [releaseForProfile, snapshotForProfile, hlookup, if_pos hmatch, release, hentry,
          hterminal, if_true]
      | false =>
        refine .inr ⟨?_, fun other hother _ _ ↦ ?_⟩
        · simp only [releaseForProfile, snapshotForProfile, hlookup, if_pos hmatch, release, hentry,
            hterminal, Bool.false_eq_true, if_false]
        · obtain rfl := Option.some.inj hother
          exact hterminal
    · refine .inr ⟨?_, fun other hother hprofile hid ↦ ?_⟩
      · simp only [releaseForProfile, snapshotForProfile, hlookup, if_neg hmatch]
      · obtain rfl := Option.some.inj hother
        exact absurd ⟨hprofile, hid⟩ hmatch

theorem untouched_releaseForProfile (o : RawArtifactOwner) :
    Untouched o.executionId c (c.releaseForProfile o.profileId o.tabId o.executionId).2 := by
  intro other entry hlookup hne
  rcases releaseForProfile_cases c o with ⟨found, hfound, -, hid, -, heq⟩ | ⟨heq, -⟩
  · rw [heq]
    refine (Table.lookup_erase c.entries o.tabId other).trans ((if_neg ?_).trans hlookup)
    rintro rfl
    obtain rfl := Option.some.inj (hlookup.symm.trans hfound)
    exact hne hid
  · rw [heq]
    exact hlookup

/-- Every entry that a sequence of changes leaves is of an execution that was there. -/
theorem Changes.exists_lookup {c : SqlExecutionCoordinator} (h : Changes c c') {tabId : String}
    {entry' : ActiveSqlExecution} (hlookup : c'.entries.lookup tabId = some entry') :
    ∃ entry, c.entries.lookup tabId = some entry ∧ entry.profileId = entry'.profileId ∧
      entry.snapshot.executionId = entry'.snapshot.executionId := by
  induction h generalizing entry' with
  | refl => exact ⟨entry', hlookup, rfl, rfl⟩
  | @tail b c' _ hlast ih =>
    have hput {other : String} {found edited : ActiveSqlExecution}
        (hfound : b.entries.lookup other = some found)
        (hsame : found.profileId = edited.profileId ∧
          found.snapshot.executionId = edited.snapshot.executionId)
        (hafter : (b.put other edited).entries.lookup tabId = some entry') :
        ∃ entry, c.entries.lookup tabId = some entry ∧ entry.profileId = entry'.profileId ∧
          entry.snapshot.executionId = entry'.snapshot.executionId := by
      rw [lookup_put] at hafter
      split_ifs at hafter with heq
      · obtain rfl := Option.some.inj hafter
        obtain ⟨entry, hentry, hprofile, hid⟩ := ih (heq ▸ hfound)
        exact ⟨entry, hentry, hprofile.trans hsame.1, hid.trans hsame.2⟩
      · exact ih hafter
    cases hlast with
    | accepted hfound hedit =>
      refine hput hfound ?_ hlookup
      exact ⟨rfl, hedit.executionId_eq.symm⟩
    | overflowed hfound hedit =>
      refine hput hfound ?_ hlookup
      exact ⟨rfl, hedit.executionId_eq.symm⟩
    | signalled => exact ih hlookup
    | repeated => exact ih hlookup
    | removed other =>
      have herase := (Table.lookup_erase b.entries other tabId).symm.trans hlookup
      split_ifs at herase
      exact ih herase

end Operations

/-! ### The artifacts of an execution -/

/-- The artifact in the store, if it is the execution's: whether it is finished. -/
def artifactOf (a : RawArtifactStore) (o : RawArtifactOwner) (id : String) : Option Bool :=
  ((a.entries.lookup id).filter fun record ↦ record.owner == o).map (·.completed)

namespace RawArtifactStore

variable {a : RawArtifactStore} {o : RawArtifactOwner} {id : String}

theorem artifactOf_eq_some_iff {b : Bool} :
    artifactOf a o id = some b ↔
      ∃ record, a.entries.lookup id = some record ∧ record.owner = o ∧ record.completed = b := by
  simp only [artifactOf, Option.map_eq_some_iff, Option.filter_eq_some_iff, beq_iff_eq, and_assoc]

theorem artifactOf_congr {a' : RawArtifactStore}
    (h : a'.entries.lookup id = a.entries.lookup id) : artifactOf a' o id = artifactOf a o id := by
  rw [artifactOf, artifactOf, h]

variable {record : RawArtifactRecord}

theorem artifactOf_of_lookup (h : a.entries.lookup id = some record) (o : RawArtifactOwner) :
    artifactOf a o id = if record.owner = o then some record.completed else none := by
  rw [artifactOf, h]
  split_ifs with ho
  · rw [Option.filter_some_pos (by simp [ho])]
    rfl
  · rw [Option.filter_some_neg (by simp [ho])]
    rfl

theorem artifactOf_of_lookup_eq_none (h : a.entries.lookup id = none) (o : RawArtifactOwner) :
    artifactOf a o id = none := by
  rw [artifactOf, h]
  rfl

theorem artifactOf_releaseMatching (a : RawArtifactStore) (matching : RawArtifactOwner → Bool)
    (stuck : String → Bool) (o : RawArtifactOwner) (id : String) :
    artifactOf (a.releaseMatching matching stuck).2 o id =
      if matching o then none else artifactOf a o id := by
  have hlookup : (a.releaseMatching matching stuck).2.entries.lookup id =
      (a.entries.lookup id).filter fun record ↦ !matching record.owner :=
    Table.lookup_filter a.entries _ id
  cases hrecord : a.entries.lookup id with
  | none =>
    rw [hrecord] at hlookup
    rw [artifactOf_of_lookup_eq_none hlookup, artifactOf_of_lookup_eq_none hrecord, ite_self]
  | some record =>
    rw [artifactOf_of_lookup hrecord]
    cases hmatch : matching record.owner with
    | true =>
      rw [hrecord, Option.filter_some_neg (by simp [hmatch])] at hlookup
      rw [artifactOf_of_lookup_eq_none hlookup]
      split_ifs with ho hown
      · rfl
      · exact absurd (hown ▸ hmatch) ho
      · rfl
    | false =>
      rw [hrecord, Option.filter_some_pos (by simp [hmatch])] at hlookup
      rw [artifactOf_of_lookup hlookup]
      split_ifs with hown ho
      · rw [hown, ho] at hmatch
        cases hmatch
      · rfl
      · rfl
      · rfl

theorem artifactOf_releaseExecution (a : RawArtifactStore) (owner : RawArtifactOwner)
    (stuck : String → Bool) (o : RawArtifactOwner) (id : String) :
    artifactOf (a.releaseExecution owner stuck).2 o id =
      if o = owner then none else artifactOf a o id := by
  refine (artifactOf_releaseMatching a _ stuck o id).trans ?_
  simp only [beq_iff_eq]

theorem artifactOf_releaseTab (a : RawArtifactStore) (tabId : String) (stuck : String → Bool)
    (o : RawArtifactOwner) (id : String) :
    artifactOf (a.releaseTab tabId stuck).2 o id =
      if o.tabId = tabId then none else artifactOf a o id := by
  refine (artifactOf_releaseMatching a _ stuck o id).trans ?_
  simp only [beq_iff_eq]

theorem artifactOf_releaseProfile (a : RawArtifactStore) (profileId : String) (stuck : String → Bool)
    (o : RawArtifactOwner) (id : String) :
    artifactOf (a.releaseProfile profileId stuck).2 o id =
      if o.profileId = profileId then none else artifactOf a o id := by
  refine (artifactOf_releaseMatching a _ stuck o id).trans ?_
  simp only [beq_iff_eq]

/-- An artifact that is erased. -/
theorem artifactOf_erase (a : RawArtifactStore) (id : String) (o : RawArtifactOwner) (other : String) :
    artifactOf { a with entries := a.entries.erase id } o other =
      if other = id then none else artifactOf a o other := by
  have hlookup : (({ a with entries := a.entries.erase id } : RawArtifactStore)).entries.lookup other =
      if other = id then none else a.entries.lookup other := Table.lookup_erase a.entries id other
  split_ifs at hlookup ⊢
  · exact artifactOf_of_lookup_eq_none hlookup o
  · exact artifactOf_congr hlookup

/-- A record that is put. -/
theorem artifactOf_insert (a : RawArtifactStore) (id : String) (record : RawArtifactRecord)
    (o : RawArtifactOwner) (other : String) :
    artifactOf { a with entries := a.entries.insert id record } o other =
      if other = id then if record.owner = o then some record.completed else none
      else artifactOf a o other := by
  have hlookup : (({ a with entries := a.entries.insert id record } : RawArtifactStore)).entries.lookup
      other = if other = id then some record else a.entries.lookup other :=
    Table.lookup_insert a.entries id other record
  split_ifs at hlookup ⊢ with hid ho
  · exact (artifactOf_of_lookup hlookup o).trans (if_pos ho)
  · exact (artifactOf_of_lookup hlookup o).trans (if_neg ho)
  · exact artifactOf_congr hlookup

theorem artifactOf_abortArtifact (a : RawArtifactStore) (id : String) (stuck : Bool)
    (o : RawArtifactOwner) (other : String) :
    artifactOf (a.abortArtifact id stuck).2 o other =
      if other = id then none else artifactOf a o other := by
  cases hrecord : a.entries.lookup id with
  | none =>
    have heq : (a.abortArtifact id stuck).2 = a := by simp only [abortArtifact, hrecord]
    rw [heq]
    split_ifs with hid
    · rw [hid]
      exact artifactOf_of_lookup_eq_none hrecord o
    · rfl
  | some record =>
    have heq : (a.abortArtifact id stuck).2 = { a with entries := a.entries.erase id } := by
      simp only [abortArtifact, hrecord]
    rw [heq]
    exact artifactOf_erase a id o other

/-- Putting the record back with the same owner and flag is not seen. -/
theorem artifactOf_insert_self {record' : RawArtifactRecord} (hrecord : a.entries.lookup id = some record)
    (howner : record'.owner = record.owner) (hcompleted : record'.completed = record.completed)
    (o : RawArtifactOwner) (other : String) :
    artifactOf { a with entries := a.entries.insert id record' } o other = artifactOf a o other := by
  rw [artifactOf_insert]
  split_ifs with hid ho
  · rw [hid, artifactOf_of_lookup hrecord, if_pos (howner ▸ ho), hcompleted]
  · rw [hid, artifactOf_of_lookup hrecord, if_neg (howner ▸ ho)]
  · rfl

/-- `write_chunk` is not seen, or the artifact is gone. -/
theorem artifactOf_writeChunk (a : RawArtifactStore) (id : String) (chunk : List UInt8)
    (written stuck : Bool) :
    (∀ o other, artifactOf (a.writeChunk id chunk written stuck).2 o other = artifactOf a o other) ∨
      ∀ o other, artifactOf (a.writeChunk id chunk written stuck).2 o other =
        if other = id then none else artifactOf a o other := by
  cases hrecord : a.entries.lookup id with
  | none => exact .inl fun o other ↦ by simp only [writeChunk, hrecord]
  | some record =>
    cases hcompleted : record.completed with
    | true => exact .inl fun o other ↦ by simp only [writeChunk, hrecord, hcompleted, if_true]
    | false =>
      cases hlength : checkedAdd record.byteLength chunk.length with
      | none =>
        exact .inl fun o other ↦ by
          simp only [writeChunk, hrecord, hcompleted, hlength, Bool.false_eq_true, if_false]
      | some nextLength =>
        rcases Nat.lt_or_ge a.limits.maxBytes nextLength with hlarge | hfits
        · refine .inr fun o other ↦ ?_
          rw [← artifactOf_abortArtifact a id stuck o other]
          simp only [writeChunk, hrecord, hcompleted, hlength, Bool.false_eq_true, if_false,
            if_pos hlarge]
          rcases a.abortArtifact id stuck with ⟨_ | _, a'⟩ <;> rfl
        · refine .inl fun o other ↦ ?_
          simp only [writeChunk, hrecord, hcompleted, hlength, Bool.false_eq_true, if_false,
            if_neg (Nat.not_lt.2 hfits)]
          -- each of the three ends puts the record back under its owner, still open
          split_ifs
          all_goals
            refine artifactOf_insert_self hrecord ?_ ?_ o other
            · rfl
            · exact hcompleted.symm

/-- `finish` marks the artifact as finished, or it is gone. -/
theorem artifactOf_finish (a : RawArtifactStore) (id : String) (mode : RawArtifactPreviewMode)
    (flushed : Bool) :
    (∃ descriptor record, (a.finish id mode flushed).1 = .ok descriptor ∧ descriptor.artifactId = id ∧
        a.entries.lookup id = some record ∧
        ∀ o other, artifactOf (a.finish id mode flushed).2 o other =
          if other = id then if record.owner = o then some true else none
          else artifactOf a o other) ∨
      (∃ e, (a.finish id mode flushed).1 = .error e) ∧
        ∀ o other, artifactOf (a.finish id mode flushed).2 o other =
          if other = id then none else artifactOf a o other := by
  cases hrecord : a.entries.lookup id with
  | none =>
    refine .inr ⟨⟨artifactNotFound, by simp only [finish, hrecord]⟩, fun o other ↦ ?_⟩
    simp only [finish, hrecord]
    split_ifs with hid
    · rw [hid]
      exact artifactOf_of_lookup_eq_none hrecord o
    · rfl
  | some record =>
    cases hwriter : record.writer with
    | false =>
      refine .inr ⟨⟨artifactCanceled, by simp [finish, hrecord, hwriter]⟩, fun o other ↦ ?_⟩
      rw [← artifactOf_abortArtifact a id false o other]
      simp [finish, hrecord, hwriter]
    | true =>
      cases flushed with
      | false =>
        refine .inr ⟨⟨artifactIoError "finish", by simp [finish, hrecord, hwriter]⟩, fun o other ↦ ?_⟩
        rw [← artifactOf_abortArtifact a id false o other]
        simp [finish, hrecord, hwriter]
      | true =>
        refine .inl ⟨_, record, by simp only [finish, hrecord, hwriter]; rfl, rfl, rfl, fun o other ↦ ?_⟩
        simp only [finish, hrecord, hwriter]
        exact artifactOf_insert a id { record with writer := false, completed := true } o other

/-- `start` puts a new artifact, or nothing. -/
theorem create_cases (attempts : List (String × Opened)) (a : RawArtifactStore)
    (owner : RawArtifactOwner) :
    (∃ id, id ∈ attempts.map (·.1) ∧ (a.create owner attempts).1 = .ok id ∧
        ∀ o other, artifactOf (a.create owner attempts).2 o other =
          if other = id then if owner = o then some false else none else artifactOf a o other) ∨
      (∃ e, (a.create owner attempts).1 = .error e) ∧ (a.create owner attempts).2 = a := by
  induction attempts with
  | nil => exact .inr ⟨⟨_, rfl⟩, rfl⟩
  | cons attempt attempts ih =>
    obtain ⟨id, opened⟩ := attempt
    have hskip (heq : a.create owner ((id, opened) :: attempts) = a.create owner attempts) :
        (∃ id', id' ∈ ((id, opened) :: attempts).map (·.1) ∧
            (a.create owner ((id, opened) :: attempts)).1 = .ok id' ∧
            ∀ o other, artifactOf (a.create owner ((id, opened) :: attempts)).2 o other =
              if other = id' then if owner = o then some false else none else artifactOf a o other) ∨
          (∃ e, (a.create owner ((id, opened) :: attempts)).1 = .error e) ∧
            (a.create owner ((id, opened) :: attempts)).2 = a := by
      rw [heq]
      rcases ih with ⟨id', hmem, h⟩ | h
      · exact .inl ⟨id', List.mem_cons_of_mem id hmem, h⟩
      · exact .inr h
    cases opened with
    | alreadyExists => exact hskip rfl
    | failed => exact .inr ⟨⟨_, rfl⟩, rfl⟩
    | created =>
      cases hrecord : a.entries.lookup id with
      | some record => exact hskip (by simp only [create, hrecord])
      | none =>
        refine .inl ⟨id, List.mem_cons_self, by simp only [create, hrecord], fun o other ↦ ?_⟩
        simp only [create, hrecord]
        exact artifactOf_insert a id ⟨owner, true, 0, [], false⟩ o other

theorem start_cases (a : RawArtifactStore) (owner : RawArtifactOwner) (directory : Bool)
    (attempts : List (String × Opened)) :
    (∃ id, id ∈ attempts.map (·.1) ∧ (a.start owner directory attempts).1 = .ok id ∧
        ∀ o other, artifactOf (a.start owner directory attempts).2 o other =
          if other = id then if owner = o then some false else none else artifactOf a o other) ∨
      (∃ e, (a.start owner directory attempts).1 = .error e) ∧
        (a.start owner directory attempts).2 = a := by
  cases directory with
  | false => exact .inr ⟨⟨_, rfl⟩, rfl⟩
  | true =>
    rcases create_cases (attempts.take 16) a owner with ⟨id, hmem, h⟩ | h
    · refine .inl ⟨id, ?_, h⟩
      obtain ⟨attempt, hattempt, rfl⟩ := List.mem_map.1 hmem
      exact List.mem_map_of_mem (List.mem_of_mem_take hattempt)
    · exact .inr h

end RawArtifactStore

end Execution
