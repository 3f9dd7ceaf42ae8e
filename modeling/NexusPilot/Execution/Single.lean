import NexusPilot.Execution.Manager

/-!
# One execution, seen from itself

An execution has an entry in the coordinator, a task, artifacts in the store, and calls of others that act
for it or clean up after it. `Local` is what can be seen of these from one execution, and `Local.Step` is
everything that can happen to it: the operations of its own task, of the calls that act for it, and of
those that clean up its tab or its profile.

`Local.Sound` is the invariant. It says who will finish an execution that is not finished (its task, or the
control task once it is canceling), who will remove an artifact that nobody can ask for, and that a
result that was reported is there. `Step.sound` shows that every step keeps it. The two steps that remove
artifacts for reasons of their own carry the conditions under which they do no harm: `cleaned` must
not meet a finished artifact that is reported or may still be, and `notReleased` must not meet a reported
result.
-/

namespace Execution

namespace Phase

/-- The phases in which the execution has not been handed to the driver. -/
def beforeRun : Phase → Bool
  | .releaseTab _ | .create | .discard | .spawn _ | .transition _ => true
  | _ => false

/-- The phases in which the task still reports the end of the execution. -/
def running : Phase → Bool
  | .run _ | .completeSuccess _ | .canceled _ | .readSnapshot _ | .failed .. | .completeFailure .. =>
    true
  | _ => false

/-- The artifact is in the hands of the task, which hands it over or removes it. -/
def clears (artifactId : String) : Phase → Prop
  | .spawn id | .transition id => id = some artifactId
  | .drop id | .run (.opened id) | .run (.finished id) => id = artifactId
  | .completeSuccess outcome => outcome.artifactId? = some artifactId ∨ outcome.artifactId? = none
  | .releaseExecution | .canceled _ | .failed .. => True
  | _ => False

/-- The artifact is finished and about to be reported. -/
def delivers (artifactId : String) : Phase → Prop
  | .run (.finished id) => id = artifactId
  | .completeSuccess outcome => outcome.artifactId? = some artifactId
  | _ => False

end Phase

/-- What can be seen from one execution. -/
structure Local where
  /-- The state of its entry, with the artifact that the outcome names. -/
  entry : Option (SqlExecutionState × Option String)
  /-- Its task. -/
  phase : Option Phase
  /-- Its artifacts in the store, and whether they are finished. -/
  artifact : String → Option Bool
  /-- A control task will finish it. -/
  control : Prop
  /-- A release is about to remove its artifacts. -/
  releasing : Prop
  /-- A release is about to remove its entry. -/
  removing : Prop
  /-- Somebody is about to remove the artifacts of its tab or profile. -/
  cleanup : Prop

namespace Local

/-- The invariant of one execution. -/
structure Sound (v : Local) : Prop where
  queued : ∀ a, v.entry ≠ some (.queued, a)
  starting : ∀ a, v.entry = some (.starting, a) → ∃ p, v.phase = some p ∧ p.beforeRun
  running : ∀ a, v.entry = some (.running, a) → ∃ p, v.phase = some p ∧ p.running
  canceling : ∀ a, v.entry = some (.canceling, a) → v.control
  /-- Only a success names an artifact, and the task is done then. -/
  named : ∀ state id, v.entry = some (state, some id) → state = .succeeded ∧ v.phase = none
  /-- The artifact of a reported result is there, unless the entry is about to go. -/
  kept : ∀ state id, v.entry = some (state, some id) → v.artifact id = some true ∨ v.removing
  /-- Every artifact is reported, or in the hands of the task, or about to be removed. -/
  cause : ∀ id b, v.artifact id = some b →
    (∃ state, v.entry = some (state, some id) ∧ ¬ v.removing) ∨
      (∃ p, v.phase = some p ∧ p.clears id) ∨ v.cleanup
  /-- Only finished executions are released. -/
  terminal : v.releasing ∨ v.removing → ∀ state a, v.entry = some (state, a) → isTerminal state = true
  /-- An artifact that is about to be reported is there. -/
  delivered : ∀ p id, v.phase = some p → p.delivers id → ∀ state a, v.entry = some (state, a) →
    isTerminal state = false → v.artifact id = some true

/-- An entry that is not finished ends in the given state. -/
def endIn (state : SqlExecutionState) (e : SqlExecutionState × Option String) :
    SqlExecutionState × Option String :=
  if isTerminal e.1 then e else (state, none)

/-- What can happen to an execution. -/
inductive Step (v : Local) : Local → Prop
  -- its start
  | released {raw : Bool} (hp : v.phase = some (.releaseTab raw)) (p : Phase)
      (hnext : p = .discard ∨ p = .create ∨ p = .spawn none) :
    Step v { v with phase := some p, artifact := fun _ ↦ none }
  | created (hp : v.phase = some .create) (id : String) :
    Step v { v with
      phase := some (.spawn (some id)), artifact := Function.update v.artifact id (some false) }
  | notCreated (hp : v.phase = some .create) : Step v { v with phase := some .discard }
  | discarded (hp : v.phase = some .discard) : Step v { v with entry := none, phase := none }
  | spawned {id : Option String} (hp : v.phase = some (.spawn id)) :
    Step v { v with phase := some (.transition id) }
  -- its task, up to the driver
  | entered {id a : Option String} (hp : v.phase = some (.transition id))
      (hentry : v.entry = some (.starting, a)) :
    Step v { v with entry := some (.running, a), phase := some (.run (.ofArtifact id)) }
  | notEntered {id : Option String} (hp : v.phase = some (.transition id))
      (hentry : ∀ a, v.entry ≠ some (.starting, a)) : Step v { v with phase := dropped id }
  | dropped {id : String} (hp : v.phase = some (.drop id)) :
    Step v { v with phase := none, artifact := Function.update v.artifact id none }
  -- the driver
  | lost {id : String} (hp : v.phase = some (.run (.opened id))) (w : Writer)
      (hw : w = .opened id ∨ w = .absent) :
    Step v { v with
      phase := some (.run w), artifact := Function.update v.artifact id none }
  | finished {id : String} {b : Bool} (hp : v.phase = some (.run (.opened id)))
      (hartifact : v.artifact id = some b) :
    Step v { v with
      phase := some (.run (.finished id)), artifact := Function.update v.artifact id (some true) }
  | answered {w : Writer} (hp : v.phase = some (.run w)) (hw : ∀ id, w ≠ .opened id)
      (outcome : SqlExecutionOutcome)
      (hid : ∀ id, outcome.artifactId? = some id → w = .finished id) :
    Step v { v with phase := some (.completeSuccess outcome) }
  | failed {w : Writer} (hp : v.phase = some (.run w)) (hw : ∀ id, w ≠ .opened id) (p : Phase)
      (hnext : (∃ e, p = .canceled e) ∨ ∃ state e, p = .failed state e) :
    Step v { v with phase := some p }
  -- its task, after the driver
  | succeeded {outcome : SqlExecutionOutcome} {state : SqlExecutionState} {a : Option String}
      (hp : v.phase = some (.completeSuccess outcome)) (hentry : v.entry = some (state, a))
      (hstate : isTerminal state = false) :
    Step v { v with
      entry := some (.succeeded, outcome.artifactId?)
      phase := if outcome.artifactId?.isSome then none else some .releaseExecution }
  | notSucceeded {outcome : SqlExecutionOutcome} (hp : v.phase = some (.completeSuccess outcome))
      (hentry : ∀ state a, v.entry = some (state, a) → isTerminal state = true) :
    Step v { v with phase := some .releaseExecution }
  | cleared (hp : v.phase = some .releaseExecution) :
    Step v { v with phase := none, artifact := fun _ ↦ none }
  | canceled {e : Drivers.IpcError} (hp : v.phase = some (.canceled e)) :
    Step v { v with phase := some (.readSnapshot e), artifact := fun _ ↦ none }
  | leftToControl {e : Drivers.IpcError} (hp : v.phase = some (.readSnapshot e))
      (hentry : ∀ state a, v.entry = some (state, a) → state = .canceling) :
    Step v { v with phase := none }
  | reports {e : Drivers.IpcError} (hp : v.phase = some (.readSnapshot e))
      (state : SqlExecutionState) : Step v { v with phase := some (.completeFailure state e) }
  | removed {state : SqlExecutionState} {e : Drivers.IpcError} (hp : v.phase = some (.failed state e)) :
    Step v { v with phase := some (.completeFailure state e), artifact := fun _ ↦ none }
  | reported {p : Phase} (hp : v.phase = some p) (hrunning : p.running = true)
      (state : SqlExecutionState) (hstate : isTerminal state = true) (id : Option String)
      (hclears : ∀ id', p.clears id' → id = some id') :
    Step v { v with entry := v.entry.map (endIn state), phase := dropped id }
  -- calls that act for it
  | beginCancel {state : SqlExecutionState} {a : Option String}
      (hentry : v.entry = some (state, a)) (hstate : isTerminal state = false) :
    Step v { v with entry := some (.canceling, a), control := True }
  | completed (state : SqlExecutionState) (hstate : isTerminal state = true) (control : Prop) :
    Step v { v with entry := v.entry.map (endIn state), control := control }
  | releasing (hentry : ∀ state a, v.entry = some (state, a) → isTerminal state = true) :
    Step v { v with releasing := True }
  | artifactsReleased (hreleasing : v.releasing) :
    Step v { v with artifact := fun _ ↦ none, removing := True }
  | notReleased (hreleasing : v.releasing) (hentry : ∀ state id, v.entry ≠ some (state, some id)) :
    Step v { v with artifact := fun _ ↦ none }
  | entryReleased (hremoving : v.removing) (removing : Prop) :
    Step v { v with entry := none, removing := removing }
  -- calls that act for its tab or profile
  | taken : Step v { v with entry := none, cleanup := True }
  | cleaned (h : ∀ id state a, v.artifact id = some true → v.entry = some (state, a) →
        isTerminal state = true ∧ a ≠ some id) (cleanup : Prop) :
    Step v { v with artifact := fun _ ↦ none, cleanup := cleanup }
  -- calls that come and go
  | weakened {v' : Local} (hentry : v'.entry = v.entry) (hphase : v'.phase = v.phase)
      (hartifact : v'.artifact = v.artifact) (hcontrol : v.control → v'.control)
      (hreleasing : v'.releasing → v.releasing) (hremoving : v'.removing ↔ v.removing)
      (hcleanup : v.cleanup → v'.cleanup) : Step v v'

variable {v : Local}

/-! ### The steps of the task -/

variable {p : Phase} {next : Option Phase} {state state' : SqlExecutionState} {a : Option String}

/-- A task that has to be in a phase of a kind stays in one. -/
def Keeps (v : Local) (p : Phase) (next : Option Phase) (kind : Phase → Bool) (state : SqlExecutionState) : Prop :=
  kind p = true → ∀ a, v.entry = some (state, a) → ∃ q, next = some q ∧ kind q = true

section

variable (h : Sound v) (hp : v.phase = some p)
include h hp

/-- While the task is there, no result is reported. -/
theorem Sound.entry_ne (state : SqlExecutionState) (id : String) : v.entry ≠ some (state, some id) := by
  intro hentry
  rw [(h.named state id hentry).2] at hp
  cases hp

section

variable (hstarting : Keeps v p next Phase.beforeRun .starting)
  (hrunning : Keeps v p next Phase.running .running)
include hstarting hrunning

/-- The task goes on. What it had in hand it still has, or it is gone. -/
theorem Sound.advance {artifact : String → Option Bool}
    (hcause : ∀ id b, artifact id = some b → (∃ q, next = some q ∧ q.clears id) ∨
      (∃ b', v.artifact id = some b') ∧ ¬ p.clears id)
    (hdelivered : ∀ q id, next = some q → q.delivers id → ∀ state a, v.entry = some (state, a) →
      isTerminal state = false → artifact id = some true) :
    Sound { v with phase := next, artifact := artifact } where
  queued := h.queued
  starting := by
    intro a hentry
    obtain ⟨q, hq, hbefore⟩ := h.starting a hentry
    obtain rfl := Option.some.inj (hp.symm.trans hq)
    exact hstarting hbefore a hentry
  running := by
    intro a hentry
    obtain ⟨q, hq, hrun⟩ := h.running a hentry
    obtain rfl := Option.some.inj (hp.symm.trans hq)
    exact hrunning hrun a hentry
  canceling := h.canceling
  named := fun state id hentry ↦ absurd hentry (h.entry_ne hp state id)
  kept := fun state id hentry ↦ absurd hentry (h.entry_ne hp state id)
  cause := by
    intro id b hartifact
    rcases hcause id b hartifact with hclears | ⟨⟨b', hbefore⟩, hnot⟩
    · exact .inr (.inl hclears)
    · rcases h.cause id b' hbefore with ⟨state, hentry, -⟩ | ⟨q, hq, hclears⟩ | hcleanup
      · exact absurd hentry (h.entry_ne hp state id)
      · obtain rfl := Option.some.inj (hp.symm.trans hq)
        exact absurd hclears hnot
      · exact .inr (.inr hcleanup)
  terminal := h.terminal
  delivered := hdelivered

/-- The task goes on and leaves the artifacts alone. -/
theorem Sound.setPhase (hclears : ∀ id, p.clears id → ∃ q, next = some q ∧ q.clears id)
    (hdelivers : ∀ q id, next = some q → q.delivers id → p.delivers id) :
    Sound { v with phase := next } := by
  refine h.advance hp hstarting hrunning (fun id b hartifact ↦ ?_) ?_
  · rcases em (p.clears id) with hyes | hno
    · exact .inl (hclears id hyes)
    · exact .inr ⟨⟨b, hartifact⟩, hno⟩
  · intro q id hq hdel
    exact h.delivered p id hp (hdelivers q id hq hdel)

/-- The task goes on without artifacts. -/
theorem Sound.clear (hdelivers : ∀ q id, next = some q → ¬ q.delivers id) :
    Sound { v with phase := next, artifact := fun _ ↦ none } :=
  h.advance hp hstarting hrunning (fun _ _ hartifact ↦ (nomatch hartifact)) fun q id hq hdel ↦
    absurd hdel (hdelivers q id hq)

end

end

/-! ### The steps that end an execution -/

theorem isTerminal_fst_endIn (hstate : isTerminal state = true) (e : SqlExecutionState × Option String) :
    isTerminal (endIn state e).1 = true := by
  rw [endIn]
  split_ifs with h
  · exact h
  · exact hstate

/-- A result that is reported after the end was reported before. -/
theorem eq_of_endIn_eq {id : String} {e : SqlExecutionState × Option String}
    (h : endIn state e = (state', some id)) :
    e = (state', some id) := by
  rw [endIn] at h
  split_ifs at h
  · exact h
  · cases h

/-- An execution ends, if it has not. -/
theorem Sound.end (h : Sound v) (hstate : isTerminal state = true) (control : Prop) :
    Sound { v with entry := v.entry.map (endIn state), control := control } := by
  have hterminal {st : SqlExecutionState} {a : Option String}
      (hentry : v.entry.map (endIn state) = some (st, a)) : isTerminal st = true := by
    obtain ⟨e, -, he⟩ := Option.map_eq_some_iff.1 hentry
    have := isTerminal_fst_endIn hstate e
    rwa [he] at this
  have hnamed {st : SqlExecutionState} {id : String}
      (hentry : v.entry.map (endIn state) = some (st, some id)) : v.entry = some (st, some id) := by
    obtain ⟨e, he, heq⟩ := Option.map_eq_some_iff.1 hentry
    rw [he, eq_of_endIn_eq heq]
  refine ⟨?_, ?_, ?_, ?_, ?_, ?_, ?_, ?_, ?_⟩
  · exact fun a hentry ↦ (nomatch hterminal hentry)
  · exact fun a hentry ↦ (nomatch hterminal hentry)
  · exact fun a hentry ↦ (nomatch hterminal hentry)
  · exact fun a hentry ↦ (nomatch hterminal hentry)
  · exact fun st id hentry ↦ h.named st id (hnamed hentry)
  · exact fun st id hentry ↦ h.kept st id (hnamed hentry)
  · intro id b hartifact
    rcases h.cause id b hartifact with ⟨st, hentry, hremoving⟩ | hclears
    · refine .inl ⟨st, ?_, hremoving⟩
      show v.entry.map (endIn state) = _
      rw [hentry, Option.map_some, endIn, (h.named st id hentry).1]
      rfl
    · exact .inr hclears
  · exact fun _ st a hentry ↦ hterminal hentry
  · intro p id _ _ st a hentry hactive
    rw [hterminal hentry] at hactive
    cases hactive

/-- Without an entry, every artifact must be in the hands of the task or about to be removed. -/
theorem sound_of_entry_eq_none (hentry : v.entry = none)
    (hcause : ∀ id b, v.artifact id = some b →
      (∃ p, v.phase = some p ∧ p.clears id) ∨ v.cleanup) : Sound v := by
  have hno {e : SqlExecutionState × Option String} : v.entry ≠ some e := by
    rw [hentry]
    exact fun h ↦ (nomatch h)
  exact ⟨fun _ ↦ hno, fun _ h ↦ absurd h hno, fun _ h ↦ absurd h hno, fun _ h ↦ absurd h hno,
    fun _ _ h ↦ absurd h hno, fun _ _ h ↦ absurd h hno,
    fun id b hartifact ↦ .inr (hcause id b hartifact), fun _ _ _ h ↦ absurd h hno,
    fun _ _ _ _ _ _ h ↦ absurd h hno⟩

/-- The artifacts are removed, when no result is lost by it. -/
theorem Sound.clean (h : Sound v) {releasing removing cleanup : Prop}
    (hreleasing : releasing ∨ removing → v.releasing ∨ v.removing)
    (hkept : ∀ state id, v.entry = some (state, some id) → removing)
    (hdelivered : ∀ p id, v.phase = some p → p.delivers id → ∀ state a, v.entry = some (state, a) →
      isTerminal state = true) :
    Sound { v with
      artifact := fun _ ↦ none, releasing := releasing, removing := removing, cleanup := cleanup } where
  queued := h.queued
  starting := h.starting
  running := h.running
  canceling := h.canceling
  named := h.named
  kept := fun state id hentry ↦ .inr (hkept state id hentry)
  cause := fun _ _ hartifact ↦ (nomatch hartifact)
  terminal := fun hr ↦ h.terminal (hreleasing hr)
  delivered := by
    intro p id hp hdel state a hentry hactive
    rw [hdelivered p id hp hdel state a hentry] at hactive
    cases hactive

/-- An active entry names no artifact. -/
theorem Sound.eq_none_of_active (h : Sound v) (hentry : v.entry = some (state, a))
    (hactive : isTerminal state = false) : a = none := by
  cases a with
  | none => rfl
  | some id =>
    rw [(h.named state id hentry).1] at hactive
    cases hactive

/-- An active entry moves to `Running` or to `Canceling`. -/
theorem Sound.move (h : Sound v) (hentry : v.entry = some (state, a)) (hactive : isTerminal state = false)
    {control : Prop} (hstate : (state' = .running ∧ ∃ q, next = some q ∧ q.running = true) ∨
      (state' = .canceling ∧ control))
    (hcause : ∀ p id, v.phase = some p → p.clears id → ∃ q, next = some q ∧ q.clears id)
    (hdelivers : ∀ q id, next = some q → q.delivers id →
      ∃ p, v.phase = some p ∧ p.delivers id) :
    Sound { v with entry := some (state', a), phase := next, control := control } := by
  obtain rfl := h.eq_none_of_active hentry hactive
  have hnot : ¬ (v.releasing ∨ v.removing) := by
    intro hr
    rw [h.terminal hr _ _ hentry] at hactive
    cases hactive
  refine ⟨?_, ?_, ?_, ?_, fun _ _ h ↦ (nomatch h), fun _ _ h ↦ (nomatch h), ?_,
    fun hr ↦ absurd hr hnot, ?_⟩
  · rintro a ha
    rcases hstate with ⟨rfl, -⟩ | ⟨rfl, -⟩ <;> cases ha
  · rintro a ha
    rcases hstate with ⟨rfl, -⟩ | ⟨rfl, -⟩ <;> cases ha
  · rintro a ha
    rcases hstate with ⟨-, hq⟩ | ⟨rfl, -⟩
    · exact hq
    · cases ha
  · rintro a ha
    rcases hstate with ⟨rfl, -⟩ | ⟨-, hc⟩
    · cases ha
    · exact hc
  · intro id b hartifact
    rcases h.cause id b hartifact with ⟨st, hst, -⟩ | ⟨p, hp, hclears⟩ | hcleanup
    · rw [hentry] at hst
      cases hst
    · exact .inr (.inl (hcause p id hp hclears))
    · exact .inr (.inr hcleanup)
  · intro q id hq hdel _ _ _ _
    obtain ⟨p, hp, hpdel⟩ := hdelivers q id hq hdel
    exact h.delivered p id hp hpdel state none hentry hactive

/-- **Every step keeps the invariant.** -/
theorem Step.sound {v v' : Local} (hstep : Step v v') (h : Sound v) : Sound v' := by
  cases hstep with
  | @released raw hp p hnext =>
    refine h.clear hp (fun _ _ _ ↦ ⟨p, rfl, ?_⟩) (fun hrun ↦ (nomatch hrun)) ?_
    · rcases hnext with rfl | rfl | rfl <;> rfl
    · rintro q id hq hdel
      obtain rfl := Option.some.inj hq
      rcases hnext with rfl | rfl | rfl <;> exact hdel
  | created hp id =>
    refine h.advance hp (fun _ _ _ ↦ ⟨_, rfl, rfl⟩) (fun hrun ↦ (nomatch hrun)) ?_ ?_
    · intro id' b hartifact
      rcases eq_or_ne id' id with rfl | hne
      · exact .inl ⟨_, rfl, rfl⟩
      · rw [Function.update_of_ne hne] at hartifact
        exact .inr ⟨⟨b, hartifact⟩, fun hclears ↦ hclears⟩
    · rintro q id' hq hdel
      obtain rfl := Option.some.inj hq
      cases hdel
  | notCreated hp =>
    refine h.setPhase hp (fun _ _ _ ↦ ⟨_, rfl, rfl⟩) (fun hrun ↦ (nomatch hrun))
      (fun _ hclears ↦ (nomatch hclears)) ?_
    rintro q id hq hdel
    obtain rfl := Option.some.inj hq
    cases hdel
  | discarded hp =>
    refine sound_of_entry_eq_none rfl fun id b hartifact ↦ .inr ?_
    rcases h.cause id b hartifact with ⟨state, hentry, -⟩ | ⟨q, hq, hclears⟩ | hcleanup
    · exact absurd hentry (h.entry_ne hp state id)
    · obtain rfl := Option.some.inj (hp.symm.trans hq)
      cases hclears
    · exact hcleanup
  | spawned hp =>
    refine h.setPhase hp (fun _ _ _ ↦ ⟨_, rfl, rfl⟩) (fun hrun ↦ (nomatch hrun))
      (fun _ hclears ↦ ⟨_, rfl, hclears⟩) ?_
    rintro q id hq hdel
    obtain rfl := Option.some.inj hq
    cases hdel
  | @entered id a hp hentry =>
    refine h.move hentry rfl (.inl ⟨rfl, _, rfl, rfl⟩) ?_ ?_
    · intro p id' hp' hclears
      obtain rfl := Option.some.inj (hp.symm.trans hp')
      obtain rfl : id = some id' := hclears
      exact ⟨_, rfl, rfl⟩
    · rintro q id' hq hdel
      obtain rfl := Option.some.inj hq
      cases id <;> cases hdel
  | @notEntered id hp hentry =>
    refine h.setPhase hp (fun _ a ha ↦ absurd ha (hentry a)) (fun hrun ↦ (nomatch hrun)) ?_ ?_
    · intro id' hclears
      obtain rfl : id = some id' := hclears
      exact ⟨_, rfl, rfl⟩
    · intro q id' hq hdel
      cases id with
      | none => cases hq
      | some id =>
        obtain rfl := Option.some.inj hq
        cases hdel
  | @dropped id hp =>
    refine h.advance hp (fun hb ↦ (nomatch hb)) (fun hrun ↦ (nomatch hrun)) ?_
      (fun _ _ hq ↦ (nomatch hq))
    intro id' b hartifact
    rcases eq_or_ne id' id with rfl | hne
    · rw [Function.update_self] at hartifact
      cases hartifact
    · rw [Function.update_of_ne hne] at hartifact
      exact .inr ⟨⟨b, hartifact⟩, fun heq ↦ hne heq.symm⟩
  | @lost id hp w hw =>
    refine h.advance hp (fun hb ↦ (nomatch hb)) (fun _ _ _ ↦ ⟨_, rfl, rfl⟩) ?_ ?_
    · intro id' b hartifact
      rcases eq_or_ne id' id with rfl | hne
      · rw [Function.update_self] at hartifact
        cases hartifact
      · rw [Function.update_of_ne hne] at hartifact
        exact .inr ⟨⟨b, hartifact⟩, fun heq ↦ hne heq.symm⟩
    · rintro q id' hq hdel
      obtain rfl := Option.some.inj hq
      rcases hw with rfl | rfl <;> cases hdel
  | @finished id b hp hartifact =>
    refine h.advance hp (fun hb ↦ (nomatch hb)) (fun _ _ _ ↦ ⟨_, rfl, rfl⟩) ?_ ?_
    · intro id' b' hartifact'
      rcases eq_or_ne id' id with rfl | hne
      · exact .inl ⟨_, rfl, rfl⟩
      · rw [Function.update_of_ne hne] at hartifact'
        exact .inr ⟨⟨b', hartifact'⟩, fun heq ↦ hne heq.symm⟩
    · rintro q id' hq hdel _ _ _ _
      obtain rfl := Option.some.inj hq
      obtain rfl : id = id' := hdel
      exact Function.update_self ..
  | @answered w hp hw outcome hid =>
    refine h.setPhase hp (fun hb ↦ (nomatch hb)) (fun _ _ _ ↦ ⟨_, rfl, rfl⟩) ?_ ?_
    · intro id hclears
      refine ⟨_, rfl, ?_⟩
      show outcome.artifactId? = some id ∨ outcome.artifactId? = none
      cases hout : outcome.artifactId? with
      | none => exact .inr rfl
      | some id' =>
        obtain rfl := hid id' hout
        obtain rfl : id' = id := hclears
        exact .inl rfl
    · rintro q id hq hdel
      obtain rfl := Option.some.inj hq
      obtain rfl := hid id hdel
      rfl
  | failed hp hw p hnext =>
    refine h.setPhase hp (fun hb ↦ (nomatch hb)) (fun _ _ _ ↦ ⟨p, rfl, ?_⟩) ?_ ?_
    · rcases hnext with ⟨e, rfl⟩ | ⟨state, e, rfl⟩ <;> rfl
    · refine fun id _ ↦ ⟨p, rfl, ?_⟩
      rcases hnext with ⟨e, rfl⟩ | ⟨state, e, rfl⟩ <;> trivial
    · rintro q id hq hdel
      obtain rfl := Option.some.inj hq
      rcases hnext with ⟨e, rfl⟩ | ⟨state, e, rfl⟩ <;> cases hdel
  | @succeeded outcome state a hp hentry hstate =>
    have hnot : ¬ (v.releasing ∨ v.removing) := by
      intro hr
      rw [h.terminal hr _ _ hentry] at hstate
      cases hstate
    have hnext {q : Phase} (hq : (if outcome.artifactId?.isSome then none
        else some Phase.releaseExecution) = some q) : q = .releaseExecution := by
      split_ifs at hq
      exact (Option.some.inj hq).symm
    refine ⟨fun _ h ↦ (nomatch h), fun _ h ↦ (nomatch h), fun _ h ↦ (nomatch h),
      fun _ h ↦ (nomatch h), ?_, ?_, ?_, fun hr ↦ absurd hr hnot, ?_⟩
    · intro st id hnamed
      obtain ⟨rfl, hid⟩ := Prod.mk.inj (Option.some.inj hnamed)
      refine ⟨rfl, ?_⟩
      show (if outcome.artifactId?.isSome then none else _) = none
      rw [hid]
      rfl
    · intro st id hnamed
      obtain ⟨-, hid⟩ := Prod.mk.inj (Option.some.inj hnamed)
      exact .inl (h.delivered _ id hp hid state a hentry hstate)
    · intro id b hartifact
      rcases h.cause id b hartifact with ⟨st, hst, -⟩ | ⟨q, hq, hclears⟩ | hcleanup
      · exact absurd hst (h.entry_ne hp st id)
      · obtain rfl := Option.some.inj (hp.symm.trans hq)
        rcases hclears with hid | hid
        · exact .inl ⟨.succeeded, by rw [hid], fun hr ↦ hnot (.inr hr)⟩
        · refine .inr (.inl ⟨.releaseExecution, ?_, trivial⟩)
          show (if outcome.artifactId?.isSome then none else _) = _
          rw [hid]
          rfl
      · exact .inr (.inr hcleanup)
    · intro q id hq hdel
      obtain rfl := hnext hq
      cases hdel
  | notSucceeded hp hentry =>
    refine h.setPhase hp (fun hb ↦ (nomatch hb)) (fun _ a ha ↦ ?_) (fun _ _ ↦ ⟨_, rfl, trivial⟩) ?_
    · exact (nomatch hentry _ a ha)
    · rintro q id hq hdel
      obtain rfl := Option.some.inj hq
      cases hdel
  | cleared hp =>
    exact h.clear hp (fun hb ↦ (nomatch hb)) (fun hrun ↦ (nomatch hrun)) fun _ _ hq ↦ (nomatch hq)
  | canceled hp | removed hp =>
    refine h.clear hp (fun hb ↦ (nomatch hb)) (fun _ _ _ ↦ ⟨_, rfl, rfl⟩) ?_
    rintro q id hq hdel
    obtain rfl := Option.some.inj hq
    cases hdel
  | leftToControl hp hentry =>
    refine h.setPhase hp (fun hb ↦ (nomatch hb)) (fun _ a ha ↦ ?_) (fun _ hclears ↦ (nomatch hclears))
      fun _ _ hq ↦ (nomatch hq)
    exact (nomatch hentry _ a ha)
  | reports hp state =>
    refine h.setPhase hp (fun hb ↦ (nomatch hb)) (fun _ _ _ ↦ ⟨_, rfl, rfl⟩)
      (fun _ hclears ↦ (nomatch hclears)) ?_
    rintro q id hq hdel
    obtain rfl := Option.some.inj hq
    cases hdel
  | @reported p hp hrunning state hstate id hclears =>
    have hend : Sound { v with entry := v.entry.map (endIn state) } := h.end hstate v.control
    have hterminal {st : SqlExecutionState} {a : Option String}
        (hst : v.entry.map (endIn state) = some (st, a)) : isTerminal st = true := by
      obtain ⟨e, -, he⟩ := Option.map_eq_some_iff.1 hst
      have := isTerminal_fst_endIn hstate e
      rwa [he] at this
    refine hend.setPhase hp (fun _ a ha ↦ (nomatch hterminal ha)) (fun _ a ha ↦ (nomatch hterminal ha))
      ?_ ?_
    · intro id' hid
      obtain rfl := hclears id' hid
      exact ⟨_, rfl, rfl⟩
    · intro q id' hq hdel
      cases id with
      | none => cases hq
      | some id =>
        obtain rfl := Option.some.inj hq
        cases hdel
  | @beginCancel state a hentry hstate =>
    exact h.move hentry hstate (.inr ⟨rfl, trivial⟩) (fun p id hp hclears ↦ ⟨p, hp, hclears⟩)
      fun q id hq hdel ↦ ⟨q, hq, hdel⟩
  | completed state hstate control => exact h.end hstate control
  | releasing hentry =>
    exact ⟨h.queued, h.starting, h.running, h.canceling, h.named, h.kept, h.cause,
      fun _ ↦ hentry, h.delivered⟩
  | artifactsReleased hreleasing =>
    refine h.clean (fun _ ↦ .inl hreleasing) (fun _ _ _ ↦ trivial) ?_
    exact fun _ _ _ _ ↦ h.terminal (.inl hreleasing)
  | notReleased hreleasing hentry =>
    refine h.clean id (fun state id hnamed ↦ absurd hnamed (hentry state id)) ?_
    exact fun _ _ _ _ ↦ h.terminal (.inl hreleasing)
  | entryReleased hremoving removing =>
    refine sound_of_entry_eq_none rfl fun id b hartifact ↦ ?_
    rcases h.cause id b hartifact with ⟨state, -, hnot⟩ | hother
    · exact absurd hremoving hnot
    · exact hother
  | taken => exact sound_of_entry_eq_none rfl fun _ _ _ ↦ .inr trivial
  | cleaned hclean cleanup =>
    refine h.clean id (fun state id hentry ↦ ?_) (fun p id hp hdel state a hentry ↦ ?_)
    · refine (h.kept state id hentry).resolve_left fun hartifact ↦ ?_
      exact (hclean id state _ hartifact hentry).2 rfl
    · by_contra hactive
      have hartifact := h.delivered p id hp hdel state a hentry (Bool.eq_false_iff.2 hactive)
      exact hactive (hclean id state a hartifact hentry).1
  | @weakened v' hentry hphase hartifact hcontrol hreleasing hremoving hcleanup =>
    obtain ⟨entry, phase, artifact, control, releasing, removing, cleanup⟩ := v'
    obtain rfl : entry = v.entry := hentry
    obtain rfl : phase = v.phase := hphase
    obtain rfl : artifact = v.artifact := hartifact
    obtain rfl : removing = v.removing := propext hremoving
    refine ⟨h.queued, h.starting, h.running, fun a ha ↦ hcontrol (h.canceling a ha), h.named, h.kept,
      fun id b hb ↦ (h.cause id b hb).imp_right (Or.imp_right hcleanup),
      fun hr ↦ h.terminal (hr.imp_left hreleasing), h.delivered⟩

end Local

end Execution
