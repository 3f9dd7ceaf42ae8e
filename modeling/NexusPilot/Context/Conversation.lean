import NexusPilot.Context.Planner
import NexusPilot.Machine.Run

/-!
# A conversation that grows

The store between compactions: runs start, their assistant is saved as it grows, calls and Permissions are
saved, the head moves to another run, and a request may make a checkpoint. What is terminal stays as it is,
and so does a step that is finished: its parts may still change, but it does not go away.

`commitContextCheckpoint` computes the source again in its transaction and takes the checkpoint only if
nothing has changed since it was made, so `compact` is one event. `sources` keeps what the summary of each
checkpoint was made from, together with the sources of its parents.
-/

namespace Context

open Machine Tools

variable {D : Type} [DecidableEq D]

structure State (D : Type) where
  snapshot : Snapshot D
  /-- The sources of a checkpoint and of its parents. -/
  sources : Table String (List (List CanonicalPair)) := ∅

inductive Event
  /-- `commitRunStart`. -/
  | startRun (run : Run) (user assistant : Message)
  /-- The status and the output of a run that is not terminal. -/
  | saveRun (runId : String) (status : RunStatus) (output : Option RunOutput)
  /-- The assistant of a run that is not terminal. -/
  | saveMessage (messageId : String) (parts : List Part) (status : AssistantStatus)
  | saveToolCall (toolCall : ToolCallRow)
  | savePermission (permission : PermissionRow)
  | selectHead (runId : String)
  /-- `compact`, with the identifier, the summary and the time of the new checkpoint. -/
  | compact (request : Request) (id summary : String) (created : Nat)

namespace State

/-! ### The growth -/

/-- The step that a part finishes, as the cursor finds it. -/
def stepAt (parts : List Part) (partId : String) : Option Nat :=
  (parts.findIdx? (·.id = partId)).bind fun index ↦ (parts[index]?).bind Part.finishes?

/-- The finished steps are still there. -/
def keepsSteps (parts parts' : List Part) : Bool :=
  parts.all fun part ↦ stepAt parts part.id = none ∨ stepAt parts' part.id = stepAt parts part.id

def startRun (st : State D) (run : Run) (user assistant : Message) : State D :=
  let s := st.snapshot
  if run.conversationId = s.conversationId ∧ s.runs.lookup run.id = none ∧
      s.messages.lookup assistant.id = none ∧ user.id ≠ assistant.id ∧
      (s.messages.lookup user.id).getD user = user then
    { st with
      snapshot := { s with
        runs := s.runs.insert run.id run
        messages := (s.messages.insert user.id user).insert assistant.id assistant
        activeHeadRunId := some run.id } }
  else st

def saveRun (st : State D) (runId : String) (status : RunStatus) (output : Option RunOutput) : State D :=
  match st.snapshot.runs.lookup runId with
  | none => st
  | some run =>
    if run.status.terminal then st
    else
      { st with
        snapshot := { st.snapshot with
          runs := st.snapshot.runs.insert runId { run with status, output } } }

def saveMessage (st : State D) (messageId : String) (parts : List Part) (status : AssistantStatus) :
    State D :=
  let s := st.snapshot
  match s.messages.lookup messageId with
  | none => st
  | some message =>
    match message.role with
    | .assistant runId parentId _ =>
      match s.runs.lookup runId with
      | none => st
      | some run =>
        if run.status.terminal ∨ keepsSteps message.parts parts = false then st
        else
          { st with
            snapshot := { s with
              messages := s.messages.insert messageId
                { message with role := .assistant runId parentId status, parts } } }
    | _ => st

/-! ### The compaction -/

/-- The checkpoint that `compact` makes. -/
def newCheckpoint (s : Snapshot D) (request : Request) (cursor : CoverageCursor) (hash : D)
    (parent : Option (Checkpoint D)) (id summary : String) (created : Nat) : Checkpoint D where
  id
  conversationId := s.conversationId
  coverageThroughRunId := cursor.runId
  coverageCursor := some cursor
  runId_of_cursor := by
    intro found hfound
    rw [← Option.some.inj hfound]
  lineageHash := hash
  parentCheckpointId := parent.map (·.id)
  trigger := request.trigger
  contextWindow := request.contextWindow
  summary
  created

/-- The boundary that `commitContextCheckpoint` accepts. -/
def commitBoundary (lineage : List Run) (headRunId : String) (cursor : CoverageCursor) : Bool :=
  match lineage.find? (·.id = cursor.runId), cursor with
  | some run, .run _ => run.status.terminal ∧ run.id ≠ headRunId
  | some run, .sealedStep .. => run.id = headRunId
  | none, _ => false

/-- `commitContextCheckpoint`. -/
def commitContextCheckpoint (cfg : Config D) (st : State D) (request : Request) (lineage : List Run)
    (cursor : CoverageCursor) (source : Source D) (id summary : String) (created : Nat) : State D :=
  match coverageHash cfg st.snapshot lineage cursor with
  | none => st
  | some hash =>
    let checkpoint := newCheckpoint st.snapshot request cursor hash source.parent id summary created
    if (st.snapshot.checkpoints.lookup id).isSome ∨
        commitBoundary lineage request.runId cursor = false ∨
        parentChainUsable cfg st.snapshot lineage checkpoint = false then st
    else
      { snapshot := { st.snapshot with checkpoints := st.snapshot.checkpoints.insert id checkpoint }
        sources := st.sources.insert id
          (source.pairs :: ((source.parent.bind fun parent ↦ st.sources.lookup parent.id).getD [])) }

/-- `compact`. -/
def compact (cfg : Config D) (st : State D) (request : Request) (id summary : String) (created : Nat) :
    State D :=
  match planContextWindow cfg { request with snapshot := st.snapshot },
    st.snapshot.lineage request.runId with
  | some (.compactionRequired cursor), some lineage =>
    match compactionSource cfg st.snapshot request.runId cursor with
    | some (some source) =>
      st.commitContextCheckpoint cfg request lineage cursor source id summary created
    | _ => st
  | _, _ => st

/-- One event. An event that does not fit the state does nothing. -/
def step (cfg : Config D) (e : Event) (st : State D) : State D :=
  match e with
  | .startRun run user assistant => st.startRun run user assistant
  | .saveRun runId status output => st.saveRun runId status output
  | .saveMessage messageId parts status => st.saveMessage messageId parts status
  | .saveToolCall toolCall =>
    { st with
      snapshot := { st.snapshot with toolCalls := st.snapshot.toolCalls.insert toolCall.id toolCall } }
  | .savePermission permission =>
    { st with
      snapshot := { st.snapshot with
        permissions := st.snapshot.permissions.insert permission.id permission } }
  | .selectHead runId =>
    if (st.snapshot.runs.lookup runId).isSome then
      { st with snapshot := { st.snapshot with activeHeadRunId := some runId } }
    else st
  | .compact request id summary created => st.compact cfg request id summary created

/-- A new conversation. -/
def empty (conversationId : String) : State D where
  snapshot := { conversationId }

/-- What a new conversation has become after some events. -/
def reached (cfg : Config D) (conversationId : String) (events : List Event) : State D :=
  run (step cfg) (empty conversationId) events

end State

end Context
