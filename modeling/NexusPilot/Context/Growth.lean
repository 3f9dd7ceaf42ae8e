import NexusPilot.Context.Conversation

/-!
# What a conversation keeps

Between two states of a conversation the records grow (`Grows`): a run keeps its identity and its two messages,
a terminal run stays as it is, and a message changes only while its run is under way, and then keeps its
finished steps. Every event but a compaction leaves the checkpoints alone; a compaction leaves the records alone
and adds at most one checkpoint (`step_cases`).
-/

namespace Context

open Machine Tools

variable {D : Type} {s s' : Snapshot D}

/-- The table files every run under its identifier. -/
def Keyed (runs : Table String Run) : Prop :=
  ∀ id run, runs.lookup id = some run → run.id = id

/-! ### Growth -/

/-- What becomes of a run. -/
structure RunGrows (run run' : Run) : Prop where
  eq : run' = { run with status := run'.status, output := run'.output }
  terminal : run.status.terminal = true → run' = run

theorem RunGrows.refl (run : Run) : RunGrows run run :=
  ⟨rfl, fun _ ↦ rfl⟩

/-- What becomes of a message: nothing, or its run is under way and keeps its finished steps. -/
def MessageGrows (s : Snapshot D) (message message' : Message) : Prop :=
  message' = message ∨
    ∃ runId parentId status status' run parts,
      message.role = .assistant runId parentId status ∧ s.runs.lookup runId = some run ∧
      run.status.terminal = false ∧ State.keepsSteps message.parts parts = true ∧
      message' = { message with role := .assistant runId parentId status', parts }

structure Grows (s s' : Snapshot D) : Prop where
  conversationId : s'.conversationId = s.conversationId
  keyed : Keyed s.runs → Keyed s'.runs
  run : ∀ id run, s.runs.lookup id = some run →
    ∃ run', s'.runs.lookup id = some run' ∧ RunGrows run run'
  message : ∀ id message, s.messages.lookup id = some message →
    ∃ message', s'.messages.lookup id = some message' ∧ MessageGrows s message message'

/-- Records that stay. -/
theorem Grows.of_eq (hconversation : s'.conversationId = s.conversationId) (hruns : s'.runs = s.runs)
    (hmessages : s'.messages = s.messages) : Grows s s' where
  conversationId := hconversation
  keyed := fun h ↦ hruns ▸ h
  run := fun _ run h ↦ ⟨run, hruns ▸ h, .refl run⟩
  message := fun _ message h ↦ ⟨message, hmessages ▸ h, .inl rfl⟩

/-- The records grow and the checkpoints stay. -/
structure Grown (st st' : State D) : Prop where
  grows : Grows st.snapshot st'.snapshot
  checkpoints : st'.snapshot.checkpoints = st.snapshot.checkpoints
  sources : st'.sources = st.sources

namespace State

variable {st : State D}

theorem grown_startRun (run : Run) (user assistant : Message) :
    Grown st (st.startRun run user assistant) := by
  unfold startRun
  extract_lets s
  split
  · next h =>
    obtain ⟨-, hrun, hassistant, hne, huser⟩ := h
    refine ⟨⟨rfl, fun hkeyed id found hfound ↦ ?_, fun id found hfound ↦ ⟨found, ?_, .refl found⟩,
      fun id found hfound ↦ ⟨found, ?_, .inl rfl⟩⟩, rfl, rfl⟩
    · rw [Table.lookup_insert] at hfound
      split at hfound
      · next heq => rw [← Option.some.inj hfound, heq]
      · exact hkeyed id found hfound
    · -- a new run has a new identifier
      rw [Table.lookup_insert, if_neg]
      · exact hfound
      · intro heq
        rw [heq, hrun] at hfound
        cases hfound
    · rw [Table.lookup_insert, if_neg, Table.lookup_insert]
      · split
        · next heq =>
          rw [heq] at hfound
          change s.messages.lookup user.id = some found at hfound
          rw [hfound] at huser
          exact congrArg some huser.symm
        · exact hfound
      · intro heq
        rw [heq, hassistant] at hfound
        cases hfound
  · exact ⟨.of_eq rfl rfl rfl, rfl, rfl⟩

theorem grown_saveRun (runId : String) (status : RunStatus) (output : Option RunOutput) :
    Grown st (st.saveRun runId status output) := by
  unfold saveRun
  split
  · exact ⟨.of_eq rfl rfl rfl, rfl, rfl⟩
  · next run hrun =>
    split
    · exact ⟨.of_eq rfl rfl rfl, rfl, rfl⟩
    · next hterminal =>
      refine ⟨⟨rfl, fun hkeyed id found hfound ↦ ?_, fun id found hfound ↦ ?_,
        fun id found hfound ↦ ⟨found, hfound, .inl rfl⟩⟩, rfl, rfl⟩
      · rw [Table.lookup_insert] at hfound
        split at hfound
        · next heq =>
          rw [← Option.some.inj hfound, heq]
          exact hkeyed runId run hrun
        · exact hkeyed id found hfound
      · rw [Table.lookup_insert]
        split
        · next heq =>
          rw [heq, hrun] at hfound
          obtain rfl := Option.some.inj hfound
          exact ⟨_, rfl, rfl, fun h ↦ absurd h hterminal⟩
        · exact ⟨found, hfound, .refl found⟩

theorem grown_saveMessage (messageId : String) (parts : List Part) (status : AssistantStatus) :
    Grown st (st.saveMessage messageId parts status) := by
  unfold saveMessage
  extract_lets s
  split
  · exact ⟨.of_eq rfl rfl rfl, rfl, rfl⟩
  · next message hmessage =>
    split
    · next runId parentId status₀ hrole =>
      split
      · exact ⟨.of_eq rfl rfl rfl, rfl, rfl⟩
      · next run hrun =>
        split
        · exact ⟨.of_eq rfl rfl rfl, rfl, rfl⟩
        · next h =>
          rw [not_or, Bool.not_eq_true, Bool.not_eq_false] at h
          refine ⟨⟨rfl, id, fun id found hfound ↦ ⟨found, hfound, .refl found⟩, fun id found hfound ↦ ?_⟩,
            rfl, rfl⟩
          rw [Table.lookup_insert]
          split
          · next heq =>
            rw [heq, hmessage] at hfound
            obtain rfl := Option.some.inj hfound
            exact ⟨_, rfl, .inr ⟨runId, parentId, status₀, status, run, parts, hrole, hrun, h.1, h.2, rfl⟩⟩
          · exact ⟨found, hfound, .inl rfl⟩
    · exact ⟨.of_eq rfl rfl rfl, rfl, rfl⟩

end State

/-! ### The messages of a run -/

variable {run run' : Run}

theorem user?_eq_some_iff {user : Message} :
    s.user? run = some user ↔ ∃ id, run.parentMessageId = some id ∧ s.messages.lookup id = some user ∧
      ∃ context content, user.role = .user context content := by
  unfold Snapshot.user?
  rw [Option.bind_eq_some_iff]
  refine exists_congr fun id ↦ and_congr_right fun _ ↦ ?_
  rw [Option.filter_eq_some_iff]
  refine and_congr_right fun _ ↦ ?_
  split
  · next context content hrole => exact ⟨fun _ ↦ ⟨context, content, hrole⟩, fun _ ↦ rfl⟩
  · next hrole =>
    refine ⟨nofun, fun h ↦ ?_⟩
    obtain ⟨context, content, h⟩ := h
    exact absurd h (hrole context content)

theorem assistant?_eq_some_iff {message : Message} {runId parentId : String} {status : AssistantStatus} :
    s.assistant? run = some (message, runId, parentId, status) ↔
      ∃ id, run.assistantMessageId = some id ∧ s.messages.lookup id = some message ∧
        message.role = .assistant runId parentId status := by
  unfold Snapshot.assistant?
  rw [Option.bind_eq_some_iff]
  refine exists_congr fun id ↦ and_congr_right fun _ ↦ ?_
  rw [Option.bind_eq_some_iff]
  constructor
  · rintro ⟨found, hfound, h⟩
    split at h
    · next hrole =>
      obtain ⟨rfl, rfl, rfl, rfl⟩ := Option.some.inj h
      exact ⟨hfound, hrole⟩
    · cases h
  · rintro ⟨hfound, hrole⟩
    refine ⟨message, hfound, ?_⟩
    rw [hrole]

/-- The part at which a step is found. -/
theorem stepAt_eq_some_iff {parts : List Part} {partId : String} {k : Nat} :
    State.stepAt parts partId = some k ↔ ∃ index part, parts.findIdx? (·.id = partId) = some index ∧
      parts[index]? = some part ∧ part.finishes? = some k := by
  unfold State.stepAt
  simp only [Option.bind_eq_some_iff]
  constructor
  · rintro ⟨index, hindex, part, hpart, hk⟩
    exact ⟨index, part, hindex, hpart, hk⟩
  · rintro ⟨index, part, hindex, hpart, hk⟩
    exact ⟨index, hindex, part, hpart, hk⟩

theorem stepAt_of_keepsSteps {parts parts' : List Part} (h : State.keepsSteps parts parts' = true)
    {partId : String} {k : Nat} (hk : State.stepAt parts partId = some k) :
    State.stepAt parts' partId = some k := by
  obtain ⟨index, part, hindex, hpart, -⟩ := stepAt_eq_some_iff.1 hk
  have hid : part.id = partId := by
    obtain ⟨hlt, hfound, -⟩ := List.findIdx?_eq_some_iff_getElem.1 hindex
    rw [List.getElem?_eq_getElem hlt] at hpart
    rw [← Option.some.inj hpart]
    exact of_decide_eq_true hfound
  have hkept := of_decide_eq_true (List.all_eq_true.1 h part (List.mem_of_getElem? hpart))
  rw [hid, hk] at hkept
  exact hkept.resolve_left nofun

namespace Grows

/-- The user of a run stays. -/
theorem user? (h : Grows s s') (hrun : RunGrows run run') {user : Message}
    (huser : s.user? run = some user) : s'.user? run' = some user := by
  obtain ⟨id, hid, hlookup, context, content, hrole⟩ := user?_eq_some_iff.1 huser
  obtain ⟨user', hlookup', hgrows⟩ := h.message id user hlookup
  refine user?_eq_some_iff.2 ⟨id, by rw [hrun.eq]; exact hid, ?_, context, content, hrole⟩
  rcases hgrows with rfl | ⟨runId, parentId, status, -, -, -, hrole', -⟩
  · exact hlookup'
  · cases hrole.symm.trans hrole'

/-- The assistant of a run keeps its finished steps, and stays once its run is terminal. -/
theorem assistant? (h : Grows s s') (hrun : RunGrows run run') {message : Message}
    {runId parentId : String} {status : AssistantStatus}
    (hassistant : s.assistant? run = some (message, runId, parentId, status)) :
    ∃ message' status', s'.assistant? run' = some (message', runId, parentId, status') ∧
      (∀ partId k, State.stepAt message.parts partId = some k → State.stepAt message'.parts partId = some k) ∧
      ((∃ owner, s.runs.lookup runId = some owner ∧ owner.status.terminal = true) →
        message' = message ∧ status' = status) := by
  obtain ⟨id, hid, hlookup, hrole⟩ := assistant?_eq_some_iff.1 hassistant
  obtain ⟨message', hlookup', hgrows⟩ := h.message id message hlookup
  have hid' : run'.assistantMessageId = some id := by
    rw [hrun.eq]
    exact hid
  rcases hgrows with rfl | ⟨runId', parentId', _, status', owner, parts, hrole', howner, hterminal, hkeeps, rfl⟩
  · exact ⟨message', status, assistant?_eq_some_iff.2 ⟨id, hid', hlookup', hrole⟩, fun _ _ h ↦ h,
      fun _ ↦ ⟨rfl, rfl⟩⟩
  · rw [hrole] at hrole'
    cases hrole'
    refine ⟨_, status', assistant?_eq_some_iff.2 ⟨id, hid', hlookup', rfl⟩,
      fun _ _ ↦ stepAt_of_keepsSteps hkeeps, ?_⟩
    rintro ⟨found, hfound, hfoundTerminal⟩
    rw [howner] at hfound
    obtain rfl := Option.some.inj hfound
    rw [hterminal] at hfoundTerminal
    cases hfoundTerminal

end Grows

/-! ### The steps -/

variable [DecidableEq D]

/-- What a compaction commits. -/
structure Compacted (cfg : Config D) (st st' : State D) (request : Request) (id summary : String)
    (created : Nat) (lineage : List Run) (cursor : CoverageCursor) (source : Source D) (hash : D) : Prop where
  hplan : planContextWindow cfg { request with snapshot := st.snapshot } = some (.compactionRequired cursor)
  hlineage : st.snapshot.lineage request.runId = some lineage
  hsource : compactionSource cfg st.snapshot request.runId cursor = some (some source)
  hhash : coverageHash cfg st.snapshot lineage cursor = some hash
  fresh : st.snapshot.checkpoints.lookup id = none
  eq : st' = {
    snapshot := { st.snapshot with
      checkpoints := st.snapshot.checkpoints.insert id
        (State.newCheckpoint st.snapshot request cursor hash source.parent id summary created) }
    sources := st.sources.insert id
      (source.pairs :: ((source.parent.bind fun parent ↦ st.sources.lookup parent.id).getD [])) }

theorem compact_cases (cfg : Config D) (st : State D) (request : Request) (id summary : String)
    (created : Nat) :
    st.compact cfg request id summary created = st ∨ ∃ lineage cursor source hash,
      Compacted cfg st (st.compact cfg request id summary created) request id summary created lineage cursor
        source hash := by
  unfold State.compact
  split
  · next cursor lineage hplan hlineage =>
    split
    · next source hsource =>
      unfold State.commitContextCheckpoint
      split
      · exact .inl rfl
      · next hash hhash =>
        extract_lets checkpoint
        split
        · exact .inl rfl
        · next h =>
          rw [not_or, Option.not_isSome_iff_eq_none] at h
          exact .inr ⟨lineage, cursor, source, hash, hplan, hlineage, hsource, hhash, h.1, rfl⟩
    · exact .inl rfl
  · exact .inl rfl

/-- **What a step can do.** -/
theorem step_cases (cfg : Config D) (e : Event) (st : State D) :
    Grown st (State.step cfg e st) ∨
    ∃ request id summary created lineage cursor source hash, e = .compact request id summary created ∧
      Compacted cfg st (State.step cfg e st) request id summary created lineage cursor source hash := by
  cases e with
  | startRun run user assistant => exact .inl (State.grown_startRun run user assistant)
  | saveRun runId status output => exact .inl (State.grown_saveRun runId status output)
  | saveMessage messageId parts status => exact .inl (State.grown_saveMessage messageId parts status)
  | saveToolCall toolCall => exact .inl ⟨.of_eq rfl rfl rfl, rfl, rfl⟩
  | savePermission permission => exact .inl ⟨.of_eq rfl rfl rfl, rfl, rfl⟩
  | selectHead runId =>
    refine .inl ?_
    simp only [State.step]
    split
    · exact ⟨.of_eq rfl rfl rfl, rfl, rfl⟩
    · exact ⟨.of_eq rfl rfl rfl, rfl, rfl⟩
  | compact request id summary created =>
    rcases compact_cases cfg st request id summary created with h | ⟨_, _, _, _, h⟩
    · refine .inl ?_
      simp only [State.step, h]
      exact ⟨.of_eq rfl rfl rfl, rfl, rfl⟩
    · exact .inr ⟨request, id, summary, created, _, _, _, _, rfl, h⟩

end Context
