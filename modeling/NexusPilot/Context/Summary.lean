import Mathlib.Data.Rat.Floor
import NexusPilot.Drivers.Error
import NexusPilot.Text.CommaList

/-!
# Rolling summaries

`generateRollingSummary` of the compaction service reads the messages that a checkpoint will stand for.
It asks a generator for a summary of as many messages as fit into the model's window beside the summary
so far, cutting the last one if it has to, and goes on with what is left.

The generator and the claim that is renewed around it are outside: what they answer depends on a world
that they may change. A run comes with its log, the requests that the generator was asked.
-/

namespace Context.Summary

open Text

/-! ### Texts -/

/-- A code point of a text, which may be one half of a surrogate pair. -/
structure CodePoint where
  value : ℕ
  lt : value < 0x110000
  deriving DecidableEq

abbrev Content := List CodePoint

/-- `Buffer.byteLength` of a code point; half of a pair is written as a replacement character. -/
def CodePoint.byteLength (c : CodePoint) : ℕ :=
  if c.value < 0x80 then 1 else if c.value < 0x800 then 2 else if c.value < 0x10000 then 3 else 4

def byteLength (text : Content) : ℕ :=
  (text.map CodePoint.byteLength).sum

/-- `trim`. -/
def trim (text : Content) : Content :=
  (text.dropWhile fun c ↦ isScriptSpace (.ofNat c.value)).rdropWhile fun c ↦ isScriptSpace (.ofNat c.value)

/-- `hasValidUtf16`. -/
def hasValidUtf16 (text : Content) : Bool :=
  text.all fun c ↦ !(0xD800 ≤ c.value && c.value ≤ 0xDFFF)

/-- `estimateTextTokens`: three bytes a token, rounded up. -/
def estimateTextTokens (text : Content) : ℕ :=
  (byteLength text + 2) / 3

/-- `CONTEXT_ESTIMATOR_OVERHEAD.message`. -/
def messageOverhead : ℕ := 4

/-- `CONTEXT_ESTIMATOR_OVERHEAD.part`. -/
def partOverhead : ℕ := 2

def estimateSummaryMessageTokens (content : Content) : ℕ :=
  messageOverhead + partOverhead + estimateTextTokens content

/-- The loop of `splitTextByTokenCapacity`, with the bytes passed so far. -/
def splitBytes (maxBytes : ℤ) : ℕ → Content → Content × Content
  | _, [] => ([], [])
  | bytes, c :: rest =>
    if (bytes + c.byteLength : ℕ) > maxBytes then ([], c :: rest)
    else
      let (taken, left) := splitBytes maxBytes (bytes + c.byteLength) rest
      (c :: taken, left)

def splitTextByTokenCapacity (value : Content) (maxTokens : ℤ) : Content × Content :=
  splitBytes (maxTokens * 3) 0 value

/-! ### Messages and requests -/

inductive Role
  | system
  | user
  | assistant
  | tool
  deriving DecidableEq

structure Message where
  role : Role
  content : Content
  deriving DecidableEq

/-- A `ModelMessage` of the source; its content may be no string. -/
structure SourceMessage where
  role : Role
  content : Option Content
  deriving DecidableEq

/-- What the generator is asked. -/
structure Request where
  instructions : List Content
  messages : List Message
  maxOutputTokens : ℚ
  deriving DecidableEq

/-- What the generator answers; its text may be no string. Of the usage that the provider reports only
the details of the output decide something. -/
structure Generated where
  text : Option Content
  finishReason : Option String := none
  textTokens : Option ℚ := none
  reasoningTokens : Option ℚ := none
  deriving DecidableEq

inductive Thrown
  | inputBudget (requiredTokens availableTokens : ℤ)
  /-- The diagnostics of the provider are left out. -/
  | validation (message : String) (invocationCount : ℕ) (reservedOutputTokens : ℚ)
  | error (message : String)
  deriving DecidableEq

/-- What the loop is given from outside: the texts of the prompts, the functions of other modules on
texts, and the generator with the claim that is renewed around it. -/
structure Host (W : Type) where
  systemPrompt : Content
  requestPrompt : Content
  /-- The content of `buildContextSummaryMemoryMessage`. -/
  memoryMessage : Content → Content
  /-- `sanitizeContextSummaryText`. -/
  sanitize : Content → Content
  /-- `hasMeaningfulSummaryContent`. -/
  isMeaningful : Content → Bool
  renewPreparationClaim : W → Except Thrown Unit × W
  generator : Request → W → Except Thrown Generated × W

/-- `RollingSummaryInput`. -/
structure Input where
  contextWindow : ℚ
  safetyMarginTokens : ℚ
  summaryMaxOutputTokens : ℚ
  summaryRetryMaxOutputTokens : ℚ
  summaryMaxChars : ℕ
  sourceMessages : List SourceMessage
  safetyInstruction : Content
  parentSummary : Option Content
  deriving DecidableEq

/-! ### One request -/

section Request

variable {W : Type} (host : Host W) (input : Input)

/-- `estimateSummaryInvocationTokens`. -/
def estimateSummaryInvocationTokens (fixedInstructions : List Content) : ℕ :=
  estimateSummaryMessageTokens host.systemPrompt + estimateSummaryMessageTokens host.requestPrompt +
    (fixedInstructions.map estimateSummaryMessageTokens).sum

/-- The loop of `selectSummaryChunk`: the messages taken, and what remains. -/
def takeMessages (availableInputTokens : ℤ) : ℤ → List Message → List Message × List Message
  | _, [] => ([], [])
  | usedTokens, next :: rest =>
    if usedTokens + estimateSummaryMessageTokens next.content ≤ availableInputTokens then
      let (taken, left) :=
        takeMessages availableInputTokens (usedTokens + estimateSummaryMessageTokens next.content) rest
      (next :: taken, left)
    else
      let contentTokenCapacity := availableInputTokens - usedTokens - messageOverhead - partOverhead
      if contentTokenCapacity ≤ 0 then ([], next :: rest)
      else
        let (head, tail) := splitTextByTokenCapacity next.content contentTokenCapacity
        if head = [] then ([], next :: rest)
        else ([{ next with content := head }],
          if tail = [] then rest else { next with content := tail } :: rest)

/-- The tokens that a request may have. -/
def availableInputTokens (maxOutputTokens : ℚ) : ℤ :=
  ⌊input.contextWindow - maxOutputTokens - input.safetyMarginTokens⌋

def selectSummaryChunk (remaining : List Message) (fixedInstructions : List Content)
    (maxOutputTokens : ℚ) : Except Thrown (List Message × List Message) :=
  let available := availableInputTokens input maxOutputTokens
  let fixedTokens := estimateSummaryInvocationTokens host fixedInstructions
  if fixedTokens > available then .error (.inputBudget fixedTokens available)
  else
    let chunk := takeMessages available fixedTokens remaining
    if chunk.2 ≠ [] ∧ chunk.1 = [] then
      .error (.inputBudget (fixedTokens + messageOverhead + partOverhead + 1) available)
    else .ok chunk

/-- What a run has done: the world, and the requests asked. -/
structure Trace (W : Type) where
  world : W
  log : List Request := []

/-- `renewPreparationClaim`. -/
def renew (t : Trace W) : Except Thrown Unit × Trace W :=
  let (answer, world) := host.renewPreparationClaim t.world
  (answer, { t with world })

/-- The request for a chunk. -/
def requestFor (fixedInstructions : List Content) (messages : List Message) (maxOutputTokens : ℚ) :
    Request where
  instructions := host.systemPrompt :: fixedInstructions
  messages := messages ++ [⟨.user, host.requestPrompt⟩]
  maxOutputTokens := maxOutputTokens

/-- `invokeSummaryGenerator`. An error of the generator, or of the renewal behind it, is kept, whatever
one more renewal does. -/
def invokeSummaryGenerator (fixedInstructions : List Content) (messages : List Message)
    (maxOutputTokens : ℚ) (t : Trace W) : Except Thrown Generated × Trace W :=
  match renew host t with
  | (.error e, t) => (.error e, t)
  | (.ok (), t) =>
    if messages.any (·.role = .system) then
      (.error (.error "Context summary messages must not contain system instructions"), t)
    else
      let request := requestFor host fixedInstructions messages maxOutputTokens
      let (answer, world) := host.generator request t.world
      let t : Trace W := { world, log := t.log ++ [request] }
      match answer with
      | .error e => (.error e, (renew host t).2)
      | .ok generated =>
        match renew host t with
        | (.error e, t) => (.error e, (renew host t).2)
        | (.ok (), t) => (.ok generated, t)

/-! ### The answer -/

def isReasoningOnlyLengthExhaustion (generated : Generated) : Bool :=
  generated.text.any (fun text ↦ trim text = []) && generated.finishReason = some "length" &&
    0 < generated.reasoningTokens.getD 0 && generated.textTokens = some 0

/-- `validateSummary`, with the message of its error. -/
def validateSummary (generated : Generated) (maxBytes : ℕ) : Except String Content :=
  match generated.text with
  | none => .error "Context summary generator returned an invalid result"
  | some text =>
    let rawSummary := trim text
    if rawSummary = [] then .error "Context summary generator returned blank output"
    else if !hasValidUtf16 rawSummary then
      .error "Context summary generator returned invalid Unicode"
    else
      let summary := trim (host.sanitize rawSummary)
      if summary = [] || !host.isMeaningful summary then
        .error "Context summary generator returned blank output"
      else if byteLength summary > maxBytes then
        .error "Context summary generator output exceeds the configured limit"
      else .ok summary

/-! ### The loop -/

/-- The loop variables of `generateRollingSummary`, without the usage that it only adds up, and the
chunks of the invocations accepted. -/
structure Progress where
  rollingSummary : Option Content
  remaining : List Message
  invocationCount : ℕ := 0
  reservedOutputTokens : ℚ := 0
  accepted : List (List Message) := []

/-- `selectSummaryChunk` and `invokeSummaryGenerator` in a row: what was generated, and the chunk. -/
def attempt (fixedInstructions : List Content) (maxOutputTokens : ℚ) (p : Progress) (t : Trace W) :
    Except Thrown (Generated × List Message × List Message) × Trace W :=
  match selectSummaryChunk host input p.remaining fixedInstructions maxOutputTokens with
  | .error e => (.error e, t)
  | .ok chunk =>
    match invokeSummaryGenerator host fixedInstructions chunk.1 maxOutputTokens t with
    | (.error e, t) => (.error e, t)
    | (.ok generated, t) => (.ok (generated, chunk), t)

/-- The counters after an invocation. -/
def Progress.counted (p : Progress) (maxOutputTokens : ℚ) : Progress :=
  { p with
    invocationCount := p.invocationCount + 1
    reservedOutputTokens := p.reservedOutputTokens + maxOutputTokens }

/-- `validateSummary` at the end of an iteration, and what remains. -/
def accept (generated : Generated) (chunk : List Message × List Message) (p : Progress) :
    Except Thrown Progress :=
  match validateSummary host generated input.summaryMaxChars with
  | .error message => .error (.validation message p.invocationCount p.reservedOutputTokens)
  | .ok summary =>
    .ok { p with
          rollingSummary := some summary, remaining := chunk.2
          accepted := p.accepted ++ [chunk.1] }

/-- An iteration of `generateRollingSummary`, with a second attempt if the first one has spent its
output on reasoning. -/
def iteration (p : Progress) (t : Trace W) : Except Thrown Progress × Trace W :=
  let fixedInstructions :=
    (p.rollingSummary.map host.memoryMessage).toList ++ [input.safetyInstruction]
  match attempt host input fixedInstructions input.summaryMaxOutputTokens p t with
  | (.error e, t) => (.error e, t)
  | (.ok (generated, chunk), t) =>
    let p := p.counted input.summaryMaxOutputTokens
    if isReasoningOnlyLengthExhaustion generated &&
        input.summaryRetryMaxOutputTokens > input.summaryMaxOutputTokens then
      match attempt host input fixedInstructions input.summaryRetryMaxOutputTokens p t with
      | (.error e, t) => (.error e, t)
      | (.ok (generated, chunk), t) =>
        (accept host input generated chunk (p.counted input.summaryRetryMaxOutputTokens), t)
    else (accept host input generated chunk p, t)

end Request

/-! ### What a chunk takes -/

/-- The messages still to be read: each takes a step of its own, and so does each code point. -/
def weight (messages : List Message) : ℕ :=
  (messages.map fun m ↦ m.content.length + 1).sum

theorem splitBytes_append (maxBytes : ℤ) (bytes : ℕ) (value : Content) :
    (splitBytes maxBytes bytes value).1 ++ (splitBytes maxBytes bytes value).2 = value := by
  induction value generalizing bytes with
  | nil => rfl
  | cons c rest ih =>
    rw [splitBytes]
    split
    · rfl
    · exact congrArg (c :: ·) (ih _)

theorem byteLength_splitBytes {maxBytes : ℤ} {bytes : ℕ} (h : bytes ≤ maxBytes) (value : Content) :
    (bytes + byteLength (splitBytes maxBytes bytes value).1 : ℕ) ≤ maxBytes := by
  induction value generalizing bytes with
  | nil => simpa [splitBytes, byteLength] using h
  | cons c rest ih =>
    rw [splitBytes]
    split
    · simpa [byteLength] using h
    · next hle =>
      have hrest : ((bytes + c.byteLength : ℕ) : ℤ) ≤ maxBytes := not_lt.1 hle
      have := ih hrest
      simpa [byteLength, Nat.add_assoc] using this

/-- **What fits** into a capacity costs no more than it. -/
theorem estimate_splitTextByTokenCapacity {maxTokens : ℤ} (h : 0 < maxTokens) (value : Content) :
    (estimateTextTokens (splitTextByTokenCapacity value maxTokens).1 : ℤ) ≤ maxTokens := by
  have hzero : ((0 : ℕ) : ℤ) ≤ maxTokens * 3 := by omega
  have hbytes := byteLength_splitBytes hzero value
  rw [splitTextByTokenCapacity, estimateTextTokens]
  omega

/-- `pieces` is what one reads of the messages `source` that are read whole: each of them in one or
several pieces of its own role. -/
inductive Reads : List Message → List Message → Prop
  | nil : Reads [] []
  | whole {source pieces : List Message} (m : Message) (h : Reads source pieces) :
    Reads (m :: source) (m :: pieces)
  | part {source pieces : List Message} {role : Role} {head tail : Content}
    (h : Reads (⟨role, tail⟩ :: source) pieces) :
    Reads (⟨role, head ++ tail⟩ :: source) (⟨role, head⟩ :: pieces)

/-- What a request costs. -/
def Request.estimate (request : Request) : ℕ :=
  (request.instructions.map estimateSummaryMessageTokens).sum +
    (request.messages.map fun m ↦ estimateSummaryMessageTokens m.content).sum

/-- **A chunk** fits beside what is used already, is read off the messages, and takes something of them
unless it is empty. -/
theorem takeMessages_spec {available used : ℤ} (h : used ≤ available) (messages : List Message) :
    used + ((takeMessages available used messages).1.map fun m ↦
        estimateSummaryMessageTokens m.content).sum ≤ available ∧
      (∀ pieces, Reads (takeMessages available used messages).2 pieces →
        Reads messages ((takeMessages available used messages).1 ++ pieces)) ∧
      weight (takeMessages available used messages).2 + (takeMessages available used messages).1.length ≤
        weight messages := by
  induction messages generalizing used with
  | nil => exact ⟨by simpa [takeMessages] using h, fun pieces hr ↦ hr, le_rfl⟩
  | cons next rest ih =>
    unfold takeMessages
    split
    · next hwhole =>
      obtain ⟨hcost, hreads, hweight⟩ := ih hwhole
      refine ⟨?_, fun pieces hr ↦ .whole next (hreads pieces hr), ?_⟩
      · simp only [List.map_cons, List.sum_cons]
        omega
      · simp only [weight, List.map_cons, List.sum_cons, List.length_cons] at hweight ⊢
        omega
    · dsimp only
      split
      · exact ⟨by simpa using h, fun pieces hr ↦ hr, le_rfl⟩
      next hcapacity =>
      have hcost := estimate_splitTextByTokenCapacity (not_le.1 hcapacity) next.content
      have happend : (splitTextByTokenCapacity next.content _).1 ++ (splitTextByTokenCapacity next.content
          (available - used - messageOverhead - partOverhead)).2 = next.content := splitBytes_append _ _ _
      generalize splitTextByTokenCapacity next.content _ = parts at hcost happend ⊢
      obtain ⟨head, tail⟩ := parts
      dsimp only at hcost happend ⊢
      split
      · exact ⟨by simpa using h, fun pieces hr ↦ hr, le_rfl⟩
      next hhead =>
      have hpos := List.length_pos_of_ne_nil hhead
      have hlen := congrArg List.length happend
      rw [List.length_append] at hlen
      refine ⟨?_, fun pieces hr ↦ ?_, ?_⟩
      · simp only [List.map_cons, List.map_nil, List.sum_cons, List.sum_nil, estimateSummaryMessageTokens]
        push_cast
        omega
      · obtain ⟨role, content⟩ := next
        subst happend
        split at hr
        · next htail =>
          rw [htail, List.append_nil]
          exact .whole ⟨role, head⟩ hr
        · exact .part hr
      · split
        · simp only [weight, List.map_cons, List.sum_cons, List.length_cons, List.length_nil]
          omega
        · simp only [weight, List.map_cons, List.sum_cons, List.length_cons, List.length_nil]
          omega

section Run

variable {W : Type} {host : Host W} {input : Input} {fixed : List Content} {maxOutputTokens : ℚ}
  {p p' : Progress} {t t' : Trace W}

variable {chunk : List Message × List Message}

theorem selectSummaryChunk_spec {remaining : List Message}
    (h : selectSummaryChunk host input remaining fixed maxOutputTokens = .ok chunk) :
    (estimateSummaryInvocationTokens host fixed : ℤ) + (chunk.1.map fun m ↦
        estimateSummaryMessageTokens m.content).sum ≤ availableInputTokens input maxOutputTokens ∧
      (∀ pieces, Reads chunk.2 pieces → Reads remaining (chunk.1 ++ pieces)) ∧
      (chunk.2 ≠ [] → weight chunk.2 < weight remaining) := by
  unfold selectSummaryChunk at h
  dsimp only at h
  split at h
  · cases h
  next hfixed =>
  obtain ⟨hcost, hreads, hweight⟩ := takeMessages_spec (not_lt.1 hfixed) remaining
  split at h
  · cases h
  next hprogress =>
  cases h
  refine ⟨hcost, hreads, fun hrest ↦ ?_⟩
  have hpos := List.length_pos_of_ne_nil fun hempty ↦ hprogress ⟨hrest, hempty⟩
  omega

/-- The log after some requests that fit. -/
structure Asks (input : Input) (t t' : Trace W) (requests : List Request) : Prop where
  log : t'.log = t.log ++ requests
  fits : ∀ request ∈ requests,
    (request.estimate : ℤ) ≤ availableInputTokens input request.maxOutputTokens

theorem Asks.nil (h : t'.log = t.log) : Asks input t t' [] :=
  ⟨by rw [h, List.append_nil], fun _ hr ↦ absurd hr List.not_mem_nil⟩

theorem Asks.append {t'' : Trace W} {requests requests' : List Request} (h : Asks input t t' requests)
    (h' : Asks input t' t'' requests') : Asks input t t'' (requests ++ requests') where
  log := by rw [h'.log, h.log, List.append_assoc]
  fits request hr := (List.mem_append.1 hr).elim (h.fits request) (h'.fits request)

/-- The generator is asked at most once, and has been if it has answered. -/
theorem invokeSummaryGenerator_log (host : Host W) (fixed : List Content) (maxOutputTokens : ℚ)
    (messages : List Message) :
    ((invokeSummaryGenerator host fixed messages maxOutputTokens t).2.log = t.log ∧
        ∀ generated, (invokeSummaryGenerator host fixed messages maxOutputTokens t).1 ≠ .ok generated) ∨
      (invokeSummaryGenerator host fixed messages maxOutputTokens t).2.log =
        t.log ++ [requestFor host fixed messages maxOutputTokens] := by
  have hrenew : ∀ t : Trace W, (renew host t).2.log = t.log := fun _ ↦ rfl
  unfold invokeSummaryGenerator
  split
  · next heq =>
    have := congrArg (fun r ↦ r.2.log) heq
    exact Or.inl ⟨this.symm, fun _ h ↦ (nomatch h)⟩
  next heq =>
  have hlog := congrArg (fun r ↦ r.2.log) heq
  dsimp only at hlog
  rw [hrenew] at hlog
  split
  · exact Or.inl ⟨hlog.symm, fun _ h ↦ (nomatch h)⟩
  refine Or.inr ?_
  rw [hlog]
  dsimp only
  split
  · rfl
  split
  · next heq => exact congrArg (fun r ↦ r.2.log) heq.symm
  · next heq => exact congrArg (fun r ↦ r.2.log) heq.symm

/-- What an attempt asks fits, and what it takes is the chunk that it has asked for. -/
theorem attempt_spec (host : Host W) (input : Input) (fixed : List Content) (maxOutputTokens : ℚ)
    (p : Progress) (t : Trace W) :
    ∃ requests, Asks input t (attempt host input fixed maxOutputTokens p t).2 requests ∧
      requests.length ≤ 1 ∧
      ∀ generated chunk, (attempt host input fixed maxOutputTokens p t).1 = .ok (generated, chunk) →
        selectSummaryChunk host input p.remaining fixed maxOutputTokens = .ok chunk ∧
          requests = [requestFor host fixed chunk.1 maxOutputTokens] := by
  unfold attempt
  split
  · exact ⟨[], .nil rfl, Nat.zero_le 1, fun _ _ h ↦ (nomatch h)⟩
  next chunk hchunk =>
  have hfits : ((requestFor host fixed chunk.1 maxOutputTokens).estimate : ℤ) ≤
      availableInputTokens input maxOutputTokens := by
    have hcost := (selectSummaryChunk_spec hchunk).1
    simp only [Request.estimate, requestFor, estimateSummaryInvocationTokens, List.map_cons, List.sum_cons,
      List.map_append, List.map_nil, List.sum_append, List.sum_nil] at hcost ⊢
    omega
  have hlog := invokeSummaryGenerator_log (t := t) host fixed maxOutputTokens chunk.1
  generalize invokeSummaryGenerator host fixed chunk.1 maxOutputTokens t = r at hlog ⊢
  obtain ⟨answer, t'⟩ := r
  rcases hlog with ⟨hlog, hnone⟩ | hlog
  · cases answer with
    | error e => exact ⟨[], .nil hlog, Nat.zero_le 1, fun _ _ h ↦ (nomatch h)⟩
    | ok generated => exact absurd rfl (hnone generated)
  · have hasks : Asks input t t' [requestFor host fixed chunk.1 maxOutputTokens] :=
      ⟨hlog, fun request hr ↦ List.mem_singleton.1 hr ▸ hfits⟩
    cases answer with
    | error e => exact ⟨_, hasks, le_rfl, fun _ _ h ↦ (nomatch h)⟩
    | ok generated =>
      refine ⟨_, hasks, le_rfl, fun _ _ h ↦ ?_⟩
      cases h
      exact ⟨hchunk, rfl⟩

/-- What an accepted chunk is: the one of a request, and taken off what was left. -/
structure Accepts (host : Host W) (p p' : Progress) (requests : List Request) (chunk : List Message) : Prop where
  summary : p'.rollingSummary.isSome
  accepted : p'.accepted = p.accepted ++ [chunk]
  asked : ∃ request ∈ requests, request.messages = chunk ++ [⟨.user, host.requestPrompt⟩]
  reads : ∀ pieces, Reads p'.remaining pieces → Reads p.remaining (chunk ++ pieces)
  progress : p'.remaining ≠ [] → weight p'.remaining < weight p.remaining

theorem accepts_of_accept {q : Progress} {generated : Generated} {requests : List Request}
    (hchunk : selectSummaryChunk host input p.remaining fixed maxOutputTokens = .ok chunk)
    (hrequest : requestFor host fixed chunk.1 maxOutputTokens ∈ requests) (hq : q.accepted = p.accepted)
    (h : accept host input generated chunk q = .ok p') : Accepts host p p' requests chunk.1 := by
  unfold accept at h
  split at h
  · cases h
  · cases h
    obtain ⟨-, hreads, hprogress⟩ := selectSummaryChunk_spec hchunk
    exact ⟨rfl, by rw [← hq], ⟨_, hrequest, rfl⟩, hreads, hprogress⟩

/-- **An iteration** asks twice at most, and accepts the chunk of its last request if it goes well. -/
theorem iteration_spec (host : Host W) (input : Input) (p : Progress) (t : Trace W) :
    ∃ requests, Asks input t (iteration host input p t).2 requests ∧ requests.length ≤ 2 ∧
      ∀ p', (iteration host input p t).1 = .ok p' → ∃ chunk, Accepts host p p' requests chunk := by
  unfold iteration
  generalize (p.rollingSummary.map host.memoryMessage).toList ++ [input.safetyInstruction] = fixed
  dsimp only
  have hfirst := attempt_spec host input fixed input.summaryMaxOutputTokens p t
  generalize attempt host input fixed input.summaryMaxOutputTokens p t = r at hfirst ⊢
  obtain ⟨requests, hasks, hle, hok⟩ := hfirst
  obtain ⟨answer, t₁⟩ := r
  rcases answer with e | ⟨generated, chunk⟩
  · exact ⟨requests, hasks, hle.trans one_le_two, fun _ h ↦ (nomatch h)⟩
  obtain ⟨hchunk, rfl⟩ := hok generated chunk rfl
  dsimp only
  split
  · have hsecond := attempt_spec host input fixed input.summaryRetryMaxOutputTokens
      (p.counted input.summaryMaxOutputTokens) t₁
    generalize attempt host input fixed input.summaryRetryMaxOutputTokens _ t₁ = r at hsecond ⊢
    obtain ⟨requests', hasks', hle', hok'⟩ := hsecond
    obtain ⟨answer, t₂⟩ := r
    have hlen : ([requestFor host fixed chunk.1 input.summaryMaxOutputTokens] ++ requests').length ≤ 2 := by
      simp only [List.length_append, List.length_singleton]
      omega
    rcases answer with e | ⟨generated', chunk'⟩
    · exact ⟨_, hasks.append hasks', hlen, fun _ h ↦ (nomatch h)⟩
    · obtain ⟨hchunk', rfl⟩ := hok' generated' chunk' rfl
      refine ⟨_, hasks.append hasks', hlen, fun p' h ↦ ⟨chunk'.1, ?_⟩⟩
      exact accepts_of_accept (p := p) (q := (p.counted _).counted _) hchunk' (by simp) rfl h
  · refine ⟨_, hasks, hle.trans one_le_two, fun p' h ↦ ⟨chunk.1, ?_⟩⟩
    exact accepts_of_accept (p := p) (q := p.counted _) hchunk (by simp) rfl h

end Run

/-! ### The whole run -/

/-- The loop of `generateRollingSummary`, whose first iteration runs in any case. -/
def loop {W : Type} (host : Host W) (input : Input) (p : Progress) (t : Trace W) :
    Except Thrown Progress × Trace W :=
  match h : iteration host input p t with
  | (.error e, t') => (.error e, t')
  | (.ok p', t') => if hrest : p'.remaining = [] then (.ok p', t') else loop host input p' t'
termination_by weight p.remaining
decreasing_by
  obtain ⟨_, _, _, hok⟩ := iteration_spec host input p t
  obtain ⟨_, haccepts⟩ := hok p' (by rw [h])
  exact haccepts.progress hrest

/-- `requireStringContent`. -/
def requireStringContent (message : SourceMessage) : Except Thrown Message :=
  match message.content with
  | some content => .ok ⟨message.role, content⟩
  | none => .error (.error "Context summary source must contain string-only ModelMessages")

/-- `generateRollingSummary`. -/
def generateRollingSummary {W : Type} (host : Host W) (input : Input) (world : W) :
    Except Thrown Progress × Trace W :=
  match input.sourceMessages.mapM requireStringContent with
  | .error e => (.error e, { world })
  | .ok remaining => loop host input { rollingSummary := input.parentSummary, remaining } { world }

section Run

variable {W : Type}

/-- **The loop** asks at most twice for each step of what is to be read, and its chunks are read off it. -/
theorem loop_spec (host : Host W) (input : Input) (p : Progress) (t : Trace W) :
    ∃ requests, Asks input t (loop host input p t).2 requests ∧
      requests.length ≤ 2 * (weight p.remaining + 1) ∧
      ∀ p', (loop host input p t).1 = .ok p' → p'.rollingSummary.isSome ∧
        ∃ chunks, p'.accepted = p.accepted ++ chunks ∧ Reads p.remaining chunks.flatten ∧
          (chunks.map (· ++ [⟨.user, host.requestPrompt⟩])).Sublist (requests.map (·.messages)) := by
  induction hn : weight p.remaining using Nat.strongRecOn generalizing p t with
  | ind n ih =>
    obtain ⟨requests, hasks, hle, hok⟩ := iteration_spec host input p t
    rw [loop]
    split
    · next heq =>
      rw [heq] at hasks
      exact ⟨requests, hasks, by omega, fun _ h ↦ (nomatch h)⟩
    · next p₁ t₁ heq =>
      rw [heq] at hasks hok
      obtain ⟨chunk, haccepts⟩ := hok p₁ rfl
      obtain ⟨request, hmem, hmessages⟩ := haccepts.asked
      have hlast : [chunk ++ [⟨.user, host.requestPrompt⟩]].Sublist (requests.map (·.messages)) := by
        rw [List.singleton_sublist, ← hmessages]
        exact List.mem_map_of_mem hmem
      split
      · next hrest =>
        refine ⟨requests, hasks, by omega, fun p' h ↦ ?_⟩
        cases h
        have hreads := haccepts.reads []
        rw [hrest, List.append_nil] at hreads
        exact ⟨haccepts.summary, [chunk], haccepts.accepted, by simpa using hreads .nil, hlast⟩
      · next hrest =>
        have hless := haccepts.progress hrest
        obtain ⟨requests', hasks', hle', hok'⟩ := ih _ (hn ▸ hless) p₁ t₁ rfl
        refine ⟨_, hasks.append hasks', by rw [List.length_append]; omega, fun p' h ↦ ?_⟩
        obtain ⟨hsummary, chunks, haccepted, hreads, hsublist⟩ := hok' p' h
        refine ⟨hsummary, chunk :: chunks, ?_, haccepts.reads _ hreads, ?_⟩
        · rw [haccepted, haccepts.accepted, List.append_assoc]
          rfl
        · rw [List.map_append]
          exact hlast.append hsublist

/-- The pieces of each message. -/
theorem Reads.groups {source pieces : List Message} (h : Reads source pieces) :
    ∃ groups : List (List Message), groups.flatten = pieces ∧
      List.Forall₂ (fun m group ↦ group ≠ [] ∧ (∀ piece ∈ group, piece.role = m.role) ∧
        group.flatMap (·.content) = m.content) source groups := by
  induction h with
  | nil => exact ⟨[], rfl, .nil⟩
  | whole m _ ih =>
    obtain ⟨groups, rfl, hgroups⟩ := ih
    exact ⟨[m] :: groups, rfl, .cons ⟨List.cons_ne_nil _ _, by simp, by simp⟩ hgroups⟩
  | @part _ _ role head tail _ ih =>
    obtain ⟨groups, rfl, hgroups⟩ := ih
    obtain ⟨group, others, ⟨-, hrole, hcontent⟩, hothers, rfl⟩ := List.forall₂_cons_left_iff.1 hgroups
    refine ⟨(⟨role, head⟩ :: group) :: others, rfl, .cons ⟨List.cons_ne_nil _ _, ?_, ?_⟩ hothers⟩
    · intro piece hpiece
      rcases List.mem_cons.1 hpiece with rfl | hpiece
      · rfl
      · exact hrole piece hpiece
    · rw [List.flatMap_cons, hcontent]

/-- **A rolling summary reads the whole source once.** The run ends, and asks at most twice for each
code point and message of the source. What it asks fits into the window that is left beside the output.
If it goes well, the chunks accepted are those of requests in their order, and each message of the source
is the contents of consecutive pieces of its role. -/
theorem generateRollingSummary_spec (host : Host W) (input : Input) (world : W) :
    (generateRollingSummary host input world).2.log.length ≤
      2 * ((input.sourceMessages.map fun m ↦ (m.content.getD []).length + 1).sum + 1) ∧
    (∀ request ∈ (generateRollingSummary host input world).2.log, (request.estimate : ℤ) ≤
      ⌊input.contextWindow - request.maxOutputTokens - input.safetyMarginTokens⌋) ∧
    ∀ p, (generateRollingSummary host input world).1 = .ok p → p.rollingSummary.isSome ∧
      (p.accepted.map (· ++ [⟨.user, host.requestPrompt⟩])).Sublist
        ((generateRollingSummary host input world).2.log.map (·.messages)) ∧
      ∃ groups : List (List Message), groups.flatten = p.accepted.flatten ∧
        List.Forall₂ (fun source group ↦ group ≠ [] ∧ (∀ piece ∈ group, piece.role = source.role) ∧
          source.content = some (group.flatMap (·.content))) input.sourceMessages groups := by
  unfold generateRollingSummary
  split
  · exact ⟨Nat.zero_le _, fun _ hr ↦ absurd hr List.not_mem_nil, fun _ h ↦ (nomatch h)⟩
  next remaining hremaining =>
  have hsource : input.sourceMessages = remaining.map fun m ↦ ⟨m.role, some m.content⟩ := by
    rw [← List.forall₂_eq_eq_eq, List.forall₂_map_right_iff]
    refine (Drivers.mapM_eq_ok_iff.1 hremaining).imp fun source m hm ↦ ?_
    obtain ⟨role, content⟩ := source
    cases content with
    | none => cases hm
    | some content =>
      cases hm
      rfl
  have hweight : weight remaining =
      (input.sourceMessages.map fun m ↦ (m.content.getD []).length + 1).sum := by
    rw [hsource, List.map_map]
    rfl
  obtain ⟨requests, hasks, hle, hok⟩ :=
    loop_spec host input { rollingSummary := input.parentSummary, remaining } { world }
  have hlog := hasks.log
  rw [List.nil_append] at hlog
  rw [hlog, ← hweight]
  refine ⟨hle, hasks.fits, fun p h ↦ ?_⟩
  obtain ⟨hsummary, chunks, haccepted, hreads, hsublist⟩ := hok p h
  rw [List.nil_append] at haccepted
  obtain ⟨groups, hflatten, hgroups⟩ := hreads.groups
  refine ⟨hsummary, haccepted ▸ hsublist, groups, haccepted ▸ hflatten, ?_⟩
  rw [hsource, List.forall₂_map_left_iff]
  exact hgroups.imp fun m group h ↦ ⟨h.1, h.2.1, congrArg some h.2.2.symm⟩

end Run

end Context.Summary
