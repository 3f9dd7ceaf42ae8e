import NexusPilot.Context.Progress

/-!
# What the sources of a checkpoint hold

A checkpoint summarises what its own source holds, on top of its parent. The source begins with the run after the
parent's, so a parent at a finished step leaves out what its run did after that step, unless the new checkpoint
stands in the same run. `keepsHistory_run` says that nothing else is ever left out: where no such rest is passed
over, the sources along the chain of parents hold every part that one summary of the whole prefix would take.

The invariant (`Covered`) keeps for each checkpoint the runs its hash is made from. These are terminal, or a
finished step whose parts are in the hash, so what the sources took of them is what the history still holds as
long as the hash is the same.
-/

namespace Context

open Machine Tools

variable {D : Type} {cfg : Config D} {s s' : Snapshot D}

/-! ### The parts of a source -/

/-- The parts of a pair, with their run. -/
def CanonicalPair.entries (pair : CanonicalPair) : List (String × CanonicalPart) :=
  (pair.user.parts ++ pair.assistant.parts).map (pair.runId, ·)

def partsOf (pairs : List CanonicalPair) : List (String × CanonicalPart) :=
  pairs.flatMap CanonicalPair.entries

variable {run : Run} {user assistant : Message} {pair : CanonicalPair} {entry : String × CanonicalPart}
  {runs : List Run} {last : Option (Run × (List Part → List Part))} {throughRunId runId partId : String}
  {k partIndex n requestIndex : Nat} {parts : List Part} {parentCursor : CoverageCursor} {α : Type}
  {xs : List α} {x : α} {whole : List CanonicalPair}

/-- The part of a pair is one of the user or a taken one of the assistant. -/
theorem mem_entries_of_ownMessages (h : OwnMessages s run user assistant) {taken : List Part → List Part}
    (hpair : canonicalizePair cfg s run taken = some pair) :
    entry ∈ pair.entries ↔ entry.1 = run.id ∧
      (entry.2 ∈ canonicalizeParts cfg user.parts ∨
        entry.2 ∈ canonicalizeParts cfg (taken assistant.parts)) := by
  obtain ⟨status, hassistant⟩ := h.hassistant
  unfold canonicalizePair at hpair
  rw [h.huser, hassistant] at hpair
  simp only [Option.ite_none_right_eq_some] at hpair
  obtain ⟨-, hpair⟩ := hpair
  rw [← Option.some.inj hpair]
  unfold CanonicalPair.entries
  rw [List.mem_map]
  constructor
  · rintro ⟨part, hpart, rfl⟩
    exact ⟨rfl, List.mem_append.1 hpart⟩
  · rintro ⟨hid, hpart⟩
    exact ⟨entry.2, List.mem_append.2 hpart, Prod.ext hid.symm rfl⟩

theorem mem_partsOf_canonicalizeSource {pairs : List CanonicalPair}
    (h : canonicalizeSource cfg s runs last = some pairs) :
    entry ∈ partsOf pairs ↔
      (∃ run ∈ runs, ∃ pair, canonicalizePair cfg s run id = some pair ∧ entry ∈ pair.entries) ∨
      ∃ run taken pair, last = some (run, taken) ∧ canonicalizePair cfg s run taken = some pair ∧
        entry ∈ pair.entries := by
  unfold canonicalizeSource at h
  obtain ⟨found, hfound, h⟩ := Option.bind_eq_some_iff.1 h
  have hmem : entry ∈ partsOf found ↔
      ∃ run ∈ runs, ∃ pair, canonicalizePair cfg s run id = some pair ∧ entry ∈ pair.entries := by
    unfold partsOf
    rw [List.mem_flatMap]
    constructor
    · rintro ⟨pair, hpair, hentry⟩
      obtain ⟨run, hrun, hsome⟩ := exists_of_mem_mapM hfound hpair
      exact ⟨run, hrun, pair, hsome, hentry⟩
    · rintro ⟨run, hrun, pair, hsome, hentry⟩
      obtain ⟨pair', hpair', hsome'⟩ := exists_of_mapM hfound hrun
      obtain rfl := Option.some.inj (hsome.symm.trans hsome')
      exact ⟨pair, hpair', hentry⟩
  cases last with
  | none =>
    rw [← Option.some.inj h, hmem]
    refine ⟨.inl, fun h ↦ h.resolve_right ?_⟩
    rintro ⟨_, _, _, hlast, -⟩
    cases hlast
  | some last =>
    obtain ⟨pair, hpair, h⟩ := Option.bind_eq_some_iff.1 h
    have happend : entry ∈ partsOf (found ++ [pair]) ↔ entry ∈ partsOf found ∨ entry ∈ pair.entries := by
      unfold partsOf
      rw [List.flatMap_append, List.mem_append, List.flatMap_singleton]
    rw [← Option.some.inj h, happend, hmem]
    refine or_congr_right ⟨fun hentry ↦ ⟨last.1, last.2, pair, rfl, hpair, hentry⟩, ?_⟩
    rintro ⟨run, taken, pair', hlast, hpair', hentry⟩
    obtain rfl := Option.some.inj hlast
    obtain rfl := Option.some.inj (hpair.symm.trans hpair')
    exact hentry

/-! ### Covered history -/

/-- A terminal run all of whose parts the sources hold. -/
structure Settled (cfg : Config D) (s : Snapshot D) (held : List (String × CanonicalPart)) (run : Run) :
    Prop where
  stored : s.runs.lookup run.id = some run
  terminal : run.status.terminal = true
  holds : ∃ user assistant, OwnMessages s run user assistant ∧
    ∀ part, part ∈ canonicalizeParts cfg user.parts ∨ part ∈ canonicalizeParts cfg assistant.parts →
      (run.id, part) ∈ held

/-- What a checkpoint with a cursor and a hash covers is held by the sources. -/
inductive Covered (cfg : Config D) (s : Snapshot D) (held : List (String × CanonicalPart)) :
    CoverageCursor → D → Prop
  | run {throughRunId : String} {runs : List Run} {entries : List LineageEntry}
      (hentries : runs.mapM lineageEntry = some entries) (hruns : ∀ run ∈ runs, Settled cfg s held run) :
    Covered cfg s held (.run throughRunId) (cfg.digest (.lineage entries))
  | sealedStep {runId partId : String} {k : Nat} {runs : List Run} {entries : List LineageEntry}
      {entry : LineageEntry} {user : Message} {parts : List Part}
      (hentries : runs.mapM lineageEntry = some entries) (hruns : ∀ run ∈ runs, Settled cfg s held run)
      (huser : s.messages.lookup entry.userMessageId = some user)
      (hrole : ∃ context content, user.role = .user context content)
      (hheld : ∀ part, part ∈ canonicalizeParts cfg user.parts ∨ part ∈ canonicalizeParts cfg parts →
        (entry.runId, part) ∈ held) :
    Covered cfg s held (.sealedStep runId k partId) (cfg.digest (.sealedStep entries entry k partId parts))

theorem Settled.of_grows (h : Grows s s') {held : List (String × CanonicalPart)}
    (hsettled : Settled cfg s held run) : Settled cfg s' held run := by
  obtain ⟨hstored, hterminal, user, assistant, hown, hheld⟩ := hsettled
  obtain ⟨run', hrun', hgrows⟩ := h.run run.id run hstored
  obtain rfl := hgrows.terminal hterminal
  obtain ⟨status, hassistant⟩ := hown.hassistant
  obtain ⟨assistant', status', hassistant', -, hsame⟩ := h.assistant? hgrows hassistant
  obtain ⟨rfl, rfl⟩ := hsame ⟨run', hstored, hterminal⟩
  refine ⟨hrun', hterminal, user, assistant', ⟨h.user? hgrows hown.huser, ⟨status', hassistant'⟩, ?_, ?_,
    hown.input⟩, hheld⟩
  · rw [h.conversationId]
    exact hown.userConversation
  · rw [h.conversationId]
    exact hown.assistantConversation

theorem Covered.of_grows (h : Grows s s') {held : List (String × CanonicalPart)} {cursor : CoverageCursor}
    {hash : D} (hcovered : Covered cfg s held cursor hash) : Covered cfg s' held cursor hash := by
  cases hcovered with
  | run hentries hruns => exact .run hentries fun run hrun ↦ (hruns run hrun).of_grows h
  | @sealedStep _ _ _ _ _ entry user _ hentries hruns huser hrole hheld =>
    obtain ⟨user', huser', hgrows⟩ := h.message entry.userMessageId user huser
    obtain ⟨context, content, hrole⟩ := hrole
    have hsame : user' = user := by
      rcases hgrows with hsame | ⟨_, _, _, _, _, _, hassistant, -⟩
      · exact hsame
      · cases hrole.symm.trans hassistant
    rw [hsame] at huser'
    exact .sealedStep hentries (fun run hrun ↦ (hruns run hrun).of_grows h) huser' ⟨context, content, hrole⟩
      hheld

/-! ### A parent that still fits -/

theorem lineageEntry_eq_some_iff {entry : LineageEntry} :
    lineageEntry run = some entry ↔ entry.runId = run.id ∧
      run.parentMessageId = some entry.userMessageId ∧
      run.assistantMessageId = some entry.assistantMessageId := by
  unfold lineageEntry
  simp only [Option.bind_eq_bind, Option.bind_eq_some_iff, Option.some.injEq]
  constructor
  · rintro ⟨userMessageId, huser, assistantMessageId, hassistant, rfl⟩
    exact ⟨rfl, huser, hassistant⟩
  · rintro ⟨hid, huser, hassistant⟩
    exact ⟨entry.userMessageId, huser, entry.assistantMessageId, hassistant, by rw [← hid]⟩

variable {held : List (String × CanonicalPart)} {lineage : List Run}

/-- Runs with the entries of settled ones are these. -/
theorem settled_of_entries {found : List Run} {entries : List LineageEntry}
    (hentries : runs.mapM lineageEntry = some entries) (hruns : ∀ run ∈ runs, Settled cfg s held run)
    (hfound : found.mapM lineageEntry = some entries)
    (hstored : ∀ run ∈ found, s.runs.lookup run.id = some run) :
    ∀ run ∈ found, Settled cfg s held run := by
  intro run hrun
  obtain ⟨entry, hentry, hrunEntry⟩ := exists_of_mapM hfound hrun
  obtain ⟨run', hrun', hrunEntry'⟩ := exists_of_mem_mapM hentries hentry
  have hid : run'.id = run.id :=
    (lineageEntry_eq_some_iff.1 hrunEntry').1.symm.trans (lineageEntry_eq_some_iff.1 hrunEntry).1
  have hsettled := hruns run' hrun'
  have hlookup := hsettled.stored
  rw [hid, hstored run hrun] at hlookup
  rw [Option.some.inj hlookup]
  exact hsettled

/-- A covered run, where the hash is still that of the history. -/
theorem Covered.settled_run (hinj : Function.Injective cfg.digest) (hlineage : IsLineage s lineage) {hash : D}
    (h : Covered cfg s held (.run throughRunId) hash)
    (hhash : coverageHash cfg s lineage (.run throughRunId) = some hash) {index : Nat}
    (hindex : lineage.findIdx? (·.id = throughRunId) = some index) :
    ∀ run ∈ lineage.take (index + 1), Settled cfg s held run := by
  generalize hcursor : CoverageCursor.run throughRunId = cursor at h
  cases h with
  | sealedStep => cases hcursor
  | @run _ runs entries hentries hruns =>
    obtain ⟨index', entries', hindex', hentries', hdigest⟩ := coverageHash_run_iff.1 hhash
    obtain rfl := Option.some.inj (hindex.symm.trans hindex')
    cases hinj hdigest
    exact settled_of_entries hentries hruns hentries' fun run hrun ↦
      hlineage.stored run (List.mem_of_mem_take hrun)

/-- A covered finished step, where the hash is still that of the history. -/
theorem Covered.settled_sealedStep (hinj : Function.Injective cfg.digest) (hlineage : IsLineage s lineage)
    {hash : D} (h : Covered cfg s held (.sealedStep runId k partId) hash)
    (hhash : coverageHash cfg s lineage (.sealedStep runId k partId) = some hash) {index : Nat}
    (hindex : lineage.findIdx? (·.id = runId) = some index) (hrun : lineage[index]? = some run)
    (hown : OwnMessages s run user assistant) :
    (∀ run ∈ lineage.take index, Settled cfg s held run) ∧
      ∃ partIndex, assistant.parts.findIdx? (·.id = partId) = some partIndex ∧
        ∀ part, part ∈ canonicalizeParts cfg user.parts ∨
          part ∈ canonicalizeParts cfg (assistant.parts.take (partIndex + 1)) → (run.id, part) ∈ held := by
  generalize hcursor : CoverageCursor.sealedStep runId k partId = cursor at h
  cases h with
  | run => cases hcursor
  | @sealedStep runId' partId' k' runs entries entry user' parts hentries hruns huser' hrole hheld =>
    cases hcursor
    obtain ⟨index', partIndex, run', found, entries', entry', hsealed, hdigest⟩ :=
      coverageHash_sealedStep_iff.1 hhash
    obtain rfl := Option.some.inj (hindex.symm.trans hsealed.hindex)
    obtain rfl := Option.some.inj (hrun.symm.trans hsealed.hrun)
    cases hinj hdigest
    obtain ⟨hid, huserId, -⟩ := lineageEntry_eq_some_iff.1 hsealed.hentry
    obtain ⟨status, hassistant⟩ := hown.hassistant
    obtain rfl := Option.some.inj (hassistant.symm.trans hsealed.hassistant)
    obtain ⟨userId, hparent, huser, -⟩ := user?_eq_some_iff.1 hown.huser
    obtain rfl := Option.some.inj (huserId.symm.trans hparent)
    obtain rfl := Option.some.inj (huser.symm.trans huser')
    refine ⟨settled_of_entries hentries hruns hsealed.hentries fun run hrun ↦
      hlineage.stored run (List.mem_of_mem_take hrun), partIndex, hsealed.hpart, fun part hpart ↦ ?_⟩
    rw [← hid]
    exact hheld part hpart

/-! ### The new source -/

/-- Where the source begins. -/
def sourceStart (lineage : List Run) (parent : Option (Checkpoint D)) : Nat :=
  match parent.bind fun parent ↦ lineage.findIdx? (·.id = parent.coverageThroughRunId) with
  | some index => index + 1
  | none => 0

variable {index : Nat} {parent : Option (Checkpoint D)} {pairs : List CanonicalPair}

theorem canonicalizeSource_run (h : sourceState cfg s lineage index (.run throughRunId) parent = some pairs) :
    canonicalizeSource cfg s ((lineage.take (index + 1)).drop (sourceStart lineage parent)) none =
      some pairs := by
  unfold sourceState at h
  extract_lets safe parentIndex parentCursor at h
  rw [Option.ite_none_right_eq_some] at h
  exact h.2

theorem canonicalizeSource_sealedStep (hrun : lineage[index]? = some run)
    (h : sourceState cfg s lineage index (.sealedStep runId k partId) parent = some pairs) :
    canonicalizeSource cfg s ((lineage.take index).drop (sourceStart lineage parent))
      (some (run, takenParts (parent.map Checkpoint.cursor) runId partId)) = some pairs := by
  unfold sourceState at h
  extract_lets safe parentIndex parentCursor at h
  rw [Option.ite_none_right_eq_some] at h
  replace h := h.2
  simp only [hrun] at h
  exact h

theorem Settled.mem_held (h : Settled cfg s held run) (hpair : canonicalizePair cfg s run id = some pair)
    (hentry : entry ∈ pair.entries) : entry ∈ held := by
  obtain ⟨user, assistant, hown, hheld⟩ := h.holds
  obtain ⟨hid, hpart⟩ := (mem_entries_of_ownMessages hown hpair).1 hentry
  have hmem := hheld entry.2 hpart
  rw [← hid] at hmem
  exact hmem

/-- The assistant of a run has nothing after a part that a summary would take. -/
def NothingAfter (cfg : Config D) (s : Snapshot D) (run : Run) (partId : String) : Prop :=
  ∀ assistant index, s.assistant? run = some assistant →
    assistant.1.parts.findIdx? (·.id = partId) = some index →
    canonicalizeParts cfg (assistant.1.parts.drop (index + 1)) = []

/-- Splitting the parts of a list. -/
theorem mem_canonicalizeParts_split (count : Nat) {part : CanonicalPart}
    (h : part ∈ canonicalizeParts cfg parts) :
    part ∈ canonicalizeParts cfg (parts.take count) ∨ part ∈ canonicalizeParts cfg (parts.drop count) := by
  unfold canonicalizeParts at h ⊢
  rw [← List.take_append_drop count parts, List.filterMap_append, List.mem_append] at h
  exact h

variable {checkpoint : Checkpoint D} {cursor : CoverageCursor} {position : Nat × Nat}

/-- A parent that fits and after whose step nothing is kept: its run and those before it are held whole. -/
theorem ParentCandidate.mem_held (hinj : Function.Injective cfg.digest) (hlineage : IsLineage s lineage)
    (h : ParentCandidate cfg s lineage cursor checkpoint position)
    (hcovered : Covered cfg s held checkpoint.cursor checkpoint.lineageHash)
    (hown : ∀ run, lineage[position.1]? = some run → ∃ user assistant, OwnMessages s run user assistant)
    (hafter : ∀ runId k partId, checkpoint.cursor = .sealedStep runId k partId →
      ∀ run ∈ lineage, run.id = runId → NothingAfter cfg s run partId)
    {run : Run} (hrun : run ∈ lineage.take (position.1 + 1)) {pair : CanonicalPair}
    (hpair : canonicalizePair cfg s run id = some pair) {entry : String × CanonicalPart}
    (hentry : entry ∈ pair.entries) : entry ∈ held := by
  have hindex := h.findIdx?
  have hhash := h.hash
  cases hcursor : checkpoint.cursor with
  | run throughRunId =>
    rw [hcursor] at hcovered hindex hhash
    exact (hcovered.settled_run hinj hlineage hhash hindex run hrun).mem_held hpair hentry
  | sealedStep runId k partId =>
    rw [hcursor] at hcovered hindex hhash
    obtain ⟨last, hlast, hid⟩ := exists_of_findIdx? hindex
    obtain ⟨user, assistant, hlastOwn⟩ := hown last hlast
    obtain ⟨hsettled, partIndex, hpart, hheld⟩ :=
      hcovered.settled_sealedStep hinj hlineage hhash hindex hlast hlastOwn
    rw [List.take_add_one, hlast, List.mem_append] at hrun
    rcases hrun with hrun | hrun
    · exact (hsettled run hrun).mem_held hpair hentry
    · obtain rfl := List.mem_singleton.1 hrun
      obtain ⟨hentryId, hmem⟩ := (mem_entries_of_ownMessages hlastOwn hpair).1 hentry
      obtain ⟨status, hassistant⟩ := hlastOwn.hassistant
      have hnothing : canonicalizeParts cfg (assistant.parts.drop (partIndex + 1)) = [] :=
        hafter runId k partId hcursor run (List.mem_of_getElem? hlast) hid _ partIndex hassistant hpart
      have hsplit : entry.2 ∈ canonicalizeParts cfg user.parts ∨
          entry.2 ∈ canonicalizeParts cfg (assistant.parts.take (partIndex + 1)) := by
        refine hmem.imp_right fun hmem ↦ ?_
        refine (mem_canonicalizeParts_split (partIndex + 1) hmem).resolve_right fun hrest ↦ ?_
        exact List.not_mem_nil (hnothing ▸ hrest)
      have hin := hheld entry.2 hsplit
      rw [← hentryId] at hin
      exact hin

/-- The parts taken of the last run do not depend on a parent in another run. -/
theorem takenParts_of_ne (h : parentCursor.runId ≠ runId) (parts : List Part) :
    takenParts (some parentCursor) runId partId parts = takenParts none runId partId parts := by
  cases parentCursor with
  | run throughRunId => rfl
  | sealedStep parentRunId parentStep parentPartId =>
    have hne : parentRunId ≠ runId := h
    simp only [takenParts, if_neg hne]

/-- The parts of a finished step's run, up to the step. -/
theorem takenParts_none (h : parts.findIdx? (·.id = partId) = some partIndex) :
    takenParts none runId partId parts = parts.take (partIndex + 1) := by
  unfold takenParts
  rw [h]
  exact List.drop_zero

/-- The parts of a finished step's run after an earlier step of it. -/
theorem takenParts_some {parentPartId : String} {parentPartIndex : Nat}
    (h : parts.findIdx? (·.id = partId) = some partIndex)
    (hparent : parts.findIdx? (·.id = parentPartId) = some parentPartIndex) :
    takenParts (some (.sealedStep runId k parentPartId)) runId partId parts =
      (parts.take (partIndex + 1)).drop (parentPartIndex + 1) := by
  simp only [takenParts, h, hparent, if_true]

theorem mem_take_of_mem_take_take {m : Nat} (h : x ∈ (xs.take n).take m) : x ∈ xs.take m := by
  rw [List.take_take] at h
  exact List.take_subset_take_left xs (Nat.min_le_left m n) h

theorem mem_take_split (m : Nat) (h : x ∈ xs.take n) :
    x ∈ xs.take m ∨ x ∈ (xs.take n).drop m := by
  rw [← List.take_append_drop m (xs.take n), List.mem_append] at h
  exact h.imp_left mem_take_of_mem_take_take

/-- A parent in another run than the cursor's stands elsewhere. -/
theorem ParentCandidate.runId_ne (h : ParentCandidate cfg s lineage cursor checkpoint position)
    (hindex : lineage.findIdx? (·.id = cursor.runId) = some index) (hlt : position.1 < index) :
    checkpoint.cursor.runId ≠ cursor.runId := by
  intro heq
  have hparentIndex := h.findIdx?
  rw [heq, hindex] at hparentIndex
  have hsame := Option.some.inj hparentIndex
  omega

/-- A parent before a finished step: in an earlier run, or at a finished step of the same run. -/
theorem lt_or_of_parentBefore {parentIndex : Nat}
    (h : parentBefore (some parentIndex) (some parentCursor) index (.sealedStep runId k partId) = true) :
    parentIndex < index ∨ parentIndex = index ∧ ∃ parentRunId parentStep parentPartId,
      parentCursor = .sealedStep parentRunId parentStep parentPartId := by
  simp only [parentBefore, Bool.or_eq_true, Bool.and_eq_true, decide_eq_true_iff] at h
  refine h.imp_right fun h ↦ ⟨h.1, ?_⟩
  obtain ⟨-, h⟩ := h
  split at h
  · next parentRunId parentStep parentPartId _ _ _ hparent _ =>
    exact ⟨parentRunId, parentStep, parentPartId, Option.some.inj hparent⟩
  · cases h

theorem sourceStart_some (h : ParentCandidate cfg s lineage cursor checkpoint position) :
    sourceStart lineage (some checkpoint) = position.1 + 1 := by
  have hparentIndex := h.findIdx?
  rw [checkpoint.runId_cursor] at hparentIndex
  unfold sourceStart
  rw [Option.bind_some, hparentIndex]

/-- **What a new source leaves out is held already.** -/
theorem mem_source_or_held (hinj : Function.Injective cfg.digest) (hlineage : IsLineage s lineage)
    (he : Eligible s lineage requestIndex cursor)
    (hindex : lineage.findIdx? (·.id = cursor.runId) = some index)
    (h : ParentCandidate cfg s lineage cursor checkpoint position)
    (hcovered : Covered cfg s held checkpoint.cursor checkpoint.lineageHash)
    (hafter : ∀ runId k partId, checkpoint.cursor = .sealedStep runId k partId → runId ≠ cursor.runId →
      ∀ run ∈ lineage, run.id = runId → NothingAfter cfg s run partId)
    (hwhole : sourceState cfg s lineage index cursor none = some whole)
    (hpairs : sourceState cfg s lineage index cursor (some checkpoint) = some pairs) :
    ∀ entry ∈ partsOf whole, entry ∈ partsOf pairs ∨ entry ∈ held := by
  have hstart := sourceStart_some h
  have hparent := (exists_sourceState_iff cfg hlineage he hindex (some checkpoint)).1 ⟨pairs, hpairs⟩
  have hparentIndex := h.findIdx?
  rw [checkpoint.runId_cursor] at hparentIndex
  rw [Option.bind_some, hparentIndex, Option.map_some] at hparent
  -- runs up to an earlier parent are held, those after it are in the source
  have hearlier {count : Nat} (hsafe : ∀ run ∈ lineage.take count, coveredRunSafe s run = true)
      (hcount : position.1 < count) (hlt : position.1 < index) {run : Run} (hrun : run ∈ lineage.take count)
      {pair : CanonicalPair} (hpair : canonicalizePair cfg s run id = some pair)
      {entry : String × CanonicalPart} (hentry : entry ∈ pair.entries) :
      run ∈ (lineage.take count).drop (position.1 + 1) ∨ entry ∈ held := by
    rcases mem_take_split (position.1 + 1) hrun with hrun | hrun
    · refine .inr (h.mem_held hinj hlineage hcovered (fun last hlast ↦ ?_) ?_ hrun hpair hentry)
      · have hmem : last ∈ lineage.take count := by
          refine List.mem_of_getElem? (i := position.1) ?_
          rw [List.getElem?_take_of_lt hcount]
          exact hlast
        exact (exists_of_coveredRunSafe (hsafe last hmem)).2
      · intro runId k partId hcursor
        have hne := h.runId_ne hindex hlt
        rw [hcursor] at hne
        exact hafter runId k partId hcursor hne
    · exact .inl hrun
  intro entry hentry
  cases he with
  | @run found run hrun hlt hsafe =>
    obtain rfl := Option.some.inj (hindex.symm.trans (hlineage.findIdx?_eq hrun))
    have hbefore := parentBefore_run_iff.1 hparent
    have hpairs := canonicalizeSource_run hpairs
    rw [hstart] at hpairs
    rcases (mem_partsOf_canonicalizeSource (canonicalizeSource_run hwhole)).1 hentry with
      ⟨run', hrun', pair, hpair, hentry⟩ | ⟨_, _, _, hnone, -⟩
    · refine (hearlier (mem_boundary hsafe).2 (by omega) hbefore hrun' hpair hentry).imp_left fun hmem ↦ ?_
      exact (mem_partsOf_canonicalizeSource hpairs).2 (.inl ⟨run', hmem, pair, hpair, hentry⟩)
    · cases hnone
  | @sealedStep found k partId run hrun hlast hk hbefore hsealed hsafe =>
    obtain rfl := Option.some.inj (hindex.symm.trans (hlineage.findIdx?_eq hrun))
    have hpairs := canonicalizeSource_sealedStep hrun hpairs
    rw [hstart] at hpairs
    have hwhole := (mem_partsOf_canonicalizeSource (canonicalizeSource_sealedStep hrun hwhole)).1 hentry
    rcases lt_or_of_parentBefore hparent with hlt | ⟨heq, parentRunId, parentStep, parentPartId, hcursor⟩
    · rcases hwhole with ⟨run', hrun', pair, hpair, hentry⟩ | ⟨run', taken, pair, hsome, hpair, hentry⟩
      · refine (hearlier hbefore hlt hlt hrun' hpair hentry).imp_left fun hmem ↦ ?_
        exact (mem_partsOf_canonicalizeSource hpairs).2 (.inl ⟨run', hmem, pair, hpair, hentry⟩)
      · cases hsome
        refine .inl ((mem_partsOf_canonicalizeSource hpairs).2 (.inr ⟨run, _, pair, rfl, ?_, hentry⟩))
        have htaken : takenParts (some checkpoint.cursor) run.id partId = takenParts none run.id partId :=
          funext (takenParts_of_ne (h.runId_ne hindex hlt))
        rw [Option.map_some]
        exact htaken ▸ hpair
    · -- the parent is an earlier step of the same run
      obtain ⟨user, assistant, partIndex, hown, hparts⟩ := exists_of_sealedStepSafe hsealed
      have hparentIndex := h.findIdx?
      have hhash := h.hash
      rw [hcursor, heq] at hparentIndex
      rw [hcursor] at hcovered hhash
      obtain ⟨hsettled, parentPartIndex, hparentPart, hheld⟩ :=
        hcovered.settled_sealedStep hinj hlineage hhash hparentIndex hrun hown
      obtain ⟨run', hrun', hid⟩ := exists_of_findIdx? hparentIndex
      obtain rfl := Option.some.inj (hrun.symm.trans hrun')
      obtain rfl : run.id = parentRunId := hid
      rcases hwhole with ⟨run', hrun', pair, hpair, hentry⟩ | ⟨run', taken, pair, hsome, hpair, hentry⟩
      · exact .inr ((hsettled run' hrun').mem_held hpair hentry)
      · cases hsome
        obtain ⟨hentryId, hmem⟩ := (mem_entries_of_ownMessages hown hpair).1 hentry
        have hin (hpart : entry.2 ∈ canonicalizeParts cfg user.parts ∨
            entry.2 ∈ canonicalizeParts cfg (assistant.parts.take (parentPartIndex + 1))) : entry ∈ held := by
          have hmem := hheld entry.2 hpart
          rw [← hentryId] at hmem
          exact hmem
        rcases hmem with hmem | hmem
        · exact .inr (hin (.inl hmem))
        · rw [Option.map_none, takenParts_none hparts.found] at hmem
          rcases mem_canonicalizeParts_split (parentPartIndex + 1) hmem with hmem | hmem
          · refine .inr (hin (.inr ?_))
            obtain ⟨part, hpart, hcanonical⟩ := List.mem_filterMap.1 hmem
            exact List.mem_filterMap.2 ⟨part, mem_take_of_mem_take_take hpart, hcanonical⟩
          · obtain ⟨pair', hpair'⟩ := Option.isSome_iff_exists.1 (Takable.isSome_canonicalizePair cfg
              ⟨hlineage.conversationId run (List.mem_of_getElem? hrun), user, assistant, hown⟩
              (takenParts ((some checkpoint).map Checkpoint.cursor) run.id partId))
            refine .inl ((mem_partsOf_canonicalizeSource hpairs).2 (.inr ⟨run, _, pair', rfl, hpair', ?_⟩))
            refine (mem_entries_of_ownMessages hown hpair').2 ⟨hentryId, .inr ?_⟩
            rw [Option.map_some, hcursor, takenParts_some hparts.found hparentPart]
            exact hmem

/-! ### The new checkpoint -/

/-- A covered run of a source that is held. -/
theorem settled_of_source (hsource : canonicalizeSource cfg s runs last = some pairs)
    (hlineage : IsLineage s lineage) (hheld : ∀ entry ∈ partsOf pairs, entry ∈ held) (hmem : run ∈ lineage)
    (hrun : run ∈ runs) (hsafe : coveredRunSafe s run = true) : Settled cfg s held run := by
  obtain ⟨hterminal, user, assistant, hown⟩ := exists_of_coveredRunSafe hsafe
  refine ⟨hlineage.stored run hmem, hterminal, user, assistant, hown, fun part hpart ↦ ?_⟩
  have hpair := hown.canonicalizePair cfg (hlineage.conversationId run hmem) id
  refine hheld _ ((mem_partsOf_canonicalizeSource hsource).2 (.inl ⟨run, hrun, _, hpair, ?_⟩))
  exact (mem_entries_of_ownMessages hown hpair).2 ⟨rfl, hpart⟩

/-- A cursor whose whole prefix is held is covered. -/
theorem covered_of_whole (hlineage : IsLineage s lineage) (he : Eligible s lineage requestIndex cursor)
    (hindex : lineage.findIdx? (·.id = cursor.runId) = some index) {hash : D}
    (hhash : coverageHash cfg s lineage cursor = some hash)
    (hwhole : sourceState cfg s lineage index cursor none = some whole)
    (hheld : ∀ entry ∈ partsOf whole, entry ∈ held) : Covered cfg s held cursor hash := by
  cases he with
  | @run found run hrun hlt hsafe =>
    obtain rfl := Option.some.inj (hindex.symm.trans (hlineage.findIdx?_eq hrun))
    obtain ⟨index', entries, hindex', hentries, hdigest⟩ := coverageHash_run_iff.1 hhash
    obtain rfl := Option.some.inj (hindex.symm.trans hindex')
    rw [← hdigest]
    refine .run hentries fun run' hrun' ↦ ?_
    exact settled_of_source (canonicalizeSource_run hwhole) hlineage hheld (List.mem_of_mem_take hrun') hrun'
      ((mem_boundary hsafe).2 run' hrun')
  | @sealedStep found k partId run hrun hlast hk hbefore hsealed hsafe =>
    obtain rfl := Option.some.inj (hindex.symm.trans (hlineage.findIdx?_eq hrun))
    obtain ⟨index', partIndex, run', found, entries, entry, hhashed, hdigest⟩ :=
      coverageHash_sealedStep_iff.1 hhash
    obtain rfl := Option.some.inj (hindex.symm.trans hhashed.hindex)
    obtain rfl := Option.some.inj (hrun.symm.trans hhashed.hrun)
    obtain ⟨user, assistant, -, hown, -⟩ := exists_of_sealedStepSafe hsealed
    obtain ⟨status, hassistant⟩ := hown.hassistant
    obtain rfl := Option.some.inj (hassistant.symm.trans hhashed.hassistant)
    obtain ⟨hid, huserId, -⟩ := lineageEntry_eq_some_iff.1 hhashed.hentry
    obtain ⟨userId, hparent, huser, hrole⟩ := user?_eq_some_iff.1 hown.huser
    obtain rfl := Option.some.inj (huserId.symm.trans hparent)
    have hwhole := canonicalizeSource_sealedStep hrun hwhole
    rw [← hdigest]
    refine .sealedStep hhashed.hentries (fun run' hrun' ↦ ?_) huser hrole fun part hpart ↦ ?_
    · exact settled_of_source hwhole hlineage hheld (List.mem_of_mem_take hrun') hrun' (hbefore run' hrun')
    · have hconversation := hlineage.conversationId run (List.mem_of_getElem? hrun)
      have hpair := hown.canonicalizePair cfg hconversation
        (takenParts ((none : Option (Checkpoint D)).map Checkpoint.cursor) run.id partId)
      refine hheld _ ((mem_partsOf_canonicalizeSource hwhole).2 (.inr ⟨run, _, _, rfl, hpair, ?_⟩))
      refine (mem_entries_of_ownMessages hown hpair).2 ⟨hid, hpart.imp_right fun hpart ↦ ?_⟩
      rw [Option.map_none, takenParts_none hhashed.hpart]
      exact hpart

/-! ### The run -/

/-- The sources of each checkpoint hold what it covers. -/
structure Recorded (cfg : Config D) (st : State D) : Prop where
  sound : Sound st.snapshot
  covered : ∀ id checkpoint, st.snapshot.checkpoints.lookup id = some checkpoint →
    checkpoint.id = id ∧ ∃ chain, st.sources.lookup id = some chain ∧
      Covered cfg st.snapshot (partsOf chain.flatten) checkpoint.cursor checkpoint.lineageHash

theorem Recorded.of_grown {st st' : State D} (hrecorded : Recorded cfg st) (h : Grown st st') : Recorded cfg st' := by
  refine ⟨hrecorded.sound.of_grown h, fun key checkpoint hlookup ↦ ?_⟩
  rw [h.checkpoints] at hlookup
  obtain ⟨hid, chain, hchain, hcovered⟩ := hrecorded.covered key checkpoint hlookup
  exact ⟨hid, chain, h.sources ▸ hchain, hcovered.of_grows h.grows⟩

/-- A stored checkpoint that fits the history before the cursor, with none later than it. -/
structure Latest (cfg : Config D) (s : Snapshot D) (lineage : List Run) (cursor : CoverageCursor)
    (checkpoint : Checkpoint D) (position : Nat × Nat) : Prop where
  stored : ∃ id, s.checkpoints.lookup id = some checkpoint
  candidate : ParentCandidate cfg s lineage cursor checkpoint position
  latest : ∀ id checkpoint' position', s.checkpoints.lookup id = some checkpoint' →
    ParentCandidate cfg s lineage cursor checkpoint' position' → toLex position' ≤ toLex position

variable [DecidableEq D]

/-- Where a compaction is required, the latest checkpoint before its cursor is not a finished step of an
earlier run after which that run has kept parts. -/
def Careful (cfg : Config D) (st : State D) (e : Event) : Prop :=
  ∀ request id summary created, e = .compact request id summary created →
    ∀ cursor lineage,
      planContextWindow cfg { request with snapshot := st.snapshot } = some (.compactionRequired cursor) →
      st.snapshot.lineage request.runId = some lineage →
      ∀ checkpoint position, Latest cfg st.snapshot lineage cursor checkpoint position →
      ∀ runId k partId, checkpoint.cursor = .sealedStep runId k partId → runId ≠ cursor.runId →
      ∀ run ∈ lineage, run.id = runId → NothingAfter cfg st.snapshot run partId

/-- **No history is lost by an event**: what a new checkpoint covers, summarised at once, is in its source and
those of its parents. -/
def KeepsHistory (cfg : Config D) (st : State D) (e : Event) : Prop :=
  ∀ request id summary created, e = .compact request id summary created →
    st.snapshot.checkpoints.lookup id = none →
    ∀ checkpoint, (State.step cfg e st).snapshot.checkpoints.lookup id = some checkpoint →
      ∃ lineage index whole chain, st.snapshot.lineage request.runId = some lineage ∧
        lineage.findIdx? (·.id = checkpoint.cursor.runId) = some index ∧
        sourceState cfg st.snapshot lineage index checkpoint.cursor none = some whole ∧
        (State.step cfg e st).sources.lookup id = some chain ∧
        ∀ entry ∈ partsOf whole, entry ∈ partsOf chain.flatten

variable {st st' : State D} {request : Request} {id summary : String} {created : Nat} {source : Source D}
  {hash : D}

/-- The sources of a parent, as the commit finds them. -/
def parentChain (st : State D) (parent : Option (Checkpoint D)) : List (List CanonicalPair) :=
  (parent.bind fun parent ↦ st.sources.lookup parent.id).getD []

/-- What a compaction has found by the time it commits. -/
theorem Compacted.exists_source (hsound : Sound st.snapshot)
    (h : Compacted cfg st st' request id summary created lineage cursor source hash) :
    ∃ index, IsLineage st.snapshot lineage ∧
      Eligible st.snapshot lineage request.requestIndex cursor ∧
      lineage.findIdx? (·.id = cursor.runId) = some index ∧
      selectParentCheckpoint cfg st.snapshot lineage cursor = some source.parent ∧
      sourceState cfg st.snapshot lineage index cursor source.parent = some source.pairs := by
  obtain ⟨lineage', hlineage', -, hmessages, heligible⟩ := exists_of_planContextWindow h.hplan
  obtain rfl := Option.some.inj (h.hlineage.symm.trans hlineage')
  have hlineage := isLineage_of_lineage hsound.keyed h.hlineage
  have heligible := eligible_of_eligibleCoverageCursor heligible
  obtain ⟨parent, hparent⟩ := hsound.exists_selectParentCheckpoint cfg cursor hlineage hmessages
  obtain ⟨index, hindex, hsource⟩ := heligible.compactionSource_eq hlineage h.hlineage hparent
  rw [h.hsource] at hsource
  obtain ⟨pairs, hpairs, heq⟩ := Option.map_eq_some_iff.1 (Option.some.inj hsource).symm
  subst heq
  exact ⟨index, hlineage, heligible, hindex, hparent, hpairs⟩

section

variable (hinj : Function.Injective cfg.digest) (hrecorded : Recorded cfg st)
include hinj hrecorded

/-- The chain of a new checkpoint holds the whole prefix. -/
theorem Recorded.mem_chain (hcareful : Careful cfg st (.compact request id summary created))
    (h : Compacted cfg st st' request id summary created lineage cursor source hash) {index : Nat}
    (hindex : lineage.findIdx? (·.id = cursor.runId) = some index) :
    ∃ whole, sourceState cfg st.snapshot lineage index cursor none = some whole ∧
      ∀ entry ∈ partsOf whole, entry ∈ partsOf (source.pairs :: parentChain st source.parent).flatten := by
  obtain ⟨found, hlineage, heligible, hfound, hparent, hpairs⟩ := h.exists_source hrecorded.sound
  obtain rfl := Option.some.inj (hindex.symm.trans hfound)
  obtain ⟨whole, hwhole⟩ := (exists_sourceState_iff cfg hlineage heligible hindex none).2 rfl
  refine ⟨whole, hwhole, fun entry hentry ↦ ?_⟩
  have happend : entry ∈ partsOf (source.pairs :: parentChain st source.parent).flatten ↔
      entry ∈ partsOf source.pairs ∨ entry ∈ partsOf (parentChain st source.parent).flatten := by
    unfold partsOf
    rw [List.flatten_cons, List.flatMap_append, List.mem_append]
  rw [happend]
  rcases hrecorded.sound.selectParentCheckpoint_spec hparent with
    ⟨hnone, -⟩ | ⟨key, checkpoint, position, hsome, hlookup, hcandidate, hlatest⟩
  · rw [hnone, hwhole] at hpairs
    rw [← Option.some.inj hpairs]
    exact .inl hentry
  · obtain ⟨hid, chain, hchain, hcovered⟩ := hrecorded.covered key checkpoint hlookup
    have hparentChain : parentChain st source.parent = chain := by
      unfold parentChain
      rw [hsome, Option.bind_some, hid, hchain]
      rfl
    rw [hparentChain]
    rw [hsome] at hpairs
    refine mem_source_or_held hinj hlineage heligible hindex hcandidate hcovered ?_ hwhole hpairs entry hentry
    exact hcareful request id summary created rfl cursor lineage h.hplan h.hlineage checkpoint position
      ⟨⟨key, hlookup⟩, hcandidate, hlatest⟩

theorem Recorded.of_compacted (hcareful : Careful cfg st (.compact request id summary created))
    (h : Compacted cfg st st' request id summary created lineage cursor source hash) :
    Recorded cfg st' := by
  have hgrows : Grows st.snapshot st'.snapshot := by
    rw [h.eq]
    exact .of_eq rfl rfl rfl
  refine ⟨hrecorded.sound.of_compacted h, fun key checkpoint hlookup ↦ ?_⟩
  rw [h.eq] at hlookup
  change (AList.insert id _ st.snapshot.checkpoints).lookup key = some checkpoint at hlookup
  have hsources : st'.sources = st.sources.insert id (source.pairs :: parentChain st source.parent) := by
    rw [h.eq]
    rfl
  rw [hsources, Table.lookup_insert]
  rw [Table.lookup_insert] at hlookup
  split at hlookup
  · next heq =>
    obtain rfl := Option.some.inj hlookup
    obtain ⟨index, hlineage, heligible, hindex, -, -⟩ := h.exists_source hrecorded.sound
    obtain ⟨whole, hwhole, hheld⟩ := hrecorded.mem_chain hinj hcareful h hindex
    refine ⟨heq.symm, _, if_pos heq, Covered.of_grows hgrows ?_⟩
    exact covered_of_whole hlineage heligible hindex h.hhash hwhole hheld
  · next hne =>
    obtain ⟨hid, chain, hchain, hcovered⟩ := hrecorded.covered key checkpoint hlookup
    exact ⟨hid, chain, (if_neg hne).trans hchain, hcovered.of_grows hgrows⟩

theorem Recorded.step {e : Event} (hcareful : Careful cfg st e) : Recorded cfg (State.step cfg e st) := by
  rcases step_cases cfg e st with h | ⟨_, _, _, _, _, _, _, _, rfl, h⟩
  · exact hrecorded.of_grown h
  · exact hrecorded.of_compacted hinj hcareful h

theorem Recorded.keepsHistory {e : Event} (hcareful : Careful cfg st e) : KeepsHistory cfg st e := by
  intro request id summary created he hfresh checkpoint hlookup
  rcases step_cases cfg e st with h | ⟨request', id', summary', created', lineage, cursor, source, hash, he', h⟩
  · rw [h.checkpoints, hfresh] at hlookup
    cases hlookup
  · subst he'
    cases he
    obtain ⟨index, hlineage, heligible, hindex, -, -⟩ := h.exists_source hrecorded.sound
    obtain ⟨whole, hwhole, hheld⟩ := hrecorded.mem_chain hinj hcareful h hindex
    rw [h.eq] at hlookup ⊢
    rw [Table.lookup_insert, if_pos rfl] at hlookup
    obtain rfl := Option.some.inj hlookup
    refine ⟨lineage, index, whole, source.pairs :: parentChain st source.parent, h.hlineage, hindex, hwhole, ?_,
      hheld⟩
    rw [Table.lookup_insert, if_pos rfl]
    rfl

end

namespace Sample

/-- The first run makes a checkpoint of its first step, goes on and ends; three more runs follow. -/
def continued : List Event :=
  stuck ++ complete "run3" "assistant3" (stepParts "assistant3" 0) ++
  [start "run4" (some "run3") "user4" "assistant4"]

/-- The next checkpoint, at the end of the second run. -/
def next : Event :=
  .compact (Sample.request "run4" 0 .autoPreTurn) "checkpoint2" "summary" 2

/-- Whether the new checkpoint holds the whole prefix. -/
def kept : Option Bool := do
  let st := State.reached config "conversation" continued
  let lineage ← st.snapshot.lineage "run4"
  let index ← lineage.findIdx? (·.id = "run2")
  let whole ← sourceState config st.snapshot lineage index (.run "run2") none
  let chain ← (State.step config next st).sources.lookup "checkpoint2"
  some ((partsOf whole).all (· ∈ partsOf chain.flatten))

end Sample

end Context
