import Mathlib.Data.Prod.Lex
import NexusPilot.Context.Growth

/-!
# Lineages

A lineage is what the walk from a head to its parents has met, turned around: stored runs of the conversation,
each once (`isLineage_of_lineage`), so that a run is found at its own index. The hash of a cursor is made from
them, and says from which.
-/

namespace Context

open Machine Tools

variable {D : Type} {s : Snapshot D}

/-! ### The lineage of a head -/

/-- What `lineageFrom` adds to the runs that it has. -/
theorem exists_of_lineageFrom (hkeyed : Keyed s.runs) {fuel : Nat} {current : String}
    {visited : List String} {runs lineage : List Run}
    (h : s.lineageFrom fuel current visited runs = some lineage) :
    ∃ before : List Run, lineage = before.reverse ++ runs ∧ (before.map (·.id)).Nodup ∧
      ∀ run ∈ before, s.runs.lookup run.id = some run ∧ run.id ∉ visited ∧
        run.conversationId = s.conversationId := by
  induction fuel generalizing current visited runs with
  | zero => cases h
  | succ fuel ih =>
    unfold Snapshot.lineageFrom at h
    rw [Option.ite_none_left_eq_some] at h
    obtain ⟨hvisited, h⟩ := h
    split at h
    · cases h
    · next run hrun =>
      rw [Option.ite_none_left_eq_some, not_not] at h
      obtain ⟨hconversation, h⟩ := h
      obtain rfl := hkeyed current run hrun
      split at h
      · obtain rfl := Option.some.inj h
        refine ⟨[run], rfl, List.nodup_singleton _, fun found hfound ↦ ?_⟩
        rw [List.mem_singleton.1 hfound]
        exact ⟨hrun, hvisited, hconversation⟩
      · obtain ⟨before, rfl, hnodup, hfound⟩ := ih h
        refine ⟨run :: before, ?_, ?_, fun found hmem ↦ ?_⟩
        · rw [List.append_cons, ← List.reverse_cons]
        · rw [List.map_cons, List.nodup_cons]
          refine ⟨fun hmem ↦ ?_, hnodup⟩
          obtain ⟨found, hmem, hid⟩ := List.mem_map.1 hmem
          exact (hfound found hmem).2.1 (hid ▸ List.mem_cons_self ..)
        · rcases List.mem_cons.1 hmem with rfl | hmem
          · exact ⟨hrun, hvisited, hconversation⟩
          · obtain ⟨hlookup, hnew, hown⟩ := hfound found hmem
            exact ⟨hlookup, fun hin ↦ hnew (List.mem_cons_of_mem _ hin), hown⟩

/-- A lineage has distinct runs, all stored and of the conversation. -/
structure IsLineage (s : Snapshot D) (lineage : List Run) : Prop where
  stored : ∀ run ∈ lineage, s.runs.lookup run.id = some run
  nodup : (lineage.map (·.id)).Nodup
  conversationId : ∀ run ∈ lineage, run.conversationId = s.conversationId

theorem isLineage_of_lineage (hkeyed : Keyed s.runs) {headRunId : String} {lineage : List Run}
    (h : s.lineage headRunId = some lineage) : IsLineage s lineage := by
  obtain ⟨before, rfl, hnodup, hfound⟩ := exists_of_lineageFrom hkeyed h
  rw [List.append_nil]
  refine ⟨fun run hmem ↦ ?_, ?_, fun run hmem ↦ ?_⟩
  · exact (hfound run (List.mem_reverse.1 hmem)).1
  · rw [List.map_reverse, List.nodup_reverse]
    exact hnodup
  · exact (hfound run (List.mem_reverse.1 hmem)).2.2

namespace IsLineage

variable {lineage : List Run} {index : Nat} {run : Run}

/-- A run is found at its index. -/
theorem findIdx?_eq (h : IsLineage s lineage) (hrun : lineage[index]? = some run) :
    lineage.findIdx? (·.id = run.id) = some index := by
  obtain ⟨hlt, hget⟩ := List.getElem?_eq_some_iff.1 hrun
  rw [List.findIdx?_eq_some_iff_getElem]
  refine ⟨hlt, decide_eq_true (by rw [hget]), fun other hother ↦ ?_⟩
  rw [Bool.not_eq_true, decide_eq_false_iff_not]
  intro heq
  have hlt' : other < lineage.length := hother.trans hlt
  have hids : (lineage.map (·.id))[other]? = (lineage.map (·.id))[index]? := by
    rw [List.getElem?_map, List.getElem?_map, hrun, List.getElem?_eq_getElem hlt']
    exact congrArg some heq
  have heq' := (List.getElem?_inj (by rwa [List.length_map]) h.nodup).1 hids
  omega

end IsLineage

/-- The run that an identifier is found at. -/
theorem exists_of_findIdx? {lineage : List Run} {index : Nat} {id : String}
    (h : lineage.findIdx? (·.id = id) = some index) : ∃ run, lineage[index]? = some run ∧ run.id = id := by
  rw [List.findIdx?_eq_some_iff_getElem] at h
  obtain ⟨hlt, hid, -⟩ := h
  exact ⟨lineage[index], List.getElem?_eq_getElem hlt, of_decide_eq_true hid⟩

/-! ### The hash of a cursor -/

/-- What the hash of a finished step is made from. -/
structure SealedHash (s : Snapshot D) (lineage : List Run) (runId : String) (k : Nat) (partId : String)
    (index partIndex : Nat) (run : Run) (assistant : Message × String × String × AssistantStatus)
    (entries : List LineageEntry) (entry : LineageEntry) : Prop where
  hindex : lineage.findIdx? (·.id = runId) = some index
  hrun : lineage[index]? = some run
  hentry : lineageEntry run = some entry
  hassistant : s.assistant? run = some assistant
  hpart : assistant.1.parts.findIdx? (·.id = partId) = some partIndex
  hfinishes : (assistant.1.parts[partIndex]?).bind Part.finishes? = some k
  hentries : (lineage.take index).mapM lineageEntry = some entries

theorem coverageHash_run_iff {cfg : Config D} {lineage : List Run} {throughRunId : String} {hash : D} :
    coverageHash cfg s lineage (.run throughRunId) = some hash ↔
      ∃ index entries, lineage.findIdx? (·.id = throughRunId) = some index ∧
        (lineage.take (index + 1)).mapM lineageEntry = some entries ∧ cfg.digest (.lineage entries) = hash := by
  simp only [coverageHash, CoverageCursor.runId, Option.bind_eq_bind, Option.bind_eq_some_iff,
    Option.some.injEq]
  constructor
  · rintro ⟨index, hindex, entries, hentries, hhash⟩
    exact ⟨index, entries, hindex, hentries, hhash⟩
  · rintro ⟨index, entries, hindex, hentries, hhash⟩
    exact ⟨index, hindex, entries, hentries, hhash⟩

theorem coverageHash_sealedStep_iff {cfg : Config D} {lineage : List Run} {runId partId : String} {k : Nat}
    {hash : D} :
    coverageHash cfg s lineage (.sealedStep runId k partId) = some hash ↔
      ∃ index partIndex run assistant entries entry,
        SealedHash s lineage runId k partId index partIndex run assistant entries entry ∧
        cfg.digest (.sealedStep entries entry k partId (assistant.1.parts.take (partIndex + 1))) = hash := by
  simp only [coverageHash, CoverageCursor.runId, Option.bind_eq_bind, Option.bind_eq_some_iff]
  constructor
  · rintro ⟨index, hindex, run, hrun, entry, hentry, assistant, hassistant, partIndex, hpart, h⟩
    rw [Option.ite_none_right_eq_some] at h
    obtain ⟨hfinishes, h⟩ := h
    obtain ⟨entries, hentries, hhash⟩ := Option.bind_eq_some_iff.1 h
    exact ⟨index, partIndex, run, assistant, entries, entry,
      ⟨hindex, hrun, hentry, hassistant, hpart, Option.bind_eq_some_iff.2 hfinishes, hentries⟩,
      Option.some.inj hhash⟩
  · rintro ⟨index, partIndex, run, assistant, entries, entry, h, hhash⟩
    refine ⟨index, h.hindex, run, h.hrun, entry, h.hentry, assistant, h.hassistant, partIndex, h.hpart, ?_⟩
    rw [if_pos (Option.bind_eq_some_iff.1 h.hfinishes), h.hentries, ← hhash]
    rfl

end Context
