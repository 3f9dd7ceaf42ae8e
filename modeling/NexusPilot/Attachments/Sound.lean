import NexusPilot.Attachments.Effects

/-!
# Runs of the attachment service

Each section of a task, and each change by somebody else, keeps the invariant; so it holds in every state of a run
whose steps remove no file in use.
-/

namespace Attachments

open Machine

variable {sha256 : Bytes → String} {w w' : World} {task : ℕ} {held : Option String}

/-! ### Going on and ending -/

/-- A step of a task keeps the invariant if its change does, and what the task relies on next is true. -/
theorem Sound.of_effect (h : Sound sha256 w) (heffect : Effect sha256 held w.toMemory w'.toMemory)
    (hholds : ∀ hash, held = some hash → ∀ other, w.hashLocks hash = some other → other = task)
    (htasks : ∀ other, other ≠ task → w'.tasks other = w.tasks other)
    (hlocks : ∀ hash other, other ≠ task → w.hashLocks hash = some other → w'.hashLocks hash = some other)
    (hself : ∀ running, w'.tasks task = some running → TaskOk sha256 w'.toMemory running ∧
      ∀ hash, heldHash sha256 running = some hash → w'.hashLocks hash = some task) : Sound sha256 w' := by
  have hother : ∀ other running, other ≠ task → w'.tasks other = some running → w.tasks other = some running :=
    fun other running hne hrunning ↦ htasks other hne ▸ hrunning
  refine ⟨heffect.store, heffect.ready, fun other running hrunning ↦ ?_, fun other running hash hrunning hheld ↦ ?_⟩
  · by_cases hne : other = task
    · exact (hself running (hne ▸ hrunning)).1
    · have hrunning := hother other running hne hrunning
      refine TaskOk.of_stable heffect.stable h.store (fun hash hheld heq ↦ hne ?_) (h.tasks other running hrunning)
      exact hholds hash heq other (h.locks other running hash hrunning hheld)
  · by_cases hne : other = task
    · exact hne ▸ (hself running (hne ▸ hrunning)).2 hash hheld
    · exact hlocks hash other hne (h.locks other running hash (hother other running hne hrunning) hheld)

/-- A task goes on. -/
theorem Sound.setTask (h : Sound sha256 w) {next : Task} (heffect : Effect sha256 held w.toMemory w'.toMemory)
    (hholds : ∀ hash, held = some hash → ∀ other, w.hashLocks hash = some other → other = task)
    (htasks : w'.tasks = w.tasks)
    (hlocks : ∀ hash other, other ≠ task → w.hashLocks hash = some other → w'.hashLocks hash = some other)
    (hok : TaskOk sha256 w'.toMemory next)
    (hnext : ∀ hash, heldHash sha256 next = some hash → w'.hashLocks hash = some task) :
    Sound sha256 (w'.setTask task next) := by
  refine h.of_effect heffect hholds (fun other hne ↦ ?_) hlocks fun running hrunning ↦ ?_
  · show Function.update w'.tasks task (some next) other = _
    rw [Function.update_of_ne hne, htasks]
  · replace hrunning : Function.update w'.tasks task (some next) task = some running := hrunning
    rw [Function.update_self, Option.some_inj] at hrunning
    exact hrunning ▸ ⟨hok, hnext⟩

/-- A task ends. -/
theorem Sound.endTask (h : Sound sha256 w) (heffect : Effect sha256 held w.toMemory w'.toMemory)
    (hholds : ∀ hash, held = some hash → ∀ other, w.hashLocks hash = some other → other = task)
    (htasks : w'.tasks = w.tasks)
    (hlocks : ∀ hash other, other ≠ task → w.hashLocks hash = some other → w'.hashLocks hash = some other) :
    Sound sha256 (w'.endTask task) := by
  refine h.of_effect heffect hholds (fun other hne ↦ ?_) hlocks fun running hrunning ↦ ?_
  · show Function.update w'.tasks task none other = _
    rw [Function.update_of_ne hne, htasks]
  · replace hrunning : Function.update w'.tasks task none task = some running := hrunning
    rw [Function.update_self] at hrunning
    exact (nomatch hrunning)

variable {next : Task} {hash : String} {m : Memory} {existing blob : RuntimeBlob} {store' : Store}
  {pc : GcPc}

/-- Nothing has changed but for what a task waits for. -/
theorem Sound.goOn (h : Sound sha256 w) (hok : TaskOk sha256 w.toMemory next)
    (hnext : ∀ hash, heldHash sha256 next = some hash → w.hashLocks hash = some task) :
    Sound sha256 (w.setTask task next) :=
  h.setTask (Effect.refl h.store h.ready : Effect sha256 none _ _) (fun _ heq ↦ (nomatch heq)) rfl (fun _ _ _ hlock ↦ hlock) hok
    hnext

/-- The change by somebody who is not a task. -/
theorem Sound.withStore (h : Sound sha256 w) {store' : Store} (hshrinks : Shrinks w.store store') :
    Sound sha256 (w.withStore store') := by
  have heffect : Effect sha256 none w.toMemory { w.toMemory with store := store' } :=
    Effect.of_shrinks h.store h.ready hshrinks
  exact ⟨heffect.store, heffect.ready, fun other running hrunning ↦
    TaskOk.of_stable heffect.stable h.store (fun hash _ heq ↦ (nomatch heq)) (h.tasks other running hrunning), h.locks⟩

/-- A lock that is free is taken from nobody. -/
theorem lockHash_lock {hash' : String} {other : ℕ} (hfree : w.hashLocks hash = none)
    (hlock : w.hashLocks hash' = some other) :
    Function.update w.hashLocks hash (some task) hash' = some other := by
  have hne : hash' ≠ hash := by
    rintro rfl
    rw [hfree] at hlock
    exact (nomatch hlock)
  rw [Function.update_of_ne hne, hlock]

section Running

variable {running : Task} {hash : String} (h : Sound sha256 w) (hrunning : w.tasks task = some running)
  (hheld : heldHash sha256 running = some hash)

include h hrunning hheld

variable {hash' : String} {other : ℕ}

/-- No other task holds the lock of a running one. -/
theorem Sound.eq_of_lock (heq : some hash = some hash') (hlock : w.hashLocks hash' = some other) :
    other = task := by
  rw [← Option.some.inj heq, h.locks task running hash hrunning hheld] at hlock
  exact (Option.some.inj hlock).symm

/-- The lock of a task is released when it ends. -/
theorem Sound.releaseHash_lock (hne : other ≠ task) (hlock : w.hashLocks hash' = some other) :
    Function.update w.hashLocks hash none hash' = some other := by
  have hhash : hash' ≠ hash := by
    rintro rfl
    exact hne (h.eq_of_lock hrunning hheld rfl hlock)
  rw [Function.update_of_ne hhash, hlock]

/-- An upload ends, with what it has changed under the lock of its hash. -/
theorem Sound.finishUpload (heffect : Effect sha256 (some hash) w.toMemory w'.toMemory)
    (htasks : w'.tasks = w.tasks) (hlocks : w'.hashLocks = w.hashLocks) :
    Sound sha256 (finishUpload task hash w') := by
  show Sound sha256 (((w'.releaseQuota).releaseHash hash).endTask task)
  refine h.endTask heffect (fun hash' heq other hlock ↦ h.eq_of_lock hrunning hheld heq hlock) htasks
    fun hash' other hne hlock ↦ ?_
  show Function.update w'.hashLocks hash none hash' = some other
  rw [hlocks]
  exact h.releaseHash_lock hrunning hheld hne hlock

/-- An upload ends and has changed nothing. -/
theorem Sound.abortUpload : Sound sha256 (Attachments.finishUpload task hash w) :=
  h.finishUpload hrunning hheld (Effect.refl h.store h.ready) rfl rfl

end Running

/-! ### Uploading -/

/-- A blob of the store has been found. -/
theorem found_of_getBlobBySha256 (hstore : StoreOk sha256 m)
    (h : m.store.getBlobBySha256 hash = some existing) (hstate : existing.state = .available) :
    Found m hash existing := by
  have hmem := List.mem_of_find?_eq_some h
  exact ⟨by simpa using List.find?_some h, hstore.known existing hmem, existing, hmem, rfl, Or.inl hstate⟩

theorem noBlob_of_getBlobBySha256 (h : m.store.getBlobBySha256 hash = none) :
    NoBlob m hash := by
  intro blob hmem hsha
  exact List.find?_eq_none.1 h blob hmem (decide_eq_true hsha)

/-- A found blob whose file has its length is in its place. -/
theorem inPlace_of_found (h : Found m hash existing)
    (hfile : m.verifyFileLength (storageKeyForHash hash) existing.byteLength) :
    InPlace m hash (some existing) := by
  obtain ⟨hsha, hknown, blob, hmem, hid, hstate⟩ := h
  have hintact : Intact m existing := by rwa [Intact, hknown.storageKey, hsha]
  exact ⟨hsha, hknown, hintact, blob, hmem, hid, hstate.resolve_right (not_not.2 hintact)⟩

/-- **Every section of an upload keeps the invariant.** -/
theorem Sound.advanceUpload (hsha256 : Function.Injective sha256) (h : Sound sha256 w) {uploadId : ℕ}
    {content : Bytes} {pc : UploadPc} (hrunning : w.tasks task = some (.upload uploadId content pc))
    (choice : Choice) : Sound sha256 (advanceUpload sha256 task uploadId content pc choice w) := by
  have hok := h.tasks task _ hrunning
  have hlock := h.locks task _ (sha256 content) hrunning
  cases pc with
  | waitingHash =>
    rw [Attachments.advanceUpload]
    dsimp only
    split
    · rename_i hfree
      refine h.setTask (Effect.refl h.store h.ready : Effect sha256 none _ _) (fun _ heq ↦ (nomatch heq)) rfl
        (fun _ _ _ hother ↦ lockHash_lock hfree hother) trivial fun hash hheld ↦ ?_
      obtain rfl : sha256 content = hash := Option.some.inj hheld
      exact Function.update_self _ _ _
    · exact h
  | waitingQuota =>
    rw [Attachments.advanceUpload]
    dsimp only
    have hfinish : Sound sha256 (Attachments.finishUpload task (sha256 content) (w.lockQuota task)) :=
      h.finishUpload hrunning rfl (Effect.refl h.store h.ready) rfl rfl
    have hgoOn : ∀ existing, UploadOk w.toMemory (sha256 content) (.makingDirectory existing) →
        Sound sha256 ((w.lockQuota task).setTask task (.upload uploadId content (.makingDirectory existing))) :=
      fun existing hnext ↦ h.setTask (Effect.refl h.store h.ready : Effect sha256 none _ _)
        (fun _ heq ↦ (nomatch heq)) rfl (fun _ _ _ hother ↦ hother) hnext fun hash hheld ↦
          Option.some.inj hheld ▸ hlock rfl
    split
    · exact h
    split
    · rename_i existing hexisting
      split
      · exact hfinish
      · rename_i hstate
        obtain ⟨-, havailable⟩ := not_or.1 hstate
        exact hgoOn (some existing) (found_of_getBlobBySha256 h.store hexisting (not_not.1 havailable))
    · rename_i hnone
      split
      · exact hfinish
      · exact hgoOn none (noBlob_of_getBlobBySha256 hnone)
  | makingDirectory existing =>
    cases existing with
    | none =>
      rw [Attachments.advanceUpload]
      dsimp only
      split
      · exact h.abortUpload hrunning rfl
      · exact h.goOn hok fun hash hheld ↦ Option.some.inj hheld ▸ hlock rfl
    | some existing =>
      rw [Attachments.advanceUpload]
      dsimp only
      split
      · exact h.abortUpload hrunning rfl
      · exact h.goOn hok fun hash hheld ↦ Option.some.inj hheld ▸ hlock rfl
  | verifying existing =>
    rw [Attachments.advanceUpload]
    dsimp only
    split
    · rename_i hfile
      exact h.goOn (inPlace_of_found hok hfile) fun hash hheld ↦ Option.some.inj hheld ▸ hlock rfl
    · exact h.abortUpload hrunning rfl
  | movingTemp =>
    rw [Attachments.advanceUpload]
    dsimp only
    split
    · have heffect := Effect.of_writeFile h.store h.ready hok
      refine h.setTask heffect (fun hash heq other hother ↦ h.eq_of_lock hrunning rfl heq hother) rfl
        (fun _ _ _ hother ↦ hother) ⟨?_, content, Function.update_self _ _ _⟩ fun hash hheld ↦
          Option.some.inj hheld ▸ hlock rfl
      exact hok
    · exact h.goOn hok fun hash hheld ↦ Option.some.inj hheld ▸ hlock rfl
  | accessing =>
    rw [Attachments.advanceUpload]
    dsimp only
    split
    · exact h.goOn hok fun hash hheld ↦ Option.some.inj hheld ▸ hlock rfl
    · exact h.abortUpload hrunning rfl
  | verifyingFound =>
    rw [Attachments.advanceUpload]
    dsimp only
    split
    · rename_i hfile
      obtain ⟨file, hfile, -⟩ := (Option.any_eq_true _ _).1 hfile
      exact h.goOn ⟨hok, file, hfile⟩ fun hash hheld ↦ Option.some.inj hheld ▸ hlock rfl
    · exact h.abortUpload hrunning rfl
  | removingTemp existing =>
    rw [Attachments.advanceUpload]
    dsimp only
    split
    · exact h.goOn hok fun hash hheld ↦ Option.some.inj hheld ▸ hlock rfl
    · exact h.abortUpload hrunning rfl
  | placed existing =>
    rw [Attachments.advanceUpload, publish]
    split
    · exact h.abortUpload hrunning rfl
    dsimp only
    split
    · exact h.abortUpload hrunning rfl
    · rename_i store' completed hcompleted
      exact h.finishUpload hrunning rfl (Effect.of_completeUpload hsha256 h.store h.ready hok rfl hcompleted) rfl rfl

/-! ### Deleting -/

/-- What a deletion relies on after it has taken an attachment away that was the last one of its blob. -/
theorem deleteOk_of_deleteUnreferencedAttachment (hstore : StoreOk sha256 m) {id : ℕ}
    (hok : DeleteOk m hash (.waitingHash id))
    (hdelete : m.store.deleteUnreferencedAttachment id = .ok (store', some blob))
    (hreferences : ¬store'.hasBlobReferences blob.id) :
    DeleteOk { m with store := store' } hash (.removing blob) := by
  have hshrinks := shrinks_deleteUnreferencedAttachment hdelete
  rw [Store.deleteUnreferencedAttachment] at hdelete
  split at hdelete
  · cases (Prod.mk.inj (Except.ok.inj hdelete)).2
  rename_i attachment hattachment
  split at hdelete
  · cases hdelete
  have hblob : m.store.getBlob attachment.blobId = some blob := (Prod.mk.inj (Except.ok.inj hdelete)).2
  have hmem := List.mem_of_find?_eq_some hblob
  have hid : blob.id = attachment.blobId := by simpa using List.find?_some hblob
  have hattachmentId : attachment.id = id := by simpa using List.find?_some hattachment
  have hsha := hok.2 attachment (List.mem_of_find?_eq_some hattachment) hattachmentId blob hmem hid
  refine ⟨hsha, (hstore.of_shrinks hshrinks).known blob (hshrinks.blobs.symm ▸ hmem),
    noAttachments_of_hasBlobReferences hreferences, fun other hother hsame ↦ ?_⟩
  rw [hstore.unique other (hshrinks.blobs ▸ hother) blob hmem (hsame.trans hsha.symm)]

/-- **Every section of a deletion keeps the invariant.** -/
theorem Sound.advanceDelete (h : Sound sha256 w) {hash : String} {pc : DeletePc}
    (hrunning : w.tasks task = some (.deleteAttachment hash pc)) (choice : Choice) :
    Sound sha256 (advanceDelete task hash pc choice w) := by
  have hok := h.tasks task _ hrunning
  cases pc with
  | waitingHash id =>
    rw [Attachments.advanceDelete]
    split
    · exact h
    rename_i hfree
    have hend : ∀ {store'}, Shrinks w.store store' → Sound sha256 ((w.withStore store').endTask task) :=
      fun hshrinks ↦ h.endTask (Effect.of_shrinks h.store h.ready hshrinks : Effect sha256 none _ _)
        (fun _ heq ↦ (nomatch heq)) rfl (fun _ _ _ hother ↦ hother)
    split
    · exact hend (Shrinks.refl w.store)
    · rename_i store' hdelete
      exact hend (shrinks_deleteUnreferencedAttachment hdelete)
    · rename_i store' blob hdelete
      have hshrinks := shrinks_deleteUnreferencedAttachment hdelete
      split
      · exact hend hshrinks
      · rename_i hreferences
        refine h.setTask (Effect.of_shrinks h.store h.ready hshrinks : Effect sha256 none _ _)
          (fun _ heq ↦ (nomatch heq)) rfl (fun _ _ _ hother ↦ lockHash_lock (not_not.1 hfree) hother)
          (deleteOk_of_deleteUnreferencedAttachment h.store hok hdelete hreferences) fun hash' hheld ↦ ?_
        obtain rfl : hash = hash' := Option.some.inj hheld
        exact Function.update_self _ _ _
  | removing blob =>
    obtain ⟨rfl, hknown, hnone, hunique⟩ := hok
    rw [Attachments.advanceDelete]
    split
    · have hkey : ∀ other ∈ w.store.blobs, other.storageKey = blob.storageKey → other.id = blob.id := by
        intro other hmem hkey
        refine hunique other hmem (storageKeyForHash_injective ?_)
        rw [← (h.store.known other hmem).storageKey, hkey, hknown.storageKey]
      have heffect := Effect.of_removeFile h.store h.ready hknown hnone hkey
      refine h.setTask heffect (fun hash heq other hother ↦ h.eq_of_lock hrunning rfl heq hother) rfl
        (fun _ _ _ hother ↦ hother) ⟨rfl, hknown.of_stable heffect.stable, hnone, hunique⟩ fun hash' hheld ↦ ?_
      exact h.locks task _ hash' hrunning hheld
    · exact h.endTask (Effect.refl h.store h.ready : Effect sha256 none _ _) (fun _ heq ↦ (nomatch heq)) rfl
        fun _ _ hne hother ↦ h.releaseHash_lock hrunning rfl hne hother
  | removed blob =>
    obtain ⟨rfl, hknown, -, -⟩ := hok
    rw [Attachments.advanceDelete]
    exact h.endTask (Effect.of_deleteBlobRecord h.store h.ready hknown)
      (fun hash heq other hother ↦ h.eq_of_lock hrunning rfl heq hother) rfl
      fun _ _ hne hother ↦ h.releaseHash_lock hrunning rfl hne hother

/-! ### Collecting garbage -/

theorem mem_of_mem_listUnreferencedBlobs {store : Store} {limit : ℕ}
    (h : blob ∈ store.listUnreferencedBlobs limit) : blob ∈ store.blobs :=
  List.mem_of_mem_filter ((List.mem_insertionSort _).1 (List.mem_of_mem_take h))

/-- A collection that has dropped or marked attachments goes on. -/
theorem Sound.garbageShrinks (h : Sound sha256 w) (hshrinks : Shrinks w.store store')
    (hnext : heldHash sha256 (.collectGarbage pc) = none)
    (hok : StoreOk sha256 { w.toMemory with store := store' } → GarbageOk { w.toMemory with store := store' } pc) :
    Sound sha256 ((w.withStore store').setTask task (.collectGarbage pc)) :=
  have heffect : Effect sha256 none w.toMemory { w.toMemory with store := store' } :=
    Effect.of_shrinks h.store h.ready hshrinks
  h.setTask heffect (fun _ heq ↦ (nomatch heq)) rfl (fun _ _ _ hother ↦ hother) (hok heffect.store)
    fun _ hheld ↦ by rw [hnext] at hheld; exact (nomatch hheld)

/-- A collection that holds no lock goes on. -/
theorem Sound.garbageGoOn (h : Sound sha256 w) (hnext : heldHash sha256 (.collectGarbage pc) = none)
    (hok : GarbageOk w.toMemory pc) : Sound sha256 (w.setTask task (.collectGarbage pc)) :=
  h.goOn hok fun _ hheld ↦ by rw [hnext] at hheld; exact (nomatch hheld)

/-- The scan for orphans removes a file that is of no blob, and that no upload is making one of. -/
theorem Sound.removeOrphan (h : Sound sha256 w) {path : String} {next : GcPc} (hpath : ∀ blob ∈ w.store.blobs, blob.storageKey ≠ path)
    (hclaims : ∀ other running, w.tasks other = some running → ¬Claims sha256 running path)
    (hnext : heldHash sha256 (.collectGarbage next) = none) (hok : ∀ m, GarbageOk m next) :
    Sound sha256 ((w.removeFile path).setTask task (.collectGarbage next)) := by
  have hself : Function.update w.tasks task (some (.collectGarbage next)) task = some (.collectGarbage next) :=
    Function.update_self _ _ _
  refine ⟨h.store.removeFile path, h.ready.removeFile fun _ _ blob hblob _ ↦ hpath blob hblob,
    fun other running hother ↦ ?_, fun other running hash hother hheld ↦ ?_⟩
  all_goals replace hother : Function.update w.tasks task (some (.collectGarbage next)) other = some running := hother
  · by_cases hne : other = task
    · rw [hne, hself, Option.some_inj] at hother
      exact hother ▸ hok _
    · rw [Function.update_of_ne hne] at hother
      exact TaskOk.removeOrphan h.store hpath (hclaims other running hother) (h.tasks other running hother)
  · by_cases hne : other = task
    · rw [hne, hself, Option.some_inj] at hother
      rw [← hother, hnext] at hheld
      exact (nomatch hheld)
    · rw [Function.update_of_ne hne] at hother
      exact h.locks other running hash hother hheld

/-- **Every section of a garbage collection keeps the invariant**, if it removes no file in use. -/
theorem Sound.advanceGarbage (h : Sound sha256 w) {pc : GcPc}
    (hrunning : w.tasks task = some (.collectGarbage pc)) (choice : Choice)
    (hsafe : SafeStep sha256 w (.advance task choice)) : Sound sha256 (advanceGarbage task pc choice w) := by
  have hok := h.tasks task _ hrunning
  rw [SafeStep, hrunning] at hsafe
  rw [Attachments.advanceGarbage.eq_def]
  dsimp only
  split
  · exact h.endTask (Effect.refl h.store h.ready : Effect sha256 none _ _) (fun _ heq ↦ (nomatch heq)) rfl
      fun _ _ _ hother ↦ hother
  cases pc with
  | temporary =>
    have hshrinks : Shrinks w.store (w.store.deleteExpiredUploads choice.now) := Shrinks.of_eq rfl rfl
    have hpc : ∀ batch, heldHash sha256 (.collectGarbage (.repairing batch)) = none := fun _ ↦ rfl
    exact h.garbageShrinks hshrinks (hpc _) fun _ ↦ trivial
  | repairing batch =>
    cases batch with
    | nil =>
      refine h.garbageShrinks ((shrinks_markIssues _ _).trans (shrinks_deleteDue _ _)) rfl
        fun hstore blob hmem ↦ ?_
      exact hstore.known blob (mem_of_mem_listUnreferencedBlobs hmem)
    | cons attachment batch =>
      dsimp only
      split
      · exact h.garbageShrinks (shrinks_deleteDeletingAttachment _ _) rfl fun _ ↦ trivial
      split
      · exact h.garbageShrinks (shrinks_markAttachmentCorrupt _ _) rfl fun _ ↦ trivial
      · rename_i blob hblob
        split
        · exact h.garbageShrinks (shrinks_markAttachmentCorrupt _ _) rfl fun _ ↦ trivial
        · exact h.garbageGoOn rfl (h.store.known blob (List.mem_of_find?_eq_some hblob))
  | verifying blob batch =>
    refine h.garbageGoOn rfl ⟨hok, fun hintact _ hfile ↦ ?_⟩
    exact Bool.false_ne_true (hintact.symm.trans hfile)
  | verified blob intact batch =>
    obtain ⟨hknown, hbroken⟩ := hok
    dsimp only
    split
    · exact h.garbageGoOn rfl trivial
    · rename_i hintact
      have heffect : Effect sha256 none w.toMemory _ := Effect.of_markBlobAndAttachmentsCorrupt h.store h.ready hknown
        (hbroken (Bool.eq_false_iff.2 hintact))
      exact h.setTask heffect (fun _ heq ↦ (nomatch heq)) rfl (fun _ _ _ hother ↦ hother) trivial
        fun _ hheld ↦ (nomatch hheld)
  | unreferenced blobs =>
    cases blobs with
    | nil => exact h.garbageGoOn rfl trivial
    | cons blob blobs =>
      exact h.garbageGoOn rfl ⟨hok blob List.mem_cons_self, fun other hmem ↦ hok other (List.mem_cons_of_mem _ hmem)⟩
  | waitingHash blob blobs =>
    obtain ⟨hknown, hblobs⟩ := hok
    dsimp only
    split
    · exact h
    rename_i hfree
    split
    · exact h.garbageGoOn rfl hblobs
    · rename_i hreferences
      have hnone := noAttachments_of_hasBlobReferences hreferences
      have heffect := Effect.of_markBlobState h.store h.ready hknown hnone .deleting
      refine h.setTask heffect (fun hash heq other hother ↦ ?_) rfl
        (fun _ _ _ hother ↦ lockHash_lock (not_not.1 hfree) hother)
        ⟨hknown.of_stable heffect.stable, hnone, fun other hmem ↦ (hblobs other hmem).of_stable heffect.stable⟩
        fun hash hheld ↦ ?_
      · rw [← Option.some.inj heq, not_not.1 hfree] at hother
        exact (nomatch hother)
      · obtain rfl : blob.sha256 = hash := Option.some.inj hheld
        exact Function.update_self _ _ _
  | removing blob blobs =>
    obtain ⟨hknown, hnone, hblobs⟩ := hok
    dsimp only
    split
    · rename_i hsucceeds
      have heffect := Effect.of_removeFile h.store h.ready hknown hnone (hsafe hsucceeds)
      refine h.setTask heffect (fun hash heq other hother ↦ h.eq_of_lock hrunning rfl heq hother) rfl
        (fun _ _ _ hother ↦ hother)
        ⟨hknown.of_stable heffect.stable, hnone, fun other hmem ↦ (hblobs other hmem).of_stable heffect.stable⟩
        fun hash hheld ↦ h.locks task _ hash hrunning hheld
    · exact h.setTask (Effect.refl h.store h.ready : Effect sha256 none _ _) (fun _ heq ↦ (nomatch heq)) rfl
        (fun _ _ hne hother ↦ h.releaseHash_lock hrunning rfl hne hother) hblobs fun _ hheld ↦ (nomatch hheld)
  | removed blob blobs =>
    obtain ⟨hknown, hnone, hblobs⟩ := hok
    have heffect := Effect.of_deleteBlobRecord h.store h.ready hknown
    exact h.setTask heffect (fun hash heq other hother ↦ h.eq_of_lock hrunning rfl heq hother) rfl
      (fun _ _ hne hother ↦ h.releaseHash_lock hrunning rfl hne hother)
      (fun other hmem ↦ (hblobs other hmem).of_stable heffect.stable) fun _ hheld ↦ (nomatch hheld)
  | orphans paths =>
    cases paths with
    | nil =>
      exact h.endTask (Effect.refl h.store h.ready : Effect sha256 none _ _) (fun _ heq ↦ (nomatch heq)) rfl
        fun _ _ _ hother ↦ hother
    | cons path paths =>
      dsimp only
      split <;> exact h.garbageGoOn rfl trivial
  | statting path paths =>
    dsimp only
    split <;> exact h.garbageGoOn rfl trivial
  | removingOrphan path paths =>
    dsimp only
    split
    · rename_i hsucceeds
      exact h.removeOrphan (hsafe hsucceeds).1 (hsafe hsucceeds).2 rfl fun _ ↦ trivial
    · exact h.garbageGoOn rfl trivial

/-! ### Runs -/

/-- A new task that relies on something true. -/
theorem Sound.start (h : Sound sha256 w) (hok : TaskOk sha256 w.toMemory next)
    (hnext : heldHash sha256 next = none) :
    Sound sha256 (w.setTask task next) :=
  h.goOn hok fun _ hheld ↦ by rw [hnext] at hheld; exact (nomatch hheld)

/-- **Every step that removes no file in use keeps the invariant.** -/
theorem Sound.step (hsha256 : Function.Injective sha256) (h : Sound sha256 w) {event : Event}
    (hsafe : SafeStep sha256 w event) : Sound sha256 (step sha256 event w) := by
  cases event with
  | createUpload upload => exact h.withStore (Shrinks.of_eq rfl rfl)
  | upload task uploadId content =>
    rw [Attachments.step]
    split
    · exact h.start trivial rfl
    · exact h
  | deleteUpload uploadId => exact h.withStore (Shrinks.of_eq rfl rfl)
  | deleteAttachment task id =>
    rw [Attachments.step]
    split
    · rw [startDelete]
      split
      · exact h
      rename_i existing hexisting
      split
      · exact h
      rename_i indexedBlob hblob
      have hmem := List.mem_of_find?_eq_some hexisting
      have hid : existing.id = id := by simpa using List.find?_some hexisting
      have hblobId : indexedBlob.id = existing.blobId := by simpa using List.find?_some hblob
      refine h.start ⟨hid ▸ h.store.id_lt existing hmem, fun attachment hattachment hsame blob hmem' hother ↦ ?_⟩ rfl
      have hsameBlob := h.store.blobId attachment hattachment existing hmem (hsame.trans hid.symm)
      exact ((h.store.known indexedBlob (List.mem_of_find?_eq_some hblob)).same blob hmem'
        (hother.trans (hsameBlob.trans hblobId.symm))).1
    · exact h
  | collectGarbage task =>
    rw [Attachments.step]
    split
    · exact h.start trivial rfl
    · exact h
  | message change =>
    refine h.withStore ⟨rfl, fun attachment' hmem ↦ ?_⟩
    obtain ⟨attachment, hmem', rfl⟩ := List.mem_map.1 hmem
    exact ⟨attachment, hmem', rfl, rfl, id⟩
  | advance task choice =>
    rw [Attachments.step, advance]
    split
    · exact h
    · rename_i hrunning
      exact h.advanceUpload hsha256 hrunning choice
    · rename_i hrunning
      exact h.advanceDelete hrunning choice
    · rename_i hrunning
      exact h.advanceGarbage hrunning choice hsafe

/-- **A ready attachment has its content**: in every state of a run from a service in order whose steps remove no file
in use, every ready attachment has an available blob whose file is what has been uploaded. -/
theorem readyHaveContent_run (hsha256 : Function.Injective sha256) {w : World} (hstarted : Started sha256 w)
    {events : List Event} (hsafe : Along (step sha256) (SafeStep sha256) w events) :
    ReadyHaveContent (run (step sha256) w events).toMemory := by
  have hstep : ∀ w event, Sound sha256 w → SafeStep sha256 w event → Sound sha256 (step sha256 event w) :=
    fun w event hsound hsafe ↦ hsound.step hsha256 hsafe
  exact (run_invariant hstep hstarted.sound hsafe).ready

/-! ### An orphan that is taken up again -/

namespace OrphanSample

/-- The hash of the sample content, and names for all others. -/
def digest (content : Bytes) : String :=
  if content = [0x61] then "ca978112ca1bbdcafac231b39a23dc4da786eff8147c4f72b9807785afee48bb"
  else String.ofList ('-' :: content.map Char.ofUInt8)

/-- A service without uploads and files. -/
def fresh : World where
  store := ⟨[], [], [], []⟩
  files := fun _ ↦ none
  nextId := 0
  uploaded := fun _ ↦ none
  hashLocks := fun _ ↦ none
  quotaLock := none
  tasks := fun _ ↦ none

/-- An upload of the sample content. -/
def pending (id : ℕ) : RuntimeAttachmentUpload :=
  ⟨id, 1, .pending, none, 100⟩

/-- An upload that is completed. -/
def uploading : List Event :=
  [.createUpload (pending 1), .upload 1 1 [0x61], .advance 1 {}, .advance 1 {}, .advance 1 {}, .advance 1 {},
    .advance 1 {}]

/-- An upload that is aborted when its file is in its place, a scan that finds the file, another upload of the same
content, and the removal that the scan has asked for before. -/
def retaken : List Event :=
  [.createUpload (pending 1), .upload 1 1 [0x61], .advance 1 {}, .advance 1 {}, .advance 1 {}, .advance 1 {},
    .advance 1 { aborted := true },
    .collectGarbage 2, .advance 2 {}, .advance 2 {}, .advance 2 { paths := [storageKeyForHash (digest [0x61])] },
    .advance 2 {}, .advance 2 {},
    .createUpload (pending 2), .upload 3 2 [0x61], .advance 3 {}, .advance 3 {}, .advance 3 {}, .advance 3 {},
    .advance 3 {},
    .advance 2 {}]

theorem digest_injective : Function.Injective digest := by
  have hbyte : Function.Injective Char.ofUInt8 := by
    intro byte byte' h
    have hnat : byte.toUInt32.toNat = byte'.toUInt32.toNat := congrArg Char.toNat h
    rw [UInt8.toNat_toUInt32, UInt8.toNat_toUInt32] at hnat
    exact UInt8.toNat_inj.1 hnat
  have hother : ∀ content : Bytes, "ca978112ca1bbdcafac231b39a23dc4da786eff8147c4f72b9807785afee48bb" ≠
      String.ofList ('-' :: content.map Char.ofUInt8) := by
    intro content heq
    have hchars := congrArg (fun s : String ↦ s.toList.head?) heq
    simp only [String.toList_ofList, List.head?_cons] at hchars
    exact absurd hchars (by decide)
  intro content content' h
  rw [digest, digest] at h
  split at h
  · rename_i hcontent
    split at h
    · rename_i hcontent'
      rw [hcontent, hcontent']
    · exact absurd h (hother content')
  · split at h
    · exact absurd h.symm (hother content)
    · exact List.map_injective_iff.2 hbyte (List.cons.inj (String.ofList_inj.1 h)).2

theorem started_fresh : Started digest fresh where
  store := ⟨fun _ h ↦ (nomatch h), fun _ h ↦ (nomatch h), fun _ h ↦ (nomatch h), fun _ h ↦ (nomatch h),
    fun _ h ↦ (nomatch h), fun _ _ h ↦ (nomatch h)⟩
  ready := fun _ h ↦ (nomatch h)
  idle := fun _ ↦ rfl

end OrphanSample

/-- The content of an attachment is lost when a file that had no blob is taken up again while it is removed. -/
theorem not_readyHaveContent_retaken :
    Function.Injective OrphanSample.digest ∧ Started OrphanSample.digest OrphanSample.fresh ∧
      ¬ReadyHaveContent (run (step OrphanSample.digest) OrphanSample.fresh OrphanSample.retaken).toMemory := by
  refine ⟨OrphanSample.digest_injective, OrphanSample.started_fresh, fun hready ↦ ?_⟩
  have hattachments : (run (step OrphanSample.digest) OrphanSample.fresh OrphanSample.retaken).store.attachments =
      [⟨1, 0, 1, .ready, some 86400000⟩] := by decide
  have hkeys : (run (step OrphanSample.digest) OrphanSample.fresh OrphanSample.retaken).store.blobs.map
      (·.storageKey) = [storageKeyForHash (OrphanSample.digest [0x61])] := by decide
  have hfile : (run (step OrphanSample.digest) OrphanSample.fresh OrphanSample.retaken).files
      (storageKeyForHash (OrphanSample.digest [0x61])) = none := by decide
  obtain ⟨blob, hblob, -, -, content, hcontent, -⟩ :=
    hready ⟨1, 0, 1, .ready, some 86400000⟩ (hattachments ▸ List.mem_singleton_self _) rfl
  have hkey := List.mem_map_of_mem (f := (·.storageKey)) hblob
  rw [hkeys, List.mem_singleton] at hkey
  rw [hkey, hfile] at hcontent
  exact (nomatch hcontent)

/-- An upload that nothing interferes with. -/
theorem readyHaveContent_uploading :
    (run (step OrphanSample.digest) OrphanSample.fresh OrphanSample.uploading).store.attachments =
        [⟨1, 0, 1, .ready, some 86400000⟩] ∧
      ReadyHaveContent (run (step OrphanSample.digest) OrphanSample.fresh OrphanSample.uploading).toMemory := by
  refine ⟨by decide, readyHaveContent_run OrphanSample.digest_injective OrphanSample.started_fresh ?_⟩
  exact ⟨trivial, trivial, trivial, trivial, trivial, trivial, trivial, trivial⟩

end Attachments
