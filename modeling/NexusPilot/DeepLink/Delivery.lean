import NexusPilot.DeepLink.Router
import NexusPilot.Machine.Run

/-!
# Every link is handed over once

For any order of the steps of `register_route`, `attach_handler` and `dispatch`, every link that a route has accepted is
handed over, waits, or was thrown out of the full queue by a later one, and only one of these (`no_link_lost`). The
links that were queued are handed over in their order, and a link is handed over directly only when no link that was
queued before it still waits.

The invariant of a route (`RouteInv`) rests on the flag: while it is set there is one loop that drains the queue, and
when it is cleared, under the lock, the queue is empty and stays so.
-/

namespace DeepLink

open Machine

variable {H : Type}

/-! ### Reading a history -/

/-- The link that is queued. -/
def Happening.queuedLink : Happening → Option Request
  | .queued link _ _ => some link
  | _ => none

/-- The link that is thrown out of the queue. -/
def Happening.evictedLink : Happening → Option Request
  | .queued _ _ evicted => evicted
  | _ => none

/-- The link that a call of `dispatch` is going to hand over itself. -/
def Happening.grantedLink : Happening → Option Request
  | .granted link => some link
  | _ => none

/-- The link that the loop of `attach_handler` hands over. -/
def Happening.drainedLink : Happening → Option Request
  | .drained link => some link
  | _ => none

/-- The link that a call of `dispatch` hands over. -/
def Happening.deliveredLink : Happening → Option Request
  | .delivered link _ => some link
  | _ => none

/-- The link that the router accepts. -/
def Happening.acceptedLink (happening : Happening) : Option Request :=
  happening.queuedLink.or happening.grantedLink

/-- The link that a handler gets. -/
def Happening.handedLink (happening : Happening) : Option Request :=
  happening.drainedLink.or happening.deliveredLink

/-- The links of one kind, in their order. -/
def links (kind : Happening → Option Request) (history : List Happening) : List Request :=
  history.filterMap kind

@[simp]
theorem links_append (kind : Happening → Option Request) (history : List Happening) (happening : Happening) :
    links kind (history ++ [happening]) = links kind history ++ (kind happening).toList := by
  rw [links, links, List.filterMap_append]
  cases h : kind happening <;> simp [h]

theorem links_or_perm {kind kind' : Happening → Option Request}
    (h : ∀ happening, kind happening = none ∨ kind' happening = none) (history : List Happening) :
    (links (fun happening ↦ (kind happening).or (kind' happening)) history).Perm
      (links kind history ++ links kind' history) := by
  induction history with
  | nil => exact List.Perm.refl _
  | cons happening history ih =>
    rw [links, links, links] at ih ⊢
    rw [List.filterMap_cons, List.filterMap_cons, List.filterMap_cons]
    obtain hnone | ⟨link, hsome⟩ := Option.eq_none_or_eq_some (kind happening)
    · rw [hnone, Option.none_or]
      cases kind' happening with
      | none => exact ih
      | some link => exact (ih.cons link).trans List.perm_middle.symm
    · rw [hsome, (h happening).resolve_left (by rw [hsome]; exact Option.some_ne_none link), Option.some_or]
      exact ih.cons link

theorem acceptedLinks_perm (history : List Happening) : (links Happening.acceptedLink history).Perm
    (links Happening.queuedLink history ++ links Happening.grantedLink history) :=
  links_or_perm (fun happening ↦ by cases happening <;> simp [Happening.queuedLink, Happening.grantedLink]) history

theorem handedLinks_perm (history : List Happening) : (links Happening.handedLink history).Perm
    (links Happening.drainedLink history ++ links Happening.deliveredLink history) :=
  links_or_perm (fun happening ↦ by cases happening <;> simp [Happening.drainedLink, Happening.deliveredLink]) history

/-! ### What is promised -/

/-- The round that is being handed over. -/
def RouteState.taken (s : RouteState H) : List Request :=
  (s.attaching.map (·.taken)).getD []

/-- Whenever a link is handed over directly, each link that was queued before is handed over or thrown out. -/
def DirectAfterQueued (history : List Happening) : Prop :=
  ∀ before link error after, history = before ++ .delivered link error :: after →
    ∀ earlier ∈ links Happening.queuedLink before,
      earlier ∈ links Happening.handedLink before ∨ earlier ∈ links Happening.evictedLink before

/-- What a router promises of the links of a route. -/
structure NoLinkLost (s : RouteState H) : Prop where
  /-- No link is handed over twice. -/
  once : (links Happening.handedLink s.history).Nodup
  /-- Each accepted link is handed over, or thrown out, or waits: in the round that is being handed over, in the queue,
  or in its own call. -/
  accounted : (links Happening.acceptedLink s.history).Perm
    (links Happening.handedLink s.history ++ links Happening.evictedLink s.history ++
      (s.taken ++ s.entry.pending ++ s.ready))
  accepted : (links Happening.acceptedLink s.history).Nodup
  /-- A link is thrown out by just the calls that say so. -/
  counted : ∀ link droppedOldest evicted, .queued link droppedOldest evicted ∈ s.history →
    droppedOldest = evicted.isSome
  /-- The queued links that are not thrown out are handed over in their order. -/
  inOrder : (links Happening.queuedLink s.history).filter (· ∉ links Happening.evictedLink s.history) =
    links Happening.drainedLink s.history ++ s.taken ++ s.entry.pending
  direct : DirectAfterQueued s.history

/-! ### The invariant -/

/-- **The invariant** of a route. -/
structure RouteInv (next : Nat) (s : RouteState H) : Prop where
  /-- The flag says that there is a loop. -/
  draining : s.attaching.isSome = s.entry.drainingPending
  detached : s.entry.handler = none → s.entry.drainingPending = false ∧ s.ready = []
  ready : s.ready ≠ [] → s.entry.drainingPending = false
  /-- Nothing waits behind a flag that is cleared. -/
  cleared : s.entry.handler ≠ none → s.entry.drainingPending = false → s.entry.pending = []
  queued : (links Happening.queuedLink s.history).Perm
    (links Happening.drainedLink s.history ++ s.taken ++ s.entry.pending ++ links Happening.evictedLink s.history)
  granted : (links Happening.grantedLink s.history).Perm (links Happening.deliveredLink s.history ++ s.ready)
  accepted : (links Happening.queuedLink s.history ++ links Happening.grantedLink s.history).Nodup
  tickets : ∀ link ∈ links Happening.queuedLink s.history ++ links Happening.grantedLink s.history, link.ticket < next
  counted : ∀ link droppedOldest evicted, .queued link droppedOldest evicted ∈ s.history →
    droppedOldest = evicted.isSome
  inOrder : (links Happening.queuedLink s.history).filter (· ∉ links Happening.evictedLink s.history) =
    links Happening.drainedLink s.history ++ s.taken ++ s.entry.pending
  direct : DirectAfterQueued s.history

variable {s : RouteState H} {history : List Happening} {happening : Happening} {next' : Nat}

theorem RouteInv.noLinkLost {next : Nat} (h : RouteInv next s) : NoLinkLost s := by
  have hperm : (links Happening.acceptedLink s.history).Perm
      (links Happening.handedLink s.history ++ links Happening.evictedLink s.history ++
        (s.taken ++ s.entry.pending ++ s.ready)) := by
    refine (acceptedLinks_perm s.history).trans ((h.queued.append h.granted).trans ?_)
    refine List.Perm.trans ?_ (((handedLinks_perm s.history).symm.append_right _).append_right _)
    refine List.perm_iff_count.2 fun link ↦ ?_
    simp only [List.count_append]
    omega
  have hnodup : (links Happening.acceptedLink s.history).Nodup :=
    (acceptedLinks_perm s.history).nodup_iff.2 h.accepted
  refine ⟨?_, hperm, hnodup, h.counted, h.inOrder, h.direct⟩
  have hall := hperm.nodup_iff.1 hnodup
  exact (List.nodup_append.1 (List.nodup_append.1 hall).1).1

/-- A direct link is the last of its history. -/
theorem DirectAfterQueued.append (h : DirectAfterQueued history)
    (hlast : happening.deliveredLink ≠ none → ∀ earlier ∈ links Happening.queuedLink history,
      earlier ∈ links Happening.handedLink history ∨ earlier ∈ links Happening.evictedLink history) :
    DirectAfterQueued (history ++ [happening]) := by
  intro before link error after heq
  obtain rfl | ⟨rest, last, rfl⟩ := List.eq_nil_or_concat after
  · obtain ⟨rfl, hsame⟩ := List.append_inj' heq rfl
    cases hsame
    exact hlast (Option.some_ne_none link)
  · rw [List.concat_eq_append, ← List.cons_append, ← List.append_assoc] at heq
    obtain ⟨rfl, -⟩ := List.append_inj' heq rfl
    exact h before link error rest rfl

theorem RouteInv.mono {next : Nat} (h : RouteInv next s) (hle : next ≤ next') :
    RouteInv next' s :=
  { h with tickets := fun link hlink ↦ (h.tickets link hlink).trans_le hle }

theorem routeInv_attach {next : Nat} (h : RouteInv next s) (handler : H) :
    RouteInv next (s.attach handler) := by
  rw [RouteState.attach, RouteEntry.attach]
  split
  · exact h
  · next hresult =>
    split at hresult
    · cases hresult
    · next hnone =>
      cases hresult
      obtain ⟨hflag, hready⟩ := h.detached (by simpa using hnone)
      have hattaching : s.attaching = none := by
        rw [← Option.not_isSome_iff_eq_none, h.draining, hflag]
        exact Bool.false_ne_true
      have htaken : s.taken = [] := by rw [RouteState.taken, hattaching]; rfl
      have hqueued := h.queued
      have horder := h.inOrder
      rw [htaken] at hqueued horder
      exact { h with
        draining := rfl
        detached := fun hcontra ↦ (nomatch hcontra)
        ready := fun hne ↦ absurd hready hne
        cleared := fun _ hcontra ↦ (nomatch hcontra)
        queued := hqueued
        inOrder := horder }

theorem counted_append
    (h : ∀ link droppedOldest evicted, .queued link droppedOldest evicted ∈ history → droppedOldest = evicted.isSome)
    (hlast : ∀ link droppedOldest evicted, happening = .queued link droppedOldest evicted →
      droppedOldest = evicted.isSome) :
    ∀ link droppedOldest evicted, .queued link droppedOldest evicted ∈ history ++ [happening] →
      droppedOldest = evicted.isSome := by
  intro link droppedOldest evicted hmem
  obtain hmem | hmem := List.mem_append.1 hmem
  · exact h link droppedOldest evicted hmem
  · exact hlast link droppedOldest evicted (List.mem_singleton.1 hmem).symm

theorem routeInv_drain {next : Nat} (h : RouteInv next s) : RouteInv next s.drain := by
  rw [RouteState.drain]
  split
  · next report hattaching =>
    have hflag : s.entry.drainingPending = true := by rw [← h.draining, hattaching]; rfl
    have hhandler : s.entry.handler ≠ none := fun hnone ↦ by
      have hcontra := (h.detached hnone).1
      rw [hflag] at hcontra
      cases hcontra
    have hready : s.ready = [] := by
      by_contra hne
      have hcontra := h.ready hne
      rw [hflag] at hcontra
      cases hcontra
    have htaken : s.taken = [] := by rw [RouteState.taken, hattaching]; rfl
    have hqueued := h.queued
    have horder := h.inOrder
    rw [htaken] at hqueued horder
    rw [RouteEntry.takePending]
    split
    · next hresult =>
      split at hresult
      · next hempty =>
        cases hresult
        -- the loop ends: the flag is cleared and nothing waits
        refine
          { draining := rfl
            detached := fun hnone ↦ absurd hnone hhandler
            ready := fun _ ↦ rfl
            cleared := fun _ _ ↦ hempty
            queued := ?_
            granted := ?_
            accepted := ?_
            tickets := ?_
            counted := counted_append h.counted fun _ _ _ hcontra ↦ (nomatch hcontra)
            inOrder := ?_
            direct := h.direct.append fun hne ↦ absurd rfl hne }
        · simpa [Happening.queuedLink, Happening.drainedLink, Happening.evictedLink, RouteState.taken] using hqueued
        · simpa [Happening.grantedLink, Happening.deliveredLink] using h.granted
        · simpa [Happening.queuedLink, Happening.grantedLink] using h.accepted
        · simpa [Happening.queuedLink, Happening.grantedLink] using h.tickets
        · simpa [Happening.queuedLink, Happening.drainedLink, Happening.evictedLink, RouteState.taken] using horder
      · cases hresult
    · next taken entry hresult =>
      split at hresult
      · cases hresult
      · cases hresult
        refine
          { h with
            draining := hflag.symm
            cleared := fun _ _ ↦ rfl
            queued := ?_
            inOrder := ?_ }
        · simpa [RouteState.taken] using hqueued
        · simpa [RouteState.taken] using horder
  · exact h

theorem routeInv_handle {next : Nat} (h : RouteInv next s) (error : Option HandlerError) :
    RouteInv next (s.handle error) := by
  rw [RouteState.handle]
  split
  · next link taken report hattaching =>
    have htaken : s.taken = link :: taken := by rw [RouteState.taken, hattaching]; rfl
    have hqueued := h.queued
    have horder := h.inOrder
    rw [htaken] at hqueued horder
    refine
      { draining := ?_
        detached := h.detached
        ready := h.ready
        cleared := h.cleared
        queued := ?_
        granted := ?_
        accepted := ?_
        tickets := ?_
        counted := counted_append h.counted fun _ _ _ hcontra ↦ (nomatch hcontra)
        inOrder := ?_
        direct := h.direct.append fun hne ↦ absurd rfl hne }
    · rw [← h.draining, hattaching]
      rfl
    · simpa [Happening.queuedLink, Happening.drainedLink, Happening.evictedLink, RouteState.taken] using hqueued
    · simpa [Happening.grantedLink, Happening.deliveredLink] using h.granted
    · simpa [Happening.queuedLink, Happening.grantedLink] using h.accepted
    · simpa [Happening.queuedLink, Happening.grantedLink] using h.tickets
    · simpa [Happening.queuedLink, Happening.drainedLink, Happening.evictedLink, RouteState.taken] using horder
  · exact h

/-- A call that has a handler finds that no queued link waits. -/
theorem RouteInv.idle {next : Nat} (h : RouteInv next s) (hflag : s.entry.drainingPending = false)
    (hhandler : s.entry.handler ≠ none) :
    s.taken = [] ∧ s.entry.pending = [] := by
  refine ⟨?_, h.cleared hhandler hflag⟩
  have hnone : s.attaching = none := by
    rw [← Option.not_isSome_iff_eq_none, h.draining, hflag]
    exact Bool.false_ne_true
  rw [RouteState.taken, hnone]
  rfl

theorem routeInv_deliver {next : Nat} (h : RouteInv next s) (index : Nat) (error : Option HandlerError) :
    RouteInv next (s.deliver index error) := by
  rw [RouteState.deliver]
  split
  · next link hlink =>
    have hmem : link ∈ s.ready := List.mem_of_getElem? hlink
    have hflag : s.entry.drainingPending = false := h.ready (List.ne_nil_of_mem hmem)
    have hhandler : s.entry.handler ≠ none := fun hnone ↦ by
      rw [(h.detached hnone).2] at hmem
      exact List.not_mem_nil hmem
    obtain ⟨htaken, hpending⟩ := h.idle hflag hhandler
    have hready : s.ready.Perm (link :: s.ready.eraseIdx index) := by
      obtain ⟨hlt, rfl⟩ := List.getElem?_eq_some_iff.1 hlink
      exact (List.perm_cons_erase hmem).trans ((List.erase_getElem hlt).cons _)
    refine
      { draining := h.draining
        detached := fun hnone ↦ absurd hnone hhandler
        ready := fun _ ↦ hflag
        cleared := h.cleared
        queued := ?_
        granted := ?_
        accepted := ?_
        tickets := ?_
        counted := counted_append h.counted fun _ _ _ hcontra ↦ (nomatch hcontra)
        inOrder := ?_
        direct := h.direct.append fun _ earlier hearlier ↦ ?_ }
    · simpa [Happening.queuedLink, Happening.drainedLink, Happening.evictedLink, RouteState.taken] using h.queued
    · rw [links_append, links_append]
      refine (List.Perm.of_eq (List.append_nil _)).trans (h.granted.trans ?_)
      rw [List.append_assoc]
      exact hready.append_left _
    · simpa [Happening.queuedLink, Happening.grantedLink] using h.accepted
    · simpa [Happening.queuedLink, Happening.grantedLink] using h.tickets
    · simpa [Happening.queuedLink, Happening.drainedLink, Happening.evictedLink, RouteState.taken] using h.inOrder
    · have hqueued := h.queued
      rw [htaken, hpending, List.append_nil, List.append_nil] at hqueued
      refine (List.mem_append.1 (hqueued.mem_iff.1 hearlier)).imp_left fun hdrained ↦ ?_
      exact (handedLinks_perm s.history).mem_iff.2 (List.mem_append_left _ hdrained)
  · exact h

/-- What is taken out of the middle of a list without repetition. -/
theorem filter_notMem_middle {front middle back : List Request} (h : (front ++ (middle ++ back)).Nodup) :
    (front ++ (middle ++ back)).filter (· ∉ middle) = front ++ back := by
  obtain ⟨-, hrest, hfront⟩ := List.nodup_append'.1 h
  obtain ⟨-, -, hback⟩ := List.nodup_append'.1 hrest
  have hfrontKept : front.filter (· ∉ middle) = front := List.filter_eq_self.2 fun link hlink ↦
    decide_eq_true fun hmem ↦ hfront hlink (List.mem_append_left _ hmem)
  have hbackKept : back.filter (· ∉ middle) = back := List.filter_eq_self.2 fun link hlink ↦
    decide_eq_true fun hmem ↦ hback hmem hlink
  have hmiddle : middle.filter (· ∉ middle) = [] := List.filter_eq_nil_iff.2 fun link hlink ↦ by simpa using hlink
  rw [List.filter_append, List.filter_append, hfrontKept, hmiddle, hbackKept, List.nil_append]

/-- A link that has to wait; where the queue is full, its oldest link makes room. -/
theorem routeInv_queue {next : Nat} (h : RouteInv next s) (hwait : s.entry.readyHandler = none)
    {request : Request}
    (hnodup : ((links Happening.queuedLink s.history ++ links Happening.grantedLink s.history) ++ [request]).Nodup)
    (htickets : ∀ link ∈ (links Happening.queuedLink s.history ++ links Happening.grantedLink s.history) ++ [request],
      link.ticket < next') (evicted : Option Request) (kept : List Request)
    (hpending : s.entry.pending = evicted.toList ++ kept) :
    RouteInv next'
      { s with
        entry := { s.entry with pending := kept ++ [request] }
        history := s.history ++ [.queued request evicted.isSome evicted] } := by
  have hqueued := h.queued
  have horder := h.inOrder
  rw [hpending] at hqueued horder
  have hmove : ((links Happening.queuedLink s.history ++ [request]) ++ links Happening.grantedLink s.history).Perm
      ((links Happening.queuedLink s.history ++ links Happening.grantedLink s.history) ++ [request]) := by
    rw [List.append_assoc, List.append_assoc]
    exact List.perm_append_comm.append_left _
  have hnew : request ∉ links Happening.queuedLink s.history := fun hmem ↦
    (List.nodup_append'.1 hnodup).2.2 (List.mem_append_left _ hmem) List.mem_cons_self
  have hgone : ∀ link ∈ links Happening.evictedLink s.history ++ evicted.toList,
      link ∈ links Happening.queuedLink s.history := by
    intro link hlink
    refine hqueued.mem_iff.2 ?_
    simp only [List.mem_append] at hlink ⊢
    obtain hlink | hlink := hlink
    · exact .inr hlink
    · exact .inl (.inr (.inl hlink))
  refine
    { draining := h.draining
      detached := h.detached
      ready := h.ready
      cleared := fun hhandler hflag ↦ ?_
      queued := ?_
      granted := ?_
      accepted := ?_
      tickets := ?_
      counted := counted_append h.counted fun link droppedOldest evicted' heq ↦ by cases heq; rfl
      inOrder := ?_
      direct := h.direct.append fun hne ↦ absurd rfl hne }
  · have hclear : s.entry.drainingPending = false := hflag
    rw [RouteEntry.readyHandler, hclear] at hwait
    exact absurd hwait hhandler
  · rw [links_append, links_append, links_append]
    refine (hqueued.append_right [request]).trans (List.perm_iff_count.2 fun link ↦ ?_)
    simp only [Happening.drainedLink, Happening.evictedLink, RouteState.taken, List.count_append, Option.toList_none,
      List.count_nil]
    omega
  · simpa [Happening.grantedLink, Happening.deliveredLink] using h.granted
  · rw [links_append, links_append]
    exact (List.Perm.nodup_iff (by simpa [Happening.queuedLink, Happening.grantedLink] using hmove)).2 hnodup
  · intro link hlink
    rw [links_append, links_append] at hlink
    refine htickets link (hmove.mem_iff.1 ?_)
    simpa [Happening.queuedLink, Happening.grantedLink] using hlink
  · have hsplit : (links Happening.queuedLink s.history).filter
        (· ∉ links Happening.evictedLink s.history ++ evicted.toList) =
        links Happening.drainedLink s.history ++ s.taken ++ kept := by
      have hwaiting : (links Happening.drainedLink s.history ++ s.taken ++ (evicted.toList ++ kept)).Nodup :=
        horder ▸ (List.nodup_append'.1 (List.nodup_append'.1 hnodup).1).1.filter _
      rw [← filter_notMem_middle hwaiting, ← horder, List.filter_filter]
      refine List.filter_congr fun link _ ↦ ?_
      simp [not_or, Bool.and_comm]
    have hlast : [request].filter (· ∉ links Happening.evictedLink s.history ++ evicted.toList) = [request] :=
      List.filter_eq_self.2 fun link hlink ↦ decide_eq_true fun hmem ↦
        hnew (List.mem_singleton.1 hlink ▸ hgone link hmem)
    rw [links_append, links_append, links_append]
    show (links Happening.queuedLink s.history ++ [request]).filter
      (· ∉ links Happening.evictedLink s.history ++ evicted.toList) =
        links Happening.drainedLink s.history ++ [] ++ s.taken ++ (kept ++ [request])
    rw [List.filter_append, hsplit, hlast, List.append_nil, List.append_assoc _ kept]

theorem routeInv_dispatch {next capacity : Nat} (h : RouteInv next s) (hcapacity : 1 ≤ capacity)
    {request : Request} (hticket : request.ticket = next) :
    RouteInv (next + 1) (s.dispatch capacity request) := by
  have hfresh : request ∉ links Happening.queuedLink s.history ++ links Happening.grantedLink s.history :=
    fun hmem ↦ by
      have hlt := h.tickets request hmem
      omega
  have hnewAccepted : ∀ link ∈ (links Happening.queuedLink s.history ++ links Happening.grantedLink s.history) ++
      [request], link.ticket < next + 1 := by
    intro link hlink
    obtain hlink | hlink := List.mem_append.1 hlink
    · exact (h.tickets link hlink).trans (Nat.lt_succ_self next)
    · rw [List.mem_singleton.1 hlink, hticket]
      exact Nat.lt_succ_self next
  have hnodup : ((links Happening.queuedLink s.history ++ links Happening.grantedLink s.history) ++
      [request]).Nodup :=
    List.nodup_append_comm.1 (List.nodup_cons.2 ⟨hfresh, h.accepted⟩)
  rw [RouteState.dispatch, RouteEntry.dispatch]
  obtain hnone | ⟨handler, hsome⟩ := Option.eq_none_or_eq_some s.entry.readyHandler
  · rw [hnone]
    by_cases hfull : capacity ≤ s.entry.pending.length
    · obtain ⟨oldest, kept, hpending⟩ : ∃ oldest kept, s.entry.pending = oldest :: kept :=
        List.exists_cons_of_length_pos (hcapacity.trans hfull)
      have hqueue := routeInv_queue h hnone hnodup hnewAccepted (some oldest) kept hpending
      rw [decide_eq_true hfull]
      simpa [hpending] using hqueue
    · have hqueue := routeInv_queue h hnone hnodup hnewAccepted none s.entry.pending rfl
      rw [decide_eq_false hfull]
      simpa using hqueue
  · rw [hsome]
    have hflag : s.entry.drainingPending = false := by
      by_contra htrue
      rw [RouteEntry.readyHandler, if_pos (by simpa using htrue)] at hsome
      cases hsome
    have hhandler : s.entry.handler ≠ none := fun hnone ↦ by
      rw [RouteEntry.readyHandler, hnone, ite_self] at hsome
      cases hsome
    refine
      { draining := h.draining
        detached := fun hnone ↦ absurd hnone hhandler
        ready := fun _ ↦ hflag
        cleared := h.cleared
        queued := ?_
        granted := ?_
        accepted := ?_
        tickets := ?_
        counted := counted_append h.counted fun _ _ _ hcontra ↦ (nomatch hcontra)
        inOrder := ?_
        direct := h.direct.append fun hne ↦ absurd rfl hne }
    · simpa [Happening.queuedLink, Happening.drainedLink, Happening.evictedLink, RouteState.taken] using h.queued
    · rw [links_append, links_append]
      refine (h.granted.append_right [request]).trans (List.Perm.of_eq ?_)
      simp [Happening.deliveredLink]
    · simpa [Happening.queuedLink, Happening.grantedLink] using hnodup
    · simpa [Happening.queuedLink, Happening.grantedLink] using hnewAccepted
    · simpa [Happening.queuedLink, Happening.drainedLink, Happening.evictedLink, RouteState.taken] using h.inOrder

/-! ### Every run -/

/-- The invariant of a router. -/
structure RouterInv (r : Router H) : Prop where
  capacity : 1 ≤ r.pendingCapacityPerRoute
  routes : ∀ s ∈ r.routes, RouteInv r.next s

theorem routeInv_registered (next : Nat) (route : Route) : RouteInv (H := H) next { entry := { route } } where
  draining := rfl
  detached _ := ⟨rfl, rfl⟩
  ready hne := absurd rfl hne
  cleared hne := absurd rfl hne
  queued := .refl _
  granted := .refl _
  accepted := List.nodup_nil
  tickets _ hlink := absurd hlink List.not_mem_nil
  counted _ _ _ hmem := absurd hmem List.not_mem_nil
  inOrder := rfl
  direct before _ _ _ heq := absurd heq.symm (List.append_ne_nil_of_right_ne_nil before (List.cons_ne_nil _ _))

theorem routerInv_step (r : Router H) (e : Event H) (h : RouterInv r) : RouterInv (step e r) := by
  cases e with
  | register route =>
    rw [step]
    split
    · refine ⟨h.capacity, fun s hs ↦ ?_⟩
      obtain hs | hs := List.mem_append.1 hs
      · exact h.routes s hs
      · rw [List.mem_singleton.1 hs]
        exact routeInv_registered _ _
    · exact h
  | attach route handler =>
    exact ⟨h.capacity, forall_modifyFirst h.routes (fun _ hs ↦ hs) fun s _ hs ↦ routeInv_attach hs handler⟩
  | drain route => exact ⟨h.capacity, forall_modifyFirst h.routes (fun _ hs ↦ hs) fun s _ hs ↦ routeInv_drain hs⟩
  | handle route error =>
    exact ⟨h.capacity, forall_modifyFirst h.routes (fun _ hs ↦ hs) fun s _ hs ↦ routeInv_handle hs error⟩
  | deliver route index error =>
    exact ⟨h.capacity, forall_modifyFirst h.routes (fun _ hs ↦ hs) fun s _ hs ↦ routeInv_deliver hs index error⟩
  | dispatch url source =>
    rw [step]
    split
    · exact ⟨h.capacity, fun s hs ↦ (h.routes s hs).mono (Nat.le_succ _)⟩
    · exact ⟨h.capacity, forall_modifyFirst h.routes (fun _ hs ↦ hs.mono (Nat.le_succ _))
        fun s _ hs ↦ routeInv_dispatch hs h.capacity rfl⟩

/-- What has happened at a route stays in its history. -/
def Extends (s s' : RouteState H) : Prop :=
  s'.entry.route = s.entry.route ∧ s.history <+: s'.history

theorem Extends.refl (s : RouteState H) : Extends s s :=
  ⟨rfl, List.prefix_refl _⟩

theorem Extends.trans {s s₁ s' : RouteState H} (h : Extends s s₁) (h' : Extends s₁ s') : Extends s s' :=
  ⟨h'.1.trans h.1, h.2.trans h'.2⟩

theorem extends_attach (handler : H) (s : RouteState H) : Extends s (s.attach handler) := by
  rw [RouteState.attach, RouteEntry.attach]
  split
  · exact .refl s
  · next hresult =>
    split at hresult
    · cases hresult
    · cases hresult
      exact .refl s

theorem extends_drain (s : RouteState H) : Extends s s.drain := by
  rw [RouteState.drain, RouteEntry.takePending]
  split
  · split
    · next hresult =>
      split at hresult
      · cases hresult
        exact ⟨rfl, List.prefix_append _ _⟩
      · cases hresult
    · next hresult =>
      split at hresult
      · cases hresult
      · cases hresult
        exact .refl s
  · exact .refl s

theorem extends_handle (error : Option HandlerError) (s : RouteState H) : Extends s (s.handle error) := by
  rw [RouteState.handle]
  split
  · exact ⟨rfl, List.prefix_append _ _⟩
  · exact .refl s

theorem extends_deliver (index : Nat) (error : Option HandlerError) (s : RouteState H) :
    Extends s (s.deliver index error) := by
  rw [RouteState.deliver]
  split
  · exact ⟨rfl, List.prefix_append _ _⟩
  · exact .refl s

theorem extends_dispatch (capacity : Nat) (request : Request) (s : RouteState H) :
    Extends s (s.dispatch capacity request) ∧
      request ∈ links Happening.acceptedLink (s.dispatch capacity request).history := by
  rw [RouteState.dispatch, RouteEntry.dispatch]
  obtain hnone | ⟨handler, hsome⟩ := Option.eq_none_or_eq_some s.entry.readyHandler
  · rw [hnone]
    refine ⟨⟨rfl, List.prefix_append _ _⟩, ?_⟩
    rw [links_append]
    exact List.mem_append_right _ List.mem_cons_self
  · rw [hsome]
    refine ⟨⟨rfl, List.prefix_append _ _⟩, ?_⟩
    rw [links_append]
    exact List.mem_append_right _ List.mem_cons_self

theorem exists_extends_modifyFirst {p : RouteState H → Bool} {f : RouteState H → RouteState H}
    {routes : List (RouteState H)} (hf : ∀ s, Extends s (f s)) (hs : s ∈ routes) :
    ∃ s' ∈ modifyFirst p f routes, Extends s s' := by
  obtain hmem | hmem : s ∈ modifyFirst p f routes ∨ f s ∈ modifyFirst p f routes := mem_or_mem_modifyFirst hs
  · exact ⟨s, hmem, .refl s⟩
  · exact ⟨f s, hmem, hf s⟩

theorem exists_extends_step (e : Event H) (r : Router H) (hs : s ∈ r.routes) :
    ∃ s' ∈ (step e r).routes, Extends s s' := by
  cases e with
  | register route =>
    rw [step]
    split
    · exact ⟨s, List.mem_append_left _ hs, .refl s⟩
    · exact ⟨s, hs, .refl s⟩
  | attach route handler => exact exists_extends_modifyFirst (extends_attach handler) hs
  | drain route => exact exists_extends_modifyFirst extends_drain hs
  | handle route error => exact exists_extends_modifyFirst (extends_handle error) hs
  | deliver route index error => exact exists_extends_modifyFirst (extends_deliver index error) hs
  | dispatch url source =>
    rw [step]
    split
    · exact ⟨s, hs, .refl s⟩
    · exact exists_extends_modifyFirst (fun s ↦ (extends_dispatch _ _ s).1) hs

theorem exists_extends_run (events : List (Event H)) (r : Router H) (hs : s ∈ r.routes) :
    ∃ s' ∈ (run step r events).routes, Extends s s' := by
  induction events generalizing r s with
  | nil => exact ⟨s, hs, .refl s⟩
  | cons e events ih =>
    obtain ⟨s₁, hs₁, hextends⟩ := exists_extends_step e r hs
    obtain ⟨s', hs', hextends'⟩ := ih (step e r) hs₁
    exact ⟨s', hs', hextends.trans hextends'⟩

theorem step_scheme (e : Event H) (r : Router H) : (step e r).scheme = r.scheme := by
  cases e with
  | register route =>
    rw [step]
    split
    · rfl
    · rfl
  | dispatch url source =>
    rw [step]
    split
    · rfl
    · rfl
  | attach route handler => rfl
  | drain route => rfl
  | handle route error => rfl
  | deliver route index error => rfl

theorem run_scheme (events : List (Event H)) (r : Router H) : (run step r events).scheme = r.scheme := by
  induction events generalizing r with
  | nil => rfl
  | cons e events ih => exact (ih (step e r)).trans (step_scheme e r)

/-- A link that is well formed and has a route is accepted. -/
theorem exists_accepted_step {r : Router H} {url : Url} {source : Source}
    (hvalid : validateStructure r.scheme url = none) (hs : r.routes.find? (isFor url) = some s) :
    ∃ s' ∈ (step (.dispatch url source) r).routes, Extends s s' ∧
      ⟨s.entry.route, source, url, r.next⟩ ∈ links Happening.acceptedLink s'.history := by
  obtain ⟨hextends, haccepted⟩ :=
    extends_dispatch r.pendingCapacityPerRoute ⟨s.entry.route, source, url, r.next⟩ s
  refine ⟨_, ?_, hextends, haccepted⟩
  rw [step, hvalid]
  exact mem_modifyFirst_of_find? (f := fun s : RouteState H ↦
    s.dispatch r.pendingCapacityPerRoute ⟨s.entry.route, source, url, r.next⟩) hs

theorem routerInv_run (scheme : String) (capacity : Nat) (events : List (Event H)) :
    RouterInv (run step (.withPendingCapacity scheme capacity) events) :=
  run_invariant_of_forall routerInv_step
    ⟨le_max_right capacity 1, fun _ hs ↦ absurd hs List.not_mem_nil⟩ events

/-- **No link is lost**, in whatever order the steps of the calls on a router are taken: the links that each route has
accepted are accounted for, and each call whose link is well formed and has a route is among them. -/
theorem no_link_lost (scheme : String) (capacity : Nat) (events : List (Event H)) :
    (∀ s ∈ (run step (.withPendingCapacity scheme capacity) events).routes, NoLinkLost s) ∧
      ∀ before url source after, events = before ++ .dispatch url source :: after →
        validateStructure scheme url = none →
        ∀ s, (run step (.withPendingCapacity scheme capacity) before).routes.find? (isFor url) = some s →
          ∃ s' ∈ (run step (.withPendingCapacity scheme capacity) events).routes,
            s'.entry.route = s.entry.route ∧
            ⟨s.entry.route, source, url, (run step (.withPendingCapacity (H := H) scheme capacity) before).next⟩ ∈
              links Happening.acceptedLink s'.history := by
  refine ⟨fun s hs ↦ ((routerInv_run scheme capacity events).routes s hs).noLinkLost, ?_⟩
  rintro before url source after rfl hvalid s hs
  rw [run_append, run_cons]
  have hscheme : (run step (.withPendingCapacity (H := H) scheme capacity) before).scheme = scheme :=
    run_scheme before _
  obtain ⟨s₁, hs₁, hextends, haccepted⟩ := exists_accepted_step (hscheme.symm ▸ hvalid) hs
  obtain ⟨s', hs', hextends'⟩ := exists_extends_run after _ hs₁
  exact ⟨s', hs', hextends'.1.trans hextends.1, (hextends'.2.filterMap _).subset haccepted⟩

namespace Sample

/-- A route for links such as `nexuspilot://auth/callback`. -/
def callback : Route := ⟨"auth.callback", "auth", "/callback"⟩

def link (code : String) : Url where
  text := "nexuspilot://auth/callback?code=" ++ code
  scheme := "nexuspilot"
  host := some "auth"
  path := "/callback"

def request (ticket : Nat) (code : String) (source : Source) : Request :=
  ⟨callback, source, link code, ticket⟩

/-- Two links are queued where one has room, the queue is drained, and a third link is handed over directly. -/
def crowded : List (Event Unit) :=
  [.register callback, .dispatch (link "1") .launch, .dispatch (link "2") .launch, .attach callback (),
    .drain callback, .handle callback none, .drain callback, .dispatch (link "3") .runtime, .deliver callback 0 none]

/-- The first link is among those that are accounted for. -/
theorem accepted_crowded :
    ∃ s ∈ (run step (.withPendingCapacity "nexuspilot" 1) crowded).routes, NoLinkLost s ∧
      request 0 "1" .launch ∈ links Happening.acceptedLink s.history := by
  obtain ⟨hkept, haccepted⟩ := no_link_lost "nexuspilot" 1 crowded
  obtain ⟨s, hs, -, hlink⟩ :=
    haccepted [.register callback] (link "1") .launch _ rfl (by decide) { entry := { route := callback } } rfl
  exact ⟨s, hs, hkept s hs, hlink⟩

/-- Every link that was queued before a link that is handed over directly has been handed over. -/
def DirectAfterHanded (history : List Happening) : Prop :=
  ∀ before link error after, history = before ++ .delivered link error :: after →
    ∀ earlier ∈ links Happening.queuedLink before, earlier ∈ links Happening.handedLink before

/-- The first link is thrown out of the queue, and is never handed over. -/
theorem not_directAfterHanded_crowded :
    ¬ ∀ s ∈ (run step (.withPendingCapacity "nexuspilot" 1) crowded).routes, DirectAfterHanded s.history := by
  intro h
  let before : List Happening :=
    [.queued (request 0 "1" .launch) false none,
      .queued (request 1 "2" .launch) true (some (request 0 "1" .launch)), .drained (request 1 "2" .launch),
      .attached ⟨1, 0⟩, .granted (request 2 "3" .runtime)]
  have hhistory : (run step (.withPendingCapacity "nexuspilot" 1) crowded).routes.map (·.history) =
      [before ++ [.delivered (request 2 "3" .runtime) none]] := by
    decide
  obtain ⟨s, hs, hsame⟩ := List.mem_map.1 (hhistory ▸ List.mem_cons_self)
  have hhanded := h s hs before _ _ [] hsame (request 0 "1" .launch) (by decide)
  exact absurd hhanded (by decide)

end Sample

end DeepLink
