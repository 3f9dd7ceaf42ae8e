import NexusPilot.Names.Rename

/-!
# Runs of steps on a table of names

A **table** says under which names something stands, and what: one of the originals, known by the name
it had at the start, or something that was added since. A **step** adds a name, moves what stands under
one name to another, or drops a name; it fails when the name it needs is missing or the name it takes is
taken. A move from a name to itself changes nothing and still needs the name, so any statement that only
names a column is such a move.

A renaming is simultaneous and a run of moves is not. `run_moves_iff` says which runs of moves succeed,
in terms of the moves alone: each move takes a name that nothing has or that an earlier move left. Such a
run has the effect of the renaming, whatever the order (`Moved`). `reaches_schedule_iff` is the whole schedule:
additions first, then moves, then drops.
-/

namespace Names

variable {α : Type*} [DecidableEq α]

/-- What stands under a name. -/
inductive Origin (α : Type*)
  | original (name : α)
  | added
  deriving DecidableEq

/-- A table of names. -/
abbrev Table (α : Type*) := α → Option (Origin α)

/-- The table where each of the names stands for itself. -/
def Table.of (names : List α) : Table α :=
  fun k ↦ if k ∈ names then some (.original k) else none

inductive Step (α : Type*)
  | add (name : α)
  | move (old new : α)
  | drop (name : α)
  deriving DecidableEq

/-- One step on a table, if it has the name that the step needs and not the one that it takes. -/
def Step.run : Step α → Table α → Option (Table α)
  | .add n, t => if t n = none then some (Function.update t n (some .added)) else none
  | .move o n, t =>
    if t o ≠ none ∧ (n = o ∨ t n = none) then
      some fun k ↦ if k = n then t o else if k = o then none else t k
    else none
  | .drop n, t => if t n ≠ none then some (Function.update t n none) else none

/-- The steps in order. -/
def run (steps : List (Step α)) (t : Table α) : Option (Table α) :=
  steps.foldlM (fun t step ↦ step.run t) t

@[simp]
theorem run_nil (t : Table α) : run [] t = some t :=
  rfl

theorem run_cons (step : Step α) (steps : List (Step α)) (t : Table α) :
    run (step :: steps) t = (step.run t).bind (run steps) := by
  simp only [run, List.foldlM_cons]
  rfl

theorem run_append (steps more : List (Step α)) (t : Table α) :
    run (steps ++ more) t = (run steps t).bind (run more) := by
  simp only [run, List.foldlM_append]
  rfl

variable {t t' : Table α} {names : List α} {k : α}

/-- A move from a name to itself changes nothing. -/
theorem run_move_self {n : α} (h : t n ≠ none) : (Step.move n n).run t = some t := by
  rw [Step.run, if_pos ⟨h, .inl rfl⟩]
  refine congrArg some (funext fun k ↦ ?_)
  by_cases hk : k = n
  · simp [hk]
  · simp [hk]

/-! ### Additions and drops -/

/-- Steps on distinct names, each of which sets its name to `value` where it may. -/
theorem run_each {f : α → Step α} (may : Option (Origin α) → Prop) {value : Option (Origin α)}
    (hf : ∀ n u, may (u n) → (f n).run u = some (Function.update u n value)) (hnodup : names.Nodup)
    (hmay : ∀ n ∈ names, may (t n)) :
    run (names.map f) t = some fun k ↦ if k ∈ names then value else t k := by
  induction names generalizing t with
  | nil => simp
  | cons n names ih =>
    obtain ⟨hn, hnodup⟩ := List.nodup_cons.1 hnodup
    have hrest : ∀ n' ∈ names, may (Function.update t n value n') := fun n' hn' ↦ by
      have hne : n' ≠ n := fun h ↦ hn (h ▸ hn')
      rw [Function.update_of_ne hne]
      exact hmay n' (List.mem_cons_of_mem _ hn')
    rw [List.map_cons, run_cons, hf n t (hmay n List.mem_cons_self), Option.bind_some, ih hnodup hrest]
    refine congrArg some (funext fun k ↦ ?_)
    by_cases hk : k = n
    · simp [hk]
    · simp [hk]

/-- Adding free and distinct names succeeds. -/
theorem run_add (hnodup : names.Nodup) (hfree : ∀ n ∈ names, t n = none) :
    run (names.map .add) t = some fun k ↦ if k ∈ names then some .added else t k :=
  run_each (· = none) (fun _ _ hu ↦ by rw [Step.run, if_pos hu]) hnodup hfree

/-- A name that has just been added can be used at once. -/
theorem run_add_used {β : Type*} (name : β → α) (used : β → Bool) (items : List β) (t : Table α) :
    run (items.flatMap fun item ↦
        .add (name item) :: if used item then [.move (name item) (name item)] else []) t =
      run ((items.map name).map .add) t := by
  induction items generalizing t with
  | nil => rfl
  | cons item items ih =>
    rw [List.flatMap_cons, List.cons_append, List.map_cons, List.map_cons, run_cons, run_cons]
    cases hadd : (Step.add (name item)).run t with
    | none => rfl
    | some u =>
      have hn : u (name item) ≠ none := by
        simp only [Step.run, Option.ite_none_right_eq_some, Option.some.injEq] at hadd
        rw [← hadd.2, Function.update_self]
        exact Option.some_ne_none _
      rw [Option.bind_some, Option.bind_some, ← ih u]
      cases used item with
      | true => rw [if_pos rfl, List.singleton_append, run_cons, run_move_self hn, Option.bind_some]
      | false => rfl

/-- Dropping distinct names that are there succeeds. -/
theorem run_drop (hnodup : names.Nodup) (hthere : ∀ n ∈ names, t n ≠ none) :
    run (names.map .drop) t = some fun k ↦ if k ∈ names then none else t k :=
  run_each (· ≠ none) (fun _ _ hu ↦ by rw [Step.run, if_pos hu]) hnodup hthere

/-- A run of drops changes nothing but the names it drops. -/
theorem run_drop_frame (h : run (names.map .drop) t = some t') (hk : k ∉ names) : t' k = t k := by
  induction names generalizing t with
  | nil =>
    obtain rfl : t = t' := by simpa using h
    rfl
  | cons n names ih =>
    rw [List.map_cons, run_cons] at h
    obtain ⟨u, hu, hrun⟩ := Option.bind_eq_some_iff.1 h
    rw [ih hrun fun hmem ↦ hk (List.mem_cons_of_mem _ hmem)]
    simp only [Step.run, Option.ite_none_right_eq_some, Option.some.injEq] at hu
    have hne : k ≠ n := fun h ↦ hk (h ▸ List.mem_cons_self)
    rw [← hu.2, Function.update_of_ne hne]

/-- A run of drops only takes away. -/
theorem run_drop_eq_some (h : run (names.map .drop) t = some t') {x : Origin α} (hk : t' k = some x) :
    t k = some x := by
  induction names generalizing t with
  | nil =>
    obtain rfl : t = t' := by simpa using h
    exact hk
  | cons n names ih =>
    rw [List.map_cons, run_cons] at h
    obtain ⟨u, hu, hrun⟩ := Option.bind_eq_some_iff.1 h
    simp only [Step.run, Option.ite_none_right_eq_some, Option.some.injEq] at hu
    have hku := ih hrun
    rw [← hu.2] at hku
    by_cases hkn : k = n
    · simp [hkn] at hku
    · rwa [Function.update_of_ne hkn] at hku

/-! ### Moves -/

/-- After the moves `done` on a table with the given names, the move `m` finds the name that it needs,
and the name that it takes is free: a move that keeps its name needs a name that an earlier move took, or
one of the given names that none left; a move to another name must not take one of the given names
before it was left. -/
def Clear (names : List α) (done : List (α × α)) (m : α × α) : Prop :=
  if m.1 = m.2 then m.1 ∈ newsOf done ∨ m.1 ∈ names ∧ m.1 ∉ oldsOf done
  else m.2 ∈ names → m.2 ∈ oldsOf done

instance (names : List α) (done : List (α × α)) (m : α × α) : Decidable (Clear names done m) :=
  inferInstanceAs (Decidable (ite _ _ _))

/-- Every move of the list is clear when its turn comes. -/
def InOrder (names : List α) (moves : List (α × α)) : Prop :=
  ∀ done m rest, moves = done ++ m :: rest → Clear names done m

theorem inOrder_iff {moves : List (α × α)} :
    InOrder names moves ↔ ∀ i : Fin moves.length, Clear names (moves.take i) (moves.get i) := by
  constructor
  · intro h i
    refine h (moves.take i) (moves.get i) (moves.drop (i + 1)) ?_
    rw [List.get_eq_getElem, List.getElem_cons_drop, List.take_append_drop]
  · rintro h done m rest rfl
    have hclear := h ⟨done.length, by simp⟩
    simpa using hclear

instance (names : List α) (moves : List (α × α)) : Decidable (InOrder names moves) :=
  decidable_of_iff _ inOrder_iff.symm

/-- What moves that are read simultaneously do to a table. -/
structure Moved (moves : List (α × α)) (t t' : Table α) : Prop where
  given : ∀ m ∈ moves, t' m.2 = t m.1
  left : ∀ k ∈ moves.map Prod.fst, k ∉ moves.map Prod.snd → t' k = none
  kept : ∀ k, k ∉ moves.map Prod.fst → k ∉ moves.map Prod.snd → t' k = t k

/-- What holds between two moves of a run: the moves made have the effect of a renaming, and took no
name that is not left. -/
structure Midway (names : List α) (done : List (α × α)) (t t' : Table α) : Prop where
  moved : Moved (effective done) t t'
  vacates : ∀ n ∈ newsOf done, n ∈ names → n ∈ oldsOf done

section Moves

variable {names : List α} {t : Table α} (ht : ∀ k, t k ≠ none ↔ k ∈ names)

include ht

/-- A name stands midway when it was taken, or was there and not left. -/
theorem Midway.ne_none_iff {done : List (α × α)} {u : Table α} (hmid : Midway names done t u)
    (holds : ∀ o ∈ oldsOf done, o ∈ names) (k : α) :
    u k ≠ none ↔ k ∈ newsOf done ∨ k ∈ names ∧ k ∉ oldsOf done := by
  by_cases hnew : k ∈ newsOf done
  · obtain ⟨m, hm, rfl⟩ := List.mem_map.1 hnew
    have hold : t m.1 ≠ none := (ht _).2 (holds _ (List.mem_map_of_mem hm))
    simp [hnew, hmid.moved.given m hm, hold]
  · by_cases hold : k ∈ oldsOf done
    · simp [hnew, hold, hmid.moved.left k hold hnew]
    · rw [hmid.moved.kept k hold hnew, ht]
      simp [hnew, hold]

/-- One move succeeds exactly when it is clear, and what holds midway goes on. -/
theorem Midway.step {done : List (α × α)} {u : Table α} {m : α × α} (hmid : Midway names done t u)
    (holds : ∀ o ∈ oldsOf (done ++ [m]), o ∈ names) (hnodup : (oldsOf (done ++ [m])).Nodup)
    (hnodup' : (newsOf (done ++ [m])).Nodup) :
    if Clear names done m then
      ∃ u', (Step.move m.1 m.2).run u = some u' ∧ Midway names (done ++ [m]) t u'
    else (Step.move m.1 m.2).run u = none := by
  obtain ⟨o, n⟩ := m
  have holds' : ∀ o ∈ oldsOf done, o ∈ names := fun o ho ↦ holds o (by
    simp only [oldsOf, effective_append, List.map_append, List.mem_append] at ho ⊢
    exact .inl ho)
  by_cases hon : o = n
  · subst hon
    have hclear : Clear names done (o, o) ↔ u o ≠ none := by
      rw [hmid.ne_none_iff ht holds' o]
      simp [Clear]
    have heff : effective (done ++ [(o, o)]) = effective done := by simp [effective]
    split_ifs with h
    · refine ⟨u, run_move_self (hclear.1 h), heff ▸ hmid.moved, ?_⟩
      simpa [newsOf, oldsOf, heff] using hmid.vacates
    · simp [Step.run, not_not.1 (mt hclear.2 h)]
  · have heff : effective (done ++ [(o, n)]) = effective done ++ [(o, n)] := by
      simp [effective, hon]
    have ho : o ∉ oldsOf done := by
      simp only [oldsOf, heff, List.map_append] at hnodup
      exact fun h ↦ (List.disjoint_of_nodup_append hnodup h) (by simp)
    have hn : n ∉ newsOf done := by
      simp only [newsOf, heff, List.map_append] at hnodup'
      exact fun h ↦ (List.disjoint_of_nodup_append hnodup' h) (by simp)
    have honames : o ∈ names := holds o (by simp [oldsOf, heff])
    -- nothing has been moved onto the old name, since it has not been left
    have ho' : o ∉ newsOf done := fun h ↦ ho (hmid.vacates o h honames)
    have huo : u o ≠ none := (hmid.ne_none_iff ht holds' o).2 (.inr ⟨honames, ho⟩)
    have hclear : Clear names done (o, n) ↔ u n = none := by
      rw [← not_iff_not, ← ne_eq (u n), hmid.ne_none_iff ht holds' n]
      simp [Clear, hon, hn]
    split_ifs with h
    · refine ⟨_, by rw [Step.run, if_pos ⟨huo, .inr (hclear.1 h)⟩], ?_, ?_⟩
      · rw [heff]
        refine ⟨fun m hm ↦ ?_, fun k hk hk' ↦ ?_, fun k hk hk' ↦ ?_⟩
        · obtain hm | hm := List.mem_append.1 hm
          · have hmn : m.2 ≠ n := fun h ↦ hn (h ▸ List.mem_map_of_mem hm)
            have hmo : m.2 ≠ o := fun h ↦ ho' (h ▸ List.mem_map_of_mem hm)
            simpa [hmn, hmo] using hmid.moved.given m hm
          · obtain rfl : m = (o, n) := by simpa using hm
            simpa using hmid.moved.kept o ho ho'
        · simp only [List.map_append, List.map_cons, List.map_nil, List.mem_append, List.mem_singleton,
            not_or] at hk hk'
          obtain hk | rfl := hk
          · simp [hk'.2, hmid.moved.left k hk hk'.1]
          · simp [hk'.2]
        · simp only [List.map_append, List.map_cons, List.map_nil, List.mem_append, List.mem_singleton,
            not_or] at hk hk'
          simpa [hk.2, hk'.2] using hmid.moved.kept k hk.1 hk'.1
      · intro n' hn' hnames
        simp only [newsOf, oldsOf, heff, List.map_append, List.mem_append] at hn' ⊢
        obtain hn' | hn' := hn'
        · exact .inl (hmid.vacates n' hn' hnames)
        · obtain rfl : n' = n := by simpa using hn'
          simp only [Clear, hon, if_false] at h
          exact .inl (h hnames)
    · have hun : u n ≠ none := mt hclear.2 h
      rw [Step.run, if_neg]
      rintro ⟨-, hno | hfree⟩
      · exact hon hno.symm
      · exact hun hfree

/-- The rest of a run, from midway. -/
theorem Midway.run {done : List (α × α)} (rest : List (α × α)) {u : Table α}
    (hmid : Midway names done t u)
    (holds : ∀ o ∈ oldsOf (done ++ rest), o ∈ names) (hnodup : (oldsOf (done ++ rest)).Nodup)
    (hnodup' : (newsOf (done ++ rest)).Nodup) :
    ((∃ u', run (rest.map fun m ↦ .move m.1 m.2) u = some u') ↔
      ∀ more m after, rest = more ++ m :: after → Clear names (done ++ more) m) ∧
    ∀ u', run (rest.map fun m ↦ .move m.1 m.2) u = some u' → Midway names (done ++ rest) t u' := by
  induction rest generalizing done u with
  | nil =>
    refine ⟨by simp, fun u' hu' ↦ ?_⟩
    obtain rfl : u = u' := by simpa using hu'
    simpa using hmid
  | cons m rest ih =>
    have hassoc : done ++ m :: rest = (done ++ [m]) ++ rest := by simp
    rw [hassoc] at holds hnodup hnodup' ⊢
    have hstep := hmid.step ht (m := m)
      (fun o ho ↦ holds o (by
        simp only [oldsOf, effective_append, List.map_append, List.mem_append] at ho ⊢
        exact .inl ho))
      (by
        simp only [oldsOf, effective_append, List.map_append] at hnodup ⊢
        exact hnodup.of_append_left)
      (by
        simp only [newsOf, effective_append, List.map_append] at hnodup' ⊢
        exact hnodup'.of_append_left)
    have hforall : (∀ more m' after, m :: rest = more ++ m' :: after → Clear names (done ++ more) m') ↔
        Clear names done m ∧
          ∀ more m' after, rest = more ++ m' :: after → Clear names (done ++ [m] ++ more) m' := by
      constructor
      · intro h
        refine ⟨by simpa using h [] m rest rfl, fun more m' after hsplit ↦ ?_⟩
        simpa using h (m :: more) m' after (by rw [hsplit, List.cons_append])
      · rintro ⟨hfirst, hrest⟩ more m' after hsplit
        cases more with
        | nil =>
          obtain ⟨rfl, -⟩ := List.cons.inj hsplit
          simpa using hfirst
        | cons m'' more =>
          obtain ⟨rfl, hsplit'⟩ := List.cons.inj hsplit
          simpa using hrest more m' after hsplit'
    rw [hforall, List.map_cons, run_cons]
    split_ifs at hstep with hclear
    · obtain ⟨u', hu', hmid'⟩ := hstep
      rw [hu', Option.bind_some]
      simpa [hclear] using ih hmid' holds hnodup hnodup'
    · simp [hstep, hclear]

/-- **A run of moves succeeds exactly when they are in order**, and then has the effect of the moves read
simultaneously. -/
theorem run_moves_iff {moves : List (α × α)} (holds : ∀ o ∈ oldsOf moves, o ∈ names)
    (hnodup : (oldsOf moves).Nodup) (hnodup' : (newsOf moves).Nodup) :
    ((∃ t', run (moves.map fun m ↦ .move m.1 m.2) t = some t') ↔ InOrder names moves) ∧
      ∀ t', run (moves.map fun m ↦ .move m.1 m.2) t = some t' → Midway names moves t t' := by
  have hstart : Midway names [] t t :=
    ⟨⟨by simp [effective], by simp [effective], fun k _ _ ↦ rfl⟩, by simp [newsOf, effective]⟩
  simpa [InOrder] using hstart.run ht moves holds hnodup hnodup'

end Moves

/-! ### The whole schedule -/

/-- The steps run from the names `before` without a missing or taken name, end with the names `after`, and
leave each original under the name that `rename` gives it. -/
def Reaches (steps : List (Step α)) (before after : List α) (rename : α → α) : Prop :=
  ∃ t, run steps (.of before) = some t ∧ (∀ k, t k ≠ none ↔ k ∈ after) ∧
    (∀ x ∈ before, rename x ∈ after → t (rename x) = some (.original x)) ∧
    ∀ k x, t k = some (.original x) → k = rename x

section Schedule

variable {r : Renaming α} {before after : List α}

/-- The table once the additions are made. -/
def Renaming.extended (r : Renaming α) (before after : List α) : Table α :=
  fun k ↦ if k ∈ r.added before after then some .added else Table.of before k

theorem run_added (hafter : after.Nodup) :
    run ((r.added before after).map .add) (.of before) = some (r.extended before after) :=
  run_add (hafter.filter _) fun n hn ↦ by simp [Table.of, (Renaming.mem_added.1 hn).2.1]

theorem extended_ne_none (k : α) :
    r.extended before after k ≠ none ↔ k ∈ before ++ r.added before after := by
  by_cases hadded : k ∈ r.added before after
  · simp [Renaming.extended, hadded]
  · by_cases hk : k ∈ before
    · simp [Renaming.extended, Table.of, hadded, hk]
    · simp [Renaming.extended, Table.of, hadded, hk]

variable {k x : α}

theorem extended_of_mem (hk : k ∈ before) :
    r.extended before after k = some (.original k) := by
  have hadded : k ∉ r.added before after := fun h ↦ (Renaming.mem_added.1 h).2.1 hk
  simp [Renaming.extended, Table.of, hadded, hk]

theorem eq_of_extended (h : r.extended before after k = some (.original x)) : k = x := by
  by_cases hadded : k ∈ r.added before after
  · simp [Renaming.extended, hadded] at h
  · by_cases hk : k ∈ before
    · simpa [Renaming.extended, Table.of, hadded, hk] using h
    · simp [Renaming.extended, Table.of, hadded, hk] at h

variable (holds : ∀ o ∈ r.olds, o ∈ before) (hnews : ∀ n ∈ r.news, n ∈ after)

include hnews in
/-- A dropped name is neither moved away nor given. -/
theorem Renaming.apply_of_mem_dropped (h : x ∈ r.dropped before after) :
    r.apply x = x ∧ x ∉ r.olds ∧ x ∉ r.news ∧ x ∈ before ∧ x ∉ after := by
  obtain ⟨hbefore, hafter⟩ := mem_dropped.1 h
  have hold : x ∉ r.olds := fun hold ↦ by
    obtain ⟨n, hmove⟩ := mem_olds.1 hold
    exact not_mem_dropped_of_mem hmove hnews h
  rw [apply_of_not_mem hold] at hafter
  exact ⟨apply_of_not_mem hold, hold, fun hnew ↦ hafter (hnews x hnew), hbefore, hafter⟩

variable {moves : List (α × α)} (hsub : ∀ m ∈ effective moves, m ∈ r.moves)
  (hnodup : (effective moves).Nodup)

include holds hsub hnodup in
/-- The moves of a schedule, run once the additions are made. -/
theorem run_scheduled_moves (after : List α) :
    ((∃ t, run (moves.map fun m ↦ .move m.1 m.2) (r.extended before after) = some t) ↔
      InOrder (before ++ r.added before after) moves) ∧
    ∀ t, run (moves.map fun m ↦ .move m.1 m.2) (r.extended before after) = some t →
      Midway (before ++ r.added before after) moves (r.extended before after) t := by
  refine run_moves_iff extended_ne_none (fun o ho ↦ ?_) ?_ ?_
  · obtain ⟨m, hm, rfl⟩ := List.mem_map.1 ho
    exact List.mem_append_left _ (holds _ (List.mem_map_of_mem (hsub m hm)))
  · refine hnodup.map_on fun m hm m' hm' h ↦ ?_
    exact List.inj_on_of_nodup_map r.olds_nodup (hsub m hm) (hsub m' hm') h
  · refine hnodup.map_on fun m hm m' hm' h ↦ ?_
    exact List.inj_on_of_nodup_map r.news_nodup (hsub m hm) (hsub m' hm') h

include holds hsub in
/-- An original stands under its new name after the moves that are made, if its own is among them. -/
theorem Midway.eq_apply {t : Table α}
    (hmid : Midway (before ++ r.added before after) moves (r.extended before after) t)
    (h : t k = some (.original x)) :
    (x, k) ∈ effective moves ∨ k = x ∧ x ∉ oldsOf moves := by
  by_cases hnew : k ∈ newsOf moves
  · obtain ⟨⟨o, k⟩, hm, rfl⟩ := List.mem_map.1 hnew
    have hto := hmid.moved.given _ hm
    rw [h, extended_of_mem (holds o (Renaming.mem_olds.2 ⟨k, hsub _ hm⟩))] at hto
    obtain rfl : x = o := by simpa using hto
    exact .inl hm
  · by_cases hold : k ∈ oldsOf moves
    · rw [hmid.moved.left k hold hnew] at h
      cases h
    · rw [hmid.moved.kept k hold hnew] at h
      obtain rfl := eq_of_extended h
      exact .inr ⟨rfl, hold⟩

/-- The steps of a schedule: additions, moves and drops, each name dropped in its clean form. -/
def schedule (r : Renaming α) (before after : List α) (moves : List (α × α)) (clean : α → α) :
    List (Step α) :=
  (r.added before after).map .add ++ moves.map (fun m ↦ .move m.1 m.2) ++
    (r.dropped before after).map fun x ↦ .drop (clean x)

/-- A schedule runs its moves, then its drops. -/
theorem run_schedule {clean : α → α} (hafter : after.Nodup) :
    run (schedule r before after moves clean) (.of before) =
      (run (moves.map fun m ↦ .move m.1 m.2) (r.extended before after)).bind
        (run (((r.dropped before after).map clean).map .drop)) := by
  rw [schedule, List.append_assoc, run_append, run_added hafter, Option.bind_some, run_append,
    List.map_map]
  rfl

variable {clean : α → α}

include holds hnews hsub hnodup in
/-- What a schedule that reaches its names has done. -/
theorem of_reaches_schedule (hclean : ∀ x, clean (clean x) = clean x) (hafter : after.Nodup)
    (h : Reaches (schedule r before after moves clean) before after r.apply) :
    (∀ m ∈ r.moves, m ∈ effective moves) ∧ InOrder (before ++ r.added before after) moves ∧
      r.Refills after ∧ ∀ x ∈ r.dropped before after, clean x = x := by
  obtain ⟨horder, hmidway⟩ := run_scheduled_moves holds hsub hnodup after
  obtain ⟨t, hrun, hnames, hplaced, -⟩ := h
  rw [run_schedule hafter] at hrun
  obtain ⟨u, hu, hdrop⟩ := Option.bind_eq_some_iff.1 hrun
  have hmid := hmidway u hu
  have hall : ∀ m ∈ r.moves, m ∈ effective moves := by
    rintro ⟨o, n⟩ hm
    have hn : r.apply o = n := Renaming.apply_of_mem hm
    have htn := hplaced o (holds o (Renaming.mem_olds.2 ⟨n, hm⟩))
      (hn ▸ hnews n (Renaming.mem_news.2 ⟨o, hm⟩))
    rw [hn] at htn
    obtain hmade | ⟨hno, -⟩ := hmid.eq_apply holds hsub (run_drop_eq_some hdrop htn)
    · exact hmade
    · exact absurd hno.symm (r.ne _ hm)
  refine ⟨hall, horder.1 ⟨u, hu⟩, fun o ho hoafter ↦ ?_, fun x hx ↦ ?_⟩
  · -- a name that is left and not given stands empty at the end
    by_contra hnew
    obtain ⟨n, hm⟩ := Renaming.mem_olds.1 ho
    have hold : o ∈ oldsOf moves := List.mem_map_of_mem (f := Prod.fst) (hall _ hm)
    have hempty : u o = none := hmid.moved.left o hold fun h ↦ by
      obtain ⟨⟨o', o⟩, hm', rfl⟩ := List.mem_map.1 h
      exact hnew (Renaming.mem_news.2 ⟨o', hsub _ hm'⟩)
    obtain ⟨x, hto⟩ := Option.ne_none_iff_exists'.1 ((hnames o).2 hoafter)
    rw [run_drop_eq_some hdrop hto] at hempty
    cases hempty
  · -- a name that is not clean is never dropped, and nothing else removes it
    obtain ⟨-, hold, hnew, hxbefore, hxafter⟩ := Renaming.apply_of_mem_dropped hnews hx
    by_contra hdirty
    have hux : u x = some (.original x) := by
      rw [hmid.moved.kept x, extended_of_mem hxbefore]
      · intro h
        obtain ⟨m, hm, rfl⟩ := List.mem_map.1 h
        exact hold (List.mem_map_of_mem (hsub m hm))
      · intro h
        obtain ⟨m, hm, rfl⟩ := List.mem_map.1 h
        exact hnew (List.mem_map_of_mem (hsub m hm))
    have hframe : t x = u x := run_drop_frame hdrop fun h ↦ by
      obtain ⟨x', -, hx'⟩ := List.mem_map.1 h
      exact hdirty (by rw [← hx', hclean])
    refine hxafter ((hnames x).1 ?_)
    rw [hframe, hux]
    exact Option.some_ne_none _

include holds hnews hsub hnodup in
/-- A schedule that makes every move in order, refills what it leaves and drops clean names reaches its
names. -/
theorem reaches_schedule (hbefore : before.Nodup) (hafter : after.Nodup)
    (hall : ∀ m ∈ r.moves, m ∈ effective moves)
    (hinorder : InOrder (before ++ r.added before after) moves) (hrefills : r.Refills after)
    (hcleanAll : ∀ x ∈ r.dropped before after, clean x = x) :
    Reaches (schedule r before after moves clean) before after r.apply := by
  obtain ⟨horder, hmidway⟩ := run_scheduled_moves holds hsub hnodup after
  obtain ⟨u, hu⟩ := horder.2 hinorder
  have hmid := hmidway u hu
  have hmem : ∀ m, m ∈ effective moves ↔ m ∈ r.moves := fun m ↦ ⟨hsub m, hall m⟩
  have holdsOf : ∀ k, k ∈ oldsOf moves ↔ k ∈ r.olds := fun k ↦ by
    simp [oldsOf, Renaming.olds, hmem]
  have hnewsOf : ∀ k, k ∈ newsOf moves ↔ k ∈ r.news := fun k ↦ by
    simp [newsOf, Renaming.news, hmem]
  have hne : ∀ k, u k ≠ none ↔ k ∈ r.news ∨ k ∈ before ++ r.added before after ∧ k ∉ r.olds := by
    intro k
    rw [hmid.ne_none_iff extended_ne_none, hnewsOf, holdsOf]
    exact fun o ho ↦ List.mem_append_left _ (holds o ((holdsOf o).1 ho))
  have hcleaned : (r.dropped before after).map clean = r.dropped before after :=
    (List.map_congr_left hcleanAll).trans (List.map_id _)
  have hthere : ∀ x ∈ r.dropped before after, u x ≠ none := fun x hx ↦ by
    obtain ⟨-, hold, -, hxbefore, -⟩ := Renaming.apply_of_mem_dropped hnews hx
    exact (hne x).2 (.inr ⟨List.mem_append_left _ hxbefore, hold⟩)
  refine ⟨fun k ↦ if k ∈ r.dropped before after then none else u k, ?_, fun k ↦ ?_, ?_, ?_⟩
  · rw [run_schedule hafter, hu, Option.bind_some, hcleaned]
    exact run_drop (hbefore.filter _) hthere
  · by_cases hdropped : k ∈ r.dropped before after
    · simpa [hdropped] using (Renaming.apply_of_mem_dropped hnews hdropped).2.2.2.2
    · simp only [hdropped, if_false, hne]
      constructor
      · rintro (hnew | ⟨hk, hold⟩)
        · exact hnews k hnew
        · obtain hk | hk := List.mem_append.1 hk
          · by_contra hkafter
            exact hdropped (Renaming.mem_dropped.2 ⟨hk, by rwa [Renaming.apply_of_not_mem hold]⟩)
          · exact (Renaming.mem_added.1 hk).1
      · intro hk
        by_cases hnew : k ∈ r.news
        · exact .inl hnew
        · refine .inr ⟨List.mem_append.2 ?_, fun hold ↦ hnew (hrefills k hold hk)⟩
          by_cases hkbefore : k ∈ before
          · exact .inl hkbefore
          · exact .inr (Renaming.mem_added.2 ⟨hk, hkbefore, hnew⟩)
  · intro x hx hxafter
    have hkept : r.apply x ∉ r.dropped before after := fun h ↦
      (Renaming.apply_of_mem_dropped hnews h).2.2.2.2 hxafter
    show (if r.apply x ∈ _ then none else u (r.apply x)) = _
    rw [if_neg hkept]
    by_cases hold : x ∈ r.olds
    · obtain ⟨n, hm⟩ := Renaming.mem_olds.1 hold
      rw [Renaming.apply_of_mem hm]
      exact (hmid.moved.given _ (hall _ hm)).trans (extended_of_mem hx)
    · rw [Renaming.apply_of_not_mem hold, hmid.moved.kept x, extended_of_mem hx]
      · exact fun h ↦ hold ((holdsOf x).1 h)
      · exact fun h ↦ hold ((holdsOf x).1 (hmid.vacates x h (List.mem_append_left _ hx)))
  · intro k x h
    by_cases hdropped : k ∈ r.dropped before after
    · simp [hdropped] at h
    · simp only [hdropped, if_false] at h
      obtain hm | ⟨rfl, hold⟩ := hmid.eq_apply holds hsub h
      · exact (Renaming.apply_of_mem (hsub _ hm)).symm
      · exact (Renaming.apply_of_not_mem fun h ↦ hold ((holdsOf k).2 h)).symm

include holds hnews hsub hnodup in
/-- **A schedule of additions, moves and drops reaches its names exactly when** it makes every move of the
renaming, in an order in which each finds its names, refills the names it leaves behind and drops each
name under that name. -/
theorem reaches_schedule_iff (hclean : ∀ x, clean (clean x) = clean x) (hbefore : before.Nodup)
    (hafter : after.Nodup) :
    Reaches (schedule r before after moves clean) before after r.apply ↔
      (∀ m ∈ r.moves, m ∈ effective moves) ∧ InOrder (before ++ r.added before after) moves ∧
        r.Refills after ∧ ∀ x ∈ r.dropped before after, clean x = x :=
  ⟨of_reaches_schedule holds hnews hsub hnodup hclean hafter, fun ⟨hall, hinorder, hrefills, hcleanAll⟩ ↦
    reaches_schedule holds hnews hsub hnodup hbefore hafter hall hinorder hrefills hcleanAll⟩

end Schedule

end Names
