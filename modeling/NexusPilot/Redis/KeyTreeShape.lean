import Mathlib.Data.List.Infix
import Mathlib.Data.List.Nodup
import Mathlib.Data.List.Perm.Basic
import Mathlib.Data.String.Basic
import NexusPilot.Redis.KeyTree
import NexusPilot.Text.CommaList

/-!
# The shape of the key tree

What `build_key_tree_result` makes of distinct keys. A tree is read as its leaves, each with the prefixes above it
(`leaves`); each key adds one leaf, under the beginnings of the key that end in a colon (`leaves_insertSegments`). The
counts and the prefixes of the nodes are a property of each level (`Grown`): below a prefix stand the keys that begin with
it, so that a level says of its own keys what the tree says of all of them.
-/

namespace Redis

/-! ### Leaves, prefixes and ids -/

mutual

/-- The leaves at or below a node: the prefixes that lead to one, and its key. -/
def leavesOf : KeyTreeNode → List (List String × String)
  | ⟨_, _, _, prefix_, _, key, _, _, children⟩ =>
    match prefix_ with
    | none => [([], key.getD "")]
    | some text => (leaves children).map fun leaf ↦ (text :: leaf.1, leaf.2)

/-- The leaves of a tree. -/
def leaves : List KeyTreeNode → List (List String × String)
  | [] => []
  | node :: nodes => leavesOf node ++ leaves nodes

end

mutual

/-- The ids at or below a node. -/
def idsOf : KeyTreeNode → List String
  | ⟨id, _, _, _, _, _, _, _, children⟩ => id :: ids children

/-- The ids of a tree. -/
def ids : List KeyTreeNode → List String
  | [] => []
  | node :: nodes => idsOf node ++ ids nodes

end

mutual

/-- The prefixes at or below a node. -/
def prefixesOf : KeyTreeNode → List String
  | ⟨_, _, _, prefix_, _, _, _, _, children⟩ => prefix_.toList ++ prefixes children

/-- The prefixes of a tree. -/
def prefixes : List KeyTreeNode → List String
  | [] => []
  | node :: nodes => prefixesOf node ++ prefixes nodes

end

/-- The proper beginnings of a key that end in a colon, the shortest first. -/
def properPrefixes (key : String) : List String :=
  (key.toList.inits.filter (·.getLast? = some ':')).map String.ofList

/-- The key begins with the text. -/
def startsWith (text : String) (key : String) : Bool :=
  text.toList.isPrefixOf key.toList

section Shape

variable {node : KeyTreeNode} {nodes nodes' : List KeyTreeNode} {text : String}

theorem leavesOf_of_some (h : node.prefix_ = some text) :
    leavesOf node = (leaves node.children).map fun leaf ↦ (text :: leaf.1, leaf.2) := by
  cases node
  cases h
  rw [leavesOf]

theorem leavesOf_of_none (h : node.prefix_ = none) : leavesOf node = [([], node.key.getD "")] := by
  cases node
  cases h
  rw [leavesOf]

theorem idsOf_eq (node : KeyTreeNode) : idsOf node = node.id :: ids node.children := by
  cases node
  rw [idsOf]

theorem prefixesOf_eq (node : KeyTreeNode) : prefixesOf node = node.prefix_.toList ++ prefixes node.children := by
  cases node
  rw [prefixesOf]

theorem leaves_eq_flatMap (nodes : List KeyTreeNode) : leaves nodes = nodes.flatMap leavesOf := by
  induction nodes with
  | nil => rfl
  | cons node nodes ih => rw [leaves, ih, List.flatMap_cons]

theorem ids_eq_flatMap (nodes : List KeyTreeNode) : ids nodes = nodes.flatMap idsOf := by
  induction nodes with
  | nil => rfl
  | cons node nodes ih => rw [ids, ih, List.flatMap_cons]

theorem prefixes_eq_flatMap (nodes : List KeyTreeNode) : prefixes nodes = nodes.flatMap prefixesOf := by
  induction nodes with
  | nil => rfl
  | cons node nodes ih => rw [prefixes, ih, List.flatMap_cons]

theorem leaves_perm (h : nodes.Perm nodes') : (leaves nodes).Perm (leaves nodes') := by
  rw [leaves_eq_flatMap, leaves_eq_flatMap]
  exact h.flatMap_right _

/-! ### One key -/

/-- The prefixes that the loop goes through, from the prefix that has been read. -/
def pathOf : List Char → List (List Char) → List String
  | _, [] => []
  | _, [_] => []
  | read, segment :: next :: rest =>
    String.ofList (read ++ segment ++ [':']) :: pathOf (read ++ segment ++ [':']) (next :: rest)

/-- A node that a key passes. -/
def passed (node : KeyTreeNode) (children : List KeyTreeNode) : KeyTreeNode :=
  { node with
    keyCount := node.keyCount + 1
    children := children }

variable {α : Type} {segments : List (List Char)} {segment : List Char}

theorem modify_concat (l : List α) (a : α) (f : α → α) : (l ++ [a]).modify l.length f = l ++ [f a] := by
  induction l with
  | nil => rfl
  | cons b l ih => rw [List.length_cons, List.cons_append, List.modify_succ_cons, ih, List.cons_append]

/-- **One segment.** The key passes the node of the prefix, which is there or is new. -/
theorem insertSegments_cons (key : String) (valueType : Option String) (read segment next : List Char)
    (rest : List (List Char)) (siblings : List KeyTreeNode) :
    (∃ before node after, siblings = before ++ node :: after ∧
        node.prefix_ = some (String.ofList (read ++ segment ++ [':'])) ∧
        insertSegments key valueType read (segment :: next :: rest) siblings =
          before ++ passed node (insertSegments key valueType (read ++ segment ++ [':']) (next :: rest) node.children) ::
            after) ∨
      (∀ node ∈ siblings, node.prefix_ ≠ some (String.ofList (read ++ segment ++ [':']))) ∧
        insertSegments key valueType read (segment :: next :: rest) siblings =
          siblings ++ [passed (.ofPrefix (String.ofList (read ++ segment ++ [':']))
              (keySegmentLabel (String.ofList segment)))
            (insertSegments key valueType (read ++ segment ++ [':']) (next :: rest) [])] := by
  rw [insertSegments]
  simp only [getOrCreatePrefix]
  split
  · next i hfound =>
    obtain ⟨hi, hstarted, -⟩ := List.findIdx?_eq_some_iff_getElem.1 hfound
    refine .inl ⟨siblings.take i, siblings[i], siblings.drop (i + 1), ?_, beq_iff_eq.1 hstarted, ?_⟩
    · rw [← List.drop_eq_getElem_cons hi, List.take_append_drop]
    · exact List.modify_eq_take_cons_drop hi
  · next hnone =>
    refine .inr ⟨fun node hnode hstarted ↦ ?_, ?_⟩
    · have habsent := List.findIdx?_eq_none_iff.1 hnone node hnode
      rw [hstarted, beq_self_eq_true] at habsent
      cases habsent
    · exact modify_concat _ _ _

theorem leavesOf_passed_of_some {children : List KeyTreeNode} (h : node.prefix_ = some text) :
    leavesOf (passed node children) = (leaves children).map fun leaf ↦ (text :: leaf.1, leaf.2) :=
  leavesOf_of_some h

theorem perm_grow {front inner inner' back : List α} {a : α} (h : inner'.Perm (inner ++ [a])) :
    (front ++ (inner' ++ back)).Perm (front ++ (inner ++ back) ++ [a]) := by
  refine ((h.append_right back).append_left front).trans ?_
  rw [List.append_assoc inner, List.append_assoc front, List.append_assoc inner]
  exact (List.perm_append_comm.append_left _).append_left _

/-- **One key** adds its leaf, under the prefixes that the loop goes through. -/
theorem leaves_insertSegments (key : String) (valueType : Option String) {read : List Char}
    (hne : segments ≠ []) (nodes : List KeyTreeNode) :
    (leaves (insertSegments key valueType read segments nodes)).Perm
      (leaves nodes ++ [(pathOf read segments, key)]) := by
  induction segments generalizing read nodes with
  | nil => exact absurd rfl hne
  | cons segment segments ih =>
    cases segments with
    | nil =>
      rw [insertSegments, leaves_eq_flatMap, List.flatMap_append, ← leaves_eq_flatMap, List.flatMap_singleton,
        leavesOf_of_none rfl]
      rfl
    | cons next rest =>
      have hinner := fun children ↦ @ih (read ++ segment ++ [':']) (List.cons_ne_nil next rest) children
      obtain ⟨before, node, after, rfl, hstarted, hinsert⟩ | ⟨-, hinsert⟩ :=
        insertSegments_cons key valueType read segment next rest nodes
      · rw [hinsert, leaves_eq_flatMap, leaves_eq_flatMap, List.flatMap_append, List.flatMap_append, List.flatMap_cons,
          List.flatMap_cons, leavesOf_passed_of_some hstarted, leavesOf_of_some hstarted]
        have hmap := (hinner node.children).map fun leaf ↦
          (String.ofList (read ++ segment ++ [':']) :: leaf.1, leaf.2)
        rw [List.map_append] at hmap
        exact perm_grow hmap
      · rw [hinsert, leaves_eq_flatMap, List.flatMap_append, ← leaves_eq_flatMap, List.flatMap_singleton,
          leavesOf_passed_of_some rfl]
        refine List.Perm.append_left _ ?_
        have hmap := (hinner []).map fun leaf ↦ (String.ofList (read ++ segment ++ [':']) :: leaf.1, leaf.2)
        exact hmap

/-! ### Beginnings of a key -/

theorem filter_inits_of_notMem (h : ':' ∉ segment) :
    segment.inits.filter (·.getLast? = some ':') = [] := by
  refine List.filter_eq_nil_iff.2 fun start hstart hlast ↦ ?_
  rw [decide_eq_true_eq] at hlast
  exact h (((List.mem_inits _ _).1 hstart).subset (List.mem_of_getLast? hlast))

theorem filter_inits_append {rest : List Char} (h : ':' ∉ segment) :
    (segment ++ ':' :: rest).inits.filter (·.getLast? = some ':') =
      (segment ++ [':']) :: (rest.inits.filter (·.getLast? = some ':')).map ((segment ++ [':']) ++ ·) := by
  rw [List.inits_append, List.filter_append, filter_inits_of_notMem h, List.nil_append, List.inits_cons, List.tail_cons,
    List.map_map]
  cases rest with
  | nil => simp
  | cons c rest =>
    rw [List.inits_cons, List.map_cons, List.map_map]
    show List.filter _ ((segment ++ [':']) :: _) = _
    rw [List.filter_cons, if_pos (by simp), List.filter_cons, if_neg (by simp), List.filter_map, List.filter_map,
      List.map_map]
    simp [Function.comp_def]

/-- The prefixes of the loop are the beginnings of the key that end in a colon. -/
theorem pathOf_eq {read : List Char} (h : ∀ segment ∈ segments, ':' ∉ segment) :
    pathOf read segments =
      (([':'].intercalate segments).inits.filter (·.getLast? = some ':')).map (String.ofList <| read ++ ·) := by
  induction segments generalizing read with
  | nil => rfl
  | cons segment segments ih =>
    have hsegment := h segment List.mem_cons_self
    cases segments with
    | nil => rw [List.intercalate_singleton, filter_inits_of_notMem hsegment]; rfl
    | cons next rest =>
      have hrest := @ih (read ++ segment ++ [':']) fun other hother ↦ h other (List.mem_cons_of_mem _ hother)
      have hsplit : [':'].intercalate (segment :: next :: rest) = segment ++ ':' :: [':'].intercalate (next :: rest) := by
        rw [List.intercalate_cons_cons, List.append_assoc, List.singleton_append]
      rw [pathOf, hrest, hsplit, filter_inits_append hsegment, List.map_cons, List.map_map]
      simp only [List.append_assoc, Function.comp_def]

/-! ### Levels -/

/-- A node of a key. -/
structure IsKeyNode (keys : List String) (node : KeyTreeNode) : Prop where
  hkind : node.nodeType = .key
  hstarted : node.prefix_ = none
  hchildren : node.children = []
  hkey : ∃ key ∈ keys, node.key = some key ∧ node.id = "key:" ++ key

/-- A node of a prefix: the characters before it, and a segment. -/
structure IsPrefixNode (read : List Char) (keys : List String) (node : KeyTreeNode) : Prop where
  hkind : node.nodeType = .prefix_
  hstarted : ∃ segment, ':' ∉ segment ∧ node.prefix_ = some (String.ofList (read ++ segment ++ [':']))
  hid : ∀ text, node.prefix_ = some text → node.id = "prefix:" ++ text
  hcount : ∀ text, node.prefix_ = some text → node.keyCount = keys.countP (startsWith text)
  hleaves : (leaves node.children).length = node.keyCount

/-- **A level of the tree**, behind the characters that have been read, for the keys that begin with them. Below a prefix
stands the level of the keys that begin with it. -/
inductive Grown : List Char → List String → List KeyTreeNode → Prop
  | mk {read : List Char} {keys : List String} {nodes : List KeyTreeNode}
    (hkinds : ∀ node ∈ nodes, IsKeyNode keys node ∨ IsPrefixNode read keys node)
    (hdistinct : (nodes.filterMap (·.prefix_)).Nodup)
    (hreached : ∀ key ∈ keys, ∀ segment, ':' ∉ segment → read ++ segment ++ [':'] <+: key.toList →
      ∃ node ∈ nodes, node.prefix_ = some (String.ofList (read ++ segment ++ [':'])))
    (hinner : ∀ node ∈ nodes, ∀ text, node.prefix_ = some text →
      Grown text.toList (keys.filter (startsWith text)) node.children) : Grown read keys nodes

theorem startsWith_iff {key : String} : startsWith text key = true ↔ text.toList <+: key.toList :=
  List.isPrefixOf_iff_prefix

theorem startsWith_ofList {start : List Char} {key : String} :
    startsWith (String.ofList start) key = true ↔ start <+: key.toList := by
  rw [startsWith_iff, String.toList_ofList]

theorem takeWhile_segment {segment rest : List Char} (h : ':' ∉ segment) :
    (segment ++ ':' :: rest).takeWhile (· ≠ ':') = segment := by
  rw [List.takeWhile_append_of_pos fun c hc ↦ decide_eq_true (ne_of_mem_of_not_mem hc h),
    List.takeWhile_cons_of_neg (by simp), List.append_nil]

/-- **Which prefixes a key begins with** behind the characters that have been read: that of its next segment, if it is
not the last one. -/
theorem startsWith_iff_segments {read : List Char} {segments : List (List Char)} {key : String}
    (hsegments : ∀ segment ∈ segments, ':' ∉ segment) (hkey : read ++ [':'].intercalate segments = key.toList)
    {segment : List Char} (hsegment : ':' ∉ segment) :
    startsWith (String.ofList (read ++ segment ++ [':'])) key = true ↔
      ∃ next rest, segments = segment :: next :: rest := by
  rw [startsWith_ofList, ← hkey, List.append_assoc, List.prefix_append_right_inj]
  constructor
  · rintro ⟨behind, heq⟩
    rw [List.append_assoc, List.singleton_append] at heq
    match segments with
    | [] => simp at heq
    | [last] =>
      rw [List.intercalate_singleton] at heq
      exact absurd (by rw [← heq]; simp) (hsegments last List.mem_cons_self)
    | first :: next :: rest =>
      have hsplit : [':'].intercalate (first :: next :: rest) = first ++ ':' :: [':'].intercalate (next :: rest) := by
        rw [List.intercalate_cons_cons, List.append_assoc, List.singleton_append]
      rw [hsplit] at heq
      have hfirst := @takeWhile_segment segment behind hsegment
      rw [heq, takeWhile_segment (hsegments first List.mem_cons_self)] at hfirst
      rw [hfirst]
      exact ⟨next, rest, rfl⟩
  · rintro ⟨next, rest, rfl⟩
    rw [List.intercalate_cons_cons]
    exact List.prefix_append _ _

variable {read : List Char} {keys : List String}

theorem grown_nil (read : List Char) : Grown read [] [] :=
  .mk nofun List.nodup_nil nofun nofun

theorem IsKeyNode.mono (h : IsKeyNode keys node) (key : String) : IsKeyNode (keys ++ [key]) node := by
  obtain ⟨other, hother, hnode⟩ := h.hkey
  exact ⟨h.hkind, h.hstarted, h.hchildren, other, List.mem_append_left _ hother, hnode⟩

theorem filter_of_not_startsWith {key : String} (h : startsWith text key = false) :
    (keys ++ [key]).filter (startsWith text) = keys.filter (startsWith text) := by
  rw [List.filter_append, List.filter_singleton, h]
  exact List.append_nil _

theorem filter_of_startsWith {key : String} (h : startsWith text key = true) :
    (keys ++ [key]).filter (startsWith text) = keys.filter (startsWith text) ++ [key] := by
  rw [List.filter_append, List.filter_singleton, h]
  rfl

/-- A prefix that the key does not begin with keeps its count. -/
theorem IsPrefixNode.mono (h : IsPrefixNode read keys node) {key : String}
    (hother : ∀ text, node.prefix_ = some text → startsWith text key = false) :
    IsPrefixNode read (keys ++ [key]) node := by
  refine ⟨h.hkind, h.hstarted, h.hid, fun text htext ↦ ?_, h.hleaves⟩
  rw [h.hcount text htext, List.countP_eq_length_filter, List.countP_eq_length_filter,
    filter_of_not_startsWith (hother text htext)]

/-- A prefix that the key begins with counts it. -/
theorem IsPrefixNode.passed (h : IsPrefixNode read keys node) {key : String} {children : List KeyTreeNode}
    (htext : node.prefix_ = some text) (hkey : startsWith text key = true)
    (hchildren : (leaves children).length = (leaves node.children).length + 1) :
    IsPrefixNode read (keys ++ [key]) (Redis.passed node children) := by
  refine ⟨h.hkind, h.hstarted, h.hid, fun text' htext' ↦ ?_, ?_⟩
  · obtain rfl := Option.some.inj (htext.symm.trans htext')
    show node.keyCount + 1 = _
    rw [h.hcount text htext, List.countP_eq_length_filter, List.countP_eq_length_filter, filter_of_startsWith hkey,
      List.length_append, List.length_singleton]
  · show (leaves children).length = node.keyCount + 1
    rw [hchildren, h.hleaves]

theorem length_leaves_insertSegments (key : String) (valueType : Option String) {read : List Char}
    (hne : segments ≠ []) (nodes : List KeyTreeNode) :
    (leaves (insertSegments key valueType read segments nodes)).length = (leaves nodes).length + 1 := by
  rw [(leaves_insertSegments key valueType hne nodes).length_eq, List.length_append, List.length_singleton]

/-- **One key** keeps the levels it passes. -/
theorem Grown.insertSegments {key : String} {valueType : Option String} {segments : List (List Char)}
    (h : Grown read keys nodes) (hsegments : ∀ segment ∈ segments, ':' ∉ segment) (hne : segments ≠ [])
    (hkey : read ++ [':'].intercalate segments = key.toList) :
    Grown read (keys ++ [key]) (insertSegments key valueType read segments nodes) := by
  induction segments generalizing read keys nodes with
  | nil => exact absurd rfl hne
  | cons segment segments ih =>
    have hstarts {segment' : List Char} := @startsWith_iff_segments _ _ _ hsegments hkey segment'
    obtain ⟨hkinds, hdistinct, hreached, hinner⟩ := h
    -- The nodes that the key does not pass stay as they are.
    have hother {node : KeyTreeNode} (hnode : node ∈ nodes)
        (hpast : ∀ text, node.prefix_ = some text → startsWith text key = false) :
        (IsKeyNode (keys ++ [key]) node ∨ IsPrefixNode read (keys ++ [key]) node) ∧
          ∀ text, node.prefix_ = some text →
            Grown text.toList ((keys ++ [key]).filter (startsWith text)) node.children := by
      refine ⟨(hkinds node hnode).imp (·.mono key) (·.mono hpast), fun text htext ↦ ?_⟩
      rw [filter_of_not_startsWith (hpast text htext)]
      exact hinner node hnode text htext
    cases segments with
    | nil =>
      have hpast (text : String) (segment' : List Char) (hsegment' : ':' ∉ segment')
          (htext : text = String.ofList (read ++ segment' ++ [':'])) : startsWith text key = false := by
        refine Bool.eq_false_iff.2 fun hstart ↦ ?_
        rw [htext] at hstart
        obtain ⟨_, _, hcontra⟩ := (hstarts hsegment').1 hstart
        cases hcontra
      have hall {node : KeyTreeNode} (hnode : node ∈ nodes) :
          ∀ text, node.prefix_ = some text → startsWith text key = false := by
        intro text htext
        obtain hkind | hkind := hkinds node hnode
        · rw [hkind.hstarted] at htext
          cases htext
        · obtain ⟨segment', hsegment', hstarted⟩ := hkind.hstarted
          exact hpast text segment' hsegment' (Option.some.inj (htext.symm.trans hstarted))
      rw [Redis.insertSegments]
      refine .mk ?_ ?_ ?_ ?_
      · intro node hnode
        obtain hnode | hnode := List.mem_append.1 hnode
        · exact (hother hnode (hall hnode)).1
        · rw [List.mem_singleton.1 hnode]
          exact .inl ⟨rfl, rfl, rfl, key, List.mem_append_right _ List.mem_cons_self, rfl, rfl⟩
      · rw [List.filterMap_append]
        simpa [KeyTreeNode.ofKey] using hdistinct
      · intro key' hkey' segment' hsegment' hstart
        obtain hkey' | hkey' := List.mem_append.1 hkey'
        · obtain ⟨node, hnode, hstarted⟩ := hreached key' hkey' segment' hsegment' hstart
          exact ⟨node, List.mem_append_left _ hnode, hstarted⟩
        · rw [List.mem_singleton.1 hkey', ← startsWith_ofList, hpast _ segment' hsegment' rfl] at hstart
          cases hstart
      · intro node hnode text htext
        obtain hnode | hnode := List.mem_append.1 hnode
        · exact (hother hnode (hall hnode)).2 text htext
        · rw [List.mem_singleton.1 hnode] at htext
          cases htext
    | cons next rest =>
      have hsegment := hsegments segment List.mem_cons_self
      have hstart : startsWith (String.ofList (read ++ segment ++ [':'])) key = true :=
        (hstarts hsegment).2 ⟨next, rest, rfl⟩
      have hbehind : (read ++ segment ++ [':']) ++ [':'].intercalate (next :: rest) = key.toList := by
        rw [← hkey, List.intercalate_cons_cons, List.append_assoc, List.append_assoc, List.append_assoc]
      have hstep {keys : List String} {nodes : List KeyTreeNode}
          (hgrown : Grown (String.ofList (read ++ segment ++ [':'])).toList keys nodes) :
          Grown (String.ofList (read ++ segment ++ [':'])).toList (keys ++ [key])
            (Redis.insertSegments key valueType (read ++ segment ++ [':']) (next :: rest) nodes) := by
        rw [String.toList_ofList] at hgrown ⊢
        exact ih hgrown (fun other hother ↦ hsegments other (List.mem_cons_of_mem _ hother)) (List.cons_ne_nil _ _) hbehind
      -- A prefix that the key begins with is the one of its next segment.
      have hpast {node : KeyTreeNode} (hnode : node ∈ nodes)
          (hne : node.prefix_ ≠ some (String.ofList (read ++ segment ++ [':']))) :
          ∀ text, node.prefix_ = some text → startsWith text key = false := by
        intro text htext
        refine Bool.eq_false_iff.2 fun hstart ↦ ?_
        obtain hkind | hkind := hkinds node hnode
        · rw [hkind.hstarted] at htext
          cases htext
        · obtain ⟨segment', hsegment', hstarted⟩ := hkind.hstarted
          rw [Option.some.inj (htext.symm.trans hstarted)] at hstart
          obtain ⟨_, _, hsame⟩ := (hstarts hsegment').1 hstart
          rw [← (List.cons.inj hsame).1] at hstarted
          exact hne hstarted
      obtain ⟨before, node, after, rfl, hstarted, hinsert⟩ | ⟨habsent, hinsert⟩ :=
        insertSegments_cons key valueType read segment next rest nodes
      · have hne : ∀ other ∈ before ++ after, other.prefix_ ≠ some (String.ofList (read ++ segment ++ [':'])) := by
          intro other hother heq
          have hperm : (before ++ node :: after).Perm (node :: (before ++ after)) := List.perm_middle
          have hnodup := (hperm.filterMap (·.prefix_)).nodup_iff.1 hdistinct
          rw [List.filterMap_cons_some hstarted, List.nodup_cons] at hnodup
          exact hnodup.1 (List.mem_filterMap.2 ⟨other, hother, heq⟩)
        have hnode : node ∈ before ++ node :: after := List.mem_append_right _ List.mem_cons_self
        have hkind : IsPrefixNode read keys node := by
          refine (hkinds node hnode).resolve_left fun hcontra ↦ ?_
          rw [hcontra.hstarted] at hstarted
          cases hstarted
        have hcases (node' : KeyTreeNode) (children : List KeyTreeNode)
            (hmem : node' ∈ before ++ Redis.passed node children :: after) :
            node' ∈ before ++ after ∨ node' = Redis.passed node children := by
          obtain hmem | hmem := List.mem_append.1 hmem
          · exact .inl (List.mem_append_left _ hmem)
          · exact (List.mem_cons.1 hmem).symm.imp (List.mem_append_right _) id
        have hold {other : KeyTreeNode} (hmem : other ∈ before ++ after) : other ∈ before ++ node :: after :=
          List.mem_append.2 ((List.mem_append.1 hmem).imp id (List.mem_cons_of_mem _))
        rw [hinsert]
        refine .mk ?_ ?_ ?_ ?_
        · intro node' hmem
          obtain hmem | rfl := hcases _ _ hmem
          · exact (hother (hold hmem) (hpast (hold hmem) (hne _ hmem))).1
          · exact .inr (hkind.passed hstarted hstart (length_leaves_insertSegments key valueType (List.cons_ne_nil _ _) _))
        · rw [List.filterMap_append, List.filterMap_cons_some (show (Redis.passed node _).prefix_ = _ from hstarted)]
          rwa [List.filterMap_append, List.filterMap_cons_some hstarted] at hdistinct
        · intro key' hkey' segment' hsegment' hstart'
          have hfound : ∃ node' ∈ before ++ node :: after,
              node'.prefix_ = some (String.ofList (read ++ segment' ++ [':'])) := by
            obtain hkey' | hkey' := List.mem_append.1 hkey'
            · exact hreached key' hkey' segment' hsegment' hstart'
            · rw [List.mem_singleton.1 hkey', ← startsWith_ofList] at hstart'
              obtain ⟨_, _, hsame⟩ := (hstarts hsegment').1 hstart'
              rw [← (List.cons.inj hsame).1]
              exact ⟨node, hnode, hstarted⟩
          obtain ⟨node', hmem, hstarted'⟩ := hfound
          obtain hmem | hmem := List.mem_append.1 hmem
          · exact ⟨node', List.mem_append_left _ hmem, hstarted'⟩
          · obtain rfl | hmem := List.mem_cons.1 hmem
            · exact ⟨Redis.passed node' _, List.mem_append_right _ List.mem_cons_self, hstarted'⟩
            · exact ⟨node', List.mem_append_right _ (List.mem_cons_of_mem _ hmem), hstarted'⟩
        · intro node' hmem text htext
          obtain hmem | rfl := hcases _ _ hmem
          · exact (hother (hold hmem) (hpast (hold hmem) (hne _ hmem))).2 text htext
          · obtain rfl := Option.some.inj (hstarted.symm.trans htext)
            rw [filter_of_startsWith hstart]
            exact hstep (hinner node hnode _ hstarted)
      · have hempty : keys.filter (startsWith (String.ofList (read ++ segment ++ [':']))) = [] := by
          refine List.filter_eq_nil_iff.2 fun key' hkey' hstart' ↦ ?_
          obtain ⟨node, hnode, hstarted⟩ := hreached key' hkey' segment hsegment (startsWith_ofList.1 hstart')
          exact habsent node hnode hstarted
        rw [hinsert]
        refine .mk ?_ ?_ ?_ ?_
        · intro node hmem
          obtain hmem | hmem := List.mem_append.1 hmem
          · exact (hother hmem (hpast hmem (habsent node hmem))).1
          · rw [List.mem_singleton.1 hmem]
            have hnew : IsPrefixNode read keys (.ofPrefix (String.ofList (read ++ segment ++ [':']))
                (keySegmentLabel (String.ofList segment))) := by
              refine ⟨rfl, ⟨segment, hsegment, rfl⟩, ?_, ?_, rfl⟩
              · rintro text ⟨⟩
                rfl
              · rintro text ⟨⟩
                rw [List.countP_eq_length_filter, hempty]
                rfl
            exact .inr (hnew.passed rfl hstart (length_leaves_insertSegments key valueType (List.cons_ne_nil _ _) _))
        · have hmiss : String.ofList (read ++ segment ++ [':']) ∉ nodes.filterMap (·.prefix_) := by
            intro hmem
            obtain ⟨node, hnode, hstarted⟩ := List.mem_filterMap.1 hmem
            exact habsent node hnode hstarted
          rw [List.filterMap_append]
          refine List.nodup_append.2 ⟨hdistinct, List.nodup_singleton _, ?_⟩
          intro text htext text' htext' heq
          obtain rfl := List.mem_singleton.1 htext'
          exact hmiss (heq ▸ htext)
        · intro key' hkey' segment' hsegment' hstart'
          obtain hkey' | hkey' := List.mem_append.1 hkey'
          · obtain ⟨node, hnode, hstarted⟩ := hreached key' hkey' segment' hsegment' hstart'
            exact ⟨node, List.mem_append_left _ hnode, hstarted⟩
          · rw [List.mem_singleton.1 hkey', ← startsWith_ofList] at hstart'
            obtain ⟨_, _, hsame⟩ := (hstarts hsegment').1 hstart'
            rw [← (List.cons.inj hsame).1]
            exact ⟨_, List.mem_append_right _ List.mem_cons_self, rfl⟩
        · intro node hmem text htext
          obtain hmem | hmem := List.mem_append.1 hmem
          · exact (hother hmem (hpast hmem (habsent node hmem))).2 text htext
          · obtain rfl := List.mem_singleton.1 hmem
            obtain rfl := Option.some.inj htext
            rw [filter_of_startsWith hstart, hempty]
            exact hstep (grown_nil _)

/-! ### All keys -/

theorem grown_insertKeys (keyTypes : String → Option String) (keys : List String) :
    Grown [] keys (insertKeys keyTypes keys) ∧
      (leaves (insertKeys keyTypes keys)).Perm (keys.map fun key ↦ (properPrefixes key, key)) := by
  induction keys using List.reverseRecOn with
  | nil => exact ⟨grown_nil [], .nil⟩
  | append_singleton keys key ih =>
    obtain ⟨hgrown, hleaves⟩ := ih
    have hne : key.toList.splitOn ':' ≠ [] := List.splitOn_ne_nil _ _
    have hsegments : ∀ segment ∈ key.toList.splitOn ':', ':' ∉ segment := fun _ ↦ Text.notMem_of_mem_splitOn
    have hinsert : insertKeys keyTypes (keys ++ [key]) =
        insertSegments key ((keyTypes key).map normalizeRedisType) [] (key.toList.splitOn ':')
          (insertKeys keyTypes keys) := by
      rw [insertKeys, List.foldl_append]
      rfl
    rw [hinsert]
    refine ⟨hgrown.insertSegments hsegments hne (by rw [List.nil_append, List.intercalate_splitOn]), ?_⟩
    refine (leaves_insertSegments key _ hne _).trans ?_
    rw [pathOf_eq hsegments, List.intercalate_splitOn, List.map_append]
    exact hleaves.append_right _

/-! ### The sorted tree -/

theorem intoTreeNodes_eq_map (nodes : List KeyTreeNode) : intoTreeNodes nodes = nodes.map intoTreeNode := by
  induction nodes with
  | nil => rfl
  | cons node nodes ih => rw [intoTreeNodes, ih, List.map_cons]

theorem intoTreeNode_eq (node : KeyTreeNode) :
    intoTreeNode node = { node with children := sortKeyTreeNodes (intoTreeNodes node.children) } := by
  cases node
  rw [intoTreeNode]

mutual

theorem leavesOf_intoTreeNode : ∀ node, (leavesOf (intoTreeNode node)).Perm (leavesOf node)
  | ⟨_, _, _, none, _, _, _, _, _⟩ => .refl _
  | ⟨_, _, _, some _, _, _, _, _, children⟩ => by
    rw [intoTreeNode, leavesOf, leavesOf]
    exact ((leaves_perm (sortKeyTreeNodes_perm _)).trans (leaves_intoTreeNodes children)).map _

theorem leaves_intoTreeNodes : ∀ nodes, (leaves (intoTreeNodes nodes)).Perm (leaves nodes)
  | [] => .refl _
  | node :: nodes => by
    rw [intoTreeNodes, leaves, leaves]
    exact (leavesOf_intoTreeNode node).append (leaves_intoTreeNodes nodes)

end

/-- The leaves of the sorted tree. -/
theorem leaves_sorted (nodes : List KeyTreeNode) :
    (leaves (sortKeyTreeNodes (intoTreeNodes nodes))).Perm (leaves nodes) :=
  (leaves_perm (sortKeyTreeNodes_perm _)).trans (leaves_intoTreeNodes nodes)

theorem mem_sorted {nodes : List KeyTreeNode} {node : KeyTreeNode} :
    node ∈ sortKeyTreeNodes (intoTreeNodes nodes) ↔ ∃ node' ∈ nodes, intoTreeNode node' = node := by
  rw [(sortKeyTreeNodes_perm _).mem_iff, intoTreeNodes_eq_map, List.mem_map]

/-- Sorting keeps what is said of a level. -/
theorem Grown.sorted (h : Grown read keys nodes) : Grown read keys (sortKeyTreeNodes (intoTreeNodes nodes)) := by
  induction h with
  | @mk read keys nodes hkinds hdistinct hreached hinner ih =>
    refine .mk ?_ ?_ ?_ ?_
    · intro node hmem
      obtain ⟨node', hnode', rfl⟩ := mem_sorted.1 hmem
      rw [intoTreeNode_eq]
      refine (hkinds node' hnode').imp (fun h ↦ ?_) fun h ↦ ?_
      · refine ⟨h.hkind, h.hstarted, ?_, h.hkey⟩
        show sortKeyTreeNodes (intoTreeNodes node'.children) = []
        rw [h.hchildren]
        rfl
      · exact ⟨h.hkind, h.hstarted, h.hid, h.hcount, (leaves_sorted _).length_eq.trans h.hleaves⟩
    · have hperm := (sortKeyTreeNodes_perm (intoTreeNodes nodes)).filterMap (·.prefix_)
      rw [hperm.nodup_iff, intoTreeNodes_eq_map, List.filterMap_map]
      refine (congrArg List.Nodup (List.filterMap_congr fun node _ ↦ ?_)).mpr hdistinct
      rw [Function.comp_apply, intoTreeNode_eq]
    · intro key hkey segment hsegment hstart
      obtain ⟨node, hnode, hstarted⟩ := hreached key hkey segment hsegment hstart
      refine ⟨intoTreeNode node, mem_sorted.2 ⟨node, hnode, rfl⟩, ?_⟩
      rw [intoTreeNode_eq]
      exact hstarted
    · intro node hmem text htext
      obtain ⟨node', hnode', rfl⟩ := mem_sorted.1 hmem
      rw [intoTreeNode_eq] at htext ⊢
      exact ih node' hnode' text htext

/-- A level in the order of `sort_key_tree_nodes`: prefixes before keys, each in the order of the labels. -/
def Ordered (level : List KeyTreeNode) : Prop :=
  level.Pairwise fun left right ↦
    left.nodeType = .prefix_ ∧ right.nodeType = .key ∨ left.nodeType = right.nodeType ∧ left.label ≤ right.label

theorem nodeBefore_iff (left right : KeyTreeNode) : nodeBefore left right = true ↔
    left.nodeType = .prefix_ ∧ right.nodeType = .key ∨
      left.nodeType = right.nodeType ∧ (left.label < right.label ∨ left.label = right.label ∧ left.id ≤ right.id) := by
  rw [nodeBefore]
  split
  · next hkinds =>
    rw [decide_eq_true_eq]
    constructor
    · intro hleft
      refine .inl ⟨hleft, ?_⟩
      cases hright : right.nodeType with
      | key => rfl
      | prefix_ => exact absurd (hleft.trans hright.symm) hkinds
    · rintro (h | h)
      · exact h.1
      · exact absurd h.1 hkinds
  · next hkinds =>
    have hsame : left.nodeType = right.nodeType := not_not.1 hkinds
    have hnot : ¬ (left.nodeType = .prefix_ ∧ right.nodeType = .key) := by
      rintro ⟨hleft, hright⟩
      rw [hleft, hright] at hsame
      cases hsame
    split
    · next hlabels =>
      rw [decide_eq_true_eq]
      exact ⟨fun h ↦ .inr ⟨hsame, .inl h⟩, fun h ↦ ((h.resolve_left hnot).2).resolve_right fun h' ↦ hlabels h'.1⟩
    · next hlabels =>
      have hlabel : left.label = right.label := not_not.1 hlabels
      rw [decide_eq_true_eq, not_lt]
      refine ⟨fun h ↦ .inr ⟨hsame, .inr ⟨hlabel, h⟩⟩, fun h ↦ ?_⟩
      obtain hless | ⟨-, hid⟩ := (h.resolve_left hnot).2
      · exact absurd hlabel hless.ne
      · exact hid

theorem nodeBefore_total (left right : KeyTreeNode) : nodeBefore left right = true ∨ nodeBefore right left = true := by
  rw [nodeBefore_iff, nodeBefore_iff]
  have hlabels : (left.label < right.label ∨ left.label = right.label ∧ left.id ≤ right.id) ∨
      right.label < left.label ∨ right.label = left.label ∧ right.id ≤ left.id := by
    obtain hless | heq | hmore := lt_trichotomy left.label right.label
    · exact .inl (.inl hless)
    · exact (le_total left.id right.id).imp (fun h ↦ .inr ⟨heq, h⟩) fun h ↦ .inr ⟨heq.symm, h⟩
    · exact .inr (.inl hmore)
  rcases hleft : left.nodeType with _ | _
  · rcases hright : right.nodeType with _ | _
    · exact hlabels.imp (fun h ↦ .inr ⟨rfl, h⟩) fun h ↦ .inr ⟨rfl, h⟩
    · exact .inl (.inl ⟨rfl, rfl⟩)
  · rcases hright : right.nodeType with _ | _
    · exact .inr (.inl ⟨rfl, rfl⟩)
    · exact hlabels.imp (fun h ↦ .inr ⟨rfl, h⟩) fun h ↦ .inr ⟨rfl, h⟩

theorem nodeBefore_trans {first second third : KeyTreeNode} (h : nodeBefore first second = true)
    (h' : nodeBefore second third = true) : nodeBefore first third = true := by
  rw [nodeBefore_iff] at h h' ⊢
  obtain ⟨hfirst, hsecond⟩ | ⟨hkind, hlabel⟩ := h
  · obtain ⟨hcontra, -⟩ | ⟨hkind', -⟩ := h'
    · rw [hsecond] at hcontra
      cases hcontra
    · exact .inl ⟨hfirst, hkind'.symm.trans hsecond⟩
  · obtain ⟨hsecond, hthird⟩ | ⟨hkind', hlabel'⟩ := h'
    · exact .inl ⟨hkind.trans hsecond, hthird⟩
    · refine .inr ⟨hkind.trans hkind', ?_⟩
      obtain hless | ⟨hsame, hid⟩ := hlabel
      · obtain hless' | ⟨hsame', -⟩ := hlabel'
        · exact .inl (hless.trans hless')
        · exact .inl (hless.trans_eq hsame')
      · obtain hless' | ⟨hsame', hid'⟩ := hlabel'
        · exact .inl (hsame.trans_lt hless')
        · exact .inr ⟨hsame.trans hsame', hid.trans hid'⟩

theorem ordered_sortKeyTreeNodes (nodes : List KeyTreeNode) : Ordered (sortKeyTreeNodes nodes) := by
  have htotal : Std.Total fun left right : KeyTreeNode ↦ nodeBefore left right = true := ⟨nodeBefore_total⟩
  have htrans : IsTrans KeyTreeNode fun left right ↦ nodeBefore left right = true := ⟨fun _ _ _ ↦ nodeBefore_trans⟩
  refine (List.pairwise_insertionSort (fun left right ↦ nodeBefore left right = true) nodes).imp fun h ↦ ?_
  refine ((nodeBefore_iff _ _).1 h).imp id fun ⟨hkind, hlabel⟩ ↦ ⟨hkind, ?_⟩
  obtain hless | ⟨hsame, -⟩ := hlabel
  · exact hless.le
  · exact hsame.le

/-- Below each node of the sorted tree the nodes are sorted too. -/
theorem ordered_children {level : List KeyTreeNode} (h : node.Occurs level) (hlevel : level.Perm (intoTreeNodes nodes)) :
    Ordered node.children := by
  induction h generalizing nodes with
  | @root level hmem =>
    rw [hlevel.mem_iff, intoTreeNodes_eq_map] at hmem
    obtain ⟨node', -, rfl⟩ := List.mem_map.1 hmem
    rw [intoTreeNode_eq]
    exact ordered_sortKeyTreeNodes _
  | @inner level parent hmem _ ih =>
    rw [hlevel.mem_iff, intoTreeNodes_eq_map] at hmem
    obtain ⟨parent', -, rfl⟩ := List.mem_map.1 hmem
    rw [intoTreeNode_eq] at ih
    exact ih (sortKeyTreeNodes_perm _)

/-! ### What a level says of the whole tree -/

section

variable (h : Grown read keys nodes)
include h

/-- A prefix anywhere in a level begins with what has been read, and counts the keys that begin with it. -/
theorem Grown.count (hoccurs : node.Occurs nodes) (htext : node.prefix_ = some text) :
    read <+: text.toList ∧ node.keyCount = keys.countP (startsWith text) := by
  induction h with
  | @mk read keys nodes hkinds hdistinct hreached hinner ih =>
    have hhere {node : KeyTreeNode} {text : String} (hmem : node ∈ nodes) (htext : node.prefix_ = some text) :
        read <+: text.toList ∧ node.keyCount = keys.countP (startsWith text) := by
      have hkind : IsPrefixNode read keys node := by
        refine (hkinds node hmem).resolve_left fun hcontra ↦ ?_
        rw [hcontra.hstarted] at htext
        cases htext
      obtain ⟨segment, -, hstarted⟩ := hkind.hstarted
      refine ⟨?_, hkind.hcount text htext⟩
      rw [Option.some.inj (htext.symm.trans hstarted), String.toList_ofList, List.append_assoc]
      exact List.prefix_append _ _
    obtain hmem | ⟨hmem, hbelow⟩ := hoccurs
    · exact hhere hmem htext
    · next parent =>
      obtain hkind | hkind := hkinds parent hmem
      · rw [hkind.hchildren] at hbelow
        obtain hnil | ⟨hnil, -⟩ := hbelow
        · cases hnil
        · cases hnil
      · obtain ⟨segment, -, hstarted⟩ := hkind.hstarted
        obtain ⟨hstart, hcount⟩ := ih parent hmem _ hstarted hbelow
        refine ⟨(hhere hmem hstarted).1.trans hstart, ?_⟩
        rw [hcount, List.countP_filter]
        refine List.countP_congr fun key _ ↦ ?_
        rw [Bool.and_eq_true]
        refine ⟨fun hboth ↦ hboth.1, fun hkey ↦ ⟨hkey, ?_⟩⟩
        rw [startsWith_iff] at hkey ⊢
        exact hstart.trans hkey

/-- The ids of a level are those of its prefixes and of its leaves. -/
theorem Grown.ids_perm : (ids nodes).Perm
    ((prefixes nodes).map ("prefix:" ++ ·) ++ (leaves nodes).map ("key:" ++ ·.2)) := by
  induction h with
  | @mk read keys nodes hkinds hdistinct hreached hinner ih =>
    have hnode {node : KeyTreeNode} (hmem : node ∈ nodes) : (idsOf node).Perm
        ((prefixesOf node).map ("prefix:" ++ ·) ++ (leavesOf node).map ("key:" ++ ·.2)) := by
      rw [idsOf_eq, prefixesOf_eq]
      obtain hkind | hkind := hkinds node hmem
      · obtain ⟨key, -, hkey, hid⟩ := hkind.hkey
        rw [leavesOf_of_none hkind.hstarted, hkind.hstarted, hkind.hchildren, hkey, hid]
        exact .refl _
      · obtain ⟨segment, -, hstarted⟩ := hkind.hstarted
        have hbelow := ih node hmem _ hstarted
        rw [leavesOf_of_some hstarted, hstarted, hkind.hid _ hstarted, List.map_map]
        exact hbelow.cons _
    rw [ids_eq_flatMap, prefixes_eq_flatMap, leaves_eq_flatMap, List.map_flatMap, List.map_flatMap]
    refine List.Perm.trans ?_ (List.flatMap_append_perm nodes _ _).symm
    exact List.Perm.flatMap_left nodes fun node hmem ↦ hnode hmem

/-- The prefixes of a level begin with what has been read, and are longer. -/
theorem Grown.of_mem_prefixes (hmem : text ∈ prefixes nodes) :
    ∃ segment, ':' ∉ segment ∧ read ++ segment ++ [':'] <+: text.toList := by
  induction h with
  | @mk read keys nodes hkinds hdistinct hreached hinner ih =>
    rw [prefixes_eq_flatMap] at hmem
    obtain ⟨node, hnode, hmem⟩ := List.mem_flatMap.1 hmem
    rw [prefixesOf_eq] at hmem
    obtain hkind | hkind := hkinds node hnode
    · rw [hkind.hstarted, hkind.hchildren] at hmem
      cases hmem
    · obtain ⟨segment, hsegment, hstarted⟩ := hkind.hstarted
      refine ⟨segment, hsegment, ?_⟩
      rw [hstarted] at hmem
      obtain rfl | hmem := List.mem_cons.1 hmem
      · rw [String.toList_ofList]
      · obtain ⟨segment', -, hlonger⟩ := ih node hnode _ hstarted hmem
        rw [String.toList_ofList, List.append_assoc _ segment'] at hlonger
        exact (List.prefix_append _ _).trans hlonger

/-- What stands at or below a prefix begins with it. -/
theorem Grown.prefix_of_mem (hmem : node ∈ nodes) (htext : text ∈ prefixesOf node) :
    ∃ segment, ':' ∉ segment ∧ node.prefix_ = some (String.ofList (read ++ segment ++ [':'])) ∧
      read ++ segment ++ [':'] <+: text.toList := by
  obtain ⟨hkinds, -, -, hinner⟩ := h
  rw [prefixesOf_eq] at htext
  obtain hkind | hkind := hkinds node hmem
  · rw [hkind.hstarted, hkind.hchildren] at htext
    cases htext
  · obtain ⟨segment, hsegment, hstarted⟩ := hkind.hstarted
    refine ⟨segment, hsegment, hstarted, ?_⟩
    rw [hstarted] at htext
    obtain rfl | htext := List.mem_cons.1 htext
    · rw [String.toList_ofList]
    · obtain ⟨segment', -, hlonger⟩ := (hinner node hmem _ hstarted).of_mem_prefixes htext
      rw [String.toList_ofList, List.append_assoc _ segment'] at hlonger
      exact (List.prefix_append _ _).trans hlonger

/-- A prefix stands in a level once. -/
theorem Grown.nodup_prefixes : (prefixes nodes).Nodup := by
  induction h with
  | @mk read keys nodes hkinds hdistinct hreached hinner ih =>
    have hgrown : Grown read keys nodes := .mk hkinds hdistinct hreached hinner
    rw [prefixes_eq_flatMap, List.nodup_flatMap]
    constructor
    · intro node hmem
      rw [prefixesOf_eq]
      obtain hkind | hkind := hkinds node hmem
      · rw [hkind.hstarted, hkind.hchildren]
        exact List.nodup_nil
      · obtain ⟨segment, -, hstarted⟩ := hkind.hstarted
        rw [hstarted]
        refine List.nodup_cons.2 ⟨fun hself ↦ ?_, ih node hmem _ hstarted⟩
        obtain ⟨segment', -, hlonger⟩ := (hinner node hmem _ hstarted).of_mem_prefixes hself
        have hlength := hlonger.length_le
        simp only [List.length_append, List.length_singleton] at hlength
        omega
    · have hpairs := List.pairwise_filterMap.1 hdistinct
      refine hpairs.imp_of_mem fun {node node'} hmem hmem' hne text htext htext' ↦ ?_
      obtain ⟨segment, hsegment, hstarted, hstart⟩ := hgrown.prefix_of_mem hmem htext
      obtain ⟨segment', hsegment', hstarted', hstart'⟩ := hgrown.prefix_of_mem hmem' htext'
      obtain ⟨rest, hrest⟩ := hstart
      obtain ⟨rest', hrest'⟩ := hstart'
      have hboth := hrest.trans hrest'.symm
      rw [List.append_assoc, List.append_assoc, List.append_assoc, List.append_assoc, List.append_cancel_left_eq,
        List.singleton_append, List.singleton_append] at hboth
      have hsame := @takeWhile_segment segment rest hsegment
      rw [hboth, takeWhile_segment hsegment'] at hsame
      exact hne _ hstarted _ hstarted' (by rw [hsame])

/-- Every node of a level is one of a key, or one of a prefix with the leaves that it counts. -/
theorem Grown.node_or (hoccurs : node.Occurs nodes) :
    node.nodeType = .key ∧ node.prefix_ = none ∧ node.children = [] ∨
      node.nodeType = .prefix_ ∧ (leaves node.children).length = node.keyCount ∧ ∃ text, node.prefix_ = some text := by
  induction h with
  | @mk read keys nodes hkinds hdistinct hreached hinner ih =>
    obtain hmem | ⟨hmem, hbelow⟩ := hoccurs
    · refine (hkinds node hmem).imp (fun h ↦ ⟨h.hkind, h.hstarted, h.hchildren⟩) fun h ↦ ⟨h.hkind, h.hleaves, ?_⟩
      obtain ⟨segment, -, hstarted⟩ := h.hstarted
      exact ⟨_, hstarted⟩
    · next parent =>
      obtain hkind | hkind := hkinds parent hmem
      · rw [hkind.hchildren] at hbelow
        obtain hnil | ⟨hnil, -⟩ := hbelow
        · cases hnil
        · cases hnil
      · obtain ⟨segment, -, hstarted⟩ := hkind.hstarted
        exact ih parent hmem _ hstarted hbelow

end

/-! ### The key tree -/

/-- **A key tree** of some keys. -/
structure IsKeyTree (keys : List String) (nodes : List KeyTreeNode) : Prop where
  /-- Each key is one leaf, below its proper beginnings that end in a colon, and there is no other leaf. -/
  hleaves : (leaves nodes).Perm (keys.map fun key ↦ (properPrefixes key, key))
  /-- A node is one of a key, with nothing below it, or one of a prefix, whose count is the number of the leaves below it
  and of the keys that begin with the prefix. -/
  hnodes : ∀ node : KeyTreeNode, node.Occurs nodes →
    node.nodeType = .key ∧ node.prefix_ = none ∧ node.children = [] ∨
      ∃ text, node.nodeType = .prefix_ ∧ node.prefix_ = some text ∧ node.keyCount = (leaves node.children).length ∧
        node.keyCount = keys.countP (startsWith text)
  hids : (ids nodes).Nodup
  hordered : Ordered nodes ∧ ∀ node : KeyTreeNode, node.Occurs nodes → Ordered node.children

theorem prefix_id_ne_key_id (text key : String) : "prefix:" ++ text ≠ "key:" ++ key := by
  intro h
  have hchars := congrArg String.toList h
  rw [String.toList_append, String.toList_append] at hchars
  cases hchars

/-- **What `build_key_tree_result` builds.** -/
theorem isKeyTree_buildKeyTreeResult {keys : List String} (hkeys : keys.Nodup) (dbIndex : ℕ) (pattern : String)
    (keyTypes : String → Option String) : IsKeyTree keys (buildKeyTreeResult dbIndex pattern keys keyTypes).nodes := by
  obtain ⟨hbuilt, hleaves⟩ := grown_insertKeys keyTypes keys
  have hgrown := hbuilt.sorted
  have hleaves := (leaves_sorted _).trans hleaves
  refine ⟨hleaves, fun node hnode ↦ ?_, ?_, ordered_sortKeyTreeNodes _, fun node hnode ↦ ?_⟩
  · refine (hgrown.node_or hnode).imp id fun ⟨hkind, hcount, text, htext⟩ ↦ ?_
    exact ⟨text, hkind, htext, hcount.symm, (hgrown.count hnode htext).2⟩
  · have hkeyIds := hleaves.map ("key:" ++ ·.2)
    rw [List.map_map] at hkeyIds
    refine (hgrown.ids_perm.trans (hkeyIds.append_left _)).nodup_iff.2 ?_
    refine List.nodup_append.2 ⟨?_, ?_, ?_⟩
    · exact hgrown.nodup_prefixes.map fun _ _ h ↦ String.append_right_inj _ |>.1 h
    · exact hkeys.map fun _ _ h ↦ String.append_right_inj _ |>.1 h
    · rintro _ hstarted _ hkey rfl
      obtain ⟨text, -, htext⟩ := List.mem_map.1 hstarted
      obtain ⟨key, -, hkey⟩ := List.mem_map.1 hkey
      exact prefix_id_ne_key_id text key (htext.trans hkey.symm)
  · exact ordered_children hnode (sortKeyTreeNodes_perm _)

end Shape

end Redis
