import Mathlib.Data.List.Sort
import NexusPilot.Text.Glob

/-!
# The key tree of a Redis database

`build_key_tree_result`: the keys that a scan has found are cut at the colons, and each beginning that ends
in a colon is a node of the tree, with the pattern that finds the keys below it. `prefixNode_of_occurs` says
what the prefix nodes are: the pattern is the prefix with a star behind it, and some key begins with it.
-/

namespace Redis

/-- `RedisKeyTreeNodeKind`. -/
inductive KeyTreeNodeKind
  | prefix_
  | key
  deriving DecidableEq

/-- `MutableKeyTreeNode` and `RedisKeyTreeNode`. The map of the former from prefixes to the indices of its
children is left out: a child is found by its prefix. -/
structure KeyTreeNode where
  id : String
  label : String
  nodeType : KeyTreeNodeKind
  prefix_ : Option String
  pattern : Option String
  key : Option String
  keyCount : ℕ
  valueType : Option String
  children : List KeyTreeNode

namespace KeyTreeNode

/-- `MutableKeyTreeNode::prefix`. -/
def ofPrefix (prefix_ label : String) : KeyTreeNode where
  id := "prefix:" ++ prefix_
  label := label
  nodeType := .prefix_
  prefix_ := some prefix_
  pattern := some (prefix_ ++ "*")
  key := none
  keyCount := 0
  valueType := none
  children := []

/-- `MutableKeyTreeNode::key`. -/
def ofKey (key label : String) (valueType : Option String) : KeyTreeNode where
  id := "key:" ++ key
  label := label
  nodeType := .key
  prefix_ := none
  pattern := none
  key := some key
  keyCount := 1
  valueType := valueType
  children := []

end KeyTreeNode

/-- `key_segment_label`. -/
def keySegmentLabel (segment : String) : String :=
  if segment = "" then "(empty)" else segment

/-- `normalize_redis_type`. -/
def normalizeRedisType (valueType : String) : String :=
  if valueType.toLower = "json" ∨ valueType.toLower = "rejson-rl" then "json"
  else if valueType.toLower = "sorted_set" then "zset"
  else valueType

/-- `get_or_create_prefix`: the siblings and the index of the node. -/
def getOrCreatePrefix (siblings : List KeyTreeNode) (prefix_ label : String) : List KeyTreeNode × ℕ :=
  match siblings.findIdx? fun node ↦ node.prefix_ == some prefix_ with
  | some index => (siblings, index)
  | none => (siblings ++ [.ofPrefix prefix_ label], siblings.length)

/-- The loop over the segments of a key, from the prefix that has been read. -/
def insertSegments (key : String) (valueType : Option String) :
    List Char → List (List Char) → List KeyTreeNode → List KeyTreeNode
  | _, [], siblings => siblings
  | _, [last], siblings =>
    siblings ++ [.ofKey key (keySegmentLabel (String.ofList last)) valueType]
  | read, segment :: next :: rest, siblings =>
    let read := read ++ segment ++ [':']
    let (siblings, index) :=
      getOrCreatePrefix siblings (String.ofList read) (keySegmentLabel (String.ofList segment))
    siblings.modify index fun node ↦
      { node with
        keyCount := node.keyCount + 1
        children := insertSegments key valueType read (next :: rest) node.children }

/-- The order of `sort_key_tree_nodes`: prefixes first, then by label and by id. -/
def nodeBefore (left right : KeyTreeNode) : Bool :=
  if left.nodeType ≠ right.nodeType then left.nodeType = .prefix_
  else if left.label ≠ right.label then left.label < right.label
  else ¬ right.id < left.id

/-- `sort_key_tree_nodes`. -/
def sortKeyTreeNodes (nodes : List KeyTreeNode) : List KeyTreeNode :=
  nodes.insertionSort fun left right ↦ nodeBefore left right = true

mutual

/-- `into_tree_node`. -/
def intoTreeNode : KeyTreeNode → KeyTreeNode
  | ⟨id, label, nodeType, prefix_, pattern, key, keyCount, valueType, children⟩ =>
    ⟨id, label, nodeType, prefix_, pattern, key, keyCount, valueType,
      sortKeyTreeNodes (intoTreeNodes children)⟩

/-- `into_tree_node` for each of some nodes. -/
def intoTreeNodes : List KeyTreeNode → List KeyTreeNode
  | [] => []
  | node :: nodes => intoTreeNode node :: intoTreeNodes nodes

end

/-- `RedisKeyTreeResult`. -/
structure KeyTreeResult where
  dbIndex : ℕ
  pattern : String
  totalKeyCount : ℕ
  nodes : List KeyTreeNode

/-- The roots after the loop over the keys. -/
def insertKeys (keyTypes : String → Option String) (keys : List String) : List KeyTreeNode :=
  keys.foldl (fun roots key ↦ insertSegments key ((keyTypes key).map normalizeRedisType) []
    (key.toList.splitOn ':') roots) []

/-- `build_key_tree_result`. -/
def buildKeyTreeResult (dbIndex : ℕ) (pattern : String) (keys : List String)
    (keyTypes : String → Option String) : KeyTreeResult where
  dbIndex := dbIndex
  pattern := pattern
  totalKeyCount := keys.length
  nodes := sortKeyTreeNodes (intoTreeNodes (insertKeys keyTypes keys))

/-! ### The nodes of a tree -/

/-- A node stands somewhere in a tree. -/
inductive KeyTreeNode.Occurs (node : KeyTreeNode) : List KeyTreeNode → Prop
  | root {nodes : List KeyTreeNode} : node ∈ nodes → Occurs node nodes
  | inner {nodes : List KeyTreeNode} {parent : KeyTreeNode} : parent ∈ nodes → Occurs node parent.children →
      Occurs node nodes

/-- **A prefix node**: its pattern is its prefix with a star behind it, the prefix ends in a colon, and one of
the keys begins with it. -/
def PrefixNode (keys : List String) (node : KeyTreeNode) : Prop :=
  ∀ text, node.prefix_ = some text → node.pattern = some (text ++ "*") ∧ text.toList.getLast? = some ':' ∧
    ∃ key ∈ keys, text.toList <+: key.toList

/-- Every prefix node of a tree is one of the keys. -/
def PrefixNodes (keys : List String) (nodes : List KeyTreeNode) : Prop :=
  ∀ node, node.Occurs nodes → PrefixNode keys node

section PrefixNodes

variable {keys : List String} {nodes : List KeyTreeNode} {node : KeyTreeNode}

theorem PrefixNodes.nil : PrefixNodes keys [] := by
  rintro node (hmem | ⟨hmem, -⟩)
  · cases hmem
  · cases hmem

theorem prefixNodes_iff : PrefixNodes keys nodes ↔
    ∀ node ∈ nodes, PrefixNode keys node ∧ PrefixNodes keys node.children := by
  constructor
  · exact fun h node hmem ↦ ⟨h node (.root hmem), fun child hchild ↦ h child (.inner hmem hchild)⟩
  · rintro h node (hmem | ⟨hmem, hinner⟩)
    · exact (h node hmem).1
    · exact (h _ hmem).2 node hinner

theorem PrefixNodes.append {added : List KeyTreeNode} (h : PrefixNodes keys nodes)
    (hadded : PrefixNodes keys added) : PrefixNodes keys (nodes ++ added) := by
  rw [prefixNodes_iff] at h hadded ⊢
  intro node hmem
  exact (List.mem_append.1 hmem).elim (h node) (hadded node)

/-- A change of one node that keeps what it is keeps the tree. -/
theorem PrefixNodes.modify (h : PrefixNodes keys nodes) (index : ℕ) {change : KeyTreeNode → KeyTreeNode}
    (hchange : ∀ node ∈ nodes, PrefixNode keys (change node) ∧ PrefixNodes keys (change node).children) :
    PrefixNodes keys (nodes.modify index change) := by
  rw [prefixNodes_iff] at h ⊢
  intro node hmem
  obtain ⟨i, hi, rfl⟩ := List.mem_iff_getElem.1 hmem
  rw [List.length_modify] at hi
  rw [List.getElem_modify]
  split_ifs
  · exact hchange _ (List.getElem_mem hi)
  · exact h _ (List.getElem_mem hi)

theorem prefixNodes_ofKey (key label : String) (valueType : Option String) :
    PrefixNodes keys [.ofKey key label valueType] := by
  refine prefixNodes_iff.2 fun node hmem ↦ ?_
  rw [List.mem_singleton.1 hmem]
  exact ⟨fun _ h ↦ (nomatch h), PrefixNodes.nil⟩

theorem prefixNodes_ofPrefix {text label : String} (hlast : text.toList.getLast? = some ':')
    (hkey : ∃ key ∈ keys, text.toList <+: key.toList) : PrefixNodes keys [.ofPrefix text label] := by
  refine prefixNodes_iff.2 fun node hmem ↦ ?_
  rw [List.mem_singleton.1 hmem]
  refine ⟨fun other h ↦ ?_, PrefixNodes.nil⟩
  obtain rfl : text = other := Option.some.inj h
  exact ⟨rfl, hlast, hkey⟩

/-- **The loop over the segments of a key** adds prefix nodes that the key begins with. -/
theorem PrefixNodes.insertSegments {key : String} {valueType : Option String} (hkey : key ∈ keys)
    {read : List Char} {segments : List (List Char)} (h : PrefixNodes keys nodes)
    (hsplit : read ++ [':'].intercalate segments = key.toList) :
    PrefixNodes keys (insertSegments key valueType read segments nodes) := by
  induction segments generalizing read nodes with
  | nil => exact h
  | cons segment segments ih =>
    cases segments with
    | nil => exact h.append (prefixNodes_ofKey _ _ _)
    | cons next rest =>
      rw [Redis.insertSegments]
      have hread : (read ++ segment ++ [':']) ++ [':'].intercalate (next :: rest) = key.toList := by
        rw [← hsplit]
        simp [List.intercalate_cons_cons]
      have htext : (String.ofList (read ++ segment ++ [':'])).toList = read ++ segment ++ [':'] :=
        String.toList_ofList
      have hnew : PrefixNodes keys [KeyTreeNode.ofPrefix (String.ofList (read ++ segment ++ [':']))
          (keySegmentLabel (String.ofList segment))] := by
        refine prefixNodes_ofPrefix ?_ ⟨key, hkey, ?_⟩
        · rw [htext]
          simp
        · rw [htext, ← hread]
          exact List.prefix_append _ _
      have hsiblings : PrefixNodes keys (getOrCreatePrefix nodes (String.ofList (read ++ segment ++ [':']))
          (keySegmentLabel (String.ofList segment))).1 := by
        rw [getOrCreatePrefix]
        split
        · exact h
        · exact h.append hnew
      refine hsiblings.modify _ fun node hmem ↦ ?_
      obtain ⟨hnode, hchildren⟩ := prefixNodes_iff.1 hsiblings node hmem
      exact ⟨hnode, ih hchildren hread⟩

theorem PrefixNodes.perm {nodes' : List KeyTreeNode} (h : PrefixNodes keys nodes) (hperm : nodes'.Perm nodes) :
    PrefixNodes keys nodes' := by
  rw [prefixNodes_iff] at h ⊢
  exact fun node hmem ↦ h node (hperm.mem_iff.1 hmem)

theorem sortKeyTreeNodes_perm (nodes : List KeyTreeNode) : (sortKeyTreeNodes nodes).Perm nodes :=
  List.perm_insertionSort _ nodes

mutual

theorem prefixNodes_intoTreeNode : ∀ node, PrefixNode keys node → PrefixNodes keys node.children →
    PrefixNode keys (intoTreeNode node) ∧ PrefixNodes keys (intoTreeNode node).children
  | ⟨_, _, _, _, _, _, _, _, children⟩, hnode, hchildren =>
    ⟨hnode, (prefixNodes_intoTreeNodes children hchildren).perm (sortKeyTreeNodes_perm _)⟩

theorem prefixNodes_intoTreeNodes : ∀ nodes, PrefixNodes keys nodes → PrefixNodes keys (intoTreeNodes nodes)
  | [], _ => PrefixNodes.nil
  | node :: nodes, h => by
    have hall := prefixNodes_iff.1 h
    have hfirst := prefixNodes_intoTreeNode node (hall node List.mem_cons_self).1 (hall node List.mem_cons_self).2
    have hrest := prefixNodes_intoTreeNodes nodes
      (prefixNodes_iff.2 fun other hmem ↦ hall other (List.mem_cons_of_mem _ hmem))
    rw [intoTreeNodes, prefixNodes_iff]
    exact List.forall_mem_cons.2 ⟨hfirst, prefixNodes_iff.1 hrest⟩

end

theorem prefixNodes_insertKeys (keyTypes : String → Option String) (keys : List String) :
    PrefixNodes keys (insertKeys keyTypes keys) := by
  have hrun : ∀ (rest : List String) (roots : List KeyTreeNode), (∀ key ∈ rest, key ∈ keys) →
      PrefixNodes keys roots → PrefixNodes keys (rest.foldl (fun roots key ↦
        insertSegments key ((keyTypes key).map normalizeRedisType) [] (key.toList.splitOn ':') roots) roots) := by
    intro rest
    induction rest with
    | nil => exact fun roots _ h ↦ h
    | cons key rest ih =>
      intro roots hkeys h
      obtain ⟨hkey, hrest⟩ := List.forall_mem_cons.1 hkeys
      refine ih _ hrest (h.insertSegments hkey ?_)
      rw [List.nil_append, List.intercalate_splitOn]
  exact hrun keys [] (fun _ hkey ↦ hkey) PrefixNodes.nil

/-- **What the prefix nodes of the key tree are.** -/
theorem prefixNode_of_occurs {dbIndex : ℕ} {pattern : String} {keyTypes : String → Option String}
    (h : node.Occurs (buildKeyTreeResult dbIndex pattern keys keyTypes).nodes) : PrefixNode keys node :=
  ((prefixNodes_intoTreeNodes _ (prefixNodes_insertKeys keyTypes keys)).perm (sortKeyTreeNodes_perm _)) node h

end PrefixNodes

end Redis
