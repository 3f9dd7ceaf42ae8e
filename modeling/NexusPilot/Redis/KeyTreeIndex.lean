import NexusPilot.Machine.Table
import NexusPilot.Redis.KeyTreeShape

/-!
# The key tree while it grows

While the tree grows, a node keeps a map from the prefixes below it to their places among its children, and a child is
found through this map. `Indexed` says that the map is right: nodes are added at the end and a node never changes its
prefix, so that places stay (`Indexed.insertSegments`). The tree that comes out is the one that looking for the prefix
would give (`forget_insertKeys`).
-/

namespace Redis.Mutable

open Machine

/-- `MutableKeyTreeNode`. -/
structure KeyTreeNode where
  id : String
  label : String
  nodeType : KeyTreeNodeKind
  prefix_ : Option String
  pattern : Option String
  key : Option String
  keyCount : ℕ
  valueType : Option String
  children : List KeyTreeNode
  childMap : Table String ℕ

/-- `MutableKeyTreeNode::prefix`. -/
def KeyTreeNode.ofPrefix (prefix_ label : String) : KeyTreeNode where
  id := "prefix:" ++ prefix_
  label := label
  nodeType := .prefix_
  prefix_ := some prefix_
  pattern := some (prefix_ ++ "*")
  key := none
  keyCount := 0
  valueType := none
  children := []
  childMap := ∅

/-- `MutableKeyTreeNode::key`. -/
def KeyTreeNode.ofKey (key label : String) (valueType : Option String) : KeyTreeNode where
  id := "key:" ++ key
  label := label
  nodeType := .key
  prefix_ := none
  pattern := none
  key := some key
  keyCount := 1
  valueType := valueType
  children := []
  childMap := ∅

/-- A list of siblings with the map of their prefixes. -/
structure Level where
  siblings : List KeyTreeNode
  siblingMap : Table String ℕ

/-- `get_or_create_prefix`: the level and the index of the node. -/
def getOrCreatePrefix (level : Level) (prefix_ label : String) : Level × ℕ :=
  match level.siblingMap.lookup prefix_ with
  | some index => (level, index)
  | none =>
    (⟨level.siblings ++ [.ofPrefix prefix_ label], level.siblingMap.insert prefix_ level.siblings.length⟩,
      level.siblings.length)

/-- The loop over the segments of a key, from the prefix that has been read. -/
def insertSegments (key : String) (valueType : Option String) : List Char → List (List Char) → Level → Level
  | _, [], level => level
  | _, [last], level =>
    { level with siblings := level.siblings ++ [.ofKey key (keySegmentLabel (String.ofList last)) valueType] }
  | read, segment :: next :: rest, level =>
    let read := read ++ segment ++ [':']
    let (level, index) := getOrCreatePrefix level (String.ofList read) (keySegmentLabel (String.ofList segment))
    { level with
      siblings := level.siblings.modify index fun node ↦
        let inner := insertSegments key valueType read (next :: rest) ⟨node.children, node.childMap⟩
        { node with
          keyCount := node.keyCount + 1
          children := inner.siblings
          childMap := inner.siblingMap } }

/-- The roots after the loop over the keys. -/
def insertKeys (keyTypes : String → Option String) (keys : List String) : Level :=
  keys.foldl (fun roots key ↦ insertSegments key ((keyTypes key).map normalizeRedisType) []
    (key.toList.splitOn ':') roots) ⟨[], ∅⟩

mutual

/-- `into_tree_node`. -/
def intoTreeNode : KeyTreeNode → Redis.KeyTreeNode
  | ⟨id, label, nodeType, prefix_, pattern, key, keyCount, valueType, children, _⟩ =>
    ⟨id, label, nodeType, prefix_, pattern, key, keyCount, valueType, sortKeyTreeNodes (intoTreeNodes children)⟩

/-- `into_tree_node` for each of some nodes. -/
def intoTreeNodes : List KeyTreeNode → List Redis.KeyTreeNode
  | [] => []
  | node :: nodes => intoTreeNode node :: intoTreeNodes nodes

end

/-- `build_key_tree_result`. -/
def buildKeyTreeResult (dbIndex : ℕ) (pattern : String) (keys : List String) (keyTypes : String → Option String) :
    KeyTreeResult where
  dbIndex := dbIndex
  pattern := pattern
  totalKeyCount := keys.length
  nodes := sortKeyTreeNodes (intoTreeNodes (insertKeys keyTypes keys).siblings)

/-! ### Without the maps -/

mutual

/-- A node without its map. -/
def forget : KeyTreeNode → Redis.KeyTreeNode
  | ⟨id, label, nodeType, prefix_, pattern, key, keyCount, valueType, children, _⟩ =>
    ⟨id, label, nodeType, prefix_, pattern, key, keyCount, valueType, forgetAll children⟩

/-- Nodes without their maps. -/
def forgetAll : List KeyTreeNode → List Redis.KeyTreeNode
  | [] => []
  | node :: nodes => forget node :: forgetAll nodes

end

theorem forgetAll_eq_map (nodes : List KeyTreeNode) : forgetAll nodes = nodes.map forget := by
  induction nodes with
  | nil => rfl
  | cons node nodes ih => rw [forgetAll, ih, List.map_cons]

theorem prefix_forget (node : KeyTreeNode) : (forget node).prefix_ = node.prefix_ := by
  cases node
  rw [forget]

mutual

theorem intoTreeNode_forget : ∀ node, Redis.intoTreeNode (forget node) = intoTreeNode node
  | ⟨_, _, _, _, _, _, _, _, children, _⟩ => by
    rw [forget, Redis.intoTreeNode, intoTreeNodes_forgetAll children, intoTreeNode]

theorem intoTreeNodes_forgetAll : ∀ nodes, Redis.intoTreeNodes (forgetAll nodes) = intoTreeNodes nodes
  | [] => rfl
  | node :: nodes => by
    rw [forgetAll, Redis.intoTreeNodes, intoTreeNode_forget node, intoTreeNodes_forgetAll nodes, intoTreeNodes]

end

/-- The place of a prefix among siblings. -/
def placeOf (text : String) (siblings : List KeyTreeNode) : Option ℕ :=
  siblings.findIdx? fun node ↦ node.prefix_ == some text

/-- **The map of a level is right**, there and below. -/
inductive Indexed : Level → Prop
  | mk {level : Level} (hplace : ∀ text, level.siblingMap.lookup text = placeOf text level.siblings)
    (hinner : ∀ node ∈ level.siblings, Indexed ⟨node.children, node.childMap⟩) : Indexed level

theorem indexed_empty : Indexed ⟨[], ∅⟩ :=
  .mk (fun _ ↦ rfl) nofun

section

variable (text : String) (siblings : List KeyTreeNode)
include text siblings

theorem placeOf_forgetAll :
    (forgetAll siblings).findIdx? (fun node ↦ node.prefix_ == some text) = placeOf text siblings := by
  rw [forgetAll_eq_map, List.findIdx?_map, placeOf]
  simp only [Function.comp_def, prefix_forget]

theorem placeOf_eq_map :
    placeOf text siblings = (siblings.map (·.prefix_)).findIdx? (· == some text) := by
  rw [List.findIdx?_map]
  rfl

theorem placeOf_modify (index : ℕ) {change : KeyTreeNode → KeyTreeNode}
    (hchange : ∀ node, (change node).prefix_ = node.prefix_) :
    placeOf text (siblings.modify index change) = placeOf text siblings := by
  rw [placeOf_eq_map, placeOf_eq_map]
  congr 1
  induction siblings generalizing index with
  | nil => rw [List.modify_nil]
  | cons node siblings ih =>
    cases index with
    | zero => rw [List.modify_zero_cons, List.map_cons, hchange, List.map_cons]
    | succ index => rw [List.modify_succ_cons, List.map_cons, ih, List.map_cons]

/-- A node at the end has its place behind the others, unless its prefix is there. -/
theorem placeOf_concat (node : KeyTreeNode) :
    placeOf text (siblings ++ [node]) =
      (placeOf text siblings).or (if node.prefix_ = some text then some siblings.length else none) := by
  rw [placeOf, List.findIdx?_append, List.findIdx?_singleton]
  congr 1
  by_cases hsame : node.prefix_ = some text
  · rw [if_pos hsame, if_pos (beq_iff_eq.2 hsame)]
    simp
  · rw [if_neg hsame, if_neg (mt beq_iff_eq.1 hsame)]
    rfl

end

theorem forget_modify (siblings : List KeyTreeNode) (index : ℕ) {change : KeyTreeNode → KeyTreeNode}
    {change' : Redis.KeyTreeNode → Redis.KeyTreeNode}
    (hchange : ∀ node ∈ siblings, forget (change node) = change' (forget node)) :
    forgetAll (siblings.modify index change) = (forgetAll siblings).modify index change' := by
  induction siblings generalizing index with
  | nil => rw [List.modify_nil, forgetAll, List.modify_nil]
  | cons node siblings ih =>
    cases index with
    | zero =>
      rw [List.modify_zero_cons, forgetAll, forgetAll, List.modify_zero_cons, hchange node List.mem_cons_self]
    | succ index =>
      rw [List.modify_succ_cons, forgetAll, forgetAll, List.modify_succ_cons,
        ih index fun other hother ↦ hchange other (List.mem_cons_of_mem _ hother)]

theorem forgetAll_concat (siblings : List KeyTreeNode) (node : KeyTreeNode) :
    forgetAll (siblings ++ [node]) = forgetAll siblings ++ [forget node] := by
  rw [forgetAll_eq_map, List.map_append, ← forgetAll_eq_map, List.map_singleton]

/-- **Finding a child.** The map finds the node that looking for the prefix finds, and a new node gets its place. -/
theorem Indexed.getOrCreatePrefix {level : Level} (h : Indexed level) (text label : String) :
    Indexed (getOrCreatePrefix level text label).1 ∧
      Redis.getOrCreatePrefix (forgetAll level.siblings) text label =
        (forgetAll (Mutable.getOrCreatePrefix level text label).1.siblings,
          (Mutable.getOrCreatePrefix level text label).2) := by
  obtain ⟨hplace, hinner⟩ := h
  rw [Redis.getOrCreatePrefix, placeOf_forgetAll, Mutable.getOrCreatePrefix, hplace text]
  obtain hnone | ⟨index, hsome⟩ := Option.eq_none_or_eq_some (placeOf text level.siblings)
  · rw [hnone]
    refine ⟨.mk (fun other ↦ ?_) fun node hmem ↦ ?_, ?_⟩
    · rw [Table.lookup_insert, placeOf_concat, hplace other]
      split
      · next hother =>
        have hsame : (KeyTreeNode.ofPrefix text label).prefix_ = some text := rfl
        rw [hother, hnone, if_pos hsame, Option.none_or]
      · next hother =>
        have hne : (KeyTreeNode.ofPrefix text label).prefix_ ≠ some other := fun h ↦ hother (Option.some.inj h).symm
        rw [if_neg hne, Option.or_none]
    · obtain hmem | hmem := List.mem_append.1 hmem
      · exact hinner node hmem
      · rw [List.mem_singleton.1 hmem]
        exact indexed_empty
    · show (forgetAll level.siblings ++ [_], (forgetAll level.siblings).length) = (forgetAll (level.siblings ++ [_]), _)
      rw [forgetAll_concat, forgetAll_eq_map, List.length_map]
      rfl
  · rw [hsome]
    exact ⟨.mk hplace hinner, rfl⟩

/-- **One key.** The maps stay right, and the key goes where looking for its prefixes puts it. -/
theorem Indexed.insertSegments {level : Level} (h : Indexed level) (key : String) (valueType : Option String)
    (read : List Char) (segments : List (List Char)) :
    Indexed (insertSegments key valueType read segments level) ∧
      forgetAll (Mutable.insertSegments key valueType read segments level).siblings =
        Redis.insertSegments key valueType read segments (forgetAll level.siblings) := by
  induction segments generalizing read level with
  | nil => exact ⟨h, rfl⟩
  | cons segment segments ih =>
    cases segments with
    | nil =>
      obtain ⟨hplace, hinner⟩ := h
      refine ⟨.mk (fun text ↦ ?_) fun node hmem ↦ ?_, forgetAll_concat _ _⟩
      · show level.siblingMap.lookup text = placeOf text (level.siblings ++ [_])
        rw [placeOf_concat, hplace text, if_neg nofun, Option.or_none]
      · obtain hmem | hmem := List.mem_append.1 hmem
        · exact hinner node hmem
        · rw [List.mem_singleton.1 hmem]
          exact indexed_empty
    | cons next rest =>
      obtain ⟨hindexed, hfound⟩ :=
        h.getOrCreatePrefix (String.ofList (read ++ segment ++ [':'])) (keySegmentLabel (String.ofList segment))
      rw [Mutable.insertSegments, Redis.insertSegments, hfound]
      generalize Mutable.getOrCreatePrefix level _ _ = found at hindexed
      obtain ⟨level, index⟩ := found
      obtain ⟨hplace, hinner⟩ := hindexed
      refine ⟨.mk (fun text ↦ ?_) fun node hmem ↦ ?_, ?_⟩
      · refine (hplace text).trans (Eq.symm ?_)
        exact placeOf_modify text level.siblings index fun node ↦ rfl
      · obtain ⟨i, hi, rfl⟩ := List.mem_iff_getElem.1 hmem
        rw [List.length_modify] at hi
        rw [List.getElem_modify]
        split
        · exact (ih (hinner _ (List.getElem_mem hi)) _).1
        · exact hinner _ (List.getElem_mem hi)
      · refine forget_modify level.siblings index fun node hmem ↦ ?_
        have hforget := (ih (hinner node hmem) (read ++ segment ++ [':'])).2
        obtain ⟨id, label, nodeType, prefix_, pattern, key', keyCount, valueType', children, childMap⟩ := node
        rw [forget, forget, hforget]

/-- **All keys.** The tree with the maps is the one that looking for prefixes gives. -/
theorem forget_insertKeys (keyTypes : String → Option String) (keys : List String) :
    Indexed (insertKeys keyTypes keys) ∧ forgetAll (insertKeys keyTypes keys).siblings = Redis.insertKeys keyTypes keys := by
  induction keys using List.reverseRecOn with
  | nil => exact ⟨indexed_empty, rfl⟩
  | append_singleton keys key ih =>
    obtain ⟨hindexed, hforget⟩ := ih
    have hlevel : insertKeys keyTypes (keys ++ [key]) = insertSegments key ((keyTypes key).map normalizeRedisType) []
        (key.toList.splitOn ':') (insertKeys keyTypes keys) := by
      rw [insertKeys, List.foldl_append]
      rfl
    have hroots : Redis.insertKeys keyTypes (keys ++ [key]) = Redis.insertSegments key
        ((keyTypes key).map normalizeRedisType) [] (key.toList.splitOn ':') (Redis.insertKeys keyTypes keys) := by
      rw [Redis.insertKeys, List.foldl_append]
      rfl
    rw [hlevel, hroots, ← hforget]
    exact hindexed.insertSegments key _ [] _

/-- The result is the same without the maps. -/
theorem buildKeyTreeResult_eq (dbIndex : ℕ) (pattern : String) (keys : List String)
    (keyTypes : String → Option String) :
    buildKeyTreeResult dbIndex pattern keys keyTypes = Redis.buildKeyTreeResult dbIndex pattern keys keyTypes := by
  rw [buildKeyTreeResult, Redis.buildKeyTreeResult, ← (forget_insertKeys keyTypes keys).2, intoTreeNodes_forgetAll]

/-- **What `build_key_tree_result` builds**: of distinct keys, their key tree. -/
theorem isKeyTree_of_nodup {keys : List String} (hkeys : keys.Nodup) (dbIndex : ℕ) (pattern : String)
    (keyTypes : String → Option String) : IsKeyTree keys (buildKeyTreeResult dbIndex pattern keys keyTypes).nodes := by
  rw [buildKeyTreeResult_eq]
  exact isKeyTree_buildKeyTreeResult hkeys dbIndex pattern keyTypes

/-- A key that another one begins with, a key that ends in a colon, and an empty segment. -/
theorem isKeyTree_nested : IsKeyTree ["a:b", "a:", "a", ":a:b"]
    (buildKeyTreeResult 0 "*" ["a:b", "a:", "a", ":a:b"] fun _ ↦ none).nodes :=
  isKeyTree_of_nodup (by decide) 0 "*" fun _ ↦ none

end Redis.Mutable
