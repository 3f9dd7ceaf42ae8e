import Mathlib.Data.Finset.Card
import Mathlib.Data.List.Dedup
import NexusPilot.Drivers.Error
import NexusPilot.Redis.KeyTree
import NexusPilot.Text.Std

/-!
# Deleting the keys below a prefix

`delete_key_prefix`: the pattern of a prefix node is trimmed, a full scan collects the keys that match it,
and these are deleted in batches. The pattern is the prefix as it stands with a star behind it, so that a
prefix with special characters, or with white space at its front, is not what is deleted.
`deletesPrefix_iff` says that these are exactly the prefixes that go wrong.

The commands are taken to be answered, and nobody else writes to the database. Texts are matched character
by character.
-/

namespace Redis

open Drivers Text

/-- `RedisDeleteKeyPrefixRequest`. -/
structure DeleteKeyPrefixRequest where
  dbIndex : ℕ
  pattern : String
  deriving DecidableEq

/-- `RedisDeleteKeyResult`. -/
structure DeleteKeyResult where
  dbIndex : ℕ
  key : Option String
  pattern : Option String
  deletedCount : ℕ
  deriving DecidableEq

/-- The keys of a database. -/
abbrev Database :=
  Finset String

/-- `DELETE_BATCH_SIZE`. -/
def deleteBatchSize : ℕ :=
  500

/-- `validate_delete_key_prefix_request`. -/
def validateDeleteKeyPrefixRequest (request : DeleteKeyPrefixRequest) : IpcResult Unit :=
  let pattern := trim request.pattern.toList
  if pattern = [] then .error (.invalid "Redis delete prefix pattern must not be empty")
  else if pattern = ['*'] then
    .error (.invalid "Redis delete prefix pattern must not be global wildcard '*'")
  else .ok ()

/-- The answers to the `SCAN` commands of the loop, each with the next cursor: the keys up to the answer with
the cursor 0, if there is one. -/
def scannedKeys : List (ℕ × List String) → Option (List String)
  | [] => none
  | (cursor, batch) :: answers => if cursor = 0 then some batch else (scannedKeys answers).map (batch ++ ·)

/-- A full scan: every key that matches is returned at least once, and no other key. -/
def FullScan (db : Database) (pattern : List Char) (answers : List (ℕ × List String)) : Prop :=
  ∃ keys, scannedKeys answers = some keys ∧
    ∀ key, key ∈ keys ↔ key ∈ db ∧ globMatches pattern key.toList = true

/-- The keys of a `BTreeSet`. -/
def keySet (keys : List String) : List String :=
  keys.dedup.insertionSort fun a b ↦ ¬ b < a

/-- At most `count` pieces of a list. -/
def chunksUpTo {α : Type} (size : ℕ) : ℕ → List α → List (List α)
  | 0, _ => []
  | _ + 1, [] => []
  | count + 1, item :: items =>
    (item :: items).take size :: chunksUpTo size count ((item :: items).drop size)

/-- A list in pieces of a length, as `chunks` gives them. -/
def chunks {α : Type} (size : ℕ) (items : List α) : List (List α) :=
  chunksUpTo size items.length items

/-- The command `DEL`: how many keys it has deleted, and the database. -/
def del (db : Database) (keys : List String) : ℕ × Database :=
  ((db.filter (· ∈ keys)).card, db.filter (· ∉ keys))

/-- `delete_matching_keys`. -/
def deleteMatchingKeys (db : Database) (keys : List String) : ℕ × Database :=
  (chunks deleteBatchSize keys).foldl (fun state chunk ↦
    let (count, db) := del state.2 chunk
    (state.1 + count, db)) (0, db)

/-- `delete_key_prefix`, on the answers to its scan: the loop of the scan does not end where they never come
to the cursor 0. -/
def deleteKeyPrefix (request : DeleteKeyPrefixRequest) (answers : List (ℕ × List String)) (db : Database) :
    Option (IpcResult DeleteKeyResult × Database) :=
  match validateDeleteKeyPrefixRequest request with
  | .error error => some (.error error, db)
  | .ok () => (scannedKeys answers).map fun keys ↦
    let (deletedCount, db) := deleteMatchingKeys db (keySet keys)
    (.ok
      { dbIndex := request.dbIndex
        key := none
        pattern := some (String.ofList (trim request.pattern.toList))
        deletedCount := deletedCount }, db)

/-! ### What is deleted -/

/-- **The prefix is deleted**: the call refuses and leaves the database as it is, or it deletes exactly the keys
that start with the prefix and says how many they were. -/
def DeletesPrefix (text : String) (db : Database) (outcome : Option (IpcResult DeleteKeyResult × Database)) :
    Prop :=
  (∃ error, outcome = some (.error error, db)) ∨
    ∃ result, outcome = some (.ok result, db.filter fun key ↦ ¬ text.toList <+: key.toList) ∧
      result.deletedCount = (db.filter fun key ↦ text.toList <+: key.toList).card

theorem mem_keySet {key : String} {keys : List String} : key ∈ keySet keys ↔ key ∈ keys := by
  rw [keySet, (List.perm_insertionSort _ _).mem_iff, List.mem_dedup]

theorem foldl_del (batches : List (List String)) (count : ℕ) (db : Database) :
    batches.foldl (fun state chunk ↦
        let (deleted, db) := del state.2 chunk
        (state.1 + deleted, db)) (count, db) =
      (count + (db.filter (· ∈ batches.flatten)).card, db.filter (· ∉ batches.flatten)) := by
  induction batches generalizing count db with
  | nil => simp
  | cons batch batches ih =>
    rw [List.foldl_cons, List.flatten_cons]
    show batches.foldl _ (count + (db.filter (· ∈ batch)).card, db.filter (· ∉ batch)) = _
    rw [ih, Finset.filter_filter, Finset.filter_filter]
    have hsplit : (db.filter (· ∈ batch)).card + (db.filter fun key ↦ key ∉ batch ∧ key ∈ batches.flatten).card =
        (db.filter (· ∈ batch ++ batches.flatten)).card := by
      rw [← Finset.card_union_of_disjoint]
      · congr 1
        ext key
        simp only [Finset.mem_union, Finset.mem_filter, List.mem_append]
        tauto
      · rw [Finset.disjoint_filter]
        exact fun key _ hin hout ↦ hout.1 hin
    refine Prod.ext ?_ ?_
    · show count + _ + _ = count + _
      rw [Nat.add_assoc, hsplit]
    · ext key
      simp only [Finset.mem_filter, List.mem_append]
      tauto

theorem chunks_flatten {α : Type} {size : ℕ} (hsize : 0 < size) (items : List α) :
    (chunks size items).flatten = items := by
  have hcount : ∀ (count : ℕ) (items : List α), items.length ≤ count →
      (chunksUpTo size count items).flatten = items := by
    intro count
    induction count with
    | zero =>
      intro items hlength
      rw [List.length_eq_zero_iff.1 (Nat.le_zero.1 hlength)]
      rfl
    | succ count ih =>
      intro items hlength
      cases items with
      | nil => rfl
      | cons item items =>
        have hdrop : ((item :: items).drop size).length ≤ count := by
          rw [List.length_drop]
          omega
        rw [chunksUpTo, List.flatten_cons, ih _ hdrop, List.take_append_drop]
  exact hcount items.length items (Nat.le_refl _)

/-- **Deleting in batches** deletes all the keys. -/
theorem deleteMatchingKeys_eq (db : Database) (keys : List String) :
    deleteMatchingKeys db keys = ((db.filter (· ∈ keys)).card, db.filter (· ∉ keys)) := by
  rw [deleteMatchingKeys, foldl_del, chunks_flatten (by decide), Nat.zero_add]

/-! ### Which prefixes are deleted -/

/-- **A plain prefix**: no character has a meaning in a pattern, and it does not begin with white space. -/
def PlainPrefix (text : String) : Prop :=
  (∀ c ∈ text.toList, isGlobSpecial c = false) ∧ ∀ c, text.toList.head? = some c → isWhitespace c = false

/-- The pattern that is sent: the white space at the front of the prefix is lost. -/
theorem trim_append_star (text : List Char) :
    trim (text ++ ['*']) = text.dropWhile isWhitespace ++ ['*'] := by
  have hstar : isWhitespace '*' = false := by decide
  have hstart : trimStart (text ++ ['*']) = text.dropWhile isWhitespace ++ ['*'] := by
    rw [trimStart, List.dropWhile_append]
    split_ifs with h
    · rw [List.isEmpty_iff.1 h, List.dropWhile_cons, hstar]
      rfl
    · rfl
  rw [trim, hstart, List.reverse_append, List.reverse_singleton, List.singleton_append, List.dropWhile_cons,
    hstar]
  simp

/-- The outcome of a call whose pattern is a prefix with a star behind it. -/
theorem deleteKeyPrefix_eq {text : String} (hlast : text.toList.getLast? = some ':') {dbIndex : ℕ}
    {answers : List (ℕ × List String)} {db : Database}
    (hscan : FullScan db (text.toList.dropWhile isWhitespace ++ ['*']) answers) :
    ∃ result, deleteKeyPrefix ⟨dbIndex, text ++ "*"⟩ answers db =
        some (.ok result, db.filter fun key ↦
          ¬ globMatches (text.toList.dropWhile isWhitespace ++ ['*']) key.toList = true) ∧
      result.deletedCount = (db.filter fun key ↦
        globMatches (text.toList.dropWhile isWhitespace ++ ['*']) key.toList = true).card := by
  have htext : (text ++ "*").toList = text.toList ++ ['*'] := by simp
  have hcolon : ':' ∈ text.toList.dropWhile isWhitespace := by
    obtain ⟨before, hbefore⟩ := List.getLast?_eq_some_iff.1 hlast
    rw [hbefore, List.dropWhile_append]
    split_ifs
    · simp [isWhitespace]
    · simp
  have hvalid : validateDeleteKeyPrefixRequest ⟨dbIndex, text ++ "*"⟩ = .ok () := by
    rw [validateDeleteKeyPrefixRequest]
    simp only [htext, trim_append_star]
    rw [if_neg (by simp), if_neg]
    intro heq
    have hnil : text.toList.dropWhile isWhitespace = [] := by simpa using heq
    rw [hnil] at hcolon
    cases hcolon
  obtain ⟨keys, hkeys, hmem⟩ := hscan
  have hin : ∀ key ∈ db, key ∈ keySet keys ↔
      globMatches (text.toList.dropWhile isWhitespace ++ ['*']) key.toList = true := by
    intro key hkey
    rw [mem_keySet, hmem, and_iff_right hkey]
  rw [deleteKeyPrefix, hvalid, hkeys]
  refine ⟨_, congrArg some (Prod.ext rfl ?_), ?_⟩
  · show (deleteMatchingKeys db (keySet keys)).2 = _
    rw [deleteMatchingKeys_eq]
    exact Finset.filter_congr fun key hkey ↦ not_congr (hin key hkey)
  · show (deleteMatchingKeys db (keySet keys)).1 = _
    rw [deleteMatchingKeys_eq]
    exact congrArg Finset.card (Finset.filter_congr fun key hkey ↦ hin key hkey)

/-- **Which prefix nodes are deleted as they are shown.** Calling `delete_key_prefix` with the pattern of a prefix
node of the key tree deletes exactly the keys that start with the prefix, or refuses, whatever the database holds
beside the keys of the tree: this is so exactly when the prefix is plain. -/
theorem deletesPrefix_iff {keys : List String} {node : KeyTreeNode} {dbIndex : ℕ} {treePattern : String}
    {keyTypes : String → Option String}
    (hnode : node.Occurs (buildKeyTreeResult dbIndex treePattern keys keyTypes).nodes)
    {text pattern : String} (htext : node.prefix_ = some text) (hpattern : node.pattern = some pattern) :
    (∀ (db : Database) (answers : List (ℕ × List String)), (∀ key ∈ keys, key ∈ db) →
      FullScan db (trim pattern.toList) answers →
        DeletesPrefix text db (deleteKeyPrefix ⟨dbIndex, pattern⟩ answers db)) ↔ PlainPrefix text := by
  obtain ⟨hsame, hlast, -⟩ := prefixNode_of_occurs hnode text htext
  obtain rfl : text ++ "*" = pattern := Option.some.inj (hsame.symm.trans hpattern)
  have hsent : trim (text ++ "*").toList = text.toList.dropWhile isWhitespace ++ ['*'] := by
    have htoList : (text ++ "*").toList = text.toList ++ ['*'] := by simp
    rw [htoList, trim_append_star]
  rw [hsent]
  constructor
  · intro hall
    by_contra hplain
    -- a text that tells the pattern from the prefix
    have hspecial : text.toList.takeWhile isWhitespace ≠ [] ∨
        ∃ c ∈ text.toList.dropWhile isWhitespace, isGlobSpecial c = true := by
      by_contra hnone
      rw [not_or, not_not] at hnone
      obtain ⟨hlost, hspecial⟩ := hnone
      have hkept : text.toList.dropWhile isWhitespace = text.toList := by
        conv_rhs => rw [← List.takeWhile_append_dropWhile (p := isWhitespace) (l := text.toList), hlost]
        rfl
      rw [hkept] at hspecial
      refine hplain ⟨fun c hc ↦ by simpa using fun h ↦ hspecial ⟨c, hc, h⟩, fun c hc ↦ ?_⟩
      by_contra hspace
      obtain ⟨rest, hrest⟩ := List.head?_eq_some_iff.1 hc
      rw [hrest, List.takeWhile_cons, if_pos (by simpa using hspace)] at hlost
      cases hlost
    have hend : ∀ c, (text.toList.dropWhile isWhitespace).getLast? = some c → isGlobShort c = false := by
      intro c hc
      obtain ⟨before, hbefore⟩ := List.getLast?_eq_some_iff.1 hlast
      have hcolon : c = ':' := by
        have hsuffix := List.dropWhile_suffix (l := text.toList) isWhitespace
        obtain ⟨front, hfront⟩ := hsuffix
        rw [← hfront, List.getLast?_append, hc] at hlast
        simpa using hlast
      rw [hcolon]
      decide
    obtain ⟨other, hother⟩ := exists_match_ne_prefix hspecial hend
    rw [List.takeWhile_append_dropWhile] at hother
    have hfull : FullScan (insert (String.ofList other) keys.toFinset)
        (text.toList.dropWhile isWhitespace ++ ['*'])
        [(0, (String.ofList other :: keys).filter fun key ↦
          globMatches (text.toList.dropWhile isWhitespace ++ ['*']) key.toList = true)] := by
      refine ⟨_, rfl, fun key ↦ ?_⟩
      rw [List.mem_filter, decide_eq_true_eq, List.mem_cons, Finset.mem_insert, List.mem_toFinset]
    obtain ⟨result, houtcome, -⟩ := @deleteKeyPrefix_eq text hlast dbIndex _ _ hfull
    obtain ⟨error, hrefused⟩ | ⟨result', hexact, -⟩ := hall _ _
        (fun key hkey ↦ Finset.mem_insert_of_mem (List.mem_toFinset.2 hkey)) hfull
    · rw [houtcome] at hrefused
      cases hrefused
    · rw [houtcome] at hexact
      have hdb := (Prod.ext_iff.1 (Option.some.inj hexact)).2
      have hmem := Finset.ext_iff.1 hdb (String.ofList other)
      simp only [Finset.mem_filter, Finset.mem_insert_self, true_and, String.toList_ofList, not_iff_not] at hmem
      exact hother hmem
  · rintro ⟨hplain, hhead⟩ db answers - hscan
    have hkept : text.toList.dropWhile isWhitespace = text.toList := by
      cases hchars : text.toList with
      | nil => rfl
      | cons c rest =>
        have hc := hhead c (by rw [hchars, List.head?_cons])
        rw [List.dropWhile_cons, if_neg (by simpa using hc)]
    obtain ⟨result, houtcome, hcount⟩ := @deleteKeyPrefix_eq text hlast dbIndex _ _ hscan
    rw [hkept] at houtcome hcount
    simp only [globMatches_append_star_iff hplain] at houtcome hcount
    exact .inr ⟨result, houtcome, hcount⟩

namespace Sample

/-- The root of the tree of one key. -/
theorem occurs_root (key : String) {node : KeyTreeNode}
    (h : (buildKeyTreeResult 0 "*" [key] fun _ ↦ none).nodes.head? = some node) :
    node.Occurs (buildKeyTreeResult 0 "*" [key] fun _ ↦ none).nodes :=
  .root (List.mem_of_head? h)

/-- One answer that returns the keys that match is a full scan. -/
theorem fullScan_single {db : Database} {pattern : List Char} {keys : List String}
    (hin : ∀ key ∈ db, globMatches pattern key.toList = true → key ∈ keys)
    (hout : ∀ key ∈ keys, key ∈ db ∧ globMatches pattern key.toList = true) :
    FullScan db pattern [(0, keys)] :=
  ⟨keys, rfl, fun key ↦ ⟨hout key, fun h ↦ hin key h.1 h.2⟩⟩

/-- The keys below `user:` are deleted, and no others. -/
theorem user_deleted :
    DeletesPrefix "user:" {"user:1", "users"} (deleteKeyPrefix ⟨0, "user:*"⟩ [(0, ["user:1"])] {"user:1", "users"}) := by
  have hplain : PlainPrefix "user:" := by
    have hall : "user:".toList.all fun c ↦ !isGlobSpecial c := by decide
    refine ⟨fun c hc ↦ by simpa using List.all_eq_true.1 hall c hc, ?_⟩
    intro c hc
    have huser : 'u' = c := Option.some.inj (show some 'u' = some c from hc)
    rw [← huser]
    decide
  exact (deletesPrefix_iff (occurs_root "user:1" rfl) rfl rfl).2 hplain {"user:1", "users"} _ (by decide)
    (fullScan_single (by decide) (by decide))

/-- The pattern of the prefix `a*b:` also deletes a key that does not start with it. -/
theorem star_deletes_more :
    (∃ node : KeyTreeNode, node.prefix_ = some "a*b:" ∧ node.pattern = some "a*b:*" ∧
      node.Occurs (buildKeyTreeResult 0 "*" ["a*b:1", "axb:2"] fun _ ↦ none).nodes) ∧
    FullScan {"a*b:1", "axb:2"} (trim "a*b:*".toList) [(0, ["a*b:1", "axb:2"])] ∧
    ¬ DeletesPrefix "a*b:" {"a*b:1", "axb:2"}
      (deleteKeyPrefix ⟨0, "a*b:*"⟩ [(0, ["a*b:1", "axb:2"])] {"a*b:1", "axb:2"}) := by
  refine ⟨?_, fullScan_single (by decide) (by decide), ?_⟩
  · have hhead : ((buildKeyTreeResult 0 "*" ["a*b:1", "axb:2"] fun _ ↦ none).nodes.head?.map fun node ↦
        (node.prefix_, node.pattern)) = some (some "a*b:", some "a*b:*") := rfl
    obtain ⟨node, hnode, heq⟩ := Option.map_eq_some_iff.1 hhead
    exact ⟨node, congrArg Prod.fst heq, congrArg Prod.snd heq, .root (List.mem_of_head? hnode)⟩
  · have houtcome : (deleteKeyPrefix ⟨0, "a*b:*"⟩ [(0, ["a*b:1", "axb:2"])] {"a*b:1", "axb:2"}).map (·.2) =
        some (∅ : Database) := by decide
    rintro (⟨error, h⟩ | ⟨result, h, -⟩)
    · rw [h] at houtcome
      have hempty : ({"a*b:1", "axb:2"} : Database) = ∅ := Option.some.inj houtcome
      exact absurd hempty (by decide)
    · rw [h] at houtcome
      have hempty : (({"a*b:1", "axb:2"} : Database).filter fun key ↦ ¬ "a*b:".toList <+: key.toList) = ∅ :=
        Option.some.inj houtcome
      exact absurd hempty (by decide)

end Sample

end Redis
