import Mathlib.Algebra.Ring.Nat
import Mathlib.Data.List.Chain
import NexusPilot.Drivers.Error
import NexusPilot.Text.Pattern
import NexusPilot.Text.Split

/-!
# Names of tools for a provider

A tool has an identifier `namespace.tool`, and a provider, which allows no dots, knows it as `np__namespace__tool`. Both
parts are words of lower-case letters and digits with single underscores between them, so that the two underscores
stand out: **`providerName_bijection`** says that the names are those of the identifiers, each of one.

What it rests on is `Tight`: no word has two underscores together, and none ends with one.
-/

namespace Tools

open Text
open Drivers (bind_eq_ok_iff ite_error_eq_ok_iff)

/-! ### The codec -/

/-- `[a-z]`. -/
def lowerLetters : List Char :=
  "abcdefghijklmnopqrstuvwxyz".toList

/-- `[a-z0-9]`. -/
def lowerAlphanumerics : List Char :=
  "abcdefghijklmnopqrstuvwxyz0123456789".toList

/-- `CANONICAL_SEGMENT_PATTERN`: `^[a-z][a-z0-9]*(?:_[a-z0-9]+)*$`. -/
def canonicalSegmentPattern : RegularExpression Char :=
  oneOf lowerLetters * (oneOf lowerAlphanumerics).star *
    (.char '_' * oneOrMore (oneOf lowerAlphanumerics)).star

/-- `PROVIDER_PREFIX`. -/
def providerStart : List Char :=
  "np__".toList

/-- `PROVIDER_SEPARATOR`. -/
def providerSeparator : List Char :=
  "__".toList

/-- `MAX_PROVIDER_TOOL_NAME_LENGTH`. -/
def maxProviderToolNameLength : ℕ :=
  64

/-- `length`, in code units of two bytes. -/
def scriptLength (s : List Char) : ℕ :=
  (s.map fun c ↦ if c.toNat < 0x10000 then 1 else 2).sum

/-- `CanonicalToolIdentity`. -/
structure CanonicalToolIdentity where
  namespaceId : List Char
  localName : List Char
  canonicalId : List Char
  deriving DecidableEq

/-- `assertCanonicalSegment`. -/
def assertCanonicalSegment (segment kind : List Char) : Except (List Char) Unit :=
  if canonicalSegmentPattern.rmatch segment = false then
    .error ("Invalid ".toList ++ kind ++ " segment \"".toList ++ segment ++
      "\": expected lower_snake_case without consecutive underscores".toList)
  else .ok ()

/-- `assertNamespaceId`. -/
def assertNamespaceId (namespaceId : List Char) : Except (List Char) Unit :=
  assertCanonicalSegment namespaceId "namespace".toList

/-- The name of two segments. -/
def providerNameOf (namespaceId localName : List Char) : List Char :=
  providerStart ++ (namespaceId ++ (providerSeparator ++ localName))

/-- An error of `parseCanonicalToolId`. -/
def invalidCanonicalToolId (canonicalId : List Char) (message : String) : List Char :=
  "Invalid canonical Tool ID \"".toList ++ canonicalId ++ "\": ".toList ++ message.toList

/-- `parseCanonicalToolId`. -/
def parseCanonicalToolId (canonicalId : List Char) : Except (List Char) CanonicalToolIdentity :=
  match split ['.'] canonicalId with
  | [namespaceId, localName] => do
    assertCanonicalSegment namespaceId "namespace".toList
    assertCanonicalSegment localName "tool".toList
    if maxProviderToolNameLength < scriptLength (providerNameOf namespaceId localName) then
      .error (invalidCanonicalToolId canonicalId "encoded Provider name exceeds 64 characters")
    else .ok ⟨namespaceId, localName, canonicalId⟩
  | _ => .error (invalidCanonicalToolId canonicalId "expected exactly namespace.tool")

/-- `encodeProviderToolName`. -/
def encodeProviderToolName (canonicalId : List Char) : Except (List Char) (List Char) := do
  let identity ← parseCanonicalToolId canonicalId
  .ok (providerNameOf identity.namespaceId identity.localName)

/-- The error of `decodeProviderToolName`. -/
def invalidProviderToolName (providerName : List Char) : List Char :=
  "Invalid Provider Tool name \"".toList ++ providerName ++ "\"".toList

/-- `decodeProviderToolName`. -/
def decodeProviderToolName (providerName : List Char) : Except (List Char) (List Char) :=
  if maxProviderToolNameLength < scriptLength providerName ∨ providerStart.isPrefixOf providerName = false then
    .error (invalidProviderToolName providerName)
  else
    match split providerSeparator (providerName.drop providerStart.length) with
    | [namespaceId, localName] => do
      let identity ← parseCanonicalToolId (namespaceId ++ ('.' :: localName))
      let encoded ← encodeProviderToolName identity.canonicalId
      if encoded ≠ providerName then .error (invalidProviderToolName providerName)
      else .ok identity.canonicalId
    | _ => .error (invalidProviderToolName providerName)

/-! ### Segments -/

/-- No two underscores stand together, and the last character is not one. -/
structure Tight (s : List Char) : Prop where
  single : s.IsChain fun c d ↦ ¬ (c = '_' ∧ d = '_')
  last : s.getLast? ≠ some '_'

/-- What a segment is made of. -/
structure IsSegment (s : List Char) : Prop where
  ne_nil : s ≠ []
  tight : Tight s
  noDot : '.' ∉ s

variable {s part namespaceId localName canonicalId providerName : List Char}

/-- A text without underscores. -/
theorem tight_of_notMem (h : '_' ∉ s) : Tight s where
  single := List.Pairwise.isChain (List.pairwise_of_forall_mem_list fun _ hc _ _ hboth ↦ h (hboth.1 ▸ hc))
  last := fun hlast ↦ h (List.mem_of_getLast? hlast)

/-- An underscore and a text without underscores behind it. -/
theorem Tight.append (hs : Tight s) (hne : part ≠ []) (hpart : '_' ∉ part) :
    Tight (s ++ '_' :: part) := by
  have hcons : ('_' :: part).IsChain fun c d ↦ ¬ (c = '_' ∧ d = '_') := by
    refine List.isChain_cons.2 ⟨fun d hd hboth ↦ ?_, (tight_of_notMem hpart).single⟩
    exact hpart (hboth.2 ▸ List.mem_of_mem_head? hd)
  constructor
  · refine List.isChain_append.2 ⟨hs.single, hcons, fun c hc d _ hboth ↦ ?_⟩
    exact hs.last (hboth.1 ▸ hc)
  · intro hlast
    rw [List.getLast?_append_of_ne_nil _ (List.cons_ne_nil _ _), List.getLast?_cons_of_ne_nil hne] at hlast
    exact hpart (List.mem_of_getLast? hlast)

/-- A repeated group of the pattern. -/
theorem mem_group
    (h : part ∈ (.char '_' * oneOrMore (oneOf lowerAlphanumerics) : RegularExpression Char).matches') :
    ∃ word, word ≠ [] ∧ (∀ c ∈ word, c ∈ lowerAlphanumerics) ∧ part = '_' :: word := by
  rw [RegularExpression.matches'_mul, Language.mem_mul] at h
  obtain ⟨first, hfirst, word, hword, rfl⟩ := h
  rw [RegularExpression.matches'_char] at hfirst
  obtain rfl : first = ['_'] := hfirst
  obtain ⟨hne, hchars⟩ := mem_oneOrMore_oneOf.1 hword
  exact ⟨word, hne, hchars, rfl⟩

theorem underscore_notMem : '_' ∉ lowerAlphanumerics := by
  decide +kernel

theorem dot_notMem : '.' ∉ lowerAlphanumerics := by
  decide +kernel

theorem lowerLetters_subset : lowerLetters ⊆ lowerAlphanumerics :=
  fun _ h ↦ List.mem_append_left "0123456789".toList h

/-- Groups that are put behind a segment leave it a segment. -/
theorem IsSegment.append_groups (hs : IsSegment s) {parts : List (List Char)}
    (hparts : ∀ part ∈ parts, ∃ word, word ≠ [] ∧ (∀ c ∈ word, c ∈ lowerAlphanumerics) ∧ part = '_' :: word) :
    IsSegment (s ++ parts.flatten) := by
  induction parts generalizing s with
  | nil => rwa [List.flatten_nil, List.append_nil]
  | cons part parts ih =>
    obtain ⟨⟨word, hne, hchars, rfl⟩, hrest⟩ := List.forall_mem_cons.1 hparts
    rw [List.flatten_cons, ← List.append_assoc]
    refine ih ⟨?_, hs.tight.append hne fun h ↦ underscore_notMem (hchars _ h), ?_⟩ hrest
    · exact List.append_ne_nil_of_left_ne_nil hs.ne_nil _
    · rw [List.mem_append, List.mem_cons]
      rintro (h | h | h)
      · exact hs.noDot h
      · exact absurd h (by decide)
      · exact dot_notMem (hchars _ h)

/-- **What the pattern accepts is a segment.** -/
theorem isSegment_of_match (h : canonicalSegmentPattern.rmatch s = true) : IsSegment s := by
  rw [RegularExpression.rmatch_iff_matches', canonicalSegmentPattern, RegularExpression.matches'_mul,
    Language.mem_mul] at h
  obtain ⟨word, hword, groups, hgroups, rfl⟩ := h
  rw [RegularExpression.matches'_mul, Language.mem_mul] at hword
  obtain ⟨first, hfirst, rest, hrest, rfl⟩ := hword
  obtain ⟨c, hc, rfl⟩ := mem_oneOf.1 hfirst
  rw [RegularExpression.matches'_star, Language.mem_kstar] at hgroups
  obtain ⟨parts, rfl, hparts⟩ := hgroups
  have hchars : ∀ d ∈ [c] ++ rest, d ∈ lowerAlphanumerics :=
    List.forall_mem_cons.2 ⟨lowerLetters_subset hc, mem_star_oneOf.1 hrest⟩
  refine IsSegment.append_groups ⟨List.cons_ne_nil _ _, tight_of_notMem ?_, ?_⟩ fun part hpart ↦
    mem_group (hparts part hpart)
  · exact fun h ↦ underscore_notMem (hchars _ h)
  · exact fun h ↦ dot_notMem (hchars _ h)

/-- The separator does not stand in a segment. -/
theorem Tight.not_infix (h : Tight s) : ¬ providerSeparator <:+: s := by
  rintro ⟨before, after, rfl⟩
  have hchain : (before ++ '_' :: '_' :: after).IsChain fun c d ↦ ¬ (c = '_' ∧ d = '_') := by
    have hsingle := h.single
    rwa [List.append_assoc] at hsingle
  exact (List.isChain_append_cons_cons.1 hchain).2.1 ⟨rfl, rfl⟩

/-- An identifier falls into its segments. -/
theorem split_dot (hnamespace : IsSegment namespaceId) (hlocal : IsSegment localName) :
    split ['.'] (namespaceId ++ '.' :: localName) = [namespaceId, localName] := by
  have hrest : split ['.'] localName = [localName] :=
    split_of_not_infix fun hinside ↦ hlocal.noDot (hinside.subset List.mem_cons_self)
  rw [← hrest]
  refine split_append (List.cons_ne_nil _ _) fun before after heq hne hstands ↦ ?_
  obtain ⟨c, after, rfl⟩ := List.exists_cons_of_ne_nil hne
  have hc : '.' = c := (List.cons_prefix_cons.1 hstands).1
  exact hnamespace.noDot (heq ▸ List.mem_append_right _ (hc ▸ List.mem_cons_self))

/-- A name falls into the segments of its identifier: the first two underscores that stand together are those of the
separator. -/
theorem split_name (hnamespace : IsSegment namespaceId) (hlocal : IsSegment localName) :
    split providerSeparator (namespaceId ++ (providerSeparator ++ localName)) = [namespaceId, localName] := by
  rw [← split_of_not_infix hlocal.tight.not_infix]
  refine split_append (by decide) fun before after heq hne hstands ↦ ?_
  obtain ⟨c, after, rfl⟩ := List.exists_cons_of_ne_nil hne
  have hstands' : '_' :: ['_'] <+: c :: (after ++ (providerSeparator ++ localName)) := hstands
  obtain ⟨hc, htail⟩ := List.cons_prefix_cons.1 hstands'
  cases after with
  | nil =>
    -- the segment would end with an underscore
    refine hnamespace.tight.last ?_
    rw [heq, List.getLast?_append_cons, List.getLast?_singleton, ← hc]
  | cons d after =>
    have hd : '_' = d := (List.cons_prefix_cons.1 htail).1
    refine hnamespace.tight.not_infix ⟨before, after, ?_⟩
    rw [heq, ← hc, ← hd, List.append_assoc]
    rfl

/-! ### What the codec accepts -/

/-- Two segments with a name that is short enough. -/
structure AreSegments (namespaceId localName : List Char) : Prop where
  first : canonicalSegmentPattern.rmatch namespaceId = true
  second : canonicalSegmentPattern.rmatch localName = true
  short : scriptLength (providerNameOf namespaceId localName) ≤ maxProviderToolNameLength

theorem assertCanonicalSegment_eq_ok_iff {segment kind : List Char} {u : Unit} :
    assertCanonicalSegment segment kind = .ok u ↔ canonicalSegmentPattern.rmatch segment = true := by
  rw [assertCanonicalSegment, ite_error_eq_ok_iff, Bool.not_eq_false]
  exact and_iff_left rfl

/-- **The identifiers that are accepted.** -/
theorem parseCanonicalToolId_eq_ok_iff {identity : CanonicalToolIdentity} :
    parseCanonicalToolId canonicalId = .ok identity ↔
      ∃ namespaceId localName, AreSegments namespaceId localName ∧
        canonicalId = namespaceId ++ '.' :: localName ∧ identity = ⟨namespaceId, localName, canonicalId⟩ := by
  constructor
  · intro h
    have hjoin := intercalate_split (List.cons_ne_nil '.' []) canonicalId
    rw [parseCanonicalToolId] at h
    split at h
    · next namespaceId localName hsplit =>
      rw [hsplit] at hjoin
      obtain ⟨⟨⟩, hnamespace, h⟩ := bind_eq_ok_iff.1 h
      obtain ⟨⟨⟩, hlocal, h⟩ := bind_eq_ok_iff.1 h
      obtain ⟨hshort, h⟩ := ite_error_eq_ok_iff.1 h
      refine ⟨namespaceId, localName, ⟨assertCanonicalSegment_eq_ok_iff.1 hnamespace,
        assertCanonicalSegment_eq_ok_iff.1 hlocal, not_lt.1 hshort⟩, ?_, (Except.ok.inj h).symm⟩
      rw [← hjoin, List.intercalate_cons_cons, List.intercalate_singleton, List.append_assoc]
      rfl
    · cases h
  · rintro ⟨namespaceId, localName, hsegments, rfl, rfl⟩
    have hnamespace := isSegment_of_match hsegments.first
    have hlocal := isSegment_of_match hsegments.second
    rw [parseCanonicalToolId, split_dot hnamespace hlocal]
    refine bind_eq_ok_iff.2 ⟨(), assertCanonicalSegment_eq_ok_iff.2 hsegments.first, ?_⟩
    refine bind_eq_ok_iff.2 ⟨(), assertCanonicalSegment_eq_ok_iff.2 hsegments.second, ?_⟩
    exact ite_error_eq_ok_iff.2 ⟨not_lt.2 hsegments.short, rfl⟩

theorem encodeProviderToolName_eq_ok_iff :
    encodeProviderToolName canonicalId = .ok providerName ↔
      ∃ namespaceId localName, AreSegments namespaceId localName ∧
        canonicalId = namespaceId ++ '.' :: localName ∧ providerName = providerNameOf namespaceId localName := by
  constructor
  · intro h
    obtain ⟨identity, hparse, h⟩ := bind_eq_ok_iff.1 h
    obtain ⟨namespaceId, localName, hsegments, hid, rfl⟩ := parseCanonicalToolId_eq_ok_iff.1 hparse
    exact ⟨namespaceId, localName, hsegments, hid, (Except.ok.inj h).symm⟩
  · rintro ⟨namespaceId, localName, hsegments, hid, rfl⟩
    exact bind_eq_ok_iff.2 ⟨_, parseCanonicalToolId_eq_ok_iff.2 ⟨namespaceId, localName, hsegments, hid, rfl⟩, rfl⟩

/-! ### The round trips -/

/-- An identifier is read back from its name. -/
theorem decode_encode (h : encodeProviderToolName canonicalId = .ok providerName) :
    decodeProviderToolName providerName = .ok canonicalId := by
  obtain ⟨namespaceId, localName, hsegments, rfl, rfl⟩ := encodeProviderToolName_eq_ok_iff.1 h
  have hnamespace := isSegment_of_match hsegments.first
  have hlocal := isSegment_of_match hsegments.second
  have hstands : providerStart.isPrefixOf (providerNameOf namespaceId localName) = true :=
    List.isPrefixOf_iff_prefix.2 (List.prefix_append _ _)
  have hdrop : (providerNameOf namespaceId localName).drop providerStart.length =
      namespaceId ++ (providerSeparator ++ localName) := List.drop_left
  rw [decodeProviderToolName, if_neg, hdrop, split_name hnamespace hlocal]
  · have hparse := parseCanonicalToolId_eq_ok_iff.2 ⟨namespaceId, localName, hsegments, rfl, rfl⟩
    exact bind_eq_ok_iff.2 ⟨_, hparse, bind_eq_ok_iff.2 ⟨_, h, ite_error_eq_ok_iff.2 ⟨fun hne ↦ hne rfl, rfl⟩⟩⟩
  · rw [hstands]
    exact fun hrefused ↦ hrefused.elim (not_lt.2 hsegments.short) (nofun)

/-- A name that is accepted is the name of what it is read as. -/
theorem encode_decode (h : decodeProviderToolName providerName = .ok canonicalId) :
    encodeProviderToolName canonicalId = .ok providerName := by
  rw [decodeProviderToolName] at h
  obtain ⟨-, h⟩ := ite_error_eq_ok_iff.1 h
  split at h
  · obtain ⟨identity, -, h⟩ := bind_eq_ok_iff.1 h
    obtain ⟨encoded, hencode, h⟩ := bind_eq_ok_iff.1 h
    obtain ⟨hsame, h⟩ := ite_error_eq_ok_iff.1 h
    rw [← Except.ok.inj h, hencode, not_not.1 hsame]
  · cases h

/-- **The names of tools.** An accepted identifier has a name and is read back from it; an accepted name is the name of
what it is read as; and no two identifiers share a name. -/
theorem providerName_bijection :
    (∀ canonicalId identity, parseCanonicalToolId canonicalId = .ok identity →
      ∃ providerName, encodeProviderToolName canonicalId = .ok providerName ∧
        decodeProviderToolName providerName = .ok canonicalId) ∧
      (∀ providerName canonicalId, decodeProviderToolName providerName = .ok canonicalId →
        encodeProviderToolName canonicalId = .ok providerName) ∧
      ∀ canonicalId canonicalId' providerName, encodeProviderToolName canonicalId = .ok providerName →
        encodeProviderToolName canonicalId' = .ok providerName → canonicalId = canonicalId' := by
  refine ⟨fun canonicalId identity hparse ↦ ?_, fun providerName canonicalId h ↦ encode_decode h,
    fun canonicalId canonicalId' providerName h h' ↦ ?_⟩
  · have hencode : encodeProviderToolName canonicalId =
        .ok (providerNameOf identity.namespaceId identity.localName) := bind_eq_ok_iff.2 ⟨identity, hparse, rfl⟩
    exact ⟨_, hencode, decode_encode hencode⟩
  · exact Except.ok.inj ((decode_encode h).symm.trans (decode_encode h'))

theorem decode_encode_sample :
    ∃ providerName, encodeProviderToolName "data.run_query".toList = .ok providerName ∧
      decodeProviderToolName providerName = .ok "data.run_query".toList :=
  providerName_bijection.1 _ ⟨"data".toList, "run_query".toList, "data.run_query".toList⟩ (by decide +kernel)

/-- Words that the underscores of the separator would run into are not segments. -/
example : canonicalSegmentPattern.rmatch "data_".toList = false ∧
    canonicalSegmentPattern.rmatch "run__query".toList = false := by
  decide +kernel

end Tools
