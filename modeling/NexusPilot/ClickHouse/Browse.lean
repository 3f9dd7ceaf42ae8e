import NexusPilot.ClickHouse.GridChange
import NexusPilot.Drivers.Browse
import NexusPilot.Text.Markers

/-!
# The query of a page of a ClickHouse table

`build_browse_sql`: the query that reads one page of a table, with a placeholder for the operand of each
filter. The names of the table and of its columns are written into the same text, quoted for ClickHouse,
but with their question marks as they are. `browsePieces` is the query as it is meant, each operand in its
place, and **`buildBrowseSql_eq_ok`** says that the text and the bindings are made from it.
-/

namespace ClickHouse

open Drivers Markers Schema Text

/-! ### The query of a page -/

/-- A container with the parts of its address that a table does not have. -/
structure BrowseContainer extends ContainerRef where
  groupType : Option String
  column : Option String
  dbIndex : Option ℕ
  key : Option String
  pattern : Option String
  deriving DecidableEq

def MAX_PAGE_SIZE : ℕ := 1000

/-- A result of `checked_mul` or of `checked_add` on a `u64`. -/
def checkedU64 (n : ℕ) (message : String) : IpcResult ℕ :=
  if n < 2 ^ 64 then .ok n else .error (.invalid message)

/-- `validate_table_like_address`. -/
def validateTableLikeAddress (container : BrowseContainer) : IpcResult (String × String) :=
  if container.kind ∉ [.table, .view, .materializedView] ∨ container.groupType.isSome ∨ container.schema.isSome ∨
      container.column.isSome ∨ container.objectName.isSome ∨ container.dbIndex.isSome ∨
      container.key.isSome ∨ container.pattern.isSome then
    .error (.invalid "ClickHouse table browsing requires a complete table-like address")
  else do
    let database ← requireName container.database "ClickHouse database name is required"
    let object ← requireName container.table "ClickHouse object name is required"
    return (database, object)

/-- `validate_page_size`. -/
def validatePageSize (pageSize : ℕ) : IpcResult Unit :=
  if ¬ (1 ≤ pageSize ∧ pageSize ≤ MAX_PAGE_SIZE) then
    .error (.invalid "ClickHouse table page size must be between 1 and 1000")
  else .ok ()

/-- The names that a query asks about, each once. -/
def queriedColumns (query : TableBrowseQuery) : List String :=
  (query.filters.map (·.column) ++ query.sort.map (·.column)).foldl
    (fun names column ↦ if column ∈ names then names else names ++ [column]) []

/-- `clickhouse_table_browse_plan`. -/
def clickhouseTableBrowsePlan (query : TableBrowseQuery) : IpcResult TableBrowseSqlPlan :=
  tableBrowseSqlPlan query
    ((queriedColumns query).map fun name ↦ ⟨name, false, none, false⟩) quoteIdentifier .questionMark

/-- `build_browse_sql`. -/
def buildBrowseSql (container : BrowseContainer) (page pageSize : ℕ) (query : TableBrowseQuery) :
    IpcResult (String × List TableBrowseBindValue) := do
  let (database, object) ← validateTableLikeAddress container
  if page = 0 then
    .error (.invalid "ClickHouse table page must be at least 1")
  else do
    validatePageSize pageSize
    let offset ← checkedU64 ((page - 1) * pageSize) "ClickHouse table offset is too large"
    let limit ← checkedU64 (pageSize + 1) "ClickHouse table limit is too large"
    let plan ← clickhouseTableBrowsePlan query
    return ("SELECT * FROM " ++ quoteIdentifier database ++ "." ++ quoteIdentifier object ++
      plan.whereClause ++ plan.orderByClause ++ " LIMIT " ++ String.ofList (digits limit) ++ " OFFSET " ++
      String.ofList (digits offset), plan.bindings)

/-- The names in the query of a page. -/
def browsedNames (container : BrowseContainer) (query : TableBrowseQuery) : List String :=
  container.database.toList ++ container.table.toList ++ query.filters.map (·.column) ++
    query.sort.map (·.column)

/-! ### Question marks in rendered texts -/

/-- A text with a question mark. -/
def Asks (s : String) : Prop :=
  '?' ∈ s.toList

instance : DecidablePred Asks := fun s ↦ inferInstanceAs (Decidable ('?' ∈ s.toList))

variable {s : List Char} {message : String} {container : BrowseContainer} {page pageSize : ℕ}
  {query : TableBrowseQuery}

theorem mem_replaceChar {a c : Char} {by_ : List Char} (hby : a ∉ by_) (hc : a ≠ c) :
    a ∈ replaceChar c by_ s ↔ a ∈ s := by
  rw [replaceChar, List.mem_flatMap]
  constructor
  · rintro ⟨d, hd, hmem⟩
    split_ifs at hmem
    · exact absurd hmem hby
    · rwa [List.mem_singleton.1 hmem]
  · intro h
    exact ⟨a, h, by rw [if_neg hc]; exact List.mem_singleton_self a⟩

@[simp]
theorem asks_append {s t : String} : Asks (s ++ t) ↔ Asks s ∨ Asks t := by
  rw [Asks, String.toList_append, List.mem_append, Asks, Asks]

@[simp]
theorem asks_ofList : Asks (String.ofList s) ↔ '?' ∈ s := by
  rw [Asks, String.toList_ofList]

@[simp]
theorem asks_quoteIdentifier {name : String} : Asks (quoteIdentifier name) ↔ Asks name := by
  rw [quoteIdentifier, asks_ofList, List.mem_append, List.mem_cons, mem_replaceChar (by decide) (by decide),
    mem_replaceChar (by decide) (by decide), Asks]
  simp

theorem asks_intercalate {sep : String} (hsep : ¬ Asks sep) {items : List String} :
    Asks (sep.intercalate items) ↔ ∃ item ∈ items, Asks item := by
  rw [Asks, String.toList_intercalate, mem_intercalate_iff hsep]
  simp [Asks]

/-! ### The query of a page as it is meant -/

/-- A filter, with its operand in its place. -/
def filterPieces (filter : TableBrowseFilter) : List (Char ⊕ TableBrowseBindValue) :=
  plain (quoteIdentifier filter.column ++ " " ++ filter.operator.symbol).toList ++
    match filter.binding? with
    | none => []
    | some binding => [.inl ' ', .inr binding]

/-- The filters of a query, with their operands in their places. -/
def wherePieces (filters : List TableBrowseFilter) : List (Char ⊕ TableBrowseBindValue) :=
  if filters = [] then []
  else plain " WHERE ".toList ++ (plain " AND ".toList).intercalate (filters.map filterPieces)

/-- The sort fields of a query. -/
def orderByText (sort : List TableBrowseSort) : String :=
  if sort = [] then "" else " ORDER BY " ++ ", ".intercalate (sort.map (·.text quoteIdentifier))

/-- The query of a page as it is meant: the rows of the container that the filters leave, where the operand
of a filter stands in the place of that filter. -/
def browsePieces (container : BrowseContainer) (page pageSize : ℕ) (query : TableBrowseQuery) :
    List (Char ⊕ TableBrowseBindValue) :=
  plain ("SELECT * FROM " ++ quoteIdentifier (container.database.getD "") ++ "." ++
      quoteIdentifier (container.table.getD "")).toList ++
    (wherePieces query.filters ++
      plain (orderByText query.sort ++ " LIMIT " ++ String.ofList (digits (pageSize + 1)) ++ " OFFSET " ++
        String.ofList (digits ((page - 1) * pageSize))).toList)

theorem marked_filterPieces (filter : TableBrowseFilter) :
    marked '?' (filterPieces filter) = (filter.text quoteIdentifier "?").toList := by
  rw [filterPieces, marked_append, marked_plain, TableBrowseFilter.text]
  cases filter.binding? <;> simp [marked]

theorem valuesOf_filterPieces (filter : TableBrowseFilter) :
    valuesOf (filterPieces filter) = filter.binding?.toList := by
  rw [filterPieces, valuesOf_append, valuesOf_plain]
  cases filter.binding? <;> rfl

theorem marked_wherePieces (filters : List TableBrowseFilter) :
    marked '?' (wherePieces filters) =
      (if filters = [] then ""
        else " WHERE " ++ " AND ".intercalate (filters.map (·.text quoteIdentifier "?"))).toList := by
  rw [wherePieces]
  split_ifs
  · rfl
  · rw [marked_append, marked_plain, marked_intercalate, String.toList_append, String.toList_intercalate,
      List.map_map, List.map_map]
    have hitems : filters.map (marked '?' ∘ filterPieces) =
        filters.map (String.toList ∘ fun filter ↦ filter.text quoteIdentifier "?") := by
      refine List.map_congr_left fun filter _ ↦ ?_
      rw [Function.comp_apply, Function.comp_apply, marked_filterPieces]
    rw [hitems]

theorem valuesOf_wherePieces (filters : List TableBrowseFilter) :
    valuesOf (wherePieces filters) = filters.filterMap (·.binding?) := by
  rw [wherePieces]
  split_ifs with hfilters
  · rw [hfilters]
    rfl
  · rw [valuesOf_append, valuesOf_plain, valuesOf_intercalate, List.nil_append, List.flatMap_map,
      List.filterMap_eq_flatMap_toList]
    exact List.flatMap_congr fun filter _ ↦ valuesOf_filterPieces filter

theorem requireName_eq_ok {name : Option String} {value : String} (h : requireName name message = .ok value) :
    name = some value := by
  cases name with
  | none => cases h
  | some given =>
    obtain ⟨-, h⟩ := ite_error_eq_ok_iff.1 h
    rw [Except.ok.inj h]

theorem checkedU64_eq_ok {n m : ℕ} (h : checkedU64 n message = .ok m) : m = n := by
  rw [checkedU64] at h
  split at h
  · cases h
    rfl
  · cases h

theorem validateTableLikeAddress_eq_ok {database object : String}
    (h : validateTableLikeAddress container = .ok (database, object)) :
    container.database = some database ∧ container.table = some object := by
  obtain ⟨-, h⟩ := ite_error_eq_ok_iff.1 h
  obtain ⟨d, hd, h⟩ := bind_eq_ok_iff.1 h
  obtain ⟨o, ho, h⟩ := bind_eq_ok_iff.1 h
  cases h
  exact ⟨requireName_eq_ok hd, requireName_eq_ok ho⟩

/-- **The query of a page** is the text of what is meant, with a question mark for each operand, and its
bindings are the operands in order. -/
theorem buildBrowseSql_eq_ok {sql : String} {bindings : List TableBrowseBindValue}
    (h : buildBrowseSql container page pageSize query = .ok (sql, bindings)) :
    sql.toList = marked '?' (browsePieces container page pageSize query) ∧
      bindings = valuesOf (browsePieces container page pageSize query) ∧
      container.database.isSome ∧ container.table.isSome := by
  obtain ⟨⟨database, object⟩, haddress, h⟩ := bind_eq_ok_iff.1 h
  obtain ⟨hdatabase, htable⟩ := validateTableLikeAddress_eq_ok haddress
  obtain ⟨-, h⟩ := ite_error_eq_ok_iff.1 h
  obtain ⟨-, -, h⟩ := bind_eq_ok_iff.1 h
  obtain ⟨offset, hoffset, h⟩ := bind_eq_ok_iff.1 h
  obtain ⟨limit, hlimit, h⟩ := bind_eq_ok_iff.1 h
  obtain rfl := checkedU64_eq_ok hoffset
  obtain rfl := checkedU64_eq_ok hlimit
  obtain ⟨plan, hplan, h⟩ := bind_eq_ok_iff.1 h
  have hplan := tableBrowseSqlPlan_eq_ok hplan
  cases h
  subst hplan
  refine ⟨?_, ?_, by rw [hdatabase]; rfl, by rw [htable]; rfl⟩
  · rw [browsePieces, marked_append, marked_append, marked_plain, marked_plain, marked_wherePieces, hdatabase,
      htable, orderByText]
    simp only [Option.getD_some, ← String.toList_append, String.append_assoc]
  · rw [browsePieces, valuesOf_append, valuesOf_append, valuesOf_plain, valuesOf_plain, valuesOf_wherePieces,
      List.nil_append, List.append_nil]

/-! ### Question marks in the query of a page -/

theorem not_mem_digits (n : ℕ) : '?' ∉ digits n := by
  intro h
  have hdigit := Nat.isDigit_of_mem_toDigits (by decide) (by decide) h
  revert hdigit
  decide

theorem not_asks_symbol (operator : TableBrowseFilterOperator) : ¬ Asks operator.symbol := by
  cases operator <;> decide

theorem inl_mem_filterPieces {filter : TableBrowseFilter} :
    Sum.inl '?' ∈ filterPieces filter ↔ Asks filter.column := by
  have hblank : ¬ Asks " " := by decide
  have hoperand : Sum.inl '?' ∉ (match filter.binding? with
      | none => []
      | some binding => [Sum.inl ' ', Sum.inr binding] : List (Char ⊕ TableBrowseBindValue)) := by
    cases filter.binding? <;> simp
  rw [filterPieces, List.mem_append, or_iff_left hoperand, inl_mem_plain]
  show Asks _ ↔ _
  rw [asks_append, asks_append, asks_quoteIdentifier, or_iff_left (not_asks_symbol _), or_iff_left hblank]

theorem inl_mem_wherePieces {filters : List TableBrowseFilter} :
    Sum.inl '?' ∈ wherePieces filters ↔ ∃ filter ∈ filters, Asks filter.column := by
  have hand : Sum.inl '?' ∉ (plain " AND ".toList : List (Char ⊕ TableBrowseBindValue)) :=
    fun h ↦ absurd (inl_mem_plain.1 h) (by decide)
  rw [wherePieces]
  split_ifs with hfilters
  · simp [hfilters]
  · rw [List.mem_append, or_iff_right fun h ↦ absurd (inl_mem_plain.1 h) (by decide), mem_intercalate_iff hand]
    simp only [List.mem_map, exists_exists_and_eq_and, inl_mem_filterPieces]

theorem asks_sortText {sort : TableBrowseSort} : Asks (sort.text quoteIdentifier) ↔ Asks sort.column := by
  have hdirection : ¬ Asks sort.direction.symbol := by
    cases sort.direction <;> decide
  rw [TableBrowseSort.text, asks_append, asks_append, asks_quoteIdentifier, or_iff_left hdirection,
    or_iff_left (by decide : ¬ Asks " ")]

theorem asks_orderByText {sort : List TableBrowseSort} :
    Asks (orderByText sort) ↔ ∃ field ∈ sort, Asks field.column := by
  rw [orderByText]
  split_ifs with hsort
  · simp [hsort, Asks]
  · rw [asks_append, or_iff_right (by decide : ¬ Asks " ORDER BY "),
      asks_intercalate (by decide : ¬ Asks ", ")]
    simp only [List.mem_map, exists_exists_and_eq_and, asks_sortText]

/-- The question marks of the query of a page are those of the names in it. -/
theorem inl_mem_browsePieces (hdatabase : container.database.isSome) (htable : container.table.isSome) :
    Sum.inl '?' ∈ browsePieces container page pageSize query ↔
      ∃ name ∈ browsedNames container query, Asks name := by
  obtain ⟨database, hdatabase⟩ := Option.isSome_iff_exists.1 hdatabase
  obtain ⟨table, htable⟩ := Option.isSome_iff_exists.1 htable
  have hselect : ¬ Asks "SELECT * FROM " := by decide
  have hpoint : ¬ Asks "." := by decide
  have hlimit : ¬ Asks " LIMIT " := by decide
  have hoffset : ¬ Asks " OFFSET " := by decide
  have hhead : '?' ∈ ("SELECT * FROM " ++ quoteIdentifier database ++ "." ++ quoteIdentifier table).toList ↔
      Asks database ∨ Asks table := by
    show Asks _ ↔ _
    simp only [asks_append, asks_quoteIdentifier, hselect, hpoint, false_or, or_false]
  have htail : '?' ∈ (orderByText query.sort ++ " LIMIT " ++ String.ofList (digits (pageSize + 1)) ++
      " OFFSET " ++ String.ofList (digits ((page - 1) * pageSize))).toList ↔
      ∃ field ∈ query.sort, Asks field.column := by
    show Asks _ ↔ _
    simp only [asks_append, asks_ofList, asks_orderByText, hlimit, hoffset, not_mem_digits, or_false]
  rw [browsePieces, hdatabase, htable, Option.getD_some, Option.getD_some, List.mem_append, List.mem_append,
    inl_mem_plain, inl_mem_plain, inl_mem_wherePieces, hhead, htail, browsedNames, hdatabase, htable]
  simp only [Option.toList_some, List.mem_append, List.mem_singleton, List.mem_map, or_and_right, exists_or,
    exists_eq_left, exists_exists_and_eq_and, or_assoc]

/-- The operands of a query are apart: each follows the operator of its filter. -/
theorem apart_browsePieces (container : BrowseContainer) (page pageSize : ℕ) (query : TableBrowseQuery) :
    Apart (browsePieces container page pageSize query) := by
  have hfilter : ∀ filter, Apart (filterPieces filter) ∧ Headed (filterPieces filter) := by
    intro filter
    have hplain := headed_plain (β := TableBrowseBindValue)
      (quoteIdentifier filter.column ++ " " ++ filter.operator.symbol).toList
    rw [filterPieces]
    cases filter.binding? with
    | none => exact ⟨(apart_plain _).append List.isChain_nil fun _ h ↦ (nomatch h), hplain.append fun _ h ↦ (nomatch h)⟩
    | some binding =>
      have hhead : Headed [.inl ' ', .inr binding] := fun _ h ↦ by cases h; rfl
      exact ⟨(apart_plain _).append (List.isChain_pair.2 fun h ↦ (nomatch h)) hhead, hplain.append hhead⟩
  have hwhere : Apart (wherePieces query.filters) ∧ Headed (wherePieces query.filters) := by
    rw [wherePieces]
    split_ifs
    · exact ⟨List.isChain_nil, fun _ h ↦ (nomatch h)⟩
    · obtain ⟨hapart, hhead⟩ := apart_intercalate " AND ".toList
        (List.forall_mem_map.2 fun filter (_ : filter ∈ query.filters) ↦ hfilter filter)
      exact ⟨(apart_plain _).append hapart hhead, (headed_plain _).append hhead⟩
  exact (apart_plain _).append (hwhere.1.append (apart_plain _) (headed_plain _))
    (hwhere.2.append (headed_plain _))

end ClickHouse
