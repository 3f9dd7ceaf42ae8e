import NexusPilot.Drivers.ChangeSet
import NexusPilot.Text.Std

/-!
# Browsing a table

`table_browse_sql_plan`: the filters and the sort fields of a table view as the clauses of a query. The
operands of the filters are not written into the text; each is a binding, and a placeholder stands for it.
The drivers pass their own quoting of identifiers and their own style of placeholders.
-/

namespace Drivers

open Text

/-! ### Queries -/

inductive TableBrowseFilterOperator
  | eq
  | notEq
  | gt
  | gte
  | lt
  | lte
  | isNull
  | isNotNull
  deriving DecidableEq

structure TableBrowseFilter where
  column : String
  operator : TableBrowseFilterOperator
  value : Option JsonValue
  deriving DecidableEq

inductive TableBrowseSortDirection
  | asc
  | desc
  deriving DecidableEq

structure TableBrowseSort where
  column : String
  direction : TableBrowseSortDirection
  deriving DecidableEq

structure TableBrowseQuery where
  filters : List TableBrowseFilter
  sort : List TableBrowseSort
  deriving DecidableEq

/-- `TableBrowseBindValue`; a float is the one nearest to a number. -/
inductive TableBrowseBindValue
  | string (value : String)
  | integer (value : ℤ)
  | float (number : JsonNumber)
  | boolean (value : Bool)
  deriving DecidableEq

inductive TableBrowsePlaceholderStyle
  | questionMark
  | dollarNumbered
  | colonNumbered
  deriving DecidableEq

structure TableBrowseSqlPlan where
  whereClause : String
  orderByClause : String
  bindings : List TableBrowseBindValue
  deriving DecidableEq

def MAX_TABLE_BROWSE_FILTERS : ℕ := 10

def MAX_TABLE_BROWSE_SORTS : ℕ := 5

/-! ### The plan -/

/-- `require_table_browse_column`. -/
def requireTableBrowseColumn (column : String) (available : List String) : IpcResult Unit :=
  if trim column.toList = [] ∨ column ∉ available then
    .error (.invalid ("Unknown table query column '" ++ column ++ "'"))
  else .ok ()

/-- `Number::as_i64`. -/
def JsonNumber.asI64 : JsonNumber → Option ℤ
  | .posInt n => if n < 2 ^ 63 then some n else none
  | .negInt n => if n ≤ 2 ^ 63 then some (-n) else none
  | .float _ => none

/-- `table_browse_bind_value`. -/
def tableBrowseBindValue : JsonValue → IpcResult TableBrowseBindValue
  | .string value =>
    if value.length > 4096 then
      .error (.invalid "Table query filter strings cannot exceed 4096 characters")
    else .ok (.string value)
  | .bool value => .ok (.boolean value)
  | .number number =>
    match number.asI64 with
    | some value => .ok (.integer value)
    | none =>
      if number = .float none then
        .error (.invalid "Table query filter numbers must be finite signed values")
      else .ok (.float number)
  | .null | .array | .object =>
    .error (.invalid "Table query filter values must be strings, numbers, or booleans")

/-- `table_browse_placeholder`. -/
def tableBrowsePlaceholder (style : TableBrowsePlaceholderStyle) (position : ℕ) : String :=
  match style with
  | .questionMark => "?"
  | .dollarNumbered => "$" ++ String.ofList (digits position)
  | .colonNumbered => ":" ++ String.ofList (digits position)

/-- The operator of a filter in the text of a query, for the operators that compare with a value. -/
def TableBrowseFilterOperator.symbol : TableBrowseFilterOperator → String
  | eq => "="
  | notEq => "<>"
  | gt => ">"
  | gte => ">="
  | lt => "<"
  | lte => "<="
  | isNull => "IS NULL"
  | isNotNull => "IS NOT NULL"

/-- The direction of a sort field in the text of a query. -/
def TableBrowseSortDirection.symbol : TableBrowseSortDirection → String
  | asc => "ASC"
  | desc => "DESC"

/-- The operators without a value. -/
def TableBrowseFilterOperator.isTest : TableBrowseFilterOperator → Bool
  | isNull | isNotNull => true
  | eq | notEq | gt | gte | lt | lte => false

section Plan

variable (available : List String) (quoteIdentifier : String → String)
  (placeholderStyle : TableBrowsePlaceholderStyle)

/-- An iteration of the loop over the filters, with the predicates and the bindings so far. -/
def addFilter (found : List String × List TableBrowseBindValue) (filter : TableBrowseFilter) :
    IpcResult (List String × List TableBrowseBindValue) := do
  requireTableBrowseColumn filter.column available
  let column := quoteIdentifier filter.column
  if filter.operator.isTest then
    if filter.value.isSome then
      .error (.invalid ("Filter '" ++ filter.column ++ "' does not accept a value"))
    else .ok (found.1 ++ [column ++ " " ++ filter.operator.symbol], found.2)
  else
    match filter.value with
    | none => .error (.invalid ("Filter '" ++ filter.column ++ "' requires a scalar value"))
    | some value => do
      let bindings := found.2 ++ [← tableBrowseBindValue value]
      let placeholder := tableBrowsePlaceholder placeholderStyle bindings.length
      return (found.1 ++ [column ++ " " ++ filter.operator.symbol ++ " " ++ placeholder], bindings)

/-- An iteration of the loop over the sort fields, with the columns seen so far and the orderings. -/
def addSort (found : List String × List String) (sort : TableBrowseSort) :
    IpcResult (List String × List String) := do
  requireTableBrowseColumn sort.column available
  if sort.column ∈ found.1 then
    .error (.invalid ("Sort column '" ++ sort.column ++ "' is duplicated"))
  else .ok (sort.column :: found.1, found.2 ++ [quoteIdentifier sort.column ++ " " ++ sort.direction.symbol])

end Plan

/-- `table_browse_sql_plan`. -/
def tableBrowseSqlPlan (query : TableBrowseQuery) (columns : List ColumnMeta)
    (quoteIdentifier : String → String) (placeholderStyle : TableBrowsePlaceholderStyle) :
    IpcResult TableBrowseSqlPlan :=
  if query.filters.length > MAX_TABLE_BROWSE_FILTERS then
    .error (.invalid "Table browsing supports at most 10 filters")
  else if query.sort.length > MAX_TABLE_BROWSE_SORTS then
    .error (.invalid "Table browsing supports at most 5 sort fields")
  else do
    let available := columns.map (·.name)
    let (predicates, bindings) ←
      query.filters.foldlM (addFilter available quoteIdentifier placeholderStyle) ([], [])
    let (_, orderings) ← query.sort.foldlM (addSort available quoteIdentifier) ([], [])
    return {
      whereClause := if predicates = [] then "" else " WHERE " ++ " AND ".intercalate predicates
      orderByClause := if orderings = [] then "" else " ORDER BY " ++ ", ".intercalate orderings
      bindings }

/-! ### What a plan holds -/

section Plan

variable {available : List String} {quoteIdentifier : String → String}
  {placeholderStyle : TableBrowsePlaceholderStyle}

/-- The binding of a filter, for the operators that compare with a value. -/
def TableBrowseFilter.binding? (filter : TableBrowseFilter) : Option TableBrowseBindValue :=
  if filter.operator.isTest then none
  else filter.value.bind fun value ↦ (tableBrowseBindValue value).toOption

/-- The text of a filter, with `placeholder` for its operand. -/
def TableBrowseFilter.text (quoteIdentifier : String → String) (placeholder : String)
    (filter : TableBrowseFilter) : String :=
  quoteIdentifier filter.column ++ " " ++ filter.operator.symbol ++
    if filter.binding?.isSome then " " ++ placeholder else ""

/-- A filter that is accepted adds its text and its binding, if it has one. -/
theorem addFilter_eq_ok {found next : List String × List TableBrowseBindValue} {filter : TableBrowseFilter}
    (h : addFilter available quoteIdentifier .questionMark found filter = .ok next) :
    next = (found.1 ++ [filter.text quoteIdentifier "?"], found.2 ++ filter.binding?.toList) := by
  obtain ⟨-, -, h⟩ := bind_eq_ok_iff.1 h
  by_cases htest : filter.operator.isTest = true
  · rw [if_pos htest] at h
    obtain ⟨-, h⟩ := ite_error_eq_ok_iff.1 h
    cases h
    have hnone : filter.binding? = none := if_pos htest
    simp [TableBrowseFilter.text, hnone]
  · rw [if_neg htest] at h
    cases hvalue : filter.value with
    | none => rw [hvalue] at h; cases h
    | some value =>
      rw [hvalue] at h
      obtain ⟨binding, hbinding, h⟩ := bind_eq_ok_iff.1 h
      cases h
      have hsome : filter.binding? = some binding := by
        rw [TableBrowseFilter.binding?, if_neg htest, hvalue, Option.bind_some, hbinding]
        rfl
      simp [TableBrowseFilter.text, hsome, tableBrowsePlaceholder, String.append_assoc]

/-- The filters of a plan, each with its text, and their bindings in order. -/
theorem foldlM_addFilter {found next : List String × List TableBrowseBindValue}
    {filters : List TableBrowseFilter}
    (h : filters.foldlM (addFilter available quoteIdentifier .questionMark) found = .ok next) :
    next = (found.1 ++ filters.map (·.text quoteIdentifier "?"),
      found.2 ++ filters.filterMap (·.binding?)) := by
  induction filters generalizing found with
  | nil => cases h; simp
  | cons filter filters ih =>
    rw [List.foldlM_cons] at h
    obtain ⟨middle, hfirst, hrest⟩ := bind_eq_ok_iff.1 h
    rw [ih hrest, addFilter_eq_ok hfirst, List.map_cons, List.filterMap_cons]
    cases filter.binding? <;> simp

/-- The text of a sort field. -/
def TableBrowseSort.text (quoteIdentifier : String → String) (sort : TableBrowseSort) : String :=
  quoteIdentifier sort.column ++ " " ++ sort.direction.symbol

theorem foldlM_addSort {found next : List String × List String} {sorts : List TableBrowseSort}
    (h : sorts.foldlM (addSort available quoteIdentifier) found = .ok next) :
    next.2 = found.2 ++ sorts.map (·.text quoteIdentifier) := by
  induction sorts generalizing found with
  | nil => cases h; simp
  | cons sort sorts ih =>
    rw [List.foldlM_cons] at h
    obtain ⟨middle, hfirst, hrest⟩ := bind_eq_ok_iff.1 h
    obtain ⟨-, -, hfirst⟩ := bind_eq_ok_iff.1 hfirst
    obtain ⟨-, hfirst⟩ := ite_error_eq_ok_iff.1 hfirst
    cases hfirst
    rw [ih hrest, List.map_cons, TableBrowseSort.text, List.append_assoc, List.singleton_append]

/-- **The plan of an accepted query**: the texts of its filters and of its sort fields, and the bindings of
the filters that have one. -/
theorem tableBrowseSqlPlan_eq_ok {query : TableBrowseQuery} {columns : List ColumnMeta}
    {plan : TableBrowseSqlPlan}
    (h : tableBrowseSqlPlan query columns quoteIdentifier .questionMark = .ok plan) :
    plan = {
      whereClause := if query.filters = [] then ""
        else " WHERE " ++ " AND ".intercalate (query.filters.map (·.text quoteIdentifier "?"))
      orderByClause := if query.sort = [] then ""
        else " ORDER BY " ++ ", ".intercalate (query.sort.map (·.text quoteIdentifier))
      bindings := query.filters.filterMap (·.binding?) } := by
  obtain ⟨-, h⟩ := ite_error_eq_ok_iff.1 h
  obtain ⟨-, h⟩ := ite_error_eq_ok_iff.1 h
  obtain ⟨⟨predicates, bindings⟩, hfilters, h⟩ := bind_eq_ok_iff.1 h
  obtain ⟨⟨seen, orderings⟩, hsorts, h⟩ := bind_eq_ok_iff.1 h
  have hfound := foldlM_addFilter hfilters
  have horderings : orderings = _ := foldlM_addSort hsorts
  rw [List.nil_append, List.nil_append, Prod.mk.injEq] at hfound
  obtain ⟨rfl, rfl⟩ := hfound
  rw [List.nil_append] at horderings
  subst horderings
  cases h
  simp only [List.map_eq_nil_iff]

end Plan

end Drivers
