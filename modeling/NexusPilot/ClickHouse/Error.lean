import Mathlib.Algebra.Ring.Nat
import NexusPilot.Drivers.Error
import NexusPilot.Text.Std

/-!
# Errors of the ClickHouse client

What the client library returns when a statement fails, and the error that the user sees for it. The text of a
server's answer is searched for a code and for a few names, without regard to case.
-/

namespace ClickHouse

open Drivers

/-- `clickhouse::error::Error`. Of the kinds that are only named in an error, the name is kept. -/
inductive ClickHouseError
  | network
  | timedOut
  | badResponse (details : String)
  | invalidParams
  | other (category : String)
  deriving DecidableEq

/-- `str::to_ascii_uppercase`. -/
def asciiUppercase (text : List Char) : List Char :=
  text.map Char.toUpper

/-- Whether one of the names occurs in the details, without regard to case. -/
def mentions (details : String) (names : List String) : Bool :=
  names.any fun name ↦ Scan.occursIn name.toList (asciiUppercase details.toList)

/-- `u32::from_str`, on digits. -/
def parseDigits (digits : List Char) : Option ℕ :=
  let value := digits.foldl (fun value c ↦ value * 10 + (c.toNat - '0'.toNat)) 0
  if digits ≠ [] ∧ value < 2 ^ 32 then some value else none

/-- `server_error_code`. -/
def serverErrorCode (details : String) : Option ℕ :=
  let normalized := asciiUppercase details.toList
  (Scan.findSub "CODE:".toList normalized).bind fun marker ↦
    parseDigits ((Text.trimStart (normalized.drop (marker + "CODE:".length))).takeWhile Char.isDigit)

/-- `is_authentication_failure`. -/
def isAuthenticationFailure (details : String) : Bool :=
  mentions details ["CODE: 516", "AUTHENTICATION_FAILED", "REQUIRED_PASSWORD", "PASSWORD IS INCORRECT"]

/-- `is_permission_denied_details`. -/
def isPermissionDenied (details : String) : Bool :=
  mentions details ["CODE: 497", "ACCESS_DENIED", "NOT ENOUGH PRIVILEGES"]

/-- `is_readonly_failure`. -/
def isReadonlyFailure (code : Option ℕ) (details : String) : Bool :=
  code = some 164 || mentions details ["READONLY", "READ_ONLY", "READ-ONLY", "READ ONLY MODE"]

/-- `is_query_syntax_failure`. -/
def isQuerySyntaxFailure (code : Option ℕ) (details : String) : Bool :=
  code = some 47 || code = some 62 || mentions details ["SYNTAX_ERROR", "UNKNOWN_IDENTIFIER"]

/-- `local_query_error`. -/
def localQueryError (code : ErrorCode) (message operation category : String) (serverCode : Option ℕ) : IpcError :=
  ⟨code, message, some ("operation=" ++ operation ++ "; category=" ++ category ++ "; server_code=" ++
    ((serverCode.map toString).getD "unknown"))⟩

/-- `classify_query_error`. -/
def classifyQueryError (operation : String) : ClickHouseError → IpcError
  | .network | .timedOut =>
    ⟨.networkTimeout, "ClickHouse " ++ operation ++ " failed",
      some ("operation=" ++ operation ++ "; category=transport")⟩
  | .badResponse details =>
    let code := serverErrorCode details
    if isAuthenticationFailure details then
      ⟨.authFailed, "ClickHouse authentication failed",
        some ("operation=" ++ operation ++ "; category=authentication")⟩
    else if code = some 1 then
      localQueryError .featureUnavailable "ClickHouse server does not implement the requested operation" operation
        "unsupported_method" code
    else if isReadonlyFailure code details then
      localQueryError .validationFailed "ClickHouse rejected the statement in read-only mode" operation "readonly"
        code
    else if isQuerySyntaxFailure code details then
      localQueryError .querySyntaxError "ClickHouse SQL syntax is invalid" operation "syntax" code
    else if isPermissionDenied details then
      localQueryError .validationFailed "ClickHouse denied this query" operation "permission" code
    else
      localQueryError .systemInternal ("ClickHouse " ++ operation ++ " failed") operation "bad_response" code
  | .invalidParams =>
    localQueryError .validationFailed ("ClickHouse " ++ operation ++ " has invalid parameters") operation
      "invalid_params" none
  | .other category =>
    localQueryError .systemInternal ("ClickHouse " ++ operation ++ " failed") operation category none

/-- `is_skipping_index_missing_operation`. -/
def isSkippingIndexMissingOperation (operation : String) : Bool :=
  operation ∈ ["skipping-index drop", "skipping-index materialize", "skipping-index clear"]

/-- `classify_schema_change_error`. -/
def classifySchemaChangeError (operation : String) : ClickHouseError → IpcError
  | .badResponse details =>
    let code := serverErrorCode details
    if code ∈ [some 60, some 81, some 582] ∨ (code = some 36 ∧ isSkippingIndexMissingOperation operation) then
      .notFound ("ClickHouse " ++ operation ++ " target no longer exists")
    else if code ∈ [some 16, some 44, some 583] then
      .conflict ("ClickHouse " ++ operation ++ " target changed before execution")
    else classifyQueryError operation (.badResponse details)
  | error => classifyQueryError operation error

example : serverErrorCode "Code: 62. DB::Exception: Syntax error" = some 62 := by decide

/-- `is_ambiguous_transport`: the statement may have reached the server. -/
def isAmbiguousTransport : ClickHouseError → Bool
  | .network | .timedOut => true
  | _ => false

end ClickHouse
