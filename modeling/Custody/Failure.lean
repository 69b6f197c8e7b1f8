import Custody.Lifecycle
import Custody.Party
import Custody.Identifier
import Custody.Number.DecimalReader
import Custody.Time.IsoReader
import Custody.Text.Ascii
import Custody.Text.Case

/-!
# Refusals and failures

Everything that can go wrong, by its cause. An `EscrowError` is a refusal of the domain, with a
code for programs and a message for people; both are functions of the cause. `Failure` adds what
comes from outside the domain: a request of the wrong shape, a constraint of the store, a value
that cannot be read, a collaborator that broke down.
-/

namespace Custody

/-! ## Ledger -/

/-- What a ledger answers instead of a result. -/
inductive LedgerError where
  | general (message code : String)
  | settlement (message : String) (transaction : Option String)
  | fetch (message : String)
  | unknownEscrow (escrow : String)
deriving DecidableEq, Repr

namespace LedgerError

/-- The message for people. -/
def message : LedgerError → String
  | .general m _ => m
  | .settlement m _ => m
  | .fetch m => m
  | .unknownEscrow e => "Escrow not found on ledger: " ++ e

/-- The code for programs. -/
def code : LedgerError → String
  | .general _ c => c
  | .settlement .. => "LEDGER_SETTLEMENT_ERROR"
  | .fetch _ => "LEDGER_FETCH_ERROR"
  | .unknownEscrow _ => "LEDGER_ESCROW_NOT_FOUND"

/-- The code of a ledger error that says nothing more. -/
def defaultCode : String := "LEDGER_ERROR"

end LedgerError

/-! ## State -/

/-- Why nobody may do something to an escrow right now. -/
inductive StateFault where
  | action (action : Action) (status : String)
  | notActive (status : Status)
  | unmet (count : Nat) (status : Status)
  | noSeller (status : Status)
  | noDeadline (status : Status)
  | deadlineAhead (deadline : Moment) (status : Status)
  | stated (message : String) (status : Option String)
deriving DecidableEq, Repr

namespace StateFault

/-- The message for people. -/
def message : StateFault → String
  | .action a s => "Cannot perform " ++ word a ++ " on an escrow that is " ++ s
  | .notActive s => "Escrow must be ACTIVE to release, not " ++ word s
  | .unmet n _ => toString n ++ " condition(s) still unmet"
  | .noSeller _ => "Escrow has no SELLER party to release funds to"
  | .noDeadline _ => "Escrow has no deadline and cannot expire"
  | .deadlineAhead d _ => "Escrow deadline " ++ d.isoText ++ " has not passed yet"
  | .stated m _ => m

/-- The status in which the escrow was found. -/
def status? : StateFault → Option String
  | .action _ s => some s
  | .notActive s => some (word s)
  | .unmet _ s => some (word s)
  | .noSeller s => some (word s)
  | .noDeadline s => some (word s)
  | .deadlineAhead _ s => some (word s)
  | .stated _ s => s

end StateFault

/-! ## Definition -/

/-- Why an escrow cannot be created as described. -/
inductive DefinitionFault where
  | amountNotPositive
  | foreignBuyer
  | creatorSeller
  | repeated (user : String) (role : Role)
  | secondSeller
  | conditionsWithoutSeller
  | stated (message : String)
deriving DecidableEq, Repr

/-- The message for people. -/
def DefinitionFault.message : DefinitionFault → String
  | .amountNotPositive => "Amount must be positive"
  | .foreignBuyer => "Only the creator can hold the BUYER role"
  | .creatorSeller => "The creator cannot also be the SELLER"
  | .repeated u r => "User " ++ u ++ " is listed twice as " ++ word r
  | .secondSeller => "An escrow can have at most one SELLER"
  | .conditionsWithoutSeller => "An escrow with conditions needs a SELLER to release to"
  | .stated m => m

/-! ## The domain -/

/-- A refusal of the domain. -/
inductive EscrowError where
  | general (message code : String)
  | missing (message code : String)
  | escrowNotFound (escrow : String)
  | conditionNotFound (condition : String)
  | invalidState (fault : StateFault)
  | invalidTransition (current attempted : String)
  | busy (escrow : String)
  | invalidDefinition (fault : DefinitionFault)
  | forbidden (actor action : String) (stated : Option String)
  | settlementFailed (escrow reason : String)
  | ledger (error : LedgerError)
deriving DecidableEq, Repr

namespace EscrowError

/-- The code of a refusal that says nothing more. -/
def defaultCode : String := "ESCROW_ERROR"

/-- The message for people; a refusal without words of its own names the actor and the action. -/
def message : EscrowError → String
  | .general m _ => m
  | .missing m _ => m
  | .escrowNotFound e => "Escrow not found: " ++ e
  | .conditionNotFound c => "Condition not found: " ++ c
  | .invalidState f => f.message
  | .invalidTransition c a => "Invalid state transition: " ++ c ++ " -> " ++ a
  | .busy e => "Escrow is being modified by another request: " ++ e
  | .invalidDefinition f => f.message
  | .forbidden actor action stated =>
    match stated with
    | some m =>
      if m = "" then
        "User " ++ actor ++ " is not allowed to " ++ Text.lower action ++ " this escrow"
      else m
    | none => "User " ++ actor ++ " is not allowed to " ++ Text.lower action ++ " this escrow"
  | .settlementFailed e r => "Settlement failed for escrow " ++ e ++ ": " ++ r
  | .ledger e => e.message

/-- The code for programs. -/
def code : EscrowError → String
  | .general _ c => c
  | .missing _ c => c
  | .escrowNotFound _ => "ESCROW_NOT_FOUND"
  | .conditionNotFound _ => "CONDITION_NOT_FOUND"
  | .invalidState _ => "INVALID_STATE"
  | .invalidTransition .. => "INVALID_STATE_TRANSITION"
  | .busy _ => "ESCROW_BUSY"
  | .invalidDefinition _ => "INVALID_ESCROW_DEFINITION"
  | .forbidden .. => "FORBIDDEN"
  | .settlementFailed .. => "SETTLEMENT_FAILED"
  | .ledger e => e.code

/-- What a refusal tells beside its code and its message. -/
def details : EscrowError → List (String × Json)
  | .escrowNotFound e => [("escrow_id", .text e)]
  | .busy e => [("escrow_id", .text e)]
  | .ledger (.unknownEscrow e) => [("escrow_id", .text e)]
  | .conditionNotFound c => [("condition_id", .text c)]
  | .invalidState f => [("status", Json.ofText? f.status?)]
  | .invalidTransition c a =>
    [("status", .text c), ("current_state", .text c), ("attempted_state", .text a)]
  | .forbidden actor action _ => [("actor_id", .text actor), ("action", .text action)]
  | .settlementFailed e r => [("escrow_id", .text e), ("reason", .text r)]
  | .ledger (.settlement _ t) => [("tx_hash", Json.ofText? t)]
  | _ => []

end EscrowError

/-! ## Requests -/

/-- What a value in a request violates. -/
inductive Violation where
  | missing | modelType | modelAttributesType | jsonInvalid
  | textType | textBroken | textTooShort | textTooLong
  | unknownWord | literal
  | intType | intParsing | intSize | intFromReal | atLeast | atMost | above
  | boolType | boolParsing | realType | realParsing
  | decimalType | decimalParsing | partSize | finiteNumber | maxDigits | maxPlaces | wholeDigits
  | momentType | momentFromDate | momentParsing
  | identifierType | identifierParsing
  | listType | tooShort | tooLong | objectType
  | rule
deriving DecidableEq, Repr

/-- A step on the way to a value inside a request. -/
inductive PathStep where
  | key (name : String)
  | index (n : Nat)
deriving DecidableEq, Repr

/-- A violation and where it is. -/
structure Finding where
  violation : Violation
  path : List PathStep
deriving DecidableEq, Repr

namespace Violation

/-- The name that a response has for a violation. -/
def code : Violation → String
  | .missing => "missing"
  | .modelType => "model_type"
  | .modelAttributesType => "model_attributes_type"
  | .jsonInvalid => "json_invalid"
  | .textType => "string_type"
  | .textBroken => "string_unicode"
  | .textTooShort => "string_too_short"
  | .textTooLong => "string_too_long"
  | .unknownWord => "enum"
  | .literal => "literal_error"
  | .intType => "int_type"
  | .intParsing => "int_parsing"
  | .intSize => "int_parsing_size"
  | .intFromReal => "int_from_float"
  | .atLeast => "greater_than_equal"
  | .atMost => "less_than_equal"
  | .above => "greater_than"
  | .boolType => "bool_type"
  | .boolParsing => "bool_parsing"
  | .realType => "float_type"
  | .realParsing => "float_parsing"
  | .decimalType => "decimal_type"
  | .decimalParsing => "decimal_parsing"
  | .partSize => "decimal_part_size"
  | .finiteNumber => "finite_number"
  | .maxDigits => "decimal_max_digits"
  | .maxPlaces => "decimal_max_places"
  | .wholeDigits => "decimal_whole_digits"
  | .momentType => "datetime_type"
  | .momentFromDate => "datetime_from_date_parsing"
  | .momentParsing => "datetime_parsing"
  | .identifierType => "uuid_type"
  | .identifierParsing => "uuid_parsing"
  | .listType => "list_type"
  | .tooShort => "too_short"
  | .tooLong => "too_long"
  | .objectType => "dict_type"
  | .rule => "value_error"

end Violation

/-! ## The store -/

/-- A constraint of the store that a row breaks. -/
inductive Constraint where
  | required (table column : String)
  | check (name : String)
  | distinct (columns : List String)
deriving DecidableEq, Repr

/-- The store's complaint. -/
def Constraint.message : Constraint → String
  | .required t c => "NOT NULL constraint failed: " ++ t ++ "." ++ c
  | .check n => "CHECK constraint failed: " ++ n
  | .distinct cs => "UNIQUE constraint failed: " ++ ", ".intercalate cs

/-! ## Everything -/

/-- A value that could not be read. -/
inductive BadValue where
  | word (u : UnknownWord)
  | status (u : UnknownStatus)
  | moment (f : Moment.IsoFault)
  | identifier (f : Identifier.ReadFault)
  | logLevel (name : String)
  | header (value : String)
  | address (shown : String)
  | unencodable (t : BrokenText)
  | unportable
  | tooNested
deriving DecidableEq, Repr

/-- The complaint about a text that an encoding has no bytes for: it tells of the first run of code
points that are foreign to it, each by its escape, and of what that is when it is a single one. -/
def codecComplaint (codec : String) (start : Nat) (run : List (List Char)) (reason : String) : String :=
  let what := match run with
    | [c] => " '" ++ String.ofList c ++ "' in position " ++ toString start
    | _ => "s in position " ++ toString start ++ "-" ++ toString (start + run.length - 1)
  "'" ++ codec ++ "' codec can't encode character" ++ what ++ ": " ++ reason

/-- The complaint about a text that is to be ASCII and is not. -/
def asciiComplaint (s : String) : String :=
  codecComplaint "ascii" (Text.asciiFront s) ((Text.foreignRun s).map Text.escapeCode)
    "ordinal not in range(128)"

/-- The complaint about a broken text that is to be written. -/
def BrokenText.complaint (t : BrokenText) : String :=
  let front := t.points.takeWhile fun p => !p.isHalf
  let halves := (t.points.drop front.length).takeWhile CodePoint.isHalf
  let escapes := halves.map (LooseText.quotePoint '\x27')
  codecComplaint "utf-8" front.length escapes "surrogates not allowed"

/-- The text of the complaint. -/
def BadValue.message : BadValue → String
  | .word u => u.message
  | .status u => u.message
  | .moment f => f.message
  | .identifier f => f.message
  | .logLevel n => "Unknown level: " ++ Text.quoted n
  | .header v => asciiComplaint v
  | .address a => "unknown url type: " ++ Text.quoted a
  | .unencodable t => t.complaint
  | .unportable => "Out of range float values are not JSON compliant"
  | .tooNested =>
    "Error serializing to JSON: ValueError: Circular reference detected (depth exceeded)"

/-- Why a call cannot be made at all: its arguments are of the wrong kind or clash, what is called is
not there, or it looks up what is not there. -/
inductive Misuse where
  | argument | operation | lookup
deriving DecidableEq, Repr

/-- Any way in which an operation can end without a result. -/
inductive Failure where
  | escrow (error : EscrowError)
  | request (findings : List Finding)
  | store (constraint : Constraint)
  | value (bad : BadValue)
  | breakdown (message : String)
  | decimal (fault : Decimal.Fault)
  | outOfRange
  | offsetOutOfRange
  | partOutOfRange
  | divisionByZero
  | misuse (m : Misuse)
  | badAddress
  | tooDeep (inObject : Bool)
  | patternTooLong
deriving DecidableEq, Repr

namespace Failure

/-- How a reading fails by its findings. A part of a decimal that needs more than 64 bits ends the
reading as a whole, and nothing else that was found is told. -/
def ofFindings (fs : List Finding) : Failure :=
  if fs.any fun f => f.violation = .partSize then .partOutOfRange else .request fs

/-- The text of a failure, as logs and reports quote it. -/
def message : Failure → String
  | .escrow e => e.message
  | .request fs => toString fs.length ++ " validation errors"
  | .store c => c.message
  | .value b => b.message
  | .breakdown m => m
  | .decimal f => f.message
  | .outOfRange => "date value out of range"
  | .offsetOutOfRange => "Python int too large to convert to SQLite INTEGER"
  | .partOutOfRange => "Python int too large to convert to C long"
  | .divisionByZero => "division by zero"
  | .misuse _ => "the call cannot be made"
  | .badAddress => "the address cannot be used"
  | .tooDeep inObject =>
    "maximum recursion depth exceeded while decoding a JSON " ++
      (if inObject then "object" else "array") ++ " from a unicode string"
  | .patternTooLong => "LIKE or GLOB pattern too complex"

end Failure

end Custody
