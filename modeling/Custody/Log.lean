import Custody.Failure

/-!
# The log

An entry has a level, the name of an event and fields. While an escrow is being worked on its
identifier is bound, and every entry carries it unless it names one itself. A logger writes the
entries that reach its level; some loggers are kept quiet below a warning.

> `carrying_event`: what an entry carries changes neither its level nor its event.
-/

namespace Custody

/-- How much an entry matters. -/
inductive LogLevel where
  | debug | info | warning | error | critical
deriving DecidableEq, Repr, Inhabited

namespace LogLevel

/-- The name of a level. -/
def name : LogLevel → String
  | .debug => "debug"
  | .info => "info"
  | .warning => "warning"
  | .error => "error"
  | .critical => "critical"

/-- The level of the entries that a method of a logger writes; one that tells of a failure writes
errors. -/
def ofMethod? : String → Option LogLevel
  | "debug" => some .debug
  | "info" => some .info
  | "warning" => some .warning
  | "warn" => some .warning
  | "error" => some .error
  | "exception" => some .error
  | "critical" => some .critical
  | "fatal" => some .critical
  | _ => none

/-- The rank of a level. -/
def rank : LogLevel → Nat
  | .debug => 10
  | .info => 20
  | .warning => 30
  | .error => 40
  | .critical => 50

/-- The level of a rank. Nothing is written at the rank zero. -/
def ofRank (v : Json) : Except Misuse LogLevel :=
  let known := [LogLevel.debug, .info, .warning, .error, .critical].find? fun l =>
    Json.sameNumber v (.int l.rank)
  match known, v with
  | some l, _ => .ok l
  | none, .list _ => .error .argument
  | none, .object _ => .error .argument
  | none, v => if Json.sameNumber v (.int 0) then .error .operation else .error .lookup

/-- The least rank that is written under a named level; an unknown name lets everything through. Two
names are taken by what is no level: a format, which is no known level either, and a table of
styles. -/
def threshold (name : String) : Except Failure Nat :=
  match Text.upper name with
  | "NOTSET" => .ok 0
  | "INFO" => .ok 20
  | "WARNING" => .ok 30
  | "WARN" => .ok 30
  | "ERROR" => .ok 40
  | "CRITICAL" => .ok 50
  | "FATAL" => .ok 50
  | "BASIC_FORMAT" => .error (.value (.logLevel "%(levelname)s:%(name)s:%(message)s"))
  | "_STYLES" => .error (.misuse .argument)
  | _ => .ok 10

end LogLevel

/-- An entry of the log. -/
structure LogEntry where
  level : LogLevel
  event : String
  fields : List (String × Json)
deriving Repr, Inhabited

namespace LogEntry

/-- An entry with fields that it carries; a field of its own comes before one of the same name. -/
def carrying (fields : List (String × Json)) (e : LogEntry) : LogEntry :=
  { e with fields := (fields.filter fun f => !(e.fields.any fun g => g.1 = f.1)) ++ e.fields }

/-- An entry with a bound escrow. -/
def bind (escrow : Option Identifier) (e : LogEntry) : LogEntry :=
  e.carrying (escrow.map fun i => ("escrow_id", Json.text i.text)).toList

theorem carrying_event (fields : List (String × Json)) (e : LogEntry) :
    (e.carrying fields).level = e.level ∧ (e.carrying fields).event = e.event := ⟨rfl, rfl⟩

/-- An entry of information. -/
def info (event : String) (fields : List (String × Json)) : LogEntry := ⟨.info, event, fields⟩

/-- An entry of warning. -/
def warning (event : String) (fields : List (String × Json)) : LogEntry := ⟨.warning, event, fields⟩

/-- An entry of error. -/
def error (event : String) (fields : List (String × Json)) : LogEntry := ⟨.error, event, fields⟩

/-- An entry of detail. -/
def debug (event : String) (fields : List (String × Json)) : LogEntry := ⟨.debug, event, fields⟩

/-- The entry as one object. -/
def toJson (e : LogEntry) : Json :=
  .object (Json.distinct ((("event", Json.text e.event) :: ("log_level", .text e.level.name) :: e.fields)))

end LogEntry

/-! ## Typed values -/

/-- A value in a field: JSON in which a number, an identifier or a moment may stand for itself. -/
inductive LogValue where
  | json (v : Json)
  | decimal (d : Decimal)
  | identifier (i : Identifier)
  | moment (m : Moment)
  | list (items : List LogValue)
  | object (members : List (String × LogValue))
deriving Repr, Inhabited

namespace LogValue

/-- The distance of a clock from UTC as a value is spelled. -/
def zoneLiteral : Option Int → String
  | none => ""
  | some 0 => ", tzinfo=datetime.timezone.utc"
  | some o =>
    let d := o / Moment.day
    let s := o % Moment.day / Moment.second
    let u := o % Moment.second
    let parts := (if d = 0 then [] else ["days=" ++ toString d]) ++
      (if s = 0 then [] else ["seconds=" ++ toString s]) ++
      (if u = 0 then [] else ["microseconds=" ++ toString u])
    ", tzinfo=datetime.timezone(datetime.timedelta(" ++ ", ".intercalate parts ++ "))"

/-- A moment as a value is spelled: its parts, seconds and microseconds only when not zero. -/
def momentLiteral (m : Moment) : String :=
  let d := Moment.date m.wall
  let r := (m.wall % Moment.day).toNat
  let micro := r % 1000000
  let s := r / 1000000
  let parts := [d.year, d.month, d.day, s / 3600, s / 60 % 60] ++
    (if micro ≠ 0 then [s % 60, micro] else if s % 60 ≠ 0 then [s % 60] else [])
  "datetime.datetime(" ++ ", ".intercalate (parts.map toString) ++ zoneLiteral m.offset ++ ")"

mutual

/-- A value inside another one, where a value that is no JSON is spelled out. -/
def nested : LogValue → Json
  | .json v => v
  | .decimal d => .text ("Decimal('" ++ d.text ++ "')")
  | .identifier i => .text ("UUID('" ++ i.text ++ "')")
  | .moment m => .text (momentLiteral m)
  | .list vs => .list (nestedItems vs)
  | .object ms => .object (nestedMembers ms)

/-- Items of a list. -/
def nestedItems : List LogValue → List Json
  | [] => []
  | v :: rest => nested v :: nestedItems rest

/-- Members of an object. -/
def nestedMembers : List (String × LogValue) → List (String × Json)
  | [] => []
  | (k, v) :: rest => (k, nested v) :: nestedMembers rest

end

/-- A value that is a field of its own: numbers and identifiers are written as text. -/
def field : LogValue → Json
  | .decimal d => .text d.text
  | .identifier i => .text i.text
  | v => nested v

mutual

/-- A value with everything that is no JSON as its text; moments as `moment` says. -/
def texts (moment : Moment → String) : LogValue → Json
  | .json v => v
  | .decimal d => .text d.text
  | .identifier i => .text i.text
  | .moment m => .text (moment m)
  | .list vs => .list (textsItems moment vs)
  | .object ms => .object (textsMembers moment ms)

/-- Items of a list. -/
def textsItems (moment : Moment → String) : List LogValue → List Json
  | [] => []
  | v :: rest => texts moment v :: textsItems moment rest

/-- Members of an object. -/
def textsMembers (moment : Moment → String) : List (String × LogValue) → List (String × Json)
  | [] => []
  | (k, v) :: rest => (k, texts moment v) :: textsMembers moment rest

end

end LogValue

/-! ## Loggers -/

/-- The loggers that are kept quiet, with all below them. -/
def quietLoggers : List String := ["uvicorn.access", "sqlalchemy.engine", "httpx", "httpcore", "aiosqlite"]

/-- Whether a logger is one of the quiet ones or below one. -/
def isQuiet (logger : String) : Bool :=
  quietLoggers.any fun q => logger = q || (q ++ ".").toList.isPrefixOf logger.toList

/-- The least rank that a logger writes. -/
def loggerThreshold (level logger : String) : Except Failure Nat :=
  (LogLevel.threshold level).map fun n => if isQuiet logger then 30 else n

/-- What is done with a log: something is written, an escrow is bound or let go, or nothing at all. An
event need be no text, and where it is null it is left out. -/
inductive LogCall where
  | write (level : LogLevel) (event : Json) (fields : List (String × Json))
  | bind (escrow : String)
  | clear
  | idle
deriving Repr

namespace LogCall

/-- The fields that steer how an entry is written and are not written themselves. -/
def steeringFields : List String :=
  ["timestamp", "exc_info", "stack_info", "_record", "_from_structlog"]

/-- A call with fields of which none may have the name of an argument. -/
def unlessClashing {α : Type} (arguments : List String) (fields : List (String × Json))
    (r : Except Misuse α) : Except Misuse α :=
  if fields.any fun f => f.1 ∈ arguments then .error .argument else r

/-- The call that writes an entry. A record among the fields is asked for its name, which no value
has. -/
def writing (level : LogLevel) (event : Json) (fields : List (String × Json)) :
    Except Misuse LogCall :=
  if (Json.lookup "_record" fields).any (· != .null) then .error .operation
  else .ok (.write level event (fields.filter fun f => f.1 ∉ steeringFields))

/-- The call of the general method, whose event is the rank of a level; what is written stands among
the fields. -/
def ranked (rank : Json) (fields : List (String × Json)) : Except Misuse LogCall :=
  unlessClashing ["self", "level"] fields do
    let level ← LogLevel.ofRank rank
    unlessClashing ["method_name"] fields
      (writing level ((Json.lookup "event" fields).getD .null) (fields.filter fun f => f.1 ≠ "event"))

/-- The properties of a logger, which cannot be called. -/
def properties : List String := ["name", "level", "parent", "handlers", "propagate", "disabled"]

/-- The call of a method of a logger. One whose name begins with an additional letter only promises to
write. A logger has no bound field with the name of an event, and none is bound without a name. -/
def ofMethod (method : String) (event : Json) (fields : List (String × Json)) :
    Except Misuse LogCall :=
  match LogLevel.ofMethod? method, method with
  | some level, _ => unlessClashing ["event", "self", "method_name"] fields (writing level event fields)
  | none, "log" => ranked event fields
  | none, "unbind" => if fields.isEmpty then .error .lookup else .error .argument
  | none, "try_unbind" => if fields.isEmpty then .ok .idle else .error .argument
  | none, "bind" => .error .argument
  | none, "new" => .error .argument
  | none, m =>
    match m.toList with
    | 'a' :: rest =>
      if String.ofList rest ≠ "warn" ∧ (LogLevel.ofMethod? (String.ofList rest)).isSome then
        unlessClashing ["event", "self"] fields (.ok .idle)
      else .error .operation
    | _ => if m ∈ properties then .error .argument else .error .operation

end LogCall

/-- The lines that calls write, each with the bound escrow and the name of its logger. -/
def logLines (least : Nat) (logger : String) : Option String → List LogCall → List Json
  | _, [] => []
  | _, .bind e :: rest => logLines least logger (some e) rest
  | _, .clear :: rest => logLines least logger none rest
  | bound, .idle :: rest => logLines least logger bound rest
  | bound, .write level event fields :: rest =>
    let tail := logLines least logger bound rest
    if level.rank < least then tail
    else
      let base : List (String × Json) := match bound with
        | some i => [("escrow_id", .text i)]
        | none => []
      let named := if event == .null then [] else [("event", event)]
      .object (Json.distinct (base ++ fields ++ named ++
        [("logger", .text (if logger = "" then "root" else logger)),
          ("level", .text level.name)])) :: tail

end Custody
