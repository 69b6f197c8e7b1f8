import Custody.Assembly
import Custody.Service.Consistency

/-!
# The application

Start and stop of the whole. An application that is not handed its services opens the database and
Redis itself, builds the services, and closes both at the end; one that is handed them leaves both
alone. Tables are made in development only. Redis may be missing; regular checks run when they have
an interval.

> `stop_log_of_handed`: an application that was handed its services closes nothing.
-/

namespace Custody

/-- What an application starts from: its settings, why Redis cannot be reached if it cannot, and
whether its services are handed in. -/
structure Launch where
  settings : Settings
  redisError : Option String
  handed : Bool

/-- An application that runs. -/
structure Application where
  assembly : Assembly
  owner : Bool
  redisReady : Bool
  tables : List String
deriving DecidableEq, Repr

/-- The tables of the store, by name. -/
def tableNames : List String := ["escrow_conditions", "escrow_events", "escrow_parties", "escrows"]

namespace Launch

/-- The entry before anything is done. -/
def startingLog (l : Launch) : LogEntry :=
  .info "app.starting"
    [("env", .text l.settings.appEnv), ("debug", .bool l.settings.appDebug)]

/-- The entries of the database. -/
def databaseLog (l : Launch) : List LogEntry :=
  [.info "database.engine_created" [("pool_size", .int l.settings.dbPoolSize),
      ("max_overflow", .int l.settings.dbMaxOverflow)],
    if l.settings.isDevelopment then .info "database.tables_created" []
    else .info "database.skipping_create_all" [("reason", .text "not in development mode")]]

/-- The entry of Redis. -/
def redisLog (l : Launch) : LogEntry :=
  match l.redisError with
  | some e => .warning "app.redis_unavailable" [("error", .text e)]
  | none => .info "redis.connected" [("url", .text l.settings.redisUrl)]

/-- The entries once everything is there. -/
def startedLog (l : Launch) : List LogEntry :=
  .info "app.started" [("host", .text l.settings.appHost), ("port", .int l.settings.appPort)] ::
    if 0 < l.settings.checkInterval then
      [schedulerLog (.int l.settings.checkInterval) l.settings.checkBatchSize]
    else []

/-- Starts an application. Services that are handed in have been built before, with a recorder of
notifications. -/
def start (l : Launch) : Except Failure Application × List LogEntry :=
  if l.handed then
    match assemble l.settings false ⟨none, some .recorder, none⟩ with
    | (.error f, log) => (.error f, log)
    | (.ok a, log) => (.ok ⟨a, false, false, []⟩, log ++ l.startingLog :: l.startedLog)
  else
    let opening := l.startingLog :: l.databaseLog ++ [l.redisLog]
    match assemble l.settings l.redisError.isNone GivenParts.nothing with
    | (.error f, log) => (.error f, opening ++ log)
    | (.ok a, log) =>
      (.ok ⟨a, true, l.redisError.isNone, if l.settings.isDevelopment then tableNames else []⟩,
        opening ++ log ++ l.startedLog)

end Launch

namespace Application

/-- The entries of the end. -/
def stopLog (a : Application) : List LogEntry :=
  let closing := if a.owner then
      .info "database.engine_disposed" [] ::
        if a.redisReady then [LogEntry.info "redis.disconnected" []] else []
    else []
  .info "app.shutting_down" [] :: closing ++ [.info "app.stopped" []]

theorem stop_log_of_handed {a : Application} (h : a.owner = false) :
    a.stopLog = [.info "app.shutting_down" [], .info "app.stopped" []] := by
  simp [stopLog, h]

end Application

end Custody
