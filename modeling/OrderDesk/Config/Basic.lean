import OrderDesk.Config.Reading

/-!
# The configuration

What the order desk has to be told: where it listens, where its collaborators are, and how long it
waits. All parts must be there; some of their settings have defaults. Within a part, a setting that
cannot be read is told before one that is missing.

## Main definitions

* `Backend`, `Server`, `Database`, `Feeds`, `Peers`, `Logging`: the parts
* `Config`, `Config.read`
-/

namespace OrderDesk.Config

/-- **The address that is listened on**, and how long a request may take, in seconds. -/
structure Server where
  host : String
  port : Nat
  requestTimeout : Nat
  deriving DecidableEq, Repr

/-- **The database.** -/
structure Database where
  url : String
  maxConnections : Nat
  runMigrations : Bool
  deriving DecidableEq, Repr

/-- **Where orders are stored.** -/
inductive Backend where
  | postgres
  | memory
  deriving DecidableEq, Repr

/-- **The broker of events**, its topics, and the pause before the feed is opened again, in
milliseconds. -/
structure Feeds where
  brokers : String
  paidTopic : String
  assembledTopic : String
  group : String
  restartPause : Nat
  deriving DecidableEq, Repr

/-- **The inventory and the payment service**, and how long a call may take, in milliseconds. -/
structure Peers where
  inventoryUrl : String
  paymentUrl : String
  timeout : Nat
  deriving DecidableEq, Repr

/-- **What is logged**, and whether as JSON. -/
structure Logging where
  level : String
  json : Bool
  deriving DecidableEq, Repr

/-- The address of a setting. -/
def Server.read (v : Value) : Except Error Server := do
  let s ← Section.of "ServerConfig" 3 v
  let host ← s.read? "host" 0 Value.asText
  let port ← s.read? "port" 1 (Value.asBounded 16)
  let requestTimeout ← s.read? "request_timeout_secs" 2 Value.asNatural
  let host ← s.need "host" 0 host
  let port ← s.need "port" 1 port
  .ok { host, port, requestTimeout := requestTimeout.getD 10 }

/-- The database of a setting. -/
def Database.read (v : Value) : Except Error Database := do
  let s ← Section.of "DatabaseConfig" 3 v
  let url ← s.read? "url" 0 Value.asText
  let maxConnections ← s.read? "max_connections" 1 (Value.asBounded 32)
  let runMigrations ← s.read? "run_migrations" 2 Value.asSwitch
  let url ← s.need "url" 0 url
  .ok { url, maxConnections := maxConnections.getD 5, runMigrations := runMigrations.getD true }

namespace Backend

/-- The name of a backend. -/
def name : Backend → String
  | postgres => "postgres"
  | memory => "memory"

/-- The backend of a name. -/
def ofName (name : String) : Except Error Backend :=
  if name = postgres.name then .ok postgres
  else if name = memory.name then .ok memory
  else .error (.refused ("enum StorageBackend does not have variant constructor " ++ name) [])

/-- The backend of a setting: its name, or a table with its name as only member. -/
def read : Value → Except Error Backend
  | .scalar _ (.text name) => ofName name
  | .table _ [(name, _)] => ofName name
  | _ =>
    .error (.refused ("value of enum StorageBackend should be represented by either string or "
      ++ "table with exactly one key") [])

/-- The backend of a part of the configuration. -/
def readSection (v : Value) : Except Error Backend := do
  let s ← Section.of "StorageConfig" 1 v
  let backend ← s.read? "backend" 0 read
  s.need "backend" 0 backend

end Backend

/-- The broker of a setting. -/
def Feeds.read (v : Value) : Except Error Feeds := do
  let s ← Section.of "KafkaConfig" 5 v
  let brokers ← s.read? "brokers" 0 Value.asText
  let paidTopic ← s.read? "order_paid_topic" 1 Value.asText
  let assembledTopic ← s.read? "order_assembled_topic" 2 Value.asText
  let group ← s.read? "consumer_group_id" 3 Value.asText
  let restartPause ← s.read? "consumer_restart_backoff_ms" 4 Value.asNatural
  let brokers ← s.need "brokers" 0 brokers
  let paidTopic ← s.need "order_paid_topic" 1 paidTopic
  let assembledTopic ← s.need "order_assembled_topic" 2 assembledTopic
  let group ← s.need "consumer_group_id" 3 group
  .ok { brokers, paidTopic, assembledTopic, group, restartPause := restartPause.getD 1000 }

/-- The collaborators of a setting. -/
def Peers.read (v : Value) : Except Error Peers := do
  let s ← Section.of "GrpcClientConfig" 3 v
  let inventoryUrl ← s.read? "inventory_url" 0 Value.asText
  let paymentUrl ← s.read? "payment_url" 1 Value.asText
  let timeout ← s.read? "timeout_ms" 2 Value.asNatural
  let inventoryUrl ← s.need "inventory_url" 0 inventoryUrl
  let paymentUrl ← s.need "payment_url" 1 paymentUrl
  .ok { inventoryUrl, paymentUrl, timeout := timeout.getD 3000 }

/-- The log of a setting. -/
def Logging.read (v : Value) : Except Error Logging := do
  let s ← Section.of "LoggingConfig" 2 v
  let level ← s.read? "level" 0 Value.asText
  let json ← s.read? "json" 1 Value.asSwitch
  let level ← s.need "level" 0 level
  .ok { level, json := json.getD false }

end OrderDesk.Config

namespace OrderDesk

open Config in
/-- **The configuration.** -/
structure Config where
  server : Server
  database : Database
  storage : Backend
  kafka : Feeds
  grpc : Peers
  logging : Logging
  deriving DecidableEq, Repr

namespace Config

/-- **The configuration of the merged layers.** -/
def read (members : List (String × Value)) : Except Error Config := do
  let s := Section.named members
  let server ← s.read? "server" 0 Server.read
  let database ← s.read? "database" 1 Database.read
  let storage ← s.read? "storage" 2 Backend.readSection
  let kafka ← s.read? "kafka" 3 Feeds.read
  let grpc ← s.read? "grpc" 4 Peers.read
  let logging ← s.read? "logging" 5 Logging.read
  let server ← s.need "server" 0 server
  let database ← s.need "database" 1 database
  let storage ← s.need "storage" 2 storage
  let kafka ← s.need "kafka" 3 kafka
  let grpc ← s.need "grpc" 4 grpc
  let logging ← s.need "logging" 5 logging
  .ok { server, database, storage, kafka, grpc, logging }

end Config

end OrderDesk
