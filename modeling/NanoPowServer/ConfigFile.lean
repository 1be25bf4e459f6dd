import NanoPowServer.Config
import NanoPowServer.Library.Toml

/-! How the configuration is read from a TOML file and exported as one: the constructor
of `config`, `read_config` and `export_documented`. -/
namespace NanoPowServer

/-- What is used of cpptoml. The writer lays tables out in lines, in an order of its
own, with one line for each key; the parser reads a base text with overrides on top.
`asUnsigned` refuses integers out of range, and the conversions give nothing for values
of another type. -/
class Cpptoml where
  write : Toml.Tables → List Toml.Line
  renderItem : String → Toml.Value → List Char
  parseBaseAndOverrideFiles (overrides base : String) : Except String Toml.Document
  asString : Toml.Value → Option String
  asBool : Toml.Value → Option Bool
  asUnsigned (bits : Nat) : Toml.Value → Except String (Option Nat)
  wellFormed_write {tables : Toml.Tables} : tables.WellFormed → Toml.WellFormed (write tables)
  document_write {tables : Toml.Tables} :
    tables.WellFormed → Toml.document (write tables) = tables.document
  newline_notMem_renderItem (key : String) (value : Toml.Value) :
    Toml.IsBare key → value.IsScalar → '\n' ∉ renderItem key value
  renderItem_head (key : String) (value : Toml.Value) : Toml.IsBare key → value.IsScalar →
    ∃ c rest, renderItem key value = c :: rest ∧ c ≠ '#' ∧ c ≠ '['
  parse_text {lines : List Toml.Line} : Toml.WellFormed lines →
    parseBaseAndOverrideFiles "\n" (String.ofList (Toml.text renderItem lines)) =
      .ok (Toml.document lines)
  asString_string (text : String) : asString (.string text) = some text
  asBool_boolean (value : Bool) : asBool (.boolean value) = some value
  asUnsigned_integer {bits value : Nat} : value < 2 ^ bits →
    asUnsigned bits (.integer value) = .ok (some value)

namespace Config

/-- An exception, or a member of a table that is not there is called. -/
inductive Failure where
  | thrown (exception : Exception)
  | nullPointer
  deriving DecidableEq

section Reader

variable [Cpptoml]

/-- `get_as` with `value_or`. -/
def stringOr (table : Toml.Table) (key default : String) : String :=
  ((table key).bind Cpptoml.asString).getD default

def boolOr (table : Toml.Table) (key : String) (default : Bool) : Bool :=
  ((table key).bind Cpptoml.asBool).getD default

def unsignedOr (bits : Nat) (table : Toml.Table) (key : String) (default : Nat) :
    Except Failure Nat :=
  match table key with
  | none => .ok default
  | some value =>
      match Cpptoml.asUnsigned bits value with
      | .ok found => .ok (found.getD default)
      | .error what => .error (.thrown (.runtimeError what))

def readServer (server : Server) (table : Toml.Table) : Except Failure Server := do
  let bindAddress := stringOr table "bind" server.bindAddress
  let port ← unsignedOr 16 table "port" server.port.toNat
  let threads ← unsignedOr 16 table "threads" server.threads.toNat
  let allowPrioritization := boolOr table "allow_prioritization" server.allowPrioritization
  let allowControl := boolOr table "allow_control" server.allowControl
  let requestLimit ← unsignedOr 32 table "request_limit" server.requestLimit.toNat
  let logToStderr := boolOr table "log_to_stderr" server.logToStderr
  .ok { bindAddress, port := UInt16.ofNat port, threads := UInt16.ofNat threads
        requestLimit := UInt32.ofNat requestLimit, allowPrioritization, allowControl, logToStderr }

def readWork (work : Work) (table : Toml.Table) : Except Failure Work := do
  let baseHex := stringOr table "base_difficulty" BASE_DIFFICULTY
  let baseDifficulty ← (Bigint.readHex work.baseDifficulty baseHex).mapError .thrown
  let delay ← unsignedOr 16 table "mock_work_generation_delay" work.mockWorkGenerationDelay.toNat
  .ok { baseDifficulty, mockWorkGenerationDelay := UInt16.ofNat delay }

/-- Each device starts from the defaults. -/
def readDevice (table : Toml.Table) : Except Failure Device := do
  let dev : Device := {}
  let platformId ← unsignedOr 64 table "platform" dev.platformId.toNat
  let deviceId ← unsignedOr 64 table "device" dev.deviceId.toNat
  let threads ← unsignedOr 64 table "threads" dev.threads.toNat
  let memory ← unsignedOr 64 table "memory" dev.memory.toNat
  let type ←
    match stringOr table "type" "cpu" with
    | "cpu" => .ok DeviceType.cpu
    | "gpu" => .ok DeviceType.gpu
    | _ =>
        .error (.thrown (.runtimeError
          "config: invalid device type (must be \"cpu\" or \"gpu\")"))
  .ok { type, platformId := UInt64.ofNat platformId, deviceId := UInt64.ofNat deviceId
        threads := UInt64.ofNat threads, memory := UInt64.ofNat memory }

/-- A single table or a table array. -/
def readDevices : Toml.Item → Except Failure (List Device)
  | .table table => do
      let dev ← readDevice table
      .ok [dev]
  | .tableArray tables => tables.mapM readDevice
  | .value _ => .error (.thrown (.runtimeError "device must be a table or table array"))

def readAdmin (admin : Admin) (table : Toml.Table) : Admin where
  docRoot := stringOr table "path" admin.docRoot
  enable := boolOr table "enable" admin.enable
  allowRemote := boolOr table "allow_remote" admin.allowRemote

/-- `get_table` gives a null pointer for what is not a table. -/
def getTable : Toml.Item → Except Failure Toml.Table
  | .table table => .ok table
  | _ => .error .nullPointer

/-- What the parsed file sets. -/
def ofTree (config : Config) (tree : Toml.Document) : Except Failure Config := do
  let server ←
    match tree "server" with
    | some item => do readServer config.server (← getTable item)
    | none => .ok config.server
  let work ←
    match tree "work" with
    | some item => do readWork config.work (← getTable item)
    | none => .ok config.work
  let devices ←
    match tree "device" with
    | some item => do .ok (config.devices ++ (← readDevices item))
    | none => .ok config.devices
  let admin ←
    match tree "admin" with
    | some item => do .ok (readAdmin config.admin (← getTable item))
    | none => .ok config.admin
  .ok { server, devices, work, admin }

/-- Each override is a line, and one more line feed follows. Without a file the base is
a single line feed. -/
def readConfig (file : Option String) (overrides : List String) : Except Failure Toml.Document :=
  let overridesStream := String.join (overrides.map (· ++ "\n")) ++ "\n"
  match Cpptoml.parseBaseAndOverrideFiles overridesStream (file.getD "\n") with
  | .ok tree => .ok tree
  | .error what => .error (.thrown (.runtimeError ("TOML config error: " ++ what)))

/-- The members before the file is read. -/
def initial (hardwareConcurrency : UInt32) : Config where
  server := { threads := hardwareConcurrency.toUInt16 }

/-- The constructor, given what the file holds if there is one. -/
def load (hardwareConcurrency : UInt32) (file : Option String) (overrides : List String) :
    Except Failure Config := do
  let tree ← readConfig file overrides
  ofTree (initial hardwareConcurrency) tree

end Reader

def serverRows (server : Server) : List Toml.Entry :=
  [⟨"bind", .string server.bindAddress,
      "Listening address for HTTP and WebSocket connections.\ntype:string,ip"⟩,
    ⟨"port", .integer server.port.toNat,
      "Listening port for HTTP and WebSocket connections.\ntype:uint16"⟩,
    ⟨"threads", .integer server.threads.toNat,
      "Number of IO threads used by the web server.\ntype:uint16"⟩,
    ⟨"allow_prioritization", .boolean server.allowPrioritization,
      "If true, work requests may contain a numeric \"priority\" property to move ahead in " ++
        "the queue.\ntype:bool"⟩,
    ⟨"allow_control", .boolean server.allowControl,
      "Administriative REST requests requires this to be true, otherwise an error is " ++
        "returned.\ntype:bool"⟩,
    ⟨"request_limit", .integer server.requestLimit.toNat,
      "The maximum number of queued work requests. If the queue is full, work requests will " ++
        "result in an error.\ntype:uint32"⟩,
    ⟨"log_to_stderr", .boolean server.logToStderr,
      "Log to standard error in addition to file.\ntype:bool"⟩]

def workRows (baseDifficulty : String) (mockWorkGenerationDelay : UInt16) : List Toml.Entry :=
  [⟨"base_difficulty", .string baseDifficulty, "Base work difficulty\ntype:string,hex"⟩,
    ⟨"mock_work_generation_delay", .integer mockWorkGenerationDelay.toNat,
      "If non-zero, the server simulates generating work for N seconds instead of\nusing a " ++
        "work device. Useful during testing of initial setup and debugging.\ntype:uint16"⟩]

def adminRows (admin : Admin) : List Toml.Entry :=
  [⟨"allow_remote", .boolean admin.allowRemote,
      "If true, static files are available remotely, otherwise only to loopback.\ntype:bool"⟩,
    ⟨"enable", .boolean admin.enable, "Enable or disable serving static files.\ntype:bool"⟩,
    ⟨"path", .string admin.docRoot,
      "Path to static files, by default 'public' relative to working directory\ntype:string,path"⟩]

def deviceRows (type : String) (deviceId platformId memory threads : Nat) : List Toml.Entry :=
  [⟨"type", .string type, "Device type\ntype:string,[\"cpu\"|\"gpu\"]"⟩,
    ⟨"device_id", .integer deviceId, "Device ID (gpu only)\ntype:uint64_t"⟩,
    ⟨"platform_id", .integer platformId, "Platform ID (gpu only)\ntype:uint64_t"⟩,
    ⟨"memory", .integer memory, "Maximum memory to allocate in MB\ntype:uint64_t"⟩,
    ⟨"threads", .integer threads, "Number of CPU or GPU threads\ntype:uint64_t"⟩]

/-- The values that are written to the tables. -/
structure Written where
  server : Server
  baseDifficulty : String
  mockWorkGenerationDelay : UInt16
  admin : Admin
  type : String
  deviceId : Nat
  platformId : Nat
  memory : Nat
  threads : Nat

def Written.tables (written : Written) : Toml.Tables :=
  [("server", serverRows written.server),
    ("work", workRows written.baseDifficulty written.mockWorkGenerationDelay),
    ("device", deviceRows written.type written.deviceId written.platformId written.memory
      written.threads),
    ("admin", adminRows written.admin)]

/-- The device is an example, whatever devices are configured. -/
def written (config : Config) : Written where
  server := config.server
  baseDifficulty := config.work.baseDifficulty.toHex
  mockWorkGenerationDelay := config.work.mockWorkGenerationDelay
  admin := config.admin
  type := "gpu"
  deviceId := 0
  platformId := 0
  memory := 0
  threads := 0

/-- The loop over the lines puts a number sign before all but empty lines, comments
and headers. -/
def commentOut : List Char → List Char
  | [] => []
  | c :: rest => if c ≠ '#' ∧ c ≠ '[' then '#' :: c :: rest else c :: rest

def exportDocumented [Cpptoml] (config : Config) : String :=
  let ss := Toml.text Cpptoml.renderItem (Cpptoml.write config.written.tables)
  String.ofList (Toml.unlines ((Toml.getlines ss).map commentOut))

end Config

end NanoPowServer
