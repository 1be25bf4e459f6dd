import NanoPowServer.Util.Bigint

/-! The settings of the work server, with the defaults of `config.hpp`. -/
namespace NanoPowServer

def BASE_DIFFICULTY : String := "2000000000000000"

namespace Config

/-- Work server related settings. The default number of IO threads is the
hardware concurrency of the host, so it has no fixed default here. -/
structure Server where
  bindAddress : String := "::1"
  port : UInt16 := 8076
  threads : UInt16
  requestLimit : UInt32 := 1024 * 16
  allowPrioritization : Bool := false
  allowControl : Bool := false
  logToStderr : Bool := false
  deriving DecidableEq

inductive DeviceType where
  | cpu
  | gpu
  deriving DecidableEq

structure Device where
  type : DeviceType := .cpu
  platformId : UInt64 := 0
  deviceId : UInt64 := 0
  threads : UInt64 := 0
  memory : UInt64 := 1024 * 2
  deriving DecidableEq

structure Work where
  baseDifficulty : U128 := (Bigint.fromHex (Bigint.set 0) BASE_DIFFICULTY).1
  mockWorkGenerationDelay : UInt16 := 0
  deriving DecidableEq

structure Admin where
  docRoot : String := "public"
  enable : Bool := false
  allowRemote : Bool := false
  deriving DecidableEq

end Config

structure Config where
  server : Config.Server
  devices : List Config.Device := []
  work : Config.Work := {}
  admin : Config.Admin := {}
  deriving DecidableEq

end NanoPowServer
