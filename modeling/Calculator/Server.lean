import Calculator.Server.Address
import Calculator.Server.Log

/-! A run of the server from binding its address to the interrupt that stops it. -/
namespace Calculator

structure ServerConfig where
  bind : SocketAddress
  limit : UInt64

namespace ServerConfig

def defaultBind : SocketAddress := .v4 #v[127, 0, 0, 1] 3000

end ServerConfig

/-- What a run leaves behind: whether the address was bound, the answer to each request that was
meant for the server, the exit code and the log. -/
structure ServerRun where
  bound : Bool
  answers : List (Option Endpoint.Response)
  exitCode : Nat
  log : List String

namespace ServerRun

def addressInUse : ServerRun where
  bound := false
  answers := []
  exitCode := 1
  log := ["Address already in use (os error 98)"]

def recordsOf (config : ServerConfig) (arrivals : List (Option Endpoint.Request)) :
    List LogRecord :=
  arrivals.flatMap fun
    | some r => (Endpoint.answer config.limit r).2.flatMap LogRecord.allOfEvent
    | none => []

def started (config : ServerConfig) (port : String) : LogRecord :=
  .server .info ("HTTP server bound on " ++ config.bind.hostText ++ ":" ++ port)

def stopped : LogRecord := .server .info "HTTP server shutting down gracefully"

/-- The run on a free address. A request that did not arrive has no answer and leaves no trace. The
port is the one the system gave, so it is passed as text. -/
def served (config : ServerConfig) (port : String) (verbosity : Severity)
    (arrivals : List (Option Endpoint.Request)) : ServerRun where
  bound := true
  answers := arrivals.map (·.map fun r => (Endpoint.answer config.limit r).1)
  exitCode := 0
  log := LogRecord.lines verbosity
    (started config port :: (recordsOf config arrivals ++ [stopped]))

end ServerRun
end Calculator
