import Calculator.CommandLine
import Std.Http.Server

/-! The program: files, sockets, signals and the standard streams around the command line. -/
namespace Calculator.Main

open Std.Async

def usageText : String :=
  "Usage: reckon eval [-f|--file] [-j|--json] [--max-depth N] EXPRESSION\n"
    ++ "       reckon serve [--bind ADDRESS:PORT] [--max-depth N]\n"

def finish (o : CommandLine.Output) : IO UInt32 := do
  (← IO.getStdout).putStr o.stdout
  (← IO.getStderr).putStr o.stderr
  return UInt32.ofNat o.exitCode

def readFile? (path : String) : IO (Option ByteArray) := do
  match ← (IO.FS.readBinFile path).toBaseIO with
  | .ok bytes => return some bytes
  | .error _ => return none

def log (verbosity : Severity) (records : List LogRecord) : IO Unit := do
  let stderr ← IO.getStderr
  for line in LogRecord.lines verbosity records do
    stderr.putStrLn line

def evaluate (o : CommandLine.EvaluateOptions) (verbosity : Severity) : IO UInt32 := do
  let bytes? ← if o.fromFile then readFile? o.operand else pure none
  log verbosity (CommandLine.evaluateRecords o fun _ => bytes?)
  finish (CommandLine.evaluateOutput o fun _ => bytes?)

def netAddress : SocketAddress → Std.Net.SocketAddress
  | .v4 octets port => .v4 ⟨⟨octets⟩, port⟩
  | .v6 groups _ port => .v6 ⟨⟨groups⟩, port⟩

structure Responder where
  config : ServerConfig
  verbosity : Severity

def Responder.respond (s : Responder) (request : Std.Http.Request Std.Http.Body.Stream) :
    ContextAsync (Std.Http.Response Std.Http.Body.Any) := do
  let body : ByteArray ← request.body.readAll
  let (response, events) := Endpoint.answer s.config.limit
    ⟨toString request.line.method, toString request.line.uri, body⟩
  log s.verbosity (events.flatMap LogRecord.allOfEvent)
  let status := (Std.Http.Status.ofCode none (UInt16.ofNat response.status)).getD .ok
  let builder := Std.Http.Response.withStatus status
  let answer ←
    match response.contentType? with
    | some "application/json" => builder.json response.body
    | some _ => builder.text response.body
    | none => builder.fromBytes ByteArray.empty
  return { line := answer.line, body := .ofBody answer.body, extensions := answer.extensions }

instance : Std.Http.Server.Handler Responder where
  onRequest := Responder.respond

def serve (config : ServerConfig) (verbosity : Severity) : IO UInt32 := do
  let interrupt ← Signal.Waiter.mk .sigint false
  let interrupted ← interrupt.wait
  let responder := Responder.mk config verbosity
  match ← (Std.Http.Server.serve (netAddress config.bind) responder).block.toBaseIO with
  | .error (.resourceBusy ..) =>
    ServerRun.addressInUse.log.forM (← IO.getStderr).putStrLn
    return UInt32.ofNat ServerRun.addressInUse.exitCode
  | .error e =>
    (← IO.getStderr).putStrLn (toString e)
    return 1
  | .ok server =>
    let port := (server.localAddr.map (·.port)).getD 0
    log verbosity [ServerRun.started config (toString port)]
    discard interrupted.block
    log verbosity [ServerRun.stopped]
    server.shutdownAndWait.block
    return 0

end Calculator.Main

open Calculator in
def main (args : List String) : IO UInt32 := do
  let bind? ← IO.getEnv "RECKON_BIND"
  let limit? ← IO.getEnv "RECKON_MAX_DEPTH"
  let environment (name : String) : Option String :=
    [("RECKON_BIND", bind?), ("RECKON_MAX_DEPTH", limit?)].lookup name |>.join
  let verbosity := Severity.verbosity (← IO.getEnv "RUST_LOG")
  match CommandLine.command environment args with
  | .ok (.evaluate o) => Main.evaluate o verbosity
  | .ok (.serve config) => Main.serve config verbosity
  | .error .version => Main.finish ⟨0, CommandLine.versionText, ""⟩
  | .error .help => Main.finish ⟨0, Main.usageText, ""⟩
  | .error .usage => Main.finish ⟨2, "", Main.usageText⟩
