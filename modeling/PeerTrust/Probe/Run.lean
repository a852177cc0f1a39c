import PeerTrust.Config.File
import PeerTrust.Probe.Options
import PeerTrust.Session.Client

/-!
# Probing a server

The probe loads a configuration, connects in the role of the client, and reports what came of it in
lines and in its exit code.

## Main definitions

* `Probe.Line`, `Probe.Line.display` — lines of the report, with fields after their text
* `Probe.Outcome` — lines, output and exit code
* `Probe.run` — what a command line comes to
-/

namespace PeerTrust.Probe

/-- A line of the report. -/
inductive Line
  | loading (path : FilePath)
  | loadFailed (e : Error)
  | established (session : Session)
  | probeFailed (e : Error)
  deriving DecidableEq, Repr

namespace Line

/-- How much a line matters. -/
def level : Line → Event.Level
  | loading _ | established _ => .info
  | loadFailed _ | probeFailed _ => .error

/-- The wording of a line. -/
def text : Line → String
  | loading path => s!"Loading configuration from: {path.text}"
  | loadFailed e => s!"Failed to load configuration: {e.message}"
  | established _ => "Secure channel established"
  | probeFailed e => s!"Probe failed: {e.message}"

/-- The fields after the wording. -/
def fields : Line → List (String × String)
  | established session =>
    [("host", Session.quoted (session.host.getD "")), ("port", toString session.port),
     ("verdict", session.verdict.name)]
  | probeFailed e => [("category", Session.quoted e.category)]
  | _ => []

/-- A line as it is printed. -/
def display (l : Line) : String :=
  " ".intercalate (l.level.name :: l.text :: l.fields.map fun (name, value) => s!"{name}={value}")

end Line

/-- What a run comes to. -/
structure Outcome where
  lines : List Line := []
  output : String := ""
  exit : Nat := 0
  /-- The error that ended the run before it could be reported. -/
  failure : Option Error := none
  deriving DecidableEq, Repr

/-- The text that help consists of. -/
def helpText : String := "\n".intercalate
  ["Probe a NETCONF over TLS server with certificate authentication",
   "",
   "Usage: netconf-tls-probe [OPTIONS]",
   "",
   "Options:",
   "  -c, --config <CONFIG>          Configuration file [default: config/netconf-tls.toml]",
   "      --host <HOST>              Server host, overrides connection.host",
   "  -p, --port <PORT>              Server port, overrides connection.port",
   "      --schema-dir <SCHEMA_DIR>  YANG schema search directory for the session context",
   "  -h, --help                     Print help",
   "  -V, --version                  Print version",
   ""]

/-- The text that the version consists of. -/
def versionText : String := "netconf-tls-probe 0.1.0\n"

/-- What an attempt to connect comes to. -/
def ofAttempt (path : FilePath) : Except Error Session → Outcome
  | .ok session => { lines := [.loading path, .established session] }
  | .error e => { lines := [.loading path, .probeFailed e], exit := 2 }

/-- What a run under a configuration comes to. Options win over the configuration. -/
def withConfig (fs : FileSystem) (now : Moment) (network : String → UInt16 → Reach) (o : Options)
    (config : Config) : Outcome :=
  match Client.ofConfig config with
  | .error e => { lines := [.loading o.configPath], exit := 1, failure := some e }
  | .ok client =>
    let host := o.host.getD config.connection.host
    let port := o.port.getD config.connection.port
    let attempt := (client.connect fs now (config.transport.openSocket network)
      (.channelOnly o.schemaDir) (some host) port none).2
    ofAttempt o.configPath attempt.result

/-- What a run comes to. -/
def withOptions (fs : FileSystem) (now : Moment) (network : String → UInt16 → Reach)
    (o : Options) : Outcome :=
  match Config.load fs o.configPath with
  | .error e => { lines := [.loading o.configPath, .loadFailed e], exit := 1 }
  | .ok config => withConfig fs now network o config

/-- What a command line comes to. -/
def run (fs : FileSystem) (now : Moment) (network : String → UInt16 → Reach)
    (arguments : List String) : Outcome :=
  match Request.ofArguments arguments with
  | .help => { output := helpText }
  | .version => { output := versionText }
  | .refused => { exit := 2 }
  | .run o => withOptions fs now network o

end PeerTrust.Probe
