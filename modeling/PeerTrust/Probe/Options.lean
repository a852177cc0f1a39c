import PeerTrust.FilePath

/-!
# The command line of the probe

Arguments are taken from left to right. The first one that asks for help or the version, or that is
wrong, decides.

## Main definitions

* `Probe.Setting` — the options that take a value
* `Probe.Options` — what a run is told
* `Probe.Request`, `Probe.Request.ofArguments` — what a command line asks for
-/

namespace PeerTrust.Probe

/-- An option that takes a value. -/
inductive Setting
  | config
  | host
  | port
  | schemaDir
  deriving DecidableEq, Repr

/-- The long name of an option. -/
def Setting.long : Setting → String
  | config => "config"
  | host => "host"
  | port => "port"
  | schemaDir => "schema-dir"

/-- The option with this long name. -/
def Setting.ofLong? (name : List Char) : Option Setting :=
  [config, host, port, schemaDir].find? (·.long.toList = name)

/-- The option with this letter. -/
def Setting.ofShort? : Char → Option Setting
  | 'c' => some config
  | 'p' => some port
  | _ => none

/-- What a run is told. -/
structure Options where
  config : Option FilePath := none
  host : Option String := none
  port : Option UInt16 := none
  schemaDir : Option FilePath := none
  deriving DecidableEq, Repr

namespace Options

/-- The file that is read unless another one is named. -/
def defaultConfig : FilePath := ⟨"config/netconf-tls.toml"⟩

/-- The file to read. -/
def configPath (o : Options) : FilePath := o.config.getD defaultConfig

/-- Whether an option has been given. -/
def has (o : Options) : Setting → Bool
  | .config => o.config.isSome
  | .host => o.host.isSome
  | .port => o.port.isSome
  | .schemaDir => o.schemaDir.isSome

/-- A path that is not empty. -/
def path? (value : String) : Option FilePath := if value = "" then none else some ⟨value⟩

/-- The number that decimal digits write. -/
def digits? (cs : List Char) : Option Nat :=
  if cs ≠ [] ∧ cs.all Char.isDigit then some (cs.foldl (fun n c => 10 * n + (c.toNat - 0x30)) 0)
  else none

/-- A port: a decimal number below 65536, perhaps with a sign. -/
def port? (value : String) : Option UInt16 := do
  let (minus, n) ← match value.toList with
    | '+' :: cs => (false, ·) <$> digits? cs
    | '-' :: cs => (true, ·) <$> digits? cs
    | cs => (false, ·) <$> digits? cs
  if n < UInt16.size ∧ (minus → n = 0) then some (UInt16.ofNat n) else none

/-- An option given a value, unless it was given before or cannot have this value. -/
def set? (o : Options) (setting : Setting) (value : String) : Option Options :=
  if o.has setting then none
  else match setting with
    | .config => do return { o with config := ← path? value }
    | .host => some { o with host := value }
    | .port => do return { o with port := ← port? value }
    | .schemaDir => do return { o with schemaDir := ← path? value }

end Options

/-- What a command line asks for. -/
inductive Request
  | run (options : Options)
  | help
  | version
  /-- The arguments are wrong. -/
  | refused
  deriving DecidableEq, Repr

/-- What an argument is taken for. -/
inductive Argument
  | help
  | version
  | setting (s : Setting) (value : Option String)
  /-- The end of the options. -/
  | separator
  | other
  deriving DecidableEq, Repr

namespace Argument

/-- A long argument: a name, and perhaps a value after an equals sign. -/
def ofLong (text : List Char) : Argument :=
  let name := text.takeWhile (· ≠ '=')
  let value := match text.dropWhile (· ≠ '=') with
    | [] => none
    | _ :: value => some (String.ofList value)
  if name = "help".toList ∧ value = none then help
  else if name = "version".toList ∧ value = none then version
  else match Setting.ofLong? name with
    | some s => setting s value
    | none => other

/-- A short argument: a letter, and perhaps a value right after it. -/
def ofShort (letter : Char) (after : List Char) : Argument :=
  match letter, Setting.ofShort? letter, after with
  | 'h', _, _ => help
  | 'V', _, _ => version
  | _, some s, [] => setting s none
  | _, some s, '=' :: value => setting s (some (String.ofList value))
  | _, some s, value => setting s (some (String.ofList value))
  | _, none, _ => other

/-- What an argument is taken for. -/
def ofText (text : String) : Argument :=
  match text.toList with
  | ['-', '-'] => separator
  | '-' :: '-' :: name => ofLong name
  | '-' :: letter :: after => ofShort letter after
  | _ => other

end Argument

/-- Whether an argument may be the value of an option before it. -/
def isValue (text : String) : Bool :=
  match text.toList with
  | '-' :: _ :: _ => false
  | _ => true

namespace Request

/-- What the arguments ask for after those before. -/
def read (o : Options) : List String → Request
  | [] => run o
  | argument :: rest =>
    match Argument.ofText argument with
    | .help => help
    | .version => version
    | .separator => if rest = [] then run o else refused
    | .other => refused
    | .setting s (some value) =>
      match o.set? s value with
      | some o => read o rest
      | none => refused
    | .setting s none =>
      match rest with
      | [] => refused
      | value :: rest =>
        if isValue value then
          match o.set? s value with
          | some o => read o rest
          | none => refused
        else refused

/-- What a command line asks for. -/
def ofArguments (arguments : List String) : Request := read {} arguments

end Request

end PeerTrust.Probe
