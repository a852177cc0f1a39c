import PeerTrust.Config.Basic
import PeerTrust.Text.Utf8
import PeerTrust.Toml.Document

/-!
# Configuration files

A section is a table of fields by their names, or an array of fields in their order. What is missing
takes its default; unknown names and surplus items are ignored.

## Main definitions

* `Fields` — the fields of a section
* `Config.ofToml?` — the configuration that a document describes
* `Config.load` — the configuration in a file
-/

namespace PeerTrust

/-- The fields of a section. -/
inductive Fields
  | named (entries : Toml.Entries)
  | ordered (items : List Toml.Value)

namespace Fields

/-- The fields of a section that may be missing. -/
def ofSection? : Option Toml.Value → Option Fields
  | none => some (named [])
  | some value => (value.entries?.map named) <|> (value.items?.map ordered)

/-- A field by its name and its place. -/
def get? (name : String) (place : Nat) : Fields → Option Toml.Value
  | named entries => entries.lookup name
  | ordered items => items[place]?

/-- A field read as `read` says, or the default if it is missing. -/
def read {α : Type} (read : Toml.Value → Option α) (default : α) (name : String) (place : Nat)
    (fields : Fields) : Option α :=
  match fields.get? name place with
  | none => some default
  | some value => read value

end Fields

/-- A text. -/
def Toml.Value.text? : Toml.Value → Option String
  | string text => some text
  | _ => none

/-- A path. -/
def Toml.Value.path? (v : Toml.Value) : Option (Option FilePath) :=
  v.text?.map fun text => some ⟨text⟩

/-- A number below a bound that is not negative. -/
def Toml.Value.natural? (bound : Nat) : Toml.Value → Option Nat
  | integer n => if 0 ≤ n ∧ n < bound then some n.toNat else none
  | _ => none

/-- The paths that a section names. -/
def TrustPaths.ofSection? (value : Option Toml.Value) : Option TrustPaths := do
  let fields ← Fields.ofSection? value
  let path := Fields.read Toml.Value.path? none
  return {
    cert := ← path "cert_path" 0 fields
    key := ← path "key_path" 1 fields
    caFile := ← path "ca_file" 2 fields
    caDir := ← path "ca_dir" 3 fields
    crlFile := ← path "crl_file" 4 fields
    crlDir := ← path "crl_dir" 5 fields }

/-- The connection that a section describes. -/
def ConnectionConfig.ofSection? (value : Option Toml.Value) : Option ConnectionConfig := do
  let fields ← Fields.ofSection? value
  let default : ConnectionConfig := {}
  return {
    host := ← fields.read Toml.Value.text? default.host "host" 0
    port := UInt16.ofNat (← fields.read (Toml.Value.natural? UInt16.size) default.port.toNat "port" 1)
    timeoutMillis := ← fields.read (Toml.Value.natural? UInt64.size) default.timeoutMillis
      "connect_timeout_ms" 2 }

namespace Config

/-- The configuration that a document describes. -/
def ofToml? (text : List Char) : Option Config := do
  let root ← Toml.parse? text
  return {
    client := ← TrustPaths.ofSection? (root.lookup Role.client.key)
    callHome := ← TrustPaths.ofSection? (root.lookup Role.callHome.key)
    connection := ← ConnectionConfig.ofSection? (root.lookup "connection") }

/-- The configuration in a file. -/
def load (fs : FileSystem) (path : FilePath) : Except Error Config :=
  match fs.read path with
  | .error e => .error (.io e)
  | .ok bs =>
    match Text.Utf8.decode? bs with
    | none => .error (.io .invalidUtf8)
    | some text =>
      match ofToml? text with
      | some config => .ok config
      | none => .error (.config (.malformed "the document does not describe a configuration"))

end Config

end PeerTrust
