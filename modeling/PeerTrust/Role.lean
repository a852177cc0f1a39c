/-!
# Roles

A client holds one set of trust material for each side that may open the connection.

## Main definitions

* `Role` — who opens the connection
* `Role.display` / `Role.key` — the role in messages and as a configuration key
-/

namespace PeerTrust

/-- Which side opens the connection. -/
inductive Role
  /-- The client connects to a server. -/
  | client
  /-- The server calls the client. -/
  | callHome
  deriving DecidableEq, Repr

namespace Role

/-- The role as messages name it. -/
def display : Role → String
  | client => "client"
  | callHome => "call-home"

/-- The role as configuration files name it. -/
def key : Role → String
  | client => "client"
  | callHome => "call_home"

/-- The role that a configuration key names. -/
def ofKey? : String → Option Role
  | "client" => some client
  | "call_home" => some callHome
  | _ => none

theorem ofKey?_key (r : Role) : ofKey? r.key = some r := by cases r <;> rfl

end Role

end PeerTrust
