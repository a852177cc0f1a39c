import PeerTrust.Certification.Certificate
import PeerTrust.ServerName

/-!
# Alternative names

A certificate is for a server if one of its alternative names stands for the name of the server.
Neither the subject nor an alternative name of another kind counts.

## Main definitions

* `Certification.GeneralName`, `Certification.GeneralName.read` — alternative names
* `Certification.standsFor` — whether a presented host name stands for a host
* `Certification.Certificate.checkServer` — whether a certificate is for a server
-/

namespace PeerTrust.Certification

/-- An alternative name. -/
inductive GeneralName
  | host (text : Bytes)
  | address (octets : Bytes)
  | directory
  | resource (text : Bytes)
  /-- A name of a kind that nothing is compared with. -/
  | unsupported (number : Nat)
  deriving DecidableEq, Repr

/-- A name as an element with a tag byte of its kind. -/
def GeneralName.read : Reader GeneralName := do
  let (tag, content) ← element
  match tag with
  | 0x82 => return .host content
  | 0x87 => return .address content
  | 0xA4 => return .directory
  | 0x86 => return .resource content
  | 0xA0 => return .unsupported 0
  | 0x81 => return .unsupported 1
  | 0xA3 => return .unsupported 3
  | 0xA5 => return .unsupported 5
  | 0x88 => return .unsupported 8
  | _ => throw .badEncoding

/-- The wording of a name. -/
def GeneralName.display : GeneralName → String
  | host text => s!"DnsName({Bytes.toHex text})"
  | address octets => s!"IpAddress({Bytes.toHex octets})"
  | directory => "DirectoryName"
  | resource text => s!"UniformResourceIdentifier({Bytes.toHex text})"
  | unsupported number => s!"Unsupported({number})"

/-- The names up to the first malformed one, and the reason why that is malformed. -/
def generalNames (bs : Bytes) : List GeneralName × Option Problem :=
  if bs = [] then ([], none)
  else match GeneralName.read bs with
    | .error p => ([], some p)
    | .ok (name, rest) =>
      if rest.length < bs.length then
        let more := generalNames rest
        (name :: more.1, more.2)
      else ([], some .badEncoding)
termination_by bs.length

/-- An ASCII letter in lower case, and any other byte as it is. -/
def lower (b : UInt8) : UInt8 := if 0x41 ≤ b ∧ b ≤ 0x5A then b + 0x20 else b

/-- The wildcard label. -/
def wildcard : Bytes := [0x2A]

/-- Whether a text may be presented as a host name: labels without a final dot, or a wildcard with
at least two labels after it. -/
def isPresentable (text : Bytes) : Bool :=
  text.length ≤ 253 &&
    match splitAt 0x2E text with
    | first :: rest =>
      if first = wildcard then 2 ≤ rest.length && HostName.areLabels rest
      else HostName.areLabels (first :: rest)
    | [] => false

/-- Whether a presented host name stands for a host. Case and a final dot of the host do not count,
and a wildcard stands for any one label. -/
def standsFor (presented host : Bytes) : Bool :=
  isPresentable presented &&
    match splitAt 0x2E (presented.map lower),
      HostName.withoutFinalDot (splitAt 0x2E (host.map lower)) with
    | p :: ps, h :: hs => (p = wildcard || p = h) && ps = hs
    | _, _ => false

/-- Whether an alternative name stands for a server. -/
def GeneralName.isFor : ServerName → GeneralName → Bool
  | .host text, host presented => standsFor presented (Bytes.ofAscii text)
  | .address octets, address presented => presented = octets
  | _, _ => false

/-- The wording of the name of a server. -/
def expectedName : ServerName → String
  | .host text => text
  | .address octets => Bytes.toHex octets

/-- One of the alternative names stands for the server. A malformed name counts only if none before
it does. -/
def Certificate.checkServer (c : Certificate) (server : ServerName) : Except Problem Unit :=
  let (names, fault) := generalNames (c.alternativeNames.getD [])
  if names.any (·.isFor server) then .ok ()
  else match fault with
    | some p => .error p
    | none => .error (.wrongName (expectedName server) (names.map (·.display)))

end PeerTrust.Certification
