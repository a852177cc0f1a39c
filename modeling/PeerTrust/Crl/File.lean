import PeerTrust.Crl.Basic
import PeerTrust.Event
import PeerTrust.FileSystem
import PeerTrust.Pem.Basic

/-!
# Files of revocation lists

A file holds either armoured text with any number of lists, or one encoded list.

## Main definitions

* `RevocationList.ofDer` — one list, or why there is none
* `RevocationList.parseAll` — all lists of armoured text, or the one encoded list
* `RevocationList.load` — all lists of a file
* `RevocationList.isSignedBy` — whether a key signed a list, told as an event if unsupported
-/

namespace PeerTrust.RevocationList

/-- The list that a byte string starts with, or why there is none. -/
def ofDer (bs : Bytes) : Except CrlProblem RevocationList :=
  match ofDer? bs with
  | some list => .ok list
  | none => .error (.malformed "not a revocation list")

/-- White space that may stand before armoured text. -/
def isLeadingSpace (b : UInt8) : Bool := b = 0x20 || b = 0x09 || b = 0x0a || b = 0x0c || b = 0x0d

/-- Whether a byte string is taken for armoured text. -/
def isArmoured (bs : Bytes) : Bool :=
  (Bytes.ofAscii "-----BEGIN").isPrefixOf (bs.dropWhile isLeadingSpace)

/-- The lists of sections in order, up to the first fault of a section or of the text. -/
def ofSections : List Pem.Section → Option Pem.Fault → Except CrlProblem (List RevocationList)
  | [], some fault => .error (.invalidPem fault.message)
  | [], none => .ok []
  | s :: rest, fault =>
    if s.kind = .crl then do
      let list ← ofDer s.content
      return list :: (← ofSections rest fault)
    else ofSections rest fault

/-- All lists of armoured text, of which there must be one, or else the one encoded list. -/
def parseAll (bs : Bytes) : Except CrlProblem (List RevocationList) :=
  if isArmoured bs then do
    let (found, fault) := Pem.sections bs
    match ← ofSections found fault with
    | [] => .error .noneInPem
    | lists => .ok lists
  else do return [← ofDer bs]

/-- All lists of a file. -/
def load (fs : FileSystem) (path : FilePath) : Except CrlFileProblem (List RevocationList) :=
  match fs.read path with
  | .error e => .error (.unreadable path e)
  | .ok bs => (parseAll bs).mapError (.unusable path)

/-- Whether a key signed the list. An unsupported algorithm is told as an event. -/
def isSignedBy (list : RevocationList) (key : SubjectPublicKeyInfo) : Logged Bool :=
  match list.signatureResult key with
  | .valid => pure true
  | .invalid => pure false
  | .unsupported => ⟨false, [.crlAlgorithmUnsupported list.issuer.display]⟩

end PeerTrust.RevocationList
