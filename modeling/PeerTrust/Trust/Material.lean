import PeerTrust.Event
import PeerTrust.FileSystem
import PeerTrust.Pem.Basic
import PeerTrust.Trust.PrivateKey

/-!
# Loading trust material

Certificate chains, private keys and trust anchors are read from files of armoured text, anchors
also from every file of a directory.

## Main definitions

* `readCertificates` — the certificates of a file
* `loadChain`, `loadKey` — the credentials of a client
* `loadAnchors` — the anchors of a file and of a directory
-/

namespace PeerTrust

/-- The certificates of a file, none of whose sections may be faulty. -/
def readCertificates (fs : FileSystem) (path : FilePath) : Except LoadProblem (List Bytes) :=
  match fs.read path with
  | .error e => .error (.io e)
  | .ok text => (Pem.contents? .certificate text).mapError fun fault => .malformed fault.message

/-- The certificates of a file, of which there must be one. -/
def readSomeCertificates (fs : FileSystem) (path : FilePath) : Except LoadProblem (List Bytes) :=
  match readCertificates fs path with
  | .ok [] => .error .noCertificates
  | found => found

/-- The certificate chain of a client. -/
def loadChain (fs : FileSystem) (path : FilePath) : Except Error (List Bytes) :=
  (readSomeCertificates fs path).mapError (.certificateLoadFailed path)

/-- The labels of private keys. -/
def isPrivateKey (kind : Pem.Kind) : Bool :=
  kind = .privateKey || kind = .ecPrivateKey || kind = .rsaPrivateKey

/-- The first private key of a file. Faults after it do not count. -/
def readKey (fs : FileSystem) (path : FilePath) : Except LoadProblem PrivateKey :=
  match fs.read path with
  | .error e => .error (.io e)
  | .ok text =>
    let (found, fault) := Pem.sections text
    match found.find? (isPrivateKey ·.kind), fault with
    | some s, _ => .ok ⟨s.kind, s.content⟩
    | none, some fault => .error (.malformed fault.message)
    | none, none => .error .noPrivateKey

/-- The private key of a client. -/
def loadKey (fs : FileSystem) (path : FilePath) : Except Error PrivateKey :=
  (readKey fs path).mapError (.keyLoadFailed path)

/-- The anchors of a file. -/
def anchorsOfFile (fs : FileSystem) (path : FilePath) : Except Error (List Bytes) :=
  (readSomeCertificates fs path).mapError fun problem =>
    .trustAnchorLoadFailed (.inLocation path problem)

/-- The anchors of an entry of a directory. One that is no file has none, and neither has a file
that cannot be read, which is told. -/
def anchorsOfEntry (fs : FileSystem) (path : FilePath) : Logged (List Bytes) :=
  if fs.isFile path then
    match readCertificates fs path with
    | .ok found => return found
    | .error problem => ⟨[], [.caFileSkipped path problem]⟩
  else return []

/-- The anchors of all entries, one after the other. -/
def anchorsOfEntries (fs : FileSystem) : List FilePath → Logged (List Bytes)
  | [] => return []
  | path :: rest => return (← anchorsOfEntry fs path) ++ (← anchorsOfEntries fs rest)

/-- The anchors of a directory. -/
def anchorsOfDir (fs : FileSystem) (dir : FilePath) : Logged (Except Error (List Bytes)) :=
  match fs.list dir with
  | .error e => return .error (.trustAnchorLoadFailed (.inLocation dir (.io e)))
  | .ok names => return .ok (← anchorsOfEntries fs (names.map dir.join))

/-- The anchors of a place that may be unset. -/
def anchorsOf (load : FilePath → Logged (Except Error (List Bytes))) :
    Option FilePath → Logged (Except Error (List Bytes))
  | none => return .ok []
  | some path => load path

/-- The anchors of an optional file and an optional directory, of which there must be one. -/
def loadAnchors (fs : FileSystem) (file dir : Option FilePath) :
    Logged (Except Error (List Bytes)) := do
  match ← anchorsOf (fun path => return anchorsOfFile fs path) file with
  | .error e => return .error e
  | .ok fromFile =>
    match ← anchorsOf (anchorsOfDir fs) dir with
    | .error e => return .error e
    | .ok fromDir =>
      if fromFile ++ fromDir = [] then return .error (.trustAnchorLoadFailed .noneFound)
      else return .ok (fromFile ++ fromDir)

end PeerTrust
