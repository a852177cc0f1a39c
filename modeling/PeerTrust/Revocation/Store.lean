import PeerTrust.Crl.File

/-!
# Revocation stores

A store answers whether a certificate is to be rejected. Its sources are a file of lists, read once,
and a directory whose lists are filed under the hashes of their issuers, read at every check.

## Main definitions

* `CrlSource`, `RevocationStore` — where lists are looked up
* `RevocationStore.build` — a store over an optional file and an optional directory
* `RevocationStore.find` — the first list issued under a name
* `RevocationStore.check` — the verdict on a certificate
-/

namespace PeerTrust

/-- Where lists are looked up. -/
inductive CrlSource
  | file (path : FilePath) (lists : List RevocationList)
  | hashedDir (path : FilePath)
  deriving DecidableEq, Repr

/-- The places that are looked up, in order. -/
structure RevocationStore where
  sources : List CrlSource
  deriving DecidableEq, Repr

namespace CrlSource

/-- The path of a source. -/
def path : CrlSource → FilePath
  | file path _ => path
  | hashedDir path => path

/-- How many files may hold lists under one hash. They are counted by numbers of 32 bits, the last of
which is not used. -/
def maxFiles : Nat := UInt32.size - 1

/-- The path of the `index`-th file under a hash. -/
def hashedPath (dir : FilePath) (hash : UInt32) (index : Nat) : FilePath :=
  dir.join (hashedFileName hash (UInt32.ofNat index))

/-- The files under a hash from an index on, at most `room` of them, up to the first that is not
there. -/
def filesFrom (fs : FileSystem) (dir : FilePath) (hash : UInt32) :
    (room index : Nat) → List FilePath
  | 0, _ => []
  | room + 1, index =>
    let path := hashedPath dir hash index
    if fs.isFile path then path :: filesFrom fs dir hash room (index + 1) else []

/-- The files that may hold lists under a hash. -/
def candidates (fs : FileSystem) (dir : FilePath) (hash : UInt32) : List FilePath :=
  filesFrom fs dir hash maxFiles 0

/-- The first list issued under a name in files in order. A file that cannot be loaded is told as an
event and passed over. -/
def walk (fs : FileSystem) (name : Name) : List FilePath → Logged (Option RevocationList)
  | [] => pure none
  | path :: rest =>
    match RevocationList.load fs path with
    | .error problem => do
      Logged.tell (.crlUnreadable path problem)
      walk fs name rest
    | .ok lists =>
      match lists.find? (·.isIssuedBy name) with
      | some list => pure (some list)
      -- Another name may share the hash.
      | none => walk fs name rest

/-- The first list issued under a name in a source. -/
def find (fs : FileSystem) (name : Name) : CrlSource → Logged (Option RevocationList)
  | file _ lists => pure (lists.find? (·.isIssuedBy name))
  | hashedDir dir => walk fs name (candidates fs dir name.hash)

end CrlSource

namespace RevocationStore

/-- A source over a file of lists. -/
def fileSource (fs : FileSystem) (path : FilePath) : Except Error CrlSource :=
  match RevocationList.load fs path with
  | .ok lists => .ok (.file path lists)
  | .error problem => .error (.revocationStoreBuildFailed (.file problem))

/-- A source over a directory. -/
def dirSource (fs : FileSystem) (path : FilePath) : Except Error CrlSource :=
  if fs.isDirectory path then .ok (.hashedDir path)
  else .error (.revocationStoreBuildFailed (.notADirectory path))

/-- The store over an optional file and an optional directory, the file first. -/
def build (fs : FileSystem) (crlFile crlDir : Option FilePath) : Except Error RevocationStore := do
  let files ← crlFile.toList.mapM (fileSource fs)
  let dirs ← crlDir.toList.mapM (dirSource fs)
  return ⟨files ++ dirs⟩

/-- Whether there is nowhere to look. -/
def isEmpty (store : RevocationStore) : Bool := store.sources.isEmpty

/-- The first list issued under a name, source by source. -/
def findIn (fs : FileSystem) (name : Name) : List CrlSource → Logged (Option RevocationList)
  | [] => pure none
  | source :: rest => do
    match ← source.find fs name with
    | some list => pure (some list)
    | none => findIn fs name rest

/-- The first list issued under a name. -/
def find (fs : FileSystem) (store : RevocationStore) (name : Name) :
    Logged (Option RevocationList) :=
  findIn fs name store.sources

/-- Whether the subject's own list is in order: signed by the subject's key, with the moment of the
next list, which has not passed. -/
def checkOwn (list : RevocationList) (cert : Certificate) (now : Moment) :
    Logged Revocation.Verdict := do
  if ← list.isSignedBy cert.publicKey then
    match list.nextUpdate with
    | none => ⟨.reject .crlFieldMissing, [.crlFieldMissing list.issuer.display]⟩
    | some next =>
      if next < now then ⟨.reject .crlExpired, [.crlExpired list.issuer.display]⟩
      else pure .accept
  else ⟨.reject .crlSignatureInvalid, [.crlSignatureInvalid list.issuer.display]⟩

/-- Whether the issuer's list names the certificate. -/
def checkListed (list : RevocationList) (cert : Certificate) : Logged Revocation.Verdict :=
  if list.revokes cert.serial then
    ⟨.reject .certificateRevoked,
      [.certificateRevoked (Bytes.toColonHex cert.serial) cert.subject.display cert.issuer.display]⟩
  else pure .accept

/-- The verdict of a check on the list found under a name, if one is found. -/
def checkFound (fs : FileSystem) (store : RevocationStore) (name : Name)
    (check : RevocationList → Logged Revocation.Verdict) : Logged Revocation.Verdict := do
  match ← store.find fs name with
  | some list => check list
  -- Who has no list is not revoked.
  | none => pure .accept

/-- The verdict on a certificate at a moment: its subject's own list must be in order, and then its
issuer's list must not name it. -/
def check (fs : FileSystem) (store : RevocationStore) (cert : Certificate) (now : Moment) :
    Logged Revocation.Verdict := do
  match ← checkFound fs store cert.subject (checkOwn · cert now) with
  | .reject reason => pure (.reject reason)
  -- Whether the issuer's list is in order is left to the check of the issuer.
  | .accept => checkFound fs store cert.issuer (checkListed · cert)

end RevocationStore

end PeerTrust
