import PeerTrust.Certification.Certificate
import PeerTrust.Oid

/-!
# Conditions on one certificate of a path

Whatever its issuer, a certificate of a path must be valid at the moment, fit its place in the path,
and serve to authenticate servers if its purposes are restricted.

## Main definitions

* `Certification.Place` — where in a path a certificate stands
* `Certification.Place.permit` — whether a certificate may stand there
* `Certification.Certificate.checkValidity`, `Certification.Certificate.checkPlace`,
  `Certification.Certificate.checkPurposes` — the three conditions
* `Certification.Certificate.check` — all of them
-/

namespace PeerTrust.Certification

/-- Where in a path a certificate stands. -/
inductive Place
  | endEntity
  /-- An authority above so many other authorities. -/
  | authority (below : Nat)
  deriving DecidableEq, Repr

/-- The place of the issuer of a certificate in this place. -/
def Place.next : Place → Place
  | endEntity => authority 0
  | authority below => authority (below + 1)

/-- Whether a certificate may stand in this place: authorities stand nowhere but above others, and
above no more than their limit. -/
def Place.permit (isAuthority : Bool) (limit : Option Nat) : Place → Except Problem Unit
  | endEntity => if isAuthority then .error .authorityAsEndEntity else .ok ()
  | authority below =>
    if !isAuthority then .error .endEntityAsAuthority
    else if limit.any (· < below) then .error .pathLengthExceeded
    else .ok ()

/-- A date and time of day to the second, ending in `Z`, after the year. -/
def afterYear (year : Nat) (bs : Bytes) : Option Moment := do
  let (month, bs) ← Moment.pair? bs
  let (day, bs) ← Moment.pair? bs
  let (hour, bs) ← Moment.pair? bs
  let (minute, bs) ← Moment.pair? bs
  let (second, bs) ← Moment.pair? bs
  -- 0x5A is the letter Z.
  if bs.head? = some 0x5A ∧ 1970 ≤ year then
    Moment.ofCivil? ⟨year, month, day, hour, minute, second⟩
  else none

/-- The moment that a content writes, with a year of two or of four digits, and the rest after the
final `Z`. No moment before 1970 can be written. -/
def momentOf (shortYear : Bool) (content : Bytes) : Option Moment := do
  let (first, bs) ← Moment.pair? content
  if shortYear then afterYear (if 50 ≤ first then 1900 + first else 2000 + first) bs
  else
    let (second, bs) ← Moment.pair? bs
    afterYear (100 * first + second) bs

/-- How many bytes a moment takes. -/
def momentLength (shortYear : Bool) : Nat := if shortYear then 13 else 15

/-- A moment in the form that its tag byte announces. -/
def moment : Reader Moment := do
  let shortYear ← isNext 0x17
  nested (if shortYear then 0x17 else 0x18) .trailingData fun content =>
    match momentOf shortYear content with
    | some m => .ok (m, content.drop (momentLength shortYear))
    | none => .error .badTime

namespace Certificate

/-- The certificate is valid from the first to the last moment, both included. -/
def checkValidity (c : Certificate) (now : Moment) : Except Problem Unit :=
  whole .badEncoding (do
    let notBefore ← moment
    let notAfter ← moment
    if notAfter < notBefore then throw .validityReversed
    if now < notBefore then throw (.notYetValid now notBefore)
    if notAfter < now then throw (.expired now notAfter)) c.validity

/-- An authority stands in its place if that is above others, and above no more than it may. -/
def checkPlace (c : Certificate) (place : Place) : Except Problem Unit :=
  match c.basicConstraints with
  | none => place.permit false none
  | some content => whole .badEncoding (do
      let isAuthority ← flag
      let limit ← if ← atEnd then pure none else some <$> smallNumber
      place.permit isAuthority limit) content

/-- The purpose of authenticating a server. -/
def serverAuthentication : Bytes := (Oid.ofArcs [1, 3, 6, 1, 5, 5, 7, 3, 1]).content

/-- Looks for the purpose of authenticating a server after other purposes. -/
def findPurpose (others : List String) (bs : Bytes) : Except Problem Unit :=
  match expect 0x06 bs with
  | .error p => .error p
  | .ok (purpose, rest) =>
    if purpose = serverAuthentication then .ok ()
    else
      let others := others ++ [(Oid.mk purpose).dotted]
      if rest = [] then .error (.purposeMissing others)
      else if rest.length < bs.length then findPurpose others rest
      else .error .badEncoding
termination_by bs.length

/-- Purposes, if they are restricted, include the authentication of servers. -/
def checkPurposes (c : Certificate) : Except Problem Unit :=
  match c.purposes with
  | none => .ok ()
  | some [] => .error .noPurposes
  | some content => findPurpose [] content

/-- All conditions that do not concern the issuer. -/
def check (c : Certificate) (now : Moment) (place : Place) : Except Problem Unit := do
  c.checkValidity now
  c.checkPlace place
  c.checkPurposes

end Certificate

end PeerTrust.Certification
