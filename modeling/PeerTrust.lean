import PeerTrust.Main
import PeerTrust.Proofs.AddedLists
import PeerTrust.Proofs.AnchorOrder
import PeerTrust.Proofs.AuditTrail
import PeerTrust.Proofs.CanonicalNames
import PeerTrust.Proofs.Causes
import PeerTrust.Proofs.ConfiguredAnchors
import PeerTrust.Proofs.ConfiguredClients
import PeerTrust.Proofs.DirectoryLookups
import PeerTrust.Proofs.ExplainedText
import PeerTrust.Proofs.ExtendedChains
import PeerTrust.Proofs.FailedHandshakes
import PeerTrust.Proofs.FileNameForms
import PeerTrust.Proofs.HandedOutContexts
import PeerTrust.Proofs.MatchingNames
import PeerTrust.Proofs.OrderedActs
import PeerTrust.Proofs.Rebuilds
import PeerTrust.Proofs.Reports
import PeerTrust.Proofs.SeparateRoles
import PeerTrust.Proofs.SerialNumbers
import PeerTrust.Proofs.SetPaths
import PeerTrust.Proofs.ShortestForms
import PeerTrust.Proofs.SoundPlans
import PeerTrust.Proofs.SourceKinds
import PeerTrust.Proofs.Spellings
import PeerTrust.Proofs.Verdicts
import PeerTrust.Session.Operation
