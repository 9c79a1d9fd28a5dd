import Attest.Lib.Bytes
import Attest.Lib.Sha256
import Attest.Lib.PyFloat
import Attest.Lib.Json
import Attest.Lib.JsonOrder
import Attest.Lib.PyText
import Attest.Lib.Regex
import Attest.Lib.Outcome
import Attest.Lib.Uuid
import Attest.Lib.Signature
import Attest.Lib.HashChain
import Attest.Lib.Merkle
import Attest.Lib.Run
import Attest.Lib.PyTime
import Attest.Lib.Knowledge
import Attest.Crypto
import Attest.Pii
import Attest.Db
import Attest.PayloadStore
import Attest.Envelope
import Attest.OrgSigning
import Attest.Events
import Attest.Recording
import Attest.Batching
import Attest.Verification
import Attest.Erasure
import Attest.Ledger
import Attest.Sealing
import Attest.Tamper
import Attest.Bundle
import Attest.Evidence
import Attest.Features
import Attest.OfflineClaim
import Attest.Rules
import Attest.Packs
import Attest.Remediation
import Attest.Precheck
import Attest.Gate
import Attest.Workflow
import Attest.Consent
import Attest.Retention
import Attest.Grants
import Attest.Confinement
import Attest.Inclusion
import Attest.Completeness
import Attest.Agreement
import Attest.Provenance
import Attest.Disclosure
import Attest.Lib.ReadCommitted
import Attest.Resolving
import Attest.Batched
import Attest.Anchoring
import Attest.Offline
import Attest.Mitigation
import Attest.Settings
import Attest.Isolation
import Attest.Grafting
import Attest.Authorship
import Attest.Activation
import Attest.Reporting
import Attest.Localised
import Attest.DecisionIndex
import Attest.Decisions
import Attest.Desk
import Attest.Returning
import Attest.Workqueue
import Attest.Lib.Ranked
import Attest.Selection
import Attest.Advisory
import Attest.Preview
import Attest.Cures
import Attest.Resubmission
import Attest.Rulebooks
import Attest.Reductions
import Attest.Resumed
import Attest.SourceText
import Attest.Watch
import Attest.Watching
import Attest.Registration
import Attest.Evaluable
import Attest.Drift
import Attest.Provisions
import Attest.Citations
import Attest.Attested
import Attest.Versions
import Attest.Lib.TextFile
import Attest.OfflineStore
import Attest.DeviceQueue
import Attest.FlushBuffer
import Attest.Accepting
import Attest.Continuity
import Attest.Handover
import Attest.LocalPolicy
import Attest.Outage
import Attest.FastPath
import Attest.HumanAuth
import Attest.Sessions
import Attest.Guessing
import Attest.Lib.Substitution
import Attest.Redaction
import Attest.Softening
import Attest.Revision
import Attest.Lib.SlidingWindow
import Attest.RateLimit
import Attest.Sweep
import Attest.Floor
import Attest.OfflineVerdict
import Attest.Pacing
import Attest.Credentials
