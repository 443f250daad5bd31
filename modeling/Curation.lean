import Curation.Audit
import Curation.Audit.Snapshot
import Curation.Bytes.BigEndian
import Curation.Bytes.LittleEndian
import Curation.Bytes.Utf8
import Curation.Calendar
import Curation.Catalogue.Field
import Curation.Catalogue.FuzzyDate
import Curation.Catalogue.Record
import Curation.Catalogue.Value
import Curation.Clock
import Curation.Datum
import Curation.Datum.Json
import Curation.Datum.MessagePack
import Curation.Digest.Blake3
import Curation.Edit
import Curation.Enumerated
import Curation.Fault
import Curation.Identity.Id
import Curation.Identity.Serial
import Curation.Identity.Uuid
import Curation.Instant
import Curation.Instant.Text
import Curation.Json
import Curation.Json.Printer
import Curation.Json.Reader
import Curation.Json.Transform
import Curation.Ordering
import Curation.Policy
import Curation.Portable.Edits
import Curation.Portable.Records
import Curation.Portable.Scalars
import Curation.Portable.Short
import Curation.Procedure
import Curation.Procedure.Application
import Curation.Procedure.Desk
import Curation.Proofs.Admission
import Curation.Proofs.Appearances
import Curation.Proofs.Application
import Curation.Proofs.Applications
import Curation.Proofs.Atomicity
import Curation.Proofs.Audits
import Curation.Proofs.Ballots
import Curation.Proofs.Checks
import Curation.Proofs.Commutation
import Curation.Proofs.Conditions
import Curation.Proofs.Conflicts
import Curation.Proofs.Constraints
import Curation.Proofs.Contents
import Curation.Proofs.Credits
import Curation.Proofs.Crowds
import Curation.Proofs.Deadlines
import Curation.Proofs.Differences
import Curation.Proofs.Documents
import Curation.Proofs.Eligibility
import Curation.Proofs.Encodings
import Curation.Proofs.FailedApplications
import Curation.Proofs.Failures
import Curation.Proofs.Fitting
import Curation.Proofs.Footprint
import Curation.Proofs.Forest
import Curation.Proofs.Frames
import Curation.Proofs.FuzzyDates
import Curation.Proofs.Grants
import Curation.Proofs.Heads
import Curation.Proofs.Integrity
import Curation.Proofs.KeptCredits
import Curation.Proofs.Legibility
import Curation.Proofs.Lifecycle
import Curation.Proofs.Liveness
import Curation.Proofs.Locality
import Curation.Proofs.Logs
import Curation.Proofs.Members
import Curation.Proofs.Merging
import Curation.Proofs.Modification
import Curation.Proofs.Nesting
import Curation.Proofs.Notices
import Curation.Proofs.Numbering
import Curation.Proofs.Origins
import Curation.Proofs.Overrides
import Curation.Proofs.Packing
import Curation.Proofs.Permissions
import Curation.Proofs.Portability
import Curation.Proofs.Postings
import Curation.Proofs.Procedures
import Curation.Proofs.Promotions
import Curation.Proofs.Provenance
import Curation.Proofs.Quorum
import Curation.Proofs.Readback
import Curation.Proofs.Realization
import Curation.Proofs.Redirection
import Curation.Proofs.Register
import Curation.Proofs.Removal
import Curation.Proofs.Repointing
import Curation.Proofs.Retention
import Curation.Proofs.Runs
import Curation.Proofs.Scores
import Curation.Proofs.Sessions
import Curation.Proofs.Snapshots
import Curation.Proofs.Standing
import Curation.Proofs.Steps
import Curation.Proofs.Substitution
import Curation.Proofs.Successes
import Curation.Proofs.Sufficiency
import Curation.Proofs.Sweeps
import Curation.Proofs.Tidiness
import Curation.Proofs.Timestamps
import Curation.Proofs.Turns
import Curation.Proofs.Typing
import Curation.Proofs.Verdicts
import Curation.Proofs.Windows
import Curation.Proofs.Writes
import Curation.Proposal.Change
import Curation.Proposal.Input
import Curation.Rehearsal
import Curation.Rehearsal.Labels
import Curation.Review.Application
import Curation.Review.Desk
import Curation.Review.Error
import Curation.Review.Ledger
import Curation.Review.Promotion
import Curation.Review.Reading
import Curation.Review.Retention
import Curation.Review.Submission
import Curation.Rules
import Curation.Rules.Source
import Curation.Store
import Curation.Store.Catalogue
import Curation.Store.Reviews
import Curation.Store.SavepointName
import Curation.Store.Statement
import Curation.Store.Transaction
import Curation.Text.Blank
import Curation.Text.Decimal
import Curation.Text.Hex
import Curation.Toml
import Curation.Toml.Lexeme
import Curation.Toml.Reader
import Curation.Verdict
import Curation.Vocabulary
import Curation.Word
