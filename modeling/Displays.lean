import Displays.Command.Execution
import Displays.Hardware.Host
import Displays.Main
import Displays.Proofs.Absorption
import Displays.Proofs.Following
import Displays.Proofs.Processing
import Displays.Proofs.Submissions
import Displays.Proofs.Feedback
import Displays.Proofs.Holding
import Displays.Proofs.Serving
import Displays.Proofs.Reachability
import Displays.Proofs.Resynchronisation
import Displays.Proofs.Agreement
import Displays.Proofs.Requests
import Displays.Proofs.Tracking
import Displays.Proofs.Watching
import Displays.Proofs.Convergence
import Displays.Proofs.Revision
import Displays.Proofs.Orderly
import Displays.Proofs.Setting
import Displays.Proofs.Safety
import Displays.Proofs.Judgement
import Displays.Proofs.Restoration
import Displays.Proofs.Sensor
import Displays.Proofs.Panel
import Displays.Proofs.Merging
import Displays.Proofs.Allocation
import Displays.Proofs.Wiring
import Displays.Proofs.Sharing
import Displays.Proofs.Ownership
import Displays.Proofs.WriteBack
import Displays.Proofs.Visiting
import Displays.Proofs.Layout
import Displays.Proofs.Origin
import Displays.Proofs.Refusal
import Displays.Proofs.Scanning
import Displays.Proofs.Numerals
import Displays.Proofs.Descriptions
import Displays.Proofs.Recognition
import Displays.Proofs.Reports
import Displays.Proofs.Drafts
import Displays.Proofs.Composition
import Displays.Proofs.Sections
import Displays.Proofs.Entries
import Displays.Proofs.Saving
import Displays.Proofs.Encoding
import Displays.Proofs.Escapes
import Displays.Proofs.Printing
import Displays.Proofs.Records
import Displays.Proofs.Doubles
import Displays.Proofs.Nearest
import Displays.Proofs.Shortest
import Displays.Proofs.Rereading
import Displays.Proofs.Reopening
import Displays.Proofs.Magnitude
import Displays.Proofs.Finding
import Displays.Proofs.Repetition
import Displays.Proofs.Freshness
import Displays.Proofs.Mirroring
import Displays.Proofs.Recipients
import Displays.Proofs.Histories
import Displays.Proofs.Activation
import Displays.Proofs.Indexing
import Displays.Proofs.Sequencing
import Displays.Proofs.Unescaped
import Displays.Proofs.Messages
import Displays.Proofs.Batches
import Displays.Proofs.Arrivals
import Displays.Proofs.Seniority
import Displays.Proofs.Restating
import Displays.Proofs.Amending
import Displays.Proofs.Obeying
import Displays.Proofs.Reporting
import Displays.Proofs.Numbering
import Displays.Proofs.Validity
import Displays.Proofs.Wording
import Displays.Proofs.Rates
import Displays.Proofs.Expressible
import Displays.Proofs.Acceptance
import Displays.Proofs.Keys
import Displays.Proofs.Captions
import Displays.Proofs.Dumps
