import Rendezvous.Main
import Rendezvous.Record.Codec
import Rendezvous.Scenario.Codec
import Rendezvous.Json.Reader
import Rendezvous.Session.Run
import Rendezvous.Proofs.Detection
import Rendezvous.Proofs.Flipping
import Rendezvous.Proofs.Window
import Rendezvous.Proofs.Waking
import Rendezvous.Proofs.Vigil
import Rendezvous.Proofs.Retention
import Rendezvous.Proofs.Retyping
import Rendezvous.Proofs.Lifecycle
import Rendezvous.Proofs.Chronicle
import Rendezvous.Proofs.Resumption
import Rendezvous.Proofs.Undoing
import Rendezvous.Proofs.Agreement
import Rendezvous.Proofs.Latest
import Rendezvous.Proofs.Reentry
import Rendezvous.Proofs.Forgery
import Rendezvous.Proofs.Calls
import Rendezvous.Proofs.Confirmation
import Rendezvous.Proofs.Contention
import Rendezvous.Proofs.Renewing
import Rendezvous.Proofs.Exactness
import Rendezvous.Proofs.Borrowing
import Rendezvous.Proofs.Reporting
import Rendezvous.Proofs.Answering
import Rendezvous.Proofs.Fields
import Rendezvous.Proofs.Redaction
import Rendezvous.Proofs.Conditions
import Rendezvous.Proofs.Separation
import Rendezvous.Proofs.Listing
import Rendezvous.Proofs.Timetable
import Rendezvous.Proofs.Upkeep
import Rendezvous.Proofs.Calendar
import Rendezvous.Proofs.Timestamps
import Rendezvous.Proofs.Encoding
import Rendezvous.Proofs.Ties
