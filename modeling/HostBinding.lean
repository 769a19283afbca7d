import HostBinding.Access
import HostBinding.Globals.Lookup
import HostBinding.Main
import HostBinding.Proofs.Operation
import HostBinding.Proofs.Outline
import HostBinding.Proofs.Flattening
import HostBinding.Proofs.Payment
import HostBinding.Proofs.Layout
import HostBinding.Proofs.Wrapper
import HostBinding.Proofs.Interpreter
import HostBinding.Proofs.Refinement
import HostBinding.Proofs.Change
import HostBinding.Proofs.Machine
import HostBinding.Proofs.Guarantee
import HostBinding.Proofs.Contract
import HostBinding.Proofs.Caching
import HostBinding.Proofs.Accounting
import HostBinding.Proofs.Integrity
import HostBinding.Proofs.Attributes
import HostBinding.Proofs.ReadOnly
import HostBinding.Proofs.Reentry
import HostBinding.Proofs.Isolation
import HostBinding.Proofs.Waiting
import HostBinding.Proofs.Locality
import HostBinding.Proofs.Deletion
import HostBinding.Proofs.Propagation
import HostBinding.Proofs.Receiver
import HostBinding.Proofs.Growth
import HostBinding.Proofs.Ancestry
import HostBinding.Proofs.Kinship
import HostBinding.Proofs.Agreement
import HostBinding.Proofs.Session
import HostBinding.Proofs.Resolution
import HostBinding.Proofs.Naming
import HostBinding.Proofs.Effect
import HostBinding.Proofs.Ledger
import HostBinding.Proofs.Outstanding
import HostBinding.Proofs.Economy
import HostBinding.Proofs.Materialization
import HostBinding.Proofs.Listing
import HostBinding.Proofs.Enumeration
import HostBinding.Proofs.Presence
import HostBinding.Proofs.Refusal
import HostBinding.Proofs.Passage
import HostBinding.Proofs.Method
import HostBinding.Proofs.Validity
import HostBinding.Proofs.Inspection
import HostBinding.Proofs.Inheritance
import HostBinding.Proofs.Narrowing
import HostBinding.Proofs.Closure
import HostBinding.Proofs.Numeral
import HostBinding.Proofs.Spelling
import HostBinding.Proofs.Whole
import HostBinding.Proofs.Coincidence
import HostBinding.Proofs.Freezing
import HostBinding.Proofs.Sameness
import HostBinding.Proofs.Words
import HostBinding.Proofs.Composition
import HostBinding.Proofs.Chronology
import HostBinding.Proofs.Reading
