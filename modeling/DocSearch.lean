import DocSearch.Connection.Dsn
import DocSearch.Main
import DocSearch.Migration.Operation
import DocSearch.Session
import DocSearch.Proofs.Fallible
import DocSearch.Proofs.Meaning
import DocSearch.Proofs.BulkRun
import DocSearch.Proofs.Conformance
import DocSearch.Proofs.Conversion
import DocSearch.Proofs.RoundTrip
import DocSearch.Proofs.LastWrite
import DocSearch.Proofs.BulkComplete
import DocSearch.Proofs.OneByOne
import DocSearch.Proofs.DirectLookup
import DocSearch.Proofs.ExactNames
import DocSearch.Proofs.Offences
import DocSearch.Proofs.Redundancy
import DocSearch.Proofs.Unambiguous
import DocSearch.Proofs.Declared
import DocSearch.Proofs.Recreation
import DocSearch.Proofs.Custody
import DocSearch.Proofs.Growth
import DocSearch.Proofs.Replay
import DocSearch.Proofs.Confirmation
import DocSearch.Proofs.Faults
import DocSearch.Proofs.Builders
import DocSearch.Proofs.Subclasses
import DocSearch.Proofs.SearchBody
import DocSearch.Proofs.Iterations
import DocSearch.Proofs.Consent
import DocSearch.Proofs.Splitting
import DocSearch.Proofs.Sweeps
import DocSearch.Proofs.Shapes
import DocSearch.Proofs.Lowercase
import DocSearch.Proofs.Authority
import DocSearch.Proofs.Reached
import DocSearch.Proofs.DottedPaths
import DocSearch.Proofs.Numerals
import DocSearch.Proofs.DisplayedSizes
import DocSearch.Proofs.Credentials
