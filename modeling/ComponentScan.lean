import ComponentScan.Patch.Json
import ComponentScan.Workspace
import ComponentScan.Proofs.Patch.Idempotence
import ComponentScan.Proofs.Cache.Runs
import ComponentScan.Proofs.Scan.Exports
import ComponentScan.Proofs.Scan.Alike
import ComponentScan.Proofs.Scan.Annotations
import ComponentScan.Proofs.Text.Insertion
import ComponentScan.Proofs.Patch.LineSafety
import ComponentScan.Proofs.Patch.Terminator
import ComponentScan.Proofs.Patch.Order
import ComponentScan.Proofs.Scan.Deferred
import ComponentScan.Proofs.Scan.Graph
import ComponentScan.Proofs.DocComment.Insertion
import ComponentScan.Proofs.Patch.Rescan
import ComponentScan.Proofs.Walk.Calls
import ComponentScan.Proofs.Scan.Order
import ComponentScan.Proofs.Scan.Progress
import ComponentScan.Proofs.Location.Grammar
import ComponentScan.Proofs.Scan.RoundTrip
import ComponentScan.Proofs.Scan.Inert
import ComponentScan.Proofs.Scan.Lowered
import ComponentScan.Proofs.DocComment.Spans
import ComponentScan.Proofs.Scan.Rendered
import ComponentScan.Proofs.Scan.Failures
import ComponentScan.Proofs.Scan.FunctionComponents
import ComponentScan.Proofs.Scan.Aliases
import ComponentScan.Proofs.Cache.Readings
import ComponentScan.Proofs.Scan.ReportPath
import ComponentScan.Proofs.Scan.Identities
import ComponentScan.Proofs.Scan.MemberTags
import ComponentScan.Proofs.DocComment.Cuts
import ComponentScan.Proofs.Remote.Credentials
import ComponentScan.Proofs.Remote.Spellings
