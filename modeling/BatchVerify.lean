import BatchVerify.Main
import BatchVerify.Proofs.Batch.Abort
import BatchVerify.Proofs.Batch.Accounts
import BatchVerify.Proofs.Batch.Rerun
import BatchVerify.Proofs.Batch.Selection
import BatchVerify.Proofs.Batch.Targets
import BatchVerify.Proofs.Batch.Twin
import BatchVerify.Proofs.Batch.NewFile
import BatchVerify.Proofs.CommandLine.Response
import BatchVerify.Proofs.Config.Loading
import BatchVerify.Proofs.Config.Revalidation
import BatchVerify.Proofs.Path.Ending
import BatchVerify.Proofs.Report.RoundTrip
import BatchVerify.Proofs.Tree.Classification
import BatchVerify.Proofs.Tree.Coherence
import BatchVerify.Proofs.Verifier.Captured
