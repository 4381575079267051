import SciChain.Proofs.AgentTransactions
import SciChain.Proofs.AggregatedRanges
import SciChain.Proofs.Assembly
import SciChain.Proofs.AtomicBatch
import SciChain.Proofs.BankRuns
import SciChain.Proofs.BatchData
import SciChain.Proofs.BatchFraming
import SciChain.Proofs.BlockReplacement
import SciChain.Proofs.ByteStrings
import SciChain.Proofs.ConfigRoundTrip
import SciChain.Proofs.DepositLogs
import SciChain.Proofs.Deposits
import SciChain.Proofs.DisputeProgress
import SciChain.Proofs.FlushOrigin
import SciChain.Proofs.FrameCodec
import SciChain.Proofs.HeaderLookup
import SciChain.Proofs.HistoryRuns
import SciChain.Proofs.KeyWord
import SciChain.Proofs.NonceProgress
import SciChain.Proofs.PoolFunding
import SciChain.Proofs.QueueOrder
import SciChain.Proofs.Recovery
import SciChain.Proofs.SafeHistory
import SciChain.Proofs.ScanCoverage
import SciChain.Proofs.SendProgress
import SciChain.Proofs.SetRuns
import SciChain.Proofs.ShadowBound
import SciChain.Proofs.SpanDerivation
import SciChain.Proofs.SpanTransition
import SciChain.Proofs.SyncStart
import SciChain.Proofs.ValidatorRuns
import SciChain.Proofs.VecStorage
