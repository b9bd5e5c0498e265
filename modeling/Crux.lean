import Crux.TrailerIndex
import Crux.CcxiFile
import Crux.CommitFrames
import Crux.IdemCache
import Crux.HoldsPreserved
import Crux.FactCrash
import Crux.FactFile
import Crux.SegmentAgree
import Crux.EscrowRelease
import Crux.CreditFile
import Crux.BundleBuild
import Crux.ReceiptVerify
import Crux.SyncPulls
import Crux.Attenuation
import Crux.RevocationFeed
import Crux.ProjectionBatches
import Crux.ShardHomes
import Crux.ReplayRuns
import Crux.PeerHandshake
import Crux.SealReceipts
import Crux.ProseIngest
import Crux.SubjectIndex
import Crux.TimestampChain
