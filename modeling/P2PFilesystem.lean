import P2PFilesystem.LoopFuel
import P2PFilesystem.Key
import P2PFilesystem.JsonText
import P2PFilesystem.NodeInfo
import P2PFilesystem.Messages
import P2PFilesystem.RoutingTable
import P2PFilesystem.BucketDistance
import P2PFilesystem.BucketSizes
import P2PFilesystem.ClosestScan
import P2PFilesystem.Lookup
import P2PFilesystem.StorerLookup
import P2PFilesystem.LookupClosure
import P2PFilesystem.LookupFlags
import P2PFilesystem.LookupResult
import P2PFilesystem.Sharding
import P2PFilesystem.RequestHandler
import P2PFilesystem.SelfLookup
import P2PFilesystem.Upload
import P2PFilesystem.UploadSoundness
import P2PFilesystem.Download
import P2PFilesystem.Fidelity
import P2PFilesystem.ChunkStore
import P2PFilesystem.RetryRemoval
import P2PFilesystem.Traces
import P2PFilesystem.StorageAccounting
import P2PFilesystem.ExpiryLaw
import P2PFilesystem.TransferTable
import P2PFilesystem.WholeChunks
import P2PFilesystem.Agreement
import P2PFilesystem.TableLock
import P2PFilesystem.Bincode
import P2PFilesystem.FileHandle
import P2PFilesystem.HandleDownload
import P2PFilesystem.JsonParse
import P2PFilesystem.WireFormat
import P2PFilesystem.UploadCall
import P2PFilesystem.UploadCallRuns
import P2PFilesystem.RepeatedBlocks
import P2PFilesystem.ClosestComplete
import P2PFilesystem.Eviction
import P2PFilesystem.BucketOrder
import P2PFilesystem.KeyBits
import P2PFilesystem.BucketRefresh
import P2PFilesystem.PrefixSharing
import P2PFilesystem.RoundEntries
import P2PFilesystem.BufferInvariant
import P2PFilesystem.ImprovementSignal
import P2PFilesystem.ResponseOrder
import P2PFilesystem.LookupRequests
import P2PFilesystem.LookupIds
import P2PFilesystem.LookupResponders
import P2PFilesystem.ClosestResponsive
import P2PFilesystem.ClosestFirst
import P2PFilesystem.XorMetric
import P2PFilesystem.ContentHash
import P2PFilesystem.RejectedChunks
import P2PFilesystem.LexicalPath
import P2PFilesystem.OutputPath
import P2PFilesystem.ChunkNames
import P2PFilesystem.AnsweringPeers
import P2PFilesystem.FullReplication
import P2PFilesystem.Joining
import P2PFilesystem.NearestNode
import P2PFilesystem.Retrieval
import P2PFilesystem.Startup
import P2PFilesystem.Starvation
import P2PFilesystem.PendingCalls
import P2PFilesystem.Gossip
import P2PFilesystem.Commands
import P2PFilesystem.Integrity
