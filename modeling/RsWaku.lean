import RsWaku.Retention
import RsWaku.FilterHistory
import RsWaku.EpochWindow
import RsWaku.EnrTreeResolve
import RsWaku.EnrTreeLookups
import RsWaku.NodeReplies
import RsWaku.ClusterMesh
import RsWaku.PeerDiscovery
import RsWaku.RestPolls
import RsWaku.StoreClients
