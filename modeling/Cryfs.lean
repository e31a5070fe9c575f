import Cryfs.Utils.Bytes
import Cryfs.Utils.Num
import Cryfs.Data.Data
import Cryfs.Data.GrowableData
import Cryfs.Node.Layout
import Cryfs.Node.DataLeafNode
import Cryfs.Node.LeafRun
import Cryfs.Config.Binrw
import Cryfs.Config.Outer
import Cryfs.Config.Encrypt
import Cryfs.Testutils.Subslices
import Cryfs.Testutils.DataFixture
import Cryfs.Tree.NodeStore
import Cryfs.Tree.Subtree
import Cryfs.Tree.DataTreeStore
import Cryfs.Rustfs.InMemoryDevice
