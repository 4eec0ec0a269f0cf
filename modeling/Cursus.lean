import Cursus.Bacnet.Delivery
import Cursus.Bacnet.Independence
import Cursus.Bacnet.Network
import Cursus.Bacnet.ObjectList
import Cursus.Bacnet.Points
import Cursus.Bacnet.Position
import Cursus.Bacnet.ReferenceGrammar
import Cursus.Bacnet.Threads
import Cursus.Bacnet.Transparency
import Cursus.Bacnet.WhoIs
import Cursus.Bacnet.WriteFrame
import Cursus.Dnp3.Launch
import Cursus.Dnp3.Outstation
import Cursus.Enip.Assembly
import Cursus.Enip.Client
import Cursus.Enip.Cpf
import Cursus.Enip.DeadSession
import Cursus.Enip.Identity
import Cursus.Enip.Overlap
import Cursus.Enip.PaddedPath
import Cursus.Enip.PathGrammar
import Cursus.Enip.Registration
import Cursus.Enip.Replies
import Cursus.Enip.Stored
import Cursus.Mbtcp.Server
import Cursus.S7comm.Server
import Cursus.Socketserver.Backing
import Cursus.Starter.Monitor
import Cursus.Starter.Probe
import Cursus.Starter.Raises
import Cursus.Starter.Ready
import Cursus.Starter.Shutdown
import Cursus.Starter.Wait
