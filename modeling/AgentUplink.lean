import AgentUplink.Protocol.ResumeMessages
import AgentUplink.Sequence.Arrival
import AgentUplink.Sequence.Resume
import AgentUplink.Sequence.Wire
import AgentUplink.Relay.PassThrough
import AgentUplink.Rotation.Evidence
import AgentUplink.Fencing.Admission
import AgentUplink.Protocol.ExactlyOnce
import AgentUplink.Connector.Dispatch
import AgentUplink.NineP.Flush
import AgentUplink.NineP.Drain
import AgentUplink.NineP.Paths
import AgentUplink.Provider.Readdir
import AgentUplink.Provider.Setattr
import AgentUplink.Http.Pump
import AgentUplink.Mcp.Compact
import AgentUplink.Client.Encoding
import AgentUplink.Client.Budget
import AgentUplink.Acp.Limits
import AgentUplink.Cluster.Membership
import AgentUplink.Catalog.Tickets
import AgentUplink.Cua.Capture
