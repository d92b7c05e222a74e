import Vortice.Foundation.Credit
import Vortice.Proto.Chunks
import Vortice.Proto.Closing
import Vortice.Proto.Acceptance
import Vortice.Proto.Boundary
import Vortice.Proto.Alternation
import Vortice.Proto.Finality
import Vortice.Proto.Requests
import Vortice.Proto.Atomicity
import Vortice.Proto.Exchanges
import Vortice.Proto.Canonical
import Vortice.Sasl.Authority
import Vortice.Sasl.Client
import Vortice.Sasl.Directives
import Vortice.Proto.Overruns
import Vortice.Proto.Comments
import Vortice.Proto.Entities
import Vortice.Http.Arrivals
import Vortice.Ws.Digest
import Vortice.Ws.Headers
import Vortice.Ws.Upgrade
import Vortice.Proto.Allocation
import Vortice.Proto.Fitting
import Vortice.Proto.Hosting
import Vortice.Ws.Frame
import Vortice.Ws.Delivery
import Vortice.Ws.Pipe
import Vortice.Ws.Ending
import Vortice.Ws.Ceiling
import Vortice.Conn.Writing
import Vortice.Conn.Tuning
import Vortice.Conn.Callers
import Vortice.Conn.Replies
import Vortice.Conn.Inbound
import Vortice.Conn.Starts
import Vortice.Link.Quiescence
import Vortice.Link.Carriage
