import ThriftGateway.Execution.Response
import ThriftGateway.Main
import ThriftGateway.Proofs.Graph.Loading
import ThriftGateway.Proofs.Graph.NameTable
import ThriftGateway.Proofs.Source.Reference
import ThriftGateway.Proofs.Graph.Expansion
import ThriftGateway.Proofs.Graph.Compile
import ThriftGateway.Proofs.Graph.Run
import ThriftGateway.Proofs.Graph.Default
import ThriftGateway.Proofs.Schema.Carried
import ThriftGateway.Proofs.Schema.Printing
import ThriftGateway.Proofs.Schema.Defaults
import ThriftGateway.Proofs.Service.Request
import ThriftGateway.Proofs.Service.Order
import ThriftGateway.Proofs.Execution.Modes
import ThriftGateway.Proofs.Schema.Sides
import ThriftGateway.Proofs.Idl.RoundTrip
import ThriftGateway.Proofs.Idl.Inserting
import ThriftGateway.Proofs.Idl.Trailing
import ThriftGateway.Proofs.Schema.Existence
import ThriftGateway.Proofs.Execution.Isolation
import ThriftGateway.Proofs.Execution.Members
import ThriftGateway.Proofs.Execution.Calls
import ThriftGateway.Proofs.Schema.Ending
import ThriftGateway.Proofs.Schema.Sealing
import ThriftGateway.Proofs.Schema.Configuring
import ThriftGateway.Proofs.Schema.Rearranging
import ThriftGateway.Proofs.Schema.Inlining
import ThriftGateway.Proofs.Graph.Orders
import ThriftGateway.Proofs.Source.Meaning
import ThriftGateway.Proofs.Command.Repeating
import ThriftGateway.Proofs.Source.Referring
import ThriftGateway.Proofs.Graph.Cycles
import ThriftGateway.Proofs.Graph.Forms
import ThriftGateway.Proofs.Schema.Raising
import ThriftGateway.Proofs.Graph.Refusing
import ThriftGateway.Proofs.Graph.Numbering
import ThriftGateway.Proofs.Source.Refusing
import ThriftGateway.Proofs.Graph.Int64
import ThriftGateway.Proofs.Graph.Accepting
import ThriftGateway.Proofs.Graph.Losing
import ThriftGateway.Proofs.Schema.Resolving
