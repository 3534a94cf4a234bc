import Inet.Address.Octets
import Inet.Address.Reader
import Inet.Block
import Inet.Failure
import Inet.HostRange.Walk
import Inet.Json.Codec
import Inet.Log.Intake
import Inet.Network.Reader
import Inet.Order
import Inet.Proofs.Address.Grammar
import Inet.Query
import Inet.Session
import Inet.Proofs.Network.Grammar
import Inet.Proofs.Address.Word
import Inet.Proofs.Block
import Inet.Proofs.Network.Hosts
import Inet.Proofs.HostRange.View
import Inet.Proofs.HostRange.BothEnds
import Inet.Proofs.HostRange.Members
import Inet.Proofs.Network.Text
import Inet.Proofs.Network.Indexing
import Inet.Proofs.Session.Obtainable
import Inet.Proofs.Network.Nesting
import Inet.Proofs.Text.Rounds
import Inet.Proofs.Text.Slices
import Inet.Proofs.Address.Pass
import Inet.Proofs.Network.Pass
import Inet.Proofs.HostRange.Visited
import Inet.Proofs.HostRange.Walk
import Inet.Proofs.HostRange.Jump
import Inet.Proofs.HostRange.Search
import Inet.Proofs.HostRange.Queries
import Inet.Proofs.Session.Facts
import Inet.Proofs.Session.Effect
import Inet.Proofs.Session.Lasting
import Inet.Proofs.Network.SameBlock
import Inet.Proofs.Session.Moves
import Inet.Proofs.Address.Integers
import Inet.Proofs.Session.Refusals
import Inet.Proofs.Block.Alignment
import Inet.Proofs.Block.Composition
import Inet.Proofs.Order
import Inet.Proofs.Json.Decoding
import Inet.Proofs.Text.Overflow
import Inet.Proofs.Address.Forms
import Inet.Proofs.Sorting
import Inet.Proofs.Json.Wording
