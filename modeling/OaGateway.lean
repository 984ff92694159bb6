import OaGateway.Core.EngineAlgebra
import OaGateway.Uci.Nesting
import OaGateway.Uci.Leaves
import OaGateway.Uci.Accounted
import OaGateway.Uci.Substitution
import OaGateway.Uci.FieldOrder
import OaGateway.Uci.Depths
import OaGateway.Uci.Integers
import OaGateway.Uci.Conjunction
import OaGateway.Uci.Occurrences
import OaGateway.Uci.PatternMeanings
import OaGateway.Uci.XsdOrder
import OaGateway.Uci.XsdClosed
import OaGateway.Uci.XsdDropped
import OaGateway.Agra.Nesting
import OaGateway.Agra.Comments
import OaGateway.Agra.Serialization
import OaGateway.Dds.Fidelity
import OaGateway.Owp.Agreement
import OaGateway.Owp.AllOrNothing
import OaGateway.Owp.Baseline
import OaGateway.Stomp.AtMostOnce
import OaGateway.Stomp.Hop
import OaGateway.Stomp.Checked
import OaGateway.Stomp.LineEndings
import OaGateway.Stomp.Lifecycle
import OaGateway.RejectMode
import OaGateway.Edge
import OaGateway.Uci.Extensions
import OaGateway.Agra.Detection
import OaGateway.Hints
import OaGateway.Owp.Grammar
import OaGateway.Owp.ServerFrames
import OaGateway.Uci.Temporal
import OaGateway.Owp.Wire
import OaGateway.Owp.Accept
import OaGateway.Owp.Limits
import OaGateway.Dds.Lifecycle
import OaGateway.Core.Ordered
import OaGateway.Stomp.Transcript
import OaGateway.Owp.Deadline
import OaGateway.Owp.Warnings
import OaGateway.Loopback
