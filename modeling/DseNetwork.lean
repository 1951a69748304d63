import DseNetwork.Lib.Memory
import DseNetwork.Lib.Sweep
import DseNetwork.Lib.Transition
import DseNetwork.Lib.Simulation
import DseNetwork.Lib.Layout
import DseNetwork.Lib.Orbit
import DseNetwork.Lib.Interleave
import DseNetwork.Lib.Replica
import DseNetwork.Lib.Exchange
import DseNetwork.Lib.Compact
import DseNetwork.Lib.Fnv
import DseNetwork.Lib.ByteSum
import DseNetwork.Lib.Binary64
import DseNetwork.Network.Types
import DseNetwork.Network.MarshalList
import DseNetwork.Network.Engine
import DseNetwork.Network.Encoder
import DseNetwork.Network.Nesting
import DseNetwork.Network.Function
import DseNetwork.Network.FunctionLibrary
import DseNetwork.Network.Schedule
import DseNetwork.Network.Model
import DseNetwork.Network.Library
import DseNetwork.Network.EndOfStep
import DseNetwork.Network.Cadence
import DseNetwork.Network.Cyclic
import DseNetwork.Network.MarshalComplete
import DseNetwork.Network.RoundTrip
import DseNetwork.Network.StructLayout
import DseNetwork.Network.Reception
import DseNetwork.Network.LostUpdate
import DseNetwork.Network.DecodeFunctions
import DseNetwork.Network.Mux
import DseNetwork.Network.Recursion
import DseNetwork.Network.Interleaving
import DseNetwork.Network.Progress
import DseNetwork.Network.Steady
import DseNetwork.Network.Echo
import DseNetwork.Network.Quiescence
import DseNetwork.Network.Headers
import DseNetwork.Network.LocalChange
import DseNetwork.Network.Carried
import DseNetwork.Network.Bus
import DseNetwork.Network.Answer
import DseNetwork.Network.Exchange
import DseNetwork.Network.RollingCounter
import DseNetwork.Network.NetOff
import DseNetwork.Network.Checksum
import DseNetwork.Network.Periods
import DseNetwork.Network.FrameLookup
import DseNetwork.Network.Mapping
import DseNetwork.Network.Embedding
import DseNetwork.Network.EmbeddedRuns
import DseNetwork.Network.MessageOrder
import DseNetwork.Network.Isolation
import DseNetwork.Lib.BitField
import DseNetwork.Lib.Rounding
import DseNetwork.MessageLib.Codec
import DseNetwork.MessageLib.Generated
import DseNetwork.MessageLib.Stub
import DseNetwork.MessageLib.Signals
import DseNetwork.MessageLib.Reencode
import DseNetwork.MessageLib.Realized
import DseNetwork.Generate.Kind
import DseNetwork.Generate.SignalGroup
import DseNetwork.Generate.GenNetwork
import DseNetwork.Generate.Offsets
import DseNetwork.Generate.Style
import DseNetwork.Generate.Containers
import DseNetwork.Generate.SignalName
import DseNetwork.Generate.FrameName
import DseNetwork.Patch.PatchNetwork
