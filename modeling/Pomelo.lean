import Pomelo.Client.Handlers
import Pomelo.Client.NotifyThreads
import Pomelo.Client.Polling
import Pomelo.Client.Pool
import Pomelo.Client.Reentrancy
import Pomelo.Client.Release
import Pomelo.Client.RequestIds
import Pomelo.Codec.DoubleIntegers
import Pomelo.Json.CStrings
import Pomelo.Json.Inside
import Pomelo.Json.Numerals
import Pomelo.Json.RoundTrip
import Pomelo.Json.Spelling
import Pomelo.Json.Steps
import Pomelo.Message.Estimate
import Pomelo.Message.RawCodec
import Pomelo.Message.RoundTrip
import Pomelo.Package.Framing
import Pomelo.Protobuf.Complete
import Pomelo.Protobuf.Integers
import Pomelo.Protobuf.Strings
import Pomelo.Protobuf.Unsigned
import Pomelo.Transport.Beats
import Pomelo.Transport.Codes
import Pomelo.Transport.Completions
import Pomelo.Transport.DataPackage
import Pomelo.Transport.Deadline
import Pomelo.Transport.HandshakeAnswer
import Pomelo.Transport.Heartbeat
import Pomelo.Transport.Opening
import Pomelo.Transport.Reconnects
import Pomelo.Transport.Retry
import Pomelo.Transport.SendFailure
import Pomelo.Transport.Slots
import Pomelo.Transport.Socket
import Pomelo.Transport.Stranded
import Pomelo.Transport.Sweep
import Pomelo.Transport.Tables
import Pomelo.Transport.TlsDrain
import Pomelo.Transport.TlsLedger
import Pomelo.Transport.TlsOutput
import Pomelo.Transport.Users
import Pomelo.Transport.Wire
