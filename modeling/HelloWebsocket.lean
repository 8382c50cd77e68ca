import HelloWebsocket.Wire.BigEndian
import HelloWebsocket.Wire.Words
import HelloWebsocket.Wire.Hex
import HelloWebsocket.Wire.Utf8
import HelloWebsocket.Wire.Parser
import HelloWebsocket.Wire.Writer
import HelloWebsocket.Wire.Simulation
import HelloWebsocket.Wire.Loop
import HelloWebsocket.Wire.Stream
import HelloWebsocket.Wire.Transition
import HelloWebsocket.Wire.Reactor
import HelloWebsocket.Ws.Frame
import HelloWebsocket.Ws.Message
import HelloWebsocket.Ws.Grammar
import HelloWebsocket.Ws.Sequence
import HelloWebsocket.Ws.Socket
import HelloWebsocket.Ws.Reading
import HelloWebsocket.Ws.Delivery
import HelloWebsocket.Ws.Handshake
import HelloWebsocket.Protocol.Message
import HelloWebsocket.Protocol.Grammar
import HelloWebsocket.Protocol.Record
import HelloWebsocket.Protocol.Normal
import HelloWebsocket.Protocol.Session
import HelloWebsocket.Cpp.Utf8
import HelloWebsocket.Cpp.Codec
import HelloWebsocket.Cpp.Decode
import HelloWebsocket.Cpp.Encode
import HelloWebsocket.Cpp.RoundTrip
import HelloWebsocket.Cpp.Memory
import HelloWebsocket.Cpp.SizeWidth
import HelloWebsocket.Cpp.WebSocket
import HelloWebsocket.Cpp.Receive
import HelloWebsocket.Cpp.Messages
import HelloWebsocket.Cpp.Threads
import HelloWebsocket.Cpp.Exclusion
import HelloWebsocket.Cpp.MainThread
import HelloWebsocket.Cpp.Answers
import HelloWebsocket.Cpp.Errors
import HelloWebsocket.Cpp.Utility
import HelloWebsocket.Cpp.Server
import HelloWebsocket.Cpp.Progress
import HelloWebsocket.Cpp.Refinement
import HelloWebsocket.Cpp.Recovery
import HelloWebsocket.Cpp.Keepalive
import HelloWebsocket.Cpp.Waiting
import HelloWebsocket.Cpp.Descriptor
import HelloWebsocket.Wire.Interleaving
import HelloWebsocket.Wire.Outlet
import HelloWebsocket.Wire.BlockHash
import HelloWebsocket.Wire.Sha1
import HelloWebsocket.Wire.Sha256
import HelloWebsocket.Wire.Decimal
import HelloWebsocket.Wire.Base64
import HelloWebsocket.Wire.Lines
import HelloWebsocket.Cpp.Contents
import HelloWebsocket.Cpp.Bounds
import HelloWebsocket.Cpp.Interleaving
import HelloWebsocket.Cpp.Client
import HelloWebsocket.Cpp.Departure
import HelloWebsocket.Cpp.Hash
import HelloWebsocket.Cpp.Handshake
import HelloWebsocket.Cpp.Opening
import HelloWebsocket.Cpp.Headers
import HelloWebsocket.Go.Codec
import HelloWebsocket.Go.Decode
import HelloWebsocket.Go.Encode
import HelloWebsocket.Go.Errors
import HelloWebsocket.Go.Server
import HelloWebsocket.Jvm.Library
import HelloWebsocket.Jvm.Reader
import HelloWebsocket.Java.Codec
import HelloWebsocket.Java.Decode
import HelloWebsocket.Java.Encode
import HelloWebsocket.Kotlin.Codec
import HelloWebsocket.Kotlin.Decode
import HelloWebsocket.Kotlin.Encode
import HelloWebsocket.Node.Codec
import HelloWebsocket.Node.Encode
import HelloWebsocket.Swift.WebSocket
import HelloWebsocket.Swift.Receive
import HelloWebsocket.Swift.Session
import HelloWebsocket.Swift.Hash
import HelloWebsocket.Agreement.Decoders
import HelloWebsocket.Agreement.Encoders
import HelloWebsocket.Agreement.Readers
import HelloWebsocket.Agreement.Hashes
import HelloWebsocket.Wire.ByteOrderMark
import HelloWebsocket.Wire.Position
import HelloWebsocket.Protocol.Tagged
import HelloWebsocket.Protocol.RoundTrip
import HelloWebsocket.Protocol.Marks
import HelloWebsocket.Node.Reader
import HelloWebsocket.Node.Decode
import HelloWebsocket.Node.Maps
import HelloWebsocket.TypeScript.Codec
import HelloWebsocket.TypeScript.RoundTrip
import HelloWebsocket.TypeScript.Integers
import HelloWebsocket.Dart.Codec
import HelloWebsocket.Dart.RoundTrip
import HelloWebsocket.Wire.OrderedMap
import HelloWebsocket.Php.Codec
import HelloWebsocket.Wire.Calendar
import HelloWebsocket.Rust.Utility
import HelloWebsocket.Swift.Utility
import HelloWebsocket.Agreement.Dates
import HelloWebsocket.Cpp.Calendar
import HelloWebsocket.Agreement.Instants
import HelloWebsocket.Agreement.Limits
import HelloWebsocket.Protocol.Primitives
import HelloWebsocket.Protocol.Service
import HelloWebsocket.Python.Codec
import HelloWebsocket.Python.Server
import HelloWebsocket.Go.Service
import HelloWebsocket.Agreement.Recovery
