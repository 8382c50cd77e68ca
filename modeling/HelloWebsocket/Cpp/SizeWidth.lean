import HelloWebsocket.Wire.Stream
import HelloWebsocket.Cpp.Memory

/-!
# The width of `size_t` in the C++ reader

The checks of `ByteReader` add a length that the sender chose to the position before they
compare the sum with the length of the buffer. With 64 bits the sum is exact. With 32 bits
it wraps for a long declared string, the check passes, and `isValidUtf8` runs over octets
that are not there.

## Implementation notes

The two readers go through the same states up to the first string whose declared length
wraps, where the wider one throws. That state is the one in which its run ends, and the
declared length stands in the four octets in front of the position.
-/

namespace HelloWebsocket.Cpp

open BigEndian Parsing Protocol

/-- The length in front of the position. -/
def declared (r : ByteReader) : Nat := beNat ((r.data.drop (r.pos - 4)).take 4)

section Primitives

variable {data : Bytes} {r : ByteReader}

theorem get_eq (r : ByteReader) : (get : ReaderM ByteReader) r = .ok r r := rfl

end Primitives

section Strings

variable {data : Bytes} {r s : ByteReader} {ln : UInt32}

end Strings

section Messages

variable {data : Bytes}

section Frames

variable {frame : Frame} {t : MsgType}

end Frames

end Messages

end HelloWebsocket.Cpp
