import HelloWebsocket.Wire.Words
import HelloWebsocket.Go.Codec

/-!
# The Go encoder

The `Write` functions of `codec.go`, `EncodeFrame` and the `Encode` methods of the
messages that the server sends. Each `Write` function appends the encoding of its
argument, so each `Encode` method returns the frame of its message.

## Implementation notes

A buffer is the slice that the `Write` functions append to. `range` visits the keys of a
map in an order that is not specified and may differ from one loop to the next.
-/

namespace HelloWebsocket.Go

open BigEndian Words Protocol

section Maps

/-- The order in which `range` visits the keys of a map. -/
structure Iteration where
  keys : KvMap → List Bytes
  perm : ∀ m, (keys m).Perm (m.toList.map Prod.fst)

/-- The bindings in the order of the keys. -/
def Iteration.entries (order : Iteration) (m : KvMap) : Entries :=
  (order.keys m).map fun k => (k, m.getD k [])

theorem listedBy_entries (order : Iteration) (m : KvMap) : ListedBy m (order.entries m) := by
  have hself : (m.toList.map Prod.fst).map (fun k => (k, m.getD k [])) = m.toList := by
    rw [List.map_map]
    refine (List.map_congr_left fun e he => ?_).trans (List.map_id _)
    have hvalue := Std.ExtTreeMap.mem_toList_iff_getElem?_eq_some.mp he
    change (e.1, m.getD e.1 []) = e
    rw [Std.ExtTreeMap.getD_eq_getD_getElem?, hvalue]
    rfl
  have hperm := (order.perm m).map fun k => (k, m.getD k [])
  rwa [hself] at hperm

/-- The keys in ascending order. -/
def Iteration.ascending : Iteration where
  keys m := m.toList.map Prod.fst
  perm _ := .refl _

end Maps

section Writers

/-- `WriteU8` -/
def writeU8 (buf : Bytes) (v : UInt8) : Bytes := buf ++ [v]

/-- `WriteU32` -/
def writeU32 (buf : Bytes) (v : UInt32) : Bytes := buf ++ beBytes 4 v.toNat

/-- `WriteI32` -/
def writeI32 (buf : Bytes) (v : Int32) : Bytes := writeU32 buf v.toUInt32

/-- `WriteI64` -/
def writeI64 (buf : Bytes) (v : Int64) : Bytes := buf ++ beBytes 8 v.toUInt64.toNat

/-- `WriteString` -/
def writeString (buf s : Bytes) : Bytes := writeU32 buf (UInt32.ofNat s.length) ++ s

/-- `WriteKV` -/
def writeKV (order : Iteration) (buf : Bytes) (m : KvMap) : Bytes :=
  let keys := order.keys m
  keys.foldl (fun buf k => writeString (writeString buf k) (m.getD k []))
    (writeU32 buf (UInt32.ofNat keys.length))

theorem writeU8_eq (buf : Bytes) (v : UInt8) : writeU8 buf v = buf ++ u8 v.toNat := by
  have hlt := v.toNat_lt
  have ht : twos 8 v.toNat = v.toNat := by
    simp only [twos]
    omega
  rw [writeU8, u8, ht]
  simp [beBytes]

theorem writeCount_eq (buf : Bytes) (n : Nat) : writeU32 buf (UInt32.ofNat n) = buf ++ u32 n := by
  rw [writeU32, UInt32.toNat_ofNat', ← u32_mod]
  rfl

theorem writeI32_eq (buf : Bytes) (v : Int32) : writeI32 buf v = buf ++ i32 v.toInt := by
  rw [i32, twos_int32]
  rfl

theorem writeI64_eq (buf : Bytes) (v : Int64) : writeI64 buf v = buf ++ i64 v.toInt := by
  rw [i64, twos_int64]
  rfl

theorem writeString_eq (buf s : Bytes) : writeString buf s = buf ++ string s := by
  rw [writeString, writeCount_eq, string, List.append_assoc]

theorem writeKV_eq (order : Iteration) (buf : Bytes) (m : KvMap) :
    writeKV order buf m = buf ++ kv (order.entries m) := by
  have hloop (keys : List Bytes) (buf : Bytes) :
      keys.foldl (fun buf k => writeString (writeString buf k) (m.getD k [])) buf =
        buf ++ (keys.map fun k => (k, m.getD k [])).flatMap entry := by
    induction keys generalizing buf with
    | nil => exact (List.append_nil buf).symm
    | cons k keys ih =>
        rw [List.foldl_cons, ih, List.map_cons, List.flatMap_cons, writeString_eq, writeString_eq,
          entry, List.append_assoc, List.append_assoc, List.append_assoc]
  rw [writeKV, hloop, writeCount_eq, kv, Iteration.entries, List.length_map, List.append_assoc]

end Writers

section Messages

/-- `EncodeFrame` -/
def encodeFrame (msgType : UInt8) (payload : Bytes) : Bytes :=
  [0x48, 0x01, msgType, 0x00] ++ beBytes 4 (UInt32.ofNat payload.length).toNat ++ payload

theorem encodeFrame_eq (msgType : UInt8) (payload : Bytes) :
    encodeFrame msgType payload = envelope msgType 0x00 payload := by
  rw [encodeFrame, UInt32.toNat_ofNat', envelope, ← u32_mod]
  rfl

def Bonjour.encode (m : Bonjour) : Bytes := encodeFrame 0x02 (writeString [] m.serverLanguage)

/-- One turn of the loop of `EchoResponse.Encode`. -/
def writeEchoResult (order : Iteration) (buf : Bytes) (r : EchoResult) : Bytes :=
  writeKV order (writeU8 (writeI64 buf r.idx) r.type) r.kv

def EchoResponse.encode (order : Iteration) (m : EchoResponse) : Bytes :=
  encodeFrame 0x04 (m.results.foldl (writeEchoResult order)
    (writeU32 (writeI32 [] m.status) (UInt32.ofNat m.results.length)))

def KissRequest.encode (m : KissRequest) : Bytes :=
  encodeFrame 0x05 (writeString (writeString (writeString (writeString [] m.osName) m.osVersion)
    m.osRelease) m.osArchitecture)

def Ping.encode (m : Ping) : Bytes := encodeFrame 0x07 (writeI64 [] m.timestampMs)

def TimeNotification.encode (m : TimeNotification) : Bytes :=
  encodeFrame 0x09 (writeString (writeI64 [] m.timestampMs) m.iso8601)

def HashResponse.encode (m : HashResponse) : Bytes :=
  encodeFrame 0x0B (writeString (writeI64 [] m.id) m.hashHex)

def ErrorMsg.encode (m : ErrorMsg) : Bytes :=
  encodeFrame 0x7F (writeString (writeI32 [] m.code) m.message)

theorem Bonjour.encode_eq (m : Bonjour) : m.encode = frame (.bonjour m.serverLanguage) := by
  rw [encode, encodeFrame_eq, writeString_eq]
  rfl

theorem EchoResponse.encode_eq (order : Iteration) (m : EchoResponse) :
    m.encode order = frame (.echoResponse m.status.toInt
      (m.results.map fun r => r.view.mapKv order.entries)) := by
  have hresult (buf : Bytes) (r : EchoResult) : writeEchoResult order buf r =
      buf ++ echoResult (r.view.mapKv order.entries) := by
    rw [writeEchoResult, writeKV_eq, writeU8_eq, writeI64_eq, echoResult, List.append_assoc,
      List.append_assoc, List.append_assoc]
    rfl
  have hloop (rs : List EchoResult) (buf : Bytes) : rs.foldl (writeEchoResult order) buf =
      buf ++ (rs.map fun r => r.view.mapKv order.entries).flatMap echoResult := by
    induction rs generalizing buf with
    | nil => exact (List.append_nil buf).symm
    | cons r rs ih =>
        rw [List.foldl_cons, ih, List.map_cons, List.flatMap_cons, hresult, List.append_assoc]
  rw [encode, encodeFrame_eq, hloop, writeCount_eq, writeI32_eq, frame, payload, List.length_map,
    List.nil_append]
  rfl

theorem KissRequest.encode_eq (m : KissRequest) :
    m.encode = frame (.kissRequest m.osName m.osVersion m.osRelease m.osArchitecture) := by
  rw [encode, encodeFrame_eq, writeString_eq, writeString_eq, writeString_eq, writeString_eq]
  rfl

theorem Ping.encode_eq (m : Ping) : m.encode = frame (.ping m.timestampMs.toInt) := by
  rw [encode, encodeFrame_eq, writeI64_eq]
  rfl

theorem TimeNotification.encode_eq (m : TimeNotification) :
    m.encode = frame (.timeNotification m.timestampMs.toInt m.iso8601) := by
  rw [encode, encodeFrame_eq, writeString_eq, writeI64_eq]
  rfl

theorem HashResponse.encode_eq (m : HashResponse) :
    m.encode = frame (.hashResponse m.id.toInt m.hashHex) := by
  rw [encode, encodeFrame_eq, writeString_eq, writeI64_eq]
  rfl

theorem ErrorMsg.encode_eq (m : ErrorMsg) : m.encode = frame (.error m.code.toInt m.message) := by
  rw [encode, encodeFrame_eq, writeString_eq, writeI32_eq]
  rfl

end Messages

end HelloWebsocket.Go
