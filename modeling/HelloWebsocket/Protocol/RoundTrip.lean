import HelloWebsocket.Protocol.Session
import HelloWebsocket.Protocol.Tagged

/-!
# What is left of a message on the wire

A frame holds the low bits of the numbers and the octets of the strings. Decoding
it gives the message back when its numbers are in range and the decoder changes
neither the strings nor the maps of the message.

## Implementation notes

The decoder is described by what it does to a string and to the entries of a map.
What a message keeps when its numbers are replaced is proved for arbitrary functions
on numbers, so that the low bits of a number are never unfolded.
-/

namespace HelloWebsocket.Protocol

open BigEndian Utf8

variable {κ κ' : Type}

section Numbers

def EchoResult.mapInts (f h : Int → Int) (r : EchoResult κ) : EchoResult κ :=
  ⟨f r.idx, h r.type, r.kv⟩

/-- Replace the 64-bit, the 32-bit and the 8-bit numbers. -/
def Message.mapInts (f g h : Int → Int) : Message κ → Message κ
  | hello l => hello l
  | bonjour l => bonjour l
  | echoRequest i t d => echoRequest (f i) t d
  | echoResponse s rs => echoResponse (g s) (rs.map (EchoResult.mapInts f h))
  | kissRequest n v r a => kissRequest n v r a
  | kissResponse l e z => kissResponse l e z
  | ping t => ping (f t)
  | pong t => pong (f t)
  | timeNotification t i => timeNotification (f t) i
  | randomNumber i n => randomNumber (f i) (f n)
  | hashResponse i e => hashResponse (f i) e
  | disconnect r => disconnect r
  | error c m => error (g c) m

/-- The strings outside the maps. -/
def Message.strings : Message κ → List Bytes
  | hello l => [l]
  | bonjour l => [l]
  | echoRequest _ t d => [t, d]
  | kissRequest n v r a => [n, v, r, a]
  | kissResponse l e z => [l, e, z]
  | timeNotification _ i => [i]
  | hashResponse _ h => [h]
  | disconnect r => [r]
  | error _ m => [m]
  | _ => []

/-- The maps of a message. -/
def Message.maps : Message κ → List κ
  | echoResponse _ rs => rs.map EchoResult.kv
  | _ => []

theorem Message.mem_texts_iff {m : Message Entries} {s : Bytes} :
    s ∈ m.texts ↔ s ∈ m.strings ∨ ∃ es ∈ m.maps, ∃ e ∈ es, s = e.1 ∨ s = e.2 := by
  cases m with
  | echoResponse status rs => simp [Message.texts, Message.strings, Message.maps]
  | _ => simp [Message.texts, Message.strings, Message.maps]

section Views

variable {σ ι ν ρ : Type} {V : Reading σ ι ν ρ κ} {m : Tagged σ ι ν ρ}

theorem Tagged.exists_text_of_mem_strings {b : Bytes} (h : b ∈ (m.view V).strings) :
    ∃ s, V.text s = b := by
  cases m <;> simp only [Tagged.view, Message.strings, List.mem_cons, List.not_mem_nil,
    or_false] at h
  all_goals grind

theorem Tagged.exists_result_of_mem_maps {es : κ} (h : es ∈ (m.view V).maps) :
    ∃ r, (V.result r).kv = es := by
  cases m with
  | echoResponse s rs =>
      simp only [Tagged.view, Message.maps, List.map_map, List.mem_map] at h
      obtain ⟨r, -, hr⟩ := h
      exact ⟨r, hr⟩
  | _ => cases h

/-- The texts are well formed if the values that a message is read from are. -/
theorem Tagged.wellFormed_of_mem_texts {V : Reading σ ι ν ρ Entries}
    (htext : ∀ s, WellFormed (V.text s))
    (hresult : ∀ r, ∀ e ∈ (V.result r).kv, WellFormed e.1 ∧ WellFormed e.2)
    {b : Bytes} (h : b ∈ (m.view V).texts) : WellFormed b := by
  rcases Message.mem_texts_iff.mp h with hb | ⟨es, hes, e, he, hb⟩
  · obtain ⟨s, rfl⟩ := exists_text_of_mem_strings hb
    exact htext s
  · obtain ⟨r, rfl⟩ := exists_result_of_mem_maps hes
    rcases hb with rfl | rfl
    · exact (hresult r e he).1
    · exact (hresult r e he).2

end Views

variable {f g h : Int → Int}

@[simp] theorem Message.type_mapInts (m : Message κ) : (m.mapInts f g h).type = m.type := by
  cases m <;> rfl

@[simp] theorem Message.texts_mapInts (m : Message Entries) :
    (m.mapInts f g h).texts = m.texts := by
  cases m with
  | echoResponse s rs =>
      rw [Message.mapInts, Message.texts, List.flatMap_map]
      rfl
  | _ => rfl

/-- Numbers that are written alike are not told apart by a payload. -/
theorem payload_mapInts (hf : ∀ v, i64 (f v) = i64 v) (hg : ∀ v, i32 (g v) = i32 v)
    (hh : ∀ v, u8 (h v) = u8 v) (m : Message Entries) : payload (m.mapInts f g h) = payload m := by
  have hresult (r : EchoResult Entries) : echoResult (r.mapInts f h) = echoResult r := by
    rw [echoResult, EchoResult.mapInts, hf, hh, echoResult]
  cases m with
  | echoResponse s rs =>
      simp only [Message.mapInts, payload, hg, List.length_map, List.flatMap_map, hresult]
  | _ => simp only [Message.mapInts, payload, hf, hg]

theorem Message.inRange_mapInts (hf : ∀ v, IsI64 (f v)) (hg : ∀ v, IsI32 (g v))
    (hh : ∀ v, IsU8 (h v)) (m : Message κ) : (m.mapInts f g h).InRange := by
  cases m with
  | echoResponse s rs =>
      refine ⟨hg s, fun r hr => ?_⟩
      obtain ⟨r', -, rfl⟩ := List.mem_map.mp hr
      exact ⟨hf _, hh _⟩
  | randomNumber i n => exact ⟨hf i, hf n⟩
  | echoRequest i | ping i | pong i | timeNotification i | hashResponse i => exact hf i
  | error c => exact hg c
  | _ => trivial

/-- A message is left as it is exactly when its numbers, its strings and its maps are. -/
theorem Message.mapInts_eq_iff (hf : ∀ v, f v = v ↔ IsI64 v) (hg : ∀ v, g v = v ↔ IsI32 v)
    (hh : ∀ v, h v = v ↔ IsU8 v) {t : Bytes → Bytes} {a b : κ → κ'} (m : Message κ) :
    ((m.mapInts f g h).mapTexts t).mapKv a = m.mapKv b ↔
      m.InRange ∧ (∀ s ∈ m.strings, t s = s) ∧ ∀ es ∈ m.maps, a es = b es := by
  have hresult (r : EchoResult κ) : (r.mapInts f h).mapKv a = r.mapKv b ↔
      (IsI64 r.idx ∧ IsU8 r.type) ∧ a r.kv = b r.kv := by
    simp only [EchoResult.mapInts, EchoResult.mapKv, EchoResult.mk.injEq, hf, hh, and_assoc]
  cases m with
  | echoResponse s rs =>
      simp only [Message.mapInts, Message.mapTexts, Message.mapKv, Message.mapResults,
        List.map_map, Message.echoResponse.injEq, hg, List.map_inj_left, Function.comp_apply,
        hresult, Message.InRange, Message.strings, Message.maps, List.not_mem_nil, false_implies,
        implies_true, true_and, List.mem_map, forall_exists_index, and_imp,
        forall_apply_eq_imp_iff₂]
      grind
  | _ =>
      simp [Message.mapInts, Message.mapTexts, Message.mapKv, Message.mapResults, Message.InRange,
        Message.strings, Message.maps, hf, hg]

end Numbers

section Wrapping

/-- The number whose low 64 bits a field holds. -/
def wrapI64 (v : Int) : Int := signed 64 (twos 64 v)

def wrapI32 (v : Int) : Int := signed 32 (twos 32 v)

def wrapU8 (v : Int) : Int := twos 8 v

theorem isI64_wrapI64 (v : Int) : IsI64 (wrapI64 v) := by
  have hl := Int.le_bmod (x := v) (m := 2 ^ 64) (by decide)
  have hu := Int.bmod_lt (x := v) (m := 2 ^ 64) (by decide)
  rw [wrapI64, signed_twos]
  exact ⟨by omega, by omega⟩

theorem isI32_wrapI32 (v : Int) : IsI32 (wrapI32 v) := by
  have hl := Int.le_bmod (x := v) (m := 2 ^ 32) (by decide)
  have hu := Int.bmod_lt (x := v) (m := 2 ^ 32) (by decide)
  rw [wrapI32, signed_twos]
  exact ⟨by omega, by omega⟩

theorem isU8_wrapU8 (v : Int) : IsU8 (wrapU8 v) := by
  have hlt := twos_lt 8 v
  rw [wrapU8]
  exact ⟨by omega, by omega⟩

/-- A 64-bit field keeps exactly the numbers in its range. -/
theorem wrapI64_eq_iff (v : Int) : wrapI64 v = v ↔ IsI64 v :=
  ⟨fun h => h ▸ isI64_wrapI64 v, fun h => signed_twos_of_range (by decide) h.1 h.2⟩

theorem wrapI32_eq_iff (v : Int) : wrapI32 v = v ↔ IsI32 v :=
  ⟨fun h => h ▸ isI32_wrapI32 v, fun h => signed_twos_of_range (by decide) h.1 h.2⟩

theorem wrapU8_eq_iff (v : Int) : wrapU8 v = v ↔ IsU8 v := by
  refine ⟨fun h => h ▸ isU8_wrapU8 v, fun h => ?_⟩
  obtain ⟨h0, h1⟩ := h
  simp only [wrapU8, twos]
  omega

theorem i64_wrapI64 (v : Int) : i64 (wrapI64 v) = i64 v := by
  rw [i64, wrapI64, twos_signed (twos_lt 64 v), i64]

theorem i32_wrapI32 (v : Int) : i32 (wrapI32 v) = i32 v := by
  rw [i32, wrapI32, twos_signed (twos_lt 32 v), i32]

theorem u8_wrapU8 (v : Int) : u8 (wrapU8 v) = u8 v := by
  have h : twos 8 (wrapU8 v) = twos 8 v := by
    simp only [wrapU8, twos]
    omega
  rw [u8, h, u8]

/-- The numbers that are left when a message has been written: their low bits. -/
def Message.wrap (m : Message κ) : Message κ := m.mapInts wrapI64 wrapI32 wrapU8

theorem payload_wrap (m : Message Entries) : payload m.wrap = payload m :=
  payload_mapInts i64_wrapI64 i32_wrapI32 u8_wrapU8 m

/-- The message that the frame of a message carries. -/
theorem parseFrame_frame {m : Message Entries} (ht : ∀ s ∈ m.texts, WellFormed s)
    (hl : (payload m).length < 2 ^ 32) : parseFrame (frame m) = some m.wrap := by
  have htexts : m.wrap.texts = m.texts := m.texts_mapInts
  have htype : m.wrap.type = m.type := m.type_mapInts
  have hrange : m.wrap.InRange := m.inRange_mapInts isI64_wrapI64 isI32_wrapI32 isU8_wrapU8
  have hok : m.wrap.Ok := Message.ok_of_texts hrange (by rwa [htexts]) (by rwa [payload_wrap])
  refine parseFrame_eq_some_iff.mpr ⟨hok, 0x00, [], ?_, ?_⟩
  · rw [List.append_nil, payload_wrap, htype, frame]
  · rwa [List.append_nil, payload_wrap]

/-- A decoder gives a message back exactly when its numbers are in range and its strings and maps
are left alone. -/
theorem Message.survives_iff {t : Bytes → Bytes} {a b : κ → κ'} (m : Message κ) :
    (m.wrap.mapTexts t).mapKv a = m.mapKv b ↔
      m.InRange ∧ (∀ s ∈ m.strings, t s = s) ∧ ∀ es ∈ m.maps, a es = b es :=
  m.mapInts_eq_iff wrapI64_eq_iff wrapI32_eq_iff wrapU8_eq_iff

end Wrapping

end HelloWebsocket.Protocol
