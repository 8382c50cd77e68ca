import HelloWebsocket.Wire.Stream
import HelloWebsocket.Protocol.Record

/-!
# The normal form of a message

A reader that puts the entries of a `kv` field into a map forgets their order and all but
the last entry of a key. Written again in the order of the keys, the message has become
shorter, if anything, and does not change any more.

A class with the fields of every message type stands for a message, and a reader leaves
the fields of the other types as they are in a new record. Such a record is determined by
the message.
-/

namespace HelloWebsocket.Protocol

open Streams

section Maps

/-- What a map lists was listed. -/
theorem toList_toMap_subset (es : Entries) : (toMap es).toList ⊆ es := by
  rintro ⟨k, v⟩ h
  rw [Std.ExtTreeMap.mem_toList_iff_getElem?_eq_some, getElem?_toMap, List.lookup_eq_some_iff] at h
  obtain ⟨before, after, hes, -⟩ := h
  rw [← List.mem_reverse, hes]
  exact List.mem_append_right before List.mem_cons_self

theorem toList_toMap_subperm (es : Entries) : (toMap es).toList.Subperm es :=
  List.subperm_of_subset
    ((nodup_keys_of_listedBy (List.Perm.refl (toMap es).toList)).of_map _) (toList_toMap_subset es)

/-- Each key is written once, so the field does not become longer. -/
theorem length_kv_toList_toMap_le (es : Entries) :
    (kv (toMap es).toList).length ≤ (kv es).length := by
  obtain ⟨l, hperm, hsub⟩ := toList_toMap_subperm es
  have hlength : ((toMap es).toList.flatMap entry).length = (l.flatMap entry).length :=
    (hperm.symm.flatMap_right entry).length_eq
  have hle : (l.flatMap entry).length ≤ (es.flatMap entry).length := by
    rw [List.flatMap_def, List.flatMap_def]
    exact (hsub.map entry).flatten.length_le
  rw [kv, kv, List.length_append, List.length_append, length_u32, length_u32, hlength]
  exact Nat.add_le_add_left hle 4

theorem IsKv.normal {es : Entries} (h : IsKv es) : IsKv (toMap es).toList :=
  ⟨(toList_toMap_subperm es).length_le.trans_lt h.1, fun e he => h.2 e (toList_toMap_subset es he)⟩

end Maps

section Messages

/-- Each `kv` field as its map lists it. -/
def Message.normal (m : Message Entries) : Message Entries := (m.mapKv toMap).mapKv (·.toList)

@[simp] theorem Message.type_normal (m : Message Entries) : m.normal.type = m.type := by
  cases m <;> rfl

/-- The normal form has the same maps. -/
theorem Message.normal_mapKv (m : Message Entries) : m.normal.mapKv toMap = m.mapKv toMap := by
  have hmap (es : Entries) : toMap (toMap es).toList = toMap es := toMap_of_listedBy (List.Perm.refl _)
  simp only [normal, mapKv, mapResults_mapResults, EchoResult.mapKv, hmap]
  rfl

theorem Message.Ok.normal {m : Message Entries} (h : m.Ok) : m.normal.Ok := by
  cases m with
  | echoResponse status results =>
      obtain ⟨hstatus, hcount, hresults⟩ := h
      refine ⟨hstatus, ?_, ?_⟩
      · rwa [List.length_map, List.length_map]
      · intro r hr
        obtain ⟨r', hr', rfl⟩ := List.mem_map.mp hr
        obtain ⟨r₀, hr₀, rfl⟩ := List.mem_map.mp hr'
        obtain ⟨hidx, htype, hkv⟩ := hresults r₀ hr₀
        exact ⟨hidx, htype, hkv.normal⟩
  | _ => exact h

theorem length_payload_normal_le (m : Message Entries) :
    (payload m.normal).length ≤ (payload m).length := by
  cases m with
  | echoResponse status results =>
      have hresult (r : EchoResult Entries) :
          (echoResult ((r.mapKv toMap).mapKv (·.toList))).length ≤ (echoResult r).length := by
        have hkv := length_kv_toList_toMap_le r.kv
        simp only [echoResult, EchoResult.mapKv, List.length_append]
        omega
      have hsum : ((results.map (EchoResult.mapKv toMap)).map (EchoResult.mapKv (·.toList)) |>.flatMap
          echoResult).length ≤ (results.flatMap echoResult).length := by
        rw [List.map_map, List.flatMap_map, List.length_flatMap, List.length_flatMap]
        exact List.sum_le_sum fun r _ => hresult r
      change (i32 status ++ u32 _ ++ List.flatMap echoResult _).length ≤ _
      rw [payload, List.length_append, List.length_append, List.length_append, List.length_append,
        length_u32, length_u32]
      exact Nat.add_le_add_left hsum _
  | _ => exact le_rfl

/-- The frame of the normal form is a frame of it and not longer than any frame of the message. -/
theorem IsFrameOf.normal {m : Message Entries} {b : Bytes} (h : IsFrameOf m b) :
    IsFrameOf m.normal (frame m.normal) ∧ (frame m.normal).length ≤ b.length := by
  obtain ⟨hok, flags, surplus, rfl, hlen⟩ := h
  have hle := length_payload_normal_le m
  rw [List.length_append] at hlen
  refine ⟨⟨hok.normal, 0x00, [], ?_, ?_⟩, ?_⟩
  · rw [List.append_nil, frame]
  · rw [List.append_nil]
    omega
  · rw [frame, length_envelope, length_envelope, List.length_append]
    omega

end Messages

section Records

variable {β σ ρ κ ε ς : Type}

namespace Record

/-- A new record with the fields of one message type taken over. -/
def only (text : σ) (results : ρ) (m : Record β σ ρ) : MsgType → Record β σ ρ
  | .hello => { init m.type text results with clientLanguage := m.clientLanguage }
  | .bonjour => { init m.type text results with serverLanguage := m.serverLanguage }
  | .echoRequest => { init m.type text results with
      echoId := m.echoId, echoMeta := m.echoMeta, echoData := m.echoData }
  | .echoResponse => { init m.type text results with
      echoStatus := m.echoStatus, echoResults := m.echoResults }
  | .kissRequest => { init m.type text results with
      osName := m.osName, osVersion := m.osVersion, osRelease := m.osRelease, osArch := m.osArch }
  | .kissResponse => { init m.type text results with
      kissLanguage := m.kissLanguage, kissEncoding := m.kissEncoding
      kissTimeZone := m.kissTimeZone }
  | .ping => { init m.type text results with timestampMs := m.timestampMs }
  | .pong => { init m.type text results with timestampMs := m.timestampMs }
  | .timeNotification => { init m.type text results with
      timestampMs := m.timestampMs, iso8601 := m.iso8601 }
  | .randomNumber => { init m.type text results with
      randomId := m.randomId, randomNumber := m.randomNumber }
  | .hashResponse => { init m.type text results with
      randomId := m.randomId, hashHex := m.hashHex }
  | .disconnect => { init m.type text results with disconnectReason := m.disconnectReason }
  | .error => { init m.type text results with
      errorCode := m.errorCode, errorMessage := m.errorMessage }

/-- The `switch` of the decoder writes the fields of the type and no others. -/
theorem only_of_readFields {R : FieldReaders (EStateM ε ς) σ ρ} {type : β} {text : σ} {results : ρ}
    {t : MsgType} {m : Record β σ ρ} {s s' : ς}
    (h : readFields R (init type text results) t s = .ok m s') :
    m.type = type ∧ m.only text results t = m := by
  cases t with
  | hello | bonjour | disconnect | ping | pong =>
      obtain ⟨_, _, -, hend⟩ := bind_eq_ok_iff.mp h
      cases hend
      exact ⟨rfl, rfl⟩
  | echoResponse | timeNotification | randomNumber | hashResponse | error =>
      obtain ⟨_, _, -, h⟩ := bind_eq_ok_iff.mp h
      obtain ⟨_, _, -, hend⟩ := bind_eq_ok_iff.mp h
      cases hend
      exact ⟨rfl, rfl⟩
  | echoRequest | kissResponse =>
      obtain ⟨_, _, -, h⟩ := bind_eq_ok_iff.mp h
      obtain ⟨_, _, -, h⟩ := bind_eq_ok_iff.mp h
      obtain ⟨_, _, -, hend⟩ := bind_eq_ok_iff.mp h
      cases hend
      exact ⟨rfl, rfl⟩
  | kissRequest =>
      obtain ⟨_, _, -, h⟩ := bind_eq_ok_iff.mp h
      obtain ⟨_, _, -, h⟩ := bind_eq_ok_iff.mp h
      obtain ⟨_, _, -, h⟩ := bind_eq_ok_iff.mp h
      obtain ⟨_, _, -, hend⟩ := bind_eq_ok_iff.mp h
      cases hend
      exact ⟨rfl, rfl⟩

/-- The fields of a type are determined by what they say. -/
theorem only_eq_of_fields {κ : Type} {results' : ρ → List (EchoResult κ)}
    (hinj : Function.Injective results') {text : Bytes} {results : ρ} {m m' : Record β Bytes ρ}
    (htype : m.type = m'.type) {t : MsgType} {p : Message κ}
    (h : m.fields some (fun rs => some (results' rs)) t = some p)
    (h' : m'.fields some (fun rs => some (results' rs)) t = some p) :
    m.only text results t = m'.only text results t := by
  have hsame := h.trans h'.symm
  cases t <;>
    simp only [fields, Option.bind_eq_bind, Option.bind_some, Option.pure_def, Option.some.injEq,
      Message.hello.injEq, Message.bonjour.injEq, Message.echoRequest.injEq,
      Message.echoResponse.injEq, Message.kissRequest.injEq, Message.kissResponse.injEq,
      Message.ping.injEq, Message.pong.injEq, Message.timeNotification.injEq,
      Message.randomNumber.injEq, Message.hashResponse.injEq, Message.disconnect.injEq,
      Message.error.injEq, Int64.toInt_inj, Int32.toInt_inj, hinj.eq_iff] at hsame <;>
    simp only [only, htype, hsame]

end Record

end Records

end HelloWebsocket.Protocol
