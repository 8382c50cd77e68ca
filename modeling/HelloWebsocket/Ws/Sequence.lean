import HelloWebsocket.Ws.Grammar

/-!
# Streams of messages

The octets of several messages one after another, and what a reader has taken from
them at any point: the messages that are complete and the beginning of the next one.
Two readers of one stream take the same frames from it, so the messages of the one
that has read less come first for the other.

## Implementation notes

A frame that has arrived only in part is missing octets. It is never a violation
unless the whole frame is one.
-/

namespace HelloWebsocket.Ws

open Parsing Streams

section Arrival

theorem stable_readLength (field : Nat) : Stable .endOfStream (readLength field) := by
  rw [readLength]
  split
  · exact stable_bind (stable_takeOr 2) fun ext => stable_pure _
  split
  · exact stable_bind (stable_takeOr 8) fun ext =>
      stable_bind (stable_throwIf _) fun _ => stable_pure _
  · exact stable_pure _

theorem stable_readKey (masked : Bool) : Stable .endOfStream (readKey masked) := by
  rw [readKey]
  split
  · exact stable_takeOr 4
  · exact stable_pure _

/-- Once a frame is read or refused, later octets change nothing. -/
theorem stable_readFrame (masked : Bool) (held : Nat) :
    Stable .endOfStream (readFrame masked held) := by
  refine stable_bind (stable_takeOr 2) fun hdr => ?_
  refine stable_bind (stable_throwIf _) fun _ => stable_bind (stable_throwIf _) fun _ => ?_
  refine stable_bind (stable_readLength _) fun len => stable_bind (stable_throwIf _) fun _ => ?_
  exact stable_bind (stable_readKey masked) fun key =>
    stable_bind (stable_takeOr len) fun payload => stable_pure _

/-- Two frames at the front of one stream are the same. -/
theorem encodes_inj {masked : Bool} {held : Nat} {f g : Frame} {b c rest left : Bytes}
    (hf : Encodes masked f b) (hg : Encodes masked g c)
    (hok : Admissible held f.fin f.opcode f.payload.length) (h : b ++ rest = c ++ left) :
    f = g ∧ rest = left := by
  have hreadf := readFrame_of_encodes hf held rest
  rw [if_pos hok] at hreadf
  have hreadg := readFrame_of_encodes hg held left
  rw [← h] at hreadg
  split at hreadg
  · cases hreadf.symm.trans hreadg
    exact ⟨rfl, rfl⟩
  · obtain ⟨_, hbad⟩ := hreadg
    cases hreadf.symm.trans hbad

theorem length_body {key key' : Option Key} (hkey : key.isSome = key'.isSome) {p q : Bytes}
    (h : p.length = q.length) : (body key p).length = (body key' q).length := by
  cases key with
  | none =>
      cases key' with
      | none => exact h
      | some k => cases hkey
  | some k =>
      cases key' with
      | none => cases hkey
      | some k' => simp [body, k.size, k'.size, h]

/-- The octets of one frame do not begin those of another, whatever the frames are. -/
theorem encodes_unique {masked : Bool} {f g : Frame} {b c rest left : Bytes}
    (hf : Encodes masked f b) (hg : Encodes masked g c) (h : b ++ rest = c ++ left) :
    b = c ∧ rest = left := by
  obtain ⟨form, key, hfits, hkey, rfl⟩ := hf
  obtain ⟨form', key', hfits', hkey', rfl⟩ := hg
  apply List.append_inj h
  rw [frameOctets_append, frameOctets_append, hkey, hkey'] at h
  obtain ⟨hsecond, htail⟩ := List.cons.inj (List.cons.inj h).2
  have hfield : form.field f.payload.length = form'.field g.payload.length := by
    have hnat := congrArg UInt8.toNat hsecond
    rw [toNat_secondOctet masked (form.field_lt hfits),
      toNat_secondOctet masked (form'.field_lt hfits')] at hnat
    exact Nat.add_left_cancel hnat
  rw [List.append_assoc, List.append_assoc] at htail
  -- The length is read from the same octets, so it is the same, and so is what follows it.
  have hread := readLength_extension hfits (body key f.payload ++ rest)
  rw [htail, hfield, readLength_extension hfits' (body key' g.payload ++ left)] at hread
  obtain ⟨hlen, hbody⟩ := EStateM.Result.ok.inj hread
  rw [hbody] at htail
  have hext := congrArg List.length (List.append_cancel_right htail)
  have hsize := length_body (hkey'.trans hkey.symm) hlen
  simp only [frameOctets, List.length_cons, List.length_append, hext, hsize]

end Arrival

section Sequences

/-- The octets are frames that, from what there is of a message, bring these messages and leave
the beginning of another. -/
inductive Reads (masked : Bool) : Assembly → Bytes → List Bytes → Assembly → Prop
  | nil {a} : Reads masked a [] [] a
  | more {a a' a'' f b c ms} (hb : Encodes masked f b) (hok : a.Admits f)
      (hnext : a.next f = some (.inl a')) (hrest : Reads masked a' c ms a'') :
      Reads masked a (b ++ c) ms a''
  | last {a a' f b c p ms} (hb : Encodes masked f b) (hok : a.Admits f)
      (hnext : a.next f = some (.inr p)) (hrest : Reads masked none c ms a') :
      Reads masked a (b ++ c) (p :: ms) a'

/-- The octets of messages one after another, each in frames of its own. -/
def Carries (masked : Bool) : Bytes → List Bytes → Prop
  | b, [] => b = []
  | b, m :: ms => ∃ fs c d, b = c ++ d ∧ EncodesAll masked fs c ∧ IsMessage fs ∧ Sized 0 fs ∧
      m = dataOf fs ∧ Carries masked d ms

variable {masked : Bool} {a a' a'' : Assembly} {f : Frame} {fs : List Frame} {b c : Bytes}
  {ms ns : List Bytes}

namespace Reads

theorem append (hb : Reads masked a b ms a') (hc : Reads masked a' c ns a'') :
    Reads masked a (b ++ c) (ms ++ ns) a'' := by
  induction hb with
  | nil => exact hc
  | more hf hok hnext _ ih =>
      rw [List.append_assoc]
      exact .more hf hok hnext (ih hc)
  | last hf hok hnext _ ih =>
      rw [List.append_assoc]
      exact .last hf hok hnext (ih hc)

theorem single_more (hb : Encodes masked f b) (hok : a.Admits f)
    (hnext : a.next f = some (.inl a')) : Reads masked a b [] a' := by
  rw [← List.append_nil b]
  exact .more hb hok hnext .nil

theorem single_last {p : Bytes} (hb : Encodes masked f b) (hok : a.Admits f)
    (hnext : a.next f = some (.inr p)) : Reads masked a b [p] none := by
  rw [← List.append_nil b]
  exact .last hb hok hnext .nil

/-- The frames of a message, from any of its frames on. -/
theorem of_advances {p : Bytes} (h : Advances a fs (.inr p)) (hb : EncodesAll masked fs b) :
    Reads masked a b [p] none := by
  generalize hx : (Sum.inr p : Assembly ⊕ Bytes) = x at h
  induction h generalizing b with
  | nil => cases hx
  | last hok hnext =>
      cases hx
      obtain ⟨b₁, _, hb₁, rfl, rfl⟩ := hb
      rw [List.append_nil]
      exact single_last hb₁ hok hnext
  | cons hok hnext _ ih =>
      obtain ⟨b₁, b₂, hb₁, hb₂, rfl⟩ := hb
      exact .more hb₁ hok hnext (ih hb₂ hx)

/-- What is left of a stream after a part of it has been read. -/
theorem residual (hb : Reads masked a b ms a') (hw : Reads masked a (b ++ c) ns a'') :
    ∃ ns', ns = ms ++ ns' ∧ Reads masked a' c ns' a'' := by
  induction hb generalizing ns with
  | nil => exact ⟨ns, rfl, hw⟩
  | @more a a₁ a₂ f b₁ b₂ ms hf hok hnext _ ih =>
      generalize hstream : b₁ ++ b₂ ++ c = w at hw
      rw [List.append_assoc] at hstream
      cases hw with
      | nil =>
          have hpos := length_pos_of_encodes hf
          rw [(List.append_eq_nil_iff.mp hstream).1] at hpos
          cases hpos
      | more hg hok' hnext' hrest =>
          obtain ⟨rfl, rfl⟩ := encodes_inj hf hg hok hstream
          cases hnext.symm.trans hnext'
          exact ih hrest
      | last hg hok' hnext' hrest =>
          obtain ⟨rfl, rfl⟩ := encodes_inj hf hg hok hstream
          cases hnext.symm.trans hnext'
  | @last a a₁ f b₁ b₂ p ms hf hok hnext _ ih =>
      generalize hstream : b₁ ++ b₂ ++ c = w at hw
      rw [List.append_assoc] at hstream
      cases hw with
      | nil =>
          have hpos := length_pos_of_encodes hf
          rw [(List.append_eq_nil_iff.mp hstream).1] at hpos
          cases hpos
      | more hg hok' hnext' hrest =>
          obtain ⟨rfl, rfl⟩ := encodes_inj hf hg hok hstream
          cases hnext.symm.trans hnext'
      | last hg hok' hnext' hrest =>
          obtain ⟨rfl, rfl⟩ := encodes_inj hf hg hok hstream
          cases hnext.symm.trans hnext'
          obtain ⟨ns', rfl, h⟩ := ih hrest
          exact ⟨ns', rfl, h⟩

/-- Every message is within the limit, together with what there is of the one before it. -/
theorem length_le (h : Reads masked a b ms a') : ∀ m ∈ ms, m.length ≤ limit := by
  induction h with
  | nil => exact fun m hm => (nomatch hm)
  | more _ _ _ _ ih => exact ih
  | @last a a' f b c p ms hb hok hnext _ ih =>
      intro m hm
      rcases List.mem_cons.mp hm with rfl | hm
      · rw [Assembly.next] at hnext
        split at hnext
        · cases hnext
        · cases a with
          | none =>
              rw [Assembly.place] at hnext
              split at hnext <;> try cases hnext
              split at hnext <;> cases hnext
              have hsize := hok.2
              rwa [show Assembly.held none = 0 from rfl, Nat.zero_add] at hsize
          | some q =>
              rw [Assembly.place] at hnext
              split at hnext <;> try cases hnext
              split at hnext <;> cases hnext
              rw [List.length_append]
              exact hok.2
      · exact ih m hm

/-- A stream of messages is at its end, or a frame can be read from it. -/
theorem eq_nil_or_readFrame (hw : Reads masked a b ms a') :
    b = [] ∨ ∃ f rest, readFrame masked a.held b = .ok f rest := by
  cases hw with
  | nil => exact .inl rfl
  | @more _ _ _ f b c _ hb hok _ _ | @last _ _ f b c _ _ hb hok _ _ =>
      have hread := readFrame_of_encodes hb a.held c
      rw [if_pos hok] at hread
      exact .inr ⟨f, c, hread⟩

/-- A reader that has only a part of what is left of a stream finds nothing wrong with it. -/
theorem readFrame_part (hw : Reads masked a (b ++ c) ms a') {left : Bytes} :
    readFrame masked a.held b ≠ .error .violation left := by
  intro hbad
  have hall := (stable_readFrame masked a.held b c).2 .violation left (by decide) hbad
  obtain hnil | ⟨f, rest, hread⟩ := hw.eq_nil_or_readFrame
  · rw [(List.append_eq_nil_iff.mp hnil).1] at hbad
    cases hbad
  · cases hread.symm.trans hall

/-- A reader that has all that is left of a stream and waits has nothing left. -/
theorem eq_nil_of_endOfStream (hw : Reads masked a b ms a') {left : Bytes}
    (hread : readFrame masked a.held b = .error .endOfStream left) : b = [] := by
  obtain hnil | ⟨f, rest, hframe⟩ := hw.eq_nil_or_readFrame
  · exact hnil
  · cases hframe.symm.trans hread

/-- A reader that takes a frame takes one that the message goes on with. -/
theorem next_isSome (hw : Reads masked a (b ++ c) ms a') (hb : Encodes masked f b)
    (hok : a.Admits f) : (a.next f).isSome = true := by
  generalize hstream : b ++ c = w at hw
  cases hw with
  | nil =>
      have hpos := length_pos_of_encodes hb
      rw [(List.append_eq_nil_iff.mp hstream).1] at hpos
      cases hpos
  | more hg _ hnext _ =>
      obtain ⟨rfl, -⟩ := encodes_inj hb hg hok hstream
      rw [hnext]
      rfl
  | last hg _ hnext _ =>
      obtain ⟨rfl, -⟩ := encodes_inj hb hg hok hstream
      rw [hnext]
      rfl

end Reads

/-- Messages one after another are read one after another. -/
theorem Carries.reads (h : Carries masked b ms) : Reads masked none b ms none := by
  induction ms generalizing b with
  | nil =>
      cases h
      exact .nil
  | cons m ms ih =>
      obtain ⟨fs, c, d, rfl, hc, hmessage, hsized, rfl, hd⟩ := h
      have hread := Reads.of_advances (advances_none_iff.mpr ⟨hmessage, hsized, rfl⟩) hc
      exact hread.append (ih hd)

end Sequences

end HelloWebsocket.Ws
