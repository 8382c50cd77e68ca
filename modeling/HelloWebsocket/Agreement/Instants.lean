import HelloWebsocket.Cpp.Bounds
import HelloWebsocket.Cpp.Calendar
import HelloWebsocket.Go.Server

/-!
# The two fields of a time notification

`TIME_NOTIFICATION` shows one time twice, in milliseconds and as a text to the second.
The C++ and the Go server read the clock once for each field. The text is that of the
timestamp exactly if the second reading falls into the second of the first one.

## Implementation notes

A reading of the C++ clock is rounded to seconds towards zero, so before 1970 the text
is that of another second than the one in which the timestamp lies.
-/

namespace HelloWebsocket.Agreement

open Protocol BigEndian Calendar

section Messages

/-- The text of a time notification is that of the second of its timestamp. -/
def OneInstant (data : Bytes) : Prop :=
  ∃ timestampMs : Int, IsI64 timestampMs ∧
    data = frame (.timeNotification timestampMs (Moment.atSecond (timestampMs / 1000)).text)

theorem payload_of_frame {m m' : Message Entries} (h : frame m = frame m') :
    payload m = payload m' := by
  have hbody (m : Message Entries) : (frame m).drop 8 = payload m := by
    rw [frame, envelope]
    exact List.drop_left' (by simp)
  rw [← hbody m, h, hbody m']

/-- The fields of a time notification can be read from its frame. -/
theorem timeNotification_of_frame {t u : Int} {a b : Bytes} (ht : IsI64 t) (hu : IsI64 u)
    (h : frame (.timeNotification t a) = frame (.timeNotification u b)) : t = u ∧ a = b := by
  obtain ⟨htime, htext⟩ := List.append_inj (payload_of_frame h) (by simp)
  have hbits := beBytes_injOn (twos_lt 64 t) (twos_lt 64 u) htime
  constructor
  · rw [← signed_twos_of_range (w := 64) (by decide) ht.1 ht.2, hbits,
      signed_twos_of_range (by decide) hu.1 hu.2]
  · exact (List.append_inj htext (by simp)).2

/-- Two readings of a clock whose nanoseconds fit into 64 bits. -/
theorem oneInstant_frame {ts t : Int} (hts : |ts| ≤ 9223372036855) (ht : |t| ≤ 9223372037) :
    OneInstant (frame (.timeNotification ts (Moment.atSecond t).text)) ↔ t = ts / 1000 := by
  have hrange := abs_le.mp hts
  have hI64 : IsI64 ts := ⟨by omega, by omega⟩
  constructor
  · rintro ⟨u, hu, h⟩
    obtain ⟨rfl, htext⟩ := timeNotification_of_frame hI64 hu h
    exact (Moment.text_atSecond_inj ht (abs_le.mpr ⟨by omega, by omega⟩)).mp htext
  · rintro rfl
    exact ⟨ts, hI64, rfl⟩

end Messages

section Cpp

open Cpp Cpp.Server Cpp.Threads Transitions

/-- The time thread reads the clock a second time, and it does not go back. -/
def ReadsClock (s : State Background Vars Unit) (l : Label Background) : Prop :=
  ∀ choice, l = .move (.beat .time) choice →
    ∃ later : Clock, s.clock.wall ≤ later.wall ∧ choice.number = later.nowMs

theorem toInt_nowMs (c : Clock) : c.nowMs.toInt = c.wall := by
  have h := abs_le.mp c.inRange
  rw [Clock.wall, Clock.nowMs]
  exact Int64.toInt_ofInt_of_le (by rw [Clock.wall]; omega) (by rw [Clock.wall]; omega)

theorem abs_second_le (c : Clock) : |c.wall.tdiv 1000| ≤ 9223372037 := by
  have hrange : |c.wall| ≤ 9223372036854 := c.inRange
  have hdiv : (c.wall.tdiv 1000).natAbs = c.wall.natAbs / 1000 := Int.natAbs_tdiv _ _
  rw [Int.abs_eq_natAbs] at hrange ⊢
  omega

theorem build_time (first later : Clock) :
    server.build .time () first.nowMs later.nowMs =
      frame (.timeNotification first.wall (Moment.atSecond (later.wall.tdiv 1000)).text) := by
  have hsecond := abs_second_le later
  rw [← toInt_nowMs later] at hsecond
  change encoded (message first.nowMs later.nowMs .time) = _
  rw [encoded_eq (p := .timeNotification first.nowMs.toInt (Cpp.nowISO later.nowMs)) rfl,
    nowISO_eq hsecond, toInt_nowMs, toInt_nowMs]
  rfl

/-- A session whose time thread reads the clock in the last millisecond of a second, and again in
the next one. -/
def straddling : List (Label Background) :=
  let main : Label Background := .move .main ⟨0, .zero⟩
  let time : Label Background := .move (.beat .time) ⟨1000, .zero⟩
  [main, time, time, time, time, time, time, .write (.beat .time) 42]

/-- The thread of the time reads the instant 1000 or an earlier one before it. -/
def readsByThen (s : State Background Vars Unit) : Label Background → Bool
  | .move (.beat .time) choice => decide (s.clock.wall ≤ 1000 ∧ choice.number = 1000)
  | _ => true

theorem straddling_along :
    Along (step server) ReadsClock (server.start ⟨999, 0, by decide⟩) straddling := by
  have htest : passes (step server) readsByThen (server.start ⟨999, 0, by decide⟩) straddling =
      true := by decide +kernel
  refine (along_of_passes htest).mono fun s l hl => ?_
  rintro choice rfl
  obtain ⟨hwall, hnumber⟩ := of_decide_eq_true hl
  exact ⟨⟨1000, 0, by decide⟩, hwall, hnumber⟩

theorem straddling_runs : ∃ s f, run (step server) (server.start ⟨999, 0, by decide⟩) straddling =
    some s ∧ (.beat .time, f) ∈ s.sent ∧
      f.payload = frame (.timeNotification 999 (Moment.atSecond 1).text) := by
  have hsent : ((run (step server) (server.start ⟨999, 0, by decide⟩) straddling).map fun s =>
      s.sent) = some [(.beat .time, ⟨true, 2,
        server.build .time () (Clock.nowMs ⟨999, 0, by decide⟩)
          (Clock.nowMs ⟨1000, 0, by decide⟩)⟩)] := by
    decide +kernel
  obtain ⟨s, hs, hsent⟩ := Option.map_eq_some_iff.mp hsent
  have hbuild := build_time ⟨999, 0, by decide⟩ ⟨1000, 0, by decide⟩
  have hfirst : Clock.wall ⟨999, 0, by decide⟩ = 999 := rfl
  have hlater : (Clock.wall ⟨1000, 0, by decide⟩).tdiv 1000 = 1 := rfl
  rw [hfirst, hlater] at hbuild
  exact ⟨s, _, hs, by rw [hsent]; exact List.mem_singleton_self _, hbuild⟩

end Cpp

section Both

open Cpp.Server Cpp.Threads Transitions

/-- Every time notification comes from two readings of the clock, and it shows one instant exactly
if the second reading falls into the second of the first one, after rounding it towards zero in
C++. -/
theorem oneInstant_iff {c : Clock} {ls : List (Label Background)} {s : State Background Vars Unit}
    (halong : Along (step server) ReadsClock (server.start c) ls)
    (hrun : run (step server) (server.start c) ls = some s) (ts : List Go.Tick) :
    (∀ f, (.beat .time, f) ∈ s.sent → ∃ first later : Clock, first.wall ≤ later.wall ∧
      f = ⟨true, 2, encoded (message first.nowMs later.nowMs .time)⟩ ∧
      (OneInstant f.payload ↔ later.wall.tdiv 1000 = first.wall / 1000)) ∧
    ∀ data ∈ Go.timeTask ts, ∃ t ∈ ts, data = (Go.timeNotification t).encode ∧
      (OneInstant data ↔ t.second.ns / 1000000000 = t.first.ns / 1000000000) := by
  constructor
  · refine sent_of_along (Q := fun f => ∃ first later : Clock, first.wall ≤ later.wall ∧
      f = ⟨true, 2, encoded (message first.nowMs later.nowMs .time)⟩ ∧
      (OneInstant f.payload ↔ later.wall.tdiv 1000 = first.wall / 1000)) ?_ halong hrun
    intro s choice hreads
    obtain ⟨later, hle, hnumber⟩ := hreads choice rfl
    refine ⟨s.clock, later, hle, by rw [hnumber]; rfl, ?_⟩
    rw [hnumber, build_time]
    exact oneInstant_frame (s.clock.inRange.trans (by decide)) (abs_second_le later)
  · intro data hdata
    obtain ⟨t, ht, hframe, rfl⟩ := Go.mem_timeTask hdata
    refine ⟨t, ht, hframe, ?_⟩
    have hfirst := abs_le.mp t.first.inRange
    have hsecond := abs_le.mp t.second.inRange
    rw [Go.nowISO, oneInstant_frame (abs_le.mpr ⟨by omega, by omega⟩)
      (abs_le.mpr ⟨by omega, by omega⟩)]
    omega

/-- Both servers can read the clock on both sides of the end of a second. -/
theorem straddling_shows_two :
    (∃ ls s f, Along (step server) ReadsClock (server.start ⟨999, 0, by decide⟩) ls ∧
      run (step server) (server.start ⟨999, 0, by decide⟩) ls = some s ∧
      (.beat .time, f) ∈ s.sent ∧ ¬ OneInstant f.payload) ∧
    ∃ t : Go.Tick, t.first.ns ≤ t.second.ns ∧
      ∃ data ∈ Go.timeTask [t], ¬ OneInstant data := by
  have hrange : |(999 : Int)| ≤ 9223372036855 := by decide
  have htwo : ¬ OneInstant (frame (.timeNotification 999 (Moment.atSecond 1).text)) := by
    rw [oneInstant_frame hrange (by decide)]
    decide
  constructor
  · obtain ⟨s, f, hrun, hsent, hpayload⟩ := straddling_runs
    exact ⟨straddling, s, f, straddling_along, hrun, hsent, hpayload ▸ htwo⟩
  · refine ⟨⟨false, false, ⟨999000000, by decide⟩, ⟨1000000000, by decide⟩⟩, by decide, _,
      List.mem_singleton_self _, ?_⟩
    rw [Go.TimeNotification.encode_eq]
    exact htwo

/-- The two readings of the session above are read from its message. -/
theorem oneInstant_iff_straddling : ∃ s f,
    run (step server) (server.start ⟨999, 0, by decide⟩) straddling = some s ∧
    (.beat .time, f) ∈ s.sent ∧ ∃ first later : Clock, first.wall ≤ later.wall ∧
      f = ⟨true, 2, encoded (message first.nowMs later.nowMs .time)⟩ ∧
      (OneInstant f.payload ↔ later.wall.tdiv 1000 = first.wall / 1000) := by
  obtain ⟨s, f, hrun, hsent, -⟩ := straddling_runs
  exact ⟨s, f, hrun, hsent, (oneInstant_iff straddling_along hrun []).1 f hsent⟩

end Both

end HelloWebsocket.Agreement
