import HelloWebsocket.Wire.Transition
import HelloWebsocket.Wire.Reactor
import HelloWebsocket.Ws.Reading

/-!
# The threads of a C++ session

`handleClient` of the server and `tryConnect` of the client have one shape: a main
thread that runs a receive loop between a few straight-line calls, threads that send
a message now and then, and, in the server, a thread that watches for a timeout.
They share the flag `active`, the mutex of `sendFrame` and one socket. This module
is the transition system of that shape, with one step for every access to something
shared. The server and the client are programs for it.

## Implementation notes

A schedule says which thread moves, how many octets the kernel takes from a call of
`send`, or that it refuses the call, what arrives from the peer, and how the clocks
move. A blocked call is a thread that cannot move. The octets of `wsRecvFrame` are
read by the reader of WebSocket frames that it refines, so that a frame is taken in
one step once it has arrived. Sleeping takes any time. After a refused call of `send`
the kernel refuses every later one. The fields from `consumed` on are history: no
step depends on them.
-/

namespace HelloWebsocket.Cpp.Threads

open Ws Reactors

section Syntax

/-- The threads of a session. -/
inductive Thread (β : Type)
  | main | beat (b : β) | watch
  deriving DecidableEq

/-- What a frame is sent for. -/
inductive Origin (β : Type)
  | reply | script | control | beat (b : β)
  deriving DecidableEq

def Origin.thread {β : Type} : Origin β → Thread β
  | .beat b => .beat b
  | _ => .main

/-- The place inside `sendFrame`: before the lock, before the test of `active`, inside `sendAll`
with the octets that are left, before the end of the lock. -/
inductive Phase
  | acquire | test | write (rest : Bytes) | release (result : Bool)
  deriving DecidableEq

/-- A call of `sendFrame`, or of `wsSendControl`, which is only inside `sendAll`. -/
structure Sending (β : Type) where
  origin : Origin β
  frame : Ws.Frame
  phase : Phase

/-- A call of `sendFrame` for some data. -/
def Sending.data {β : Type} (origin : Origin β) (data : Bytes) : Sending β :=
  ⟨origin, ⟨true, 2, data⟩, .acquire⟩

/-- The calls before the receive loop. -/
inductive Opening
  | spawn | send (data : Bytes)

/-- The calls after the receive loop. -/
inductive Closing
  | clear | close | join | send (data : Bytes) | control (f : Ws.Frame)

/-- Where the main thread stands outside of a call that sends. -/
inductive Point
  | prologue (rest : List Opening) | loop | reading (a : Assembly) | handling (data : Bytes)
  | stopping | epilogue (rest : List Closing)

/-- The main thread: at a point, or in a call with the points after its success and failure. -/
inductive Main (β : Type)
  | standing (p : Point) | sending (x : Sending β) (success failure : Point)

/-- A thread that sends: `while (active) { sleep; if (!active) break; build; send; }`. -/
inductive Beat (β : Type)
  | unborn | loop | asleep | recheck | build | sending (x : Sending β) | clear | done

/-- The call in which the main thread is. -/
def Main.call? {β : Type} : Main β → Option (Sending β)
  | .sending x _ _ => some x
  | .standing _ => none

/-- The call in which a thread that sends is. -/
def Beat.call? {β : Type} : Beat β → Option (Sending β)
  | .sending x => some x
  | _ => none

def Main.moved {β : Type} (phase : Phase) : Main β → Main β
  | .sending x success failure => .sending { x with phase } success failure
  | m => m

def Beat.moved {β : Type} (phase : Phase) : Beat β → Beat β
  | .sending x => .sending { x with phase }
  | x => x

/-- The call of `sendFrame` has returned. -/
def Main.returned {β : Type} (result : Bool) : Main β → Main β
  | .sending _ success failure => .standing (if result then success else failure)
  | m => m

/-- The thread that watches: `while (active) { sleep; if (!active) break; check; }`. -/
inductive Watch
  | unborn | loop | asleep | recheck | check | clear | shutdown | done
  deriving DecidableEq

end Syntax

section Programs

/-- The clocks: monotonic time in milliseconds, and what the wall clock shows beyond it. The wall
clock counts nanoseconds in 64 bits. -/
structure Clock where
  elapsed : Nat
  offset : Int
  inRange : |elapsed + offset| ≤ 9223372036854
  deriving DecidableEq

namespace Clock

/-- The wall clock in milliseconds. -/
def wall (c : Clock) : Int := c.elapsed + c.offset

/-- `nowMs` -/
def nowMs (c : Clock) : Int64 := Int64.ofInt c.wall

/-- The clocks after some time and a change of the wall clock. -/
def moved (c : Clock) (ms : Nat) (adjustment : Int) : Option Clock :=
  if h : |((c.elapsed + ms : Nat) : Int) + (c.offset + adjustment)| ≤ 9223372036854 then
    some ⟨c.elapsed + ms, c.offset + adjustment, h⟩
  else none

end Clock

/-- What the `switch` of the receive loop does with a message. -/
structure Effect (V : Type) where
  vars : V
  reply : Option Bytes
  stop : Bool

/-- The parts in which the server and the client differ. -/
structure Program (β V W : Type) where
  /-- Whether the frames it sends are masked; the frames it receives are masked if not. -/
  masked : Bool
  prologue : List Opening
  epilogue : List Closing
  /-- The variables of the receive loop, from the clock at the beginning. -/
  initial : Int64 → V
  handle : V → Int64 → Bytes → Effect V
  /-- The local variable of a thread, and its change after a message has been sent. -/
  counter : β → W
  advance : β → W → W
  /-- The message of a thread, from its variable, the clock and a number it draws. -/
  build : β → W → Int64 → Int64 → Bytes
  watches : Bool
  expired : V → Int64 → Bool

variable {β V W : Type}

namespace Program

variable (P : Program β V W)

/-- The octets of a frame that is sent. -/
def octets (key : Key) (f : Ws.Frame) : Bytes :=
  frameOctets (.of f.payload.length) (if P.masked then some key else none) f

/-- The receive loop as a machine that answers messages. -/
def reactor : Reactor V (Bytes × Clock) Bytes := fun v i =>
  let e := P.handle v i.2.nowMs i.1
  ⟨e.vars, e.reply.toList, e.stop⟩

end Program

end Programs

section States

structure State (β V W : Type) where
  active : Bool
  mutex : Option (Thread β)
  vars : V
  counters : β → W
  main : Main β
  beats : β → Beat β
  watch : Watch
  /-- What has arrived and has not been read. -/
  inbox : Bytes
  /-- The peer has ended its side. -/
  ended : Bool
  /-- `hws_shutdown` has been called. -/
  shut : Bool
  /-- `hws_close` has been called. -/
  closed : Bool
  /-- A call of `send` has been refused. -/
  broken : Bool
  clock : Clock
  /-- The octets of the frames that messages have been read from. -/
  consumed : Bytes
  /-- The octets that have arrived. -/
  arrived : Bytes
  /-- The messages that have been handled, with the clocks at that time. -/
  handled : List (Bytes × Clock)
  /-- What each call of `send` put on the connection. -/
  written : List (Thread β × Bytes)
  /-- The frames that have been written to their end. -/
  sent : List (Origin β × Ws.Frame)
  /-- `send` or `shutdown` has been called on the closed descriptor. -/
  misused : Bool
  /-- A thread other than the main one has ended the session. -/
  interrupted : Bool

variable {β V W : Type}

/-- The session after the handshake. -/
def Program.start (P : Program β V W) (c : Clock) : State β V W where
  active := true
  mutex := none
  vars := P.initial c.nowMs
  counters := P.counter
  main := .standing (.prologue P.prologue)
  beats _ := .unborn
  watch := .unborn
  inbox := []
  ended := false
  shut := false
  closed := false
  broken := false
  clock := c
  consumed := []
  arrived := []
  handled := []
  written := []
  sent := []
  misused := false
  interrupted := false

namespace State

variable (s : State β V W)

/-- Everything on the connection. -/
def wire : Bytes := s.written.flatMap Prod.snd

/-- A descriptor is used that may be closed already. -/
def used : State β V W := { s with misused := s.misused || s.closed }

/-- A thread other than the main one sets `active` to false. -/
def interrupt : State β V W :=
  { s with active := false, interrupted := s.interrupted || s.active }

/-- The main thread comes to a point. -/
def goto (p : Point) : State β V W := { s with main := .standing p }

variable [DecidableEq β]

def withBeat (b : β) (x : Beat β) : State β V W :=
  { s with beats := Function.update s.beats b x }

/-- The call in which a thread is sending. -/
def sending? : Thread β → Option (Sending β)
  | .main => s.main.call?
  | .beat b => (s.beats b).call?
  | .watch => none

/-- The call of a thread moves on. -/
def moveSending (t : Thread β) (phase : Phase) : State β V W :=
  { s with
    main := match t with
      | .main => s.main.moved phase
      | _ => s.main
    beats := match t with
      | .beat b => Function.update s.beats b ((s.beats b).moved phase)
      | _ => s.beats }

end State

end States

section Steps

/-- What a step needs from outside: a random number or a later reading of a clock, and a key. -/
structure Choice where
  number : Int64
  key : Key

inductive Label (β : Type)
  | arrive (octets : Bytes) | hangUp
  | time (ms : Nat) (adjustment : Int)
  | move (t : Thread β) (choice : Choice)
  | write (t : Thread β) (n : Nat)
  | refuse (t : Thread β)

variable {β V W : Type} [DecidableEq β] [Fintype β] (P : Program β V W) (s : State β V W)

/-- The result of a call that sends is returned to the thread. -/
def returned (t : Thread β) (result : Bool) : State β V W :=
  { s with
    main := match t with
      | .main => s.main.returned result
      | _ => s.main
    beats := match t with
      | .beat b => Function.update s.beats b (if result then .loop else .clear)
      | _ => s.beats
    counters := match t with
      | .beat b => if result then Function.update s.counters b (P.advance b (s.counters b))
          else s.counters
      | _ => s.counters }

/-- The steps of `sendFrame` outside of `sendAll`. -/
def sendStep (t : Thread β) (key : Key) (x : Sending β) : Option (State β V W) :=
  match x.phase with
  | .acquire => if s.mutex = none then some ({ s with mutex := some t }.moveSending t .test) else none
  | .test => some (s.moveSending t (if s.active then .write (P.octets key x.frame) else .release false))
  | .write _ => none
  | .release result =>
      some (returned P { s with mutex := if x.origin = .control then s.mutex else none } t result)

/-- The kernel has taken `n` octets from a call of `send` with these octets left. -/
def wrote (t : Thread β) (n : Nat) (x : Sending β) (rest : Bytes) : State β V W :=
  let whole := n = rest.length
  let s' := if s.closed then s.used else { s with
    written := s.written ++ [(t, rest.take n)]
    sent := if whole then s.sent ++ [(x.origin, x.frame)] else s.sent }
  s'.moveSending t (if whole then .release true else .write (rest.drop n))

def writeStep (t : Thread β) (n : Nat) (x : Sending β) : Option (State β V W) :=
  match x.phase with
  | .write rest =>
      if 0 < n ∧ n ≤ rest.length ∧ s.broken = false ∧ s.shut = false then some (wrote s t n x rest)
      else none
  | _ => none

/-- The kernel refuses a call of `send`. -/
def refuseStep (t : Thread β) (x : Sending β) : Option (State β V W) :=
  match x.phase with
  | .write _ => some ({ s.used with broken := true }.moveSending t (.release false))
  | _ => none

/-- The main thread is inside `wsSendControl`, with the points after its success and failure. -/
def State.control (key : Key) (f : Ws.Frame) (success failure : Point) : State β V W :=
  { s with main := .sending ⟨.control, f, .write (P.octets key f)⟩ success failure }

/-- What `wsRecvFrame` does with a frame it has read from these octets. -/
def frameStep (key : Key) (a : Assembly) (octets : Bytes) (f : Ws.Frame) : State β V W :=
  let taken : State β V W := { s with consumed := s.consumed ++ octets }
  if f.opcode = 8 then
    State.control P s key (closing f) (.epilogue P.epilogue) (.epilogue P.epilogue)
  else if f.opcode = 9 then State.control P taken key (pong f) (.reading a) (.epilogue P.epilogue)
  else if f.opcode = 10 then taken.goto (.reading a)
  else match a.place f with
    | some (.inl a') => taken.goto (.reading a')
    | some (.inr data) => taken.goto (.handling data)
    | none => s.goto (.epilogue P.epilogue)

/-- `wsRecvFrame` on the octets that have arrived. -/
def readStep (key : Key) (a : Assembly) : Option (State β V W) :=
  match readFrame (!P.masked) a.held s.inbox with
  | .ok f rest =>
      let octets := s.inbox.take (s.inbox.length - rest.length)
      some (frameStep P { s with inbox := rest } key a octets f)
  | .error .endOfStream _ =>
      if s.ended ∨ s.shut ∨ s.closed then some (s.goto (.epilogue P.epilogue)) else none
  | .error .violation _ => some (s.goto (.epilogue P.epilogue))

/-- The `switch` of the receive loop. -/
def handleStep (data : Bytes) : State β V W :=
  let e := P.handle s.vars s.clock.nowMs data
  let after : Point := if e.stop then .stopping else .loop
  { s with
    vars := e.vars
    handled := s.handled ++ [(data, s.clock)]
    main := match e.reply with
      | some data => .sending (.data .reply data) after after
      | none => .standing after }

/-- A call before the receive loop, with the point after it. -/
def openStep (next : Point) : Opening → State β V W
  | .spawn => { s.goto next with
      beats := fun _ => .loop
      watch := if P.watches then .loop else .done }
  | .send data => { s with main := .sending (.data .script data) next next }

/-- Every thread but the main one is at its end. -/
def State.othersDone : Prop :=
  (∀ b, (match s.beats b with | .done => true | _ => false) = true) ∧ s.watch = .done

instance : Decidable s.othersDone := inferInstanceAs (Decidable (_ ∧ _))

/-- A call after the receive loop, with the point after it. -/
def closeStep (key : Key) (next : Point) : Closing → Option (State β V W)
  | .clear => some { s.goto next with active := false }
  | .close => some { s.goto next with closed := true }
  | .join => if s.othersDone then some (s.goto next) else none
  | .send data => some { s with main := .sending (.data .script data) next next }
  | .control f => some (State.control P s key f next next)

/-- The main thread outside of a call that sends. -/
def pointStep (key : Key) : Point → Option (State β V W)
  | .prologue [] => some (s.goto .loop)
  | .prologue (call :: rest) => some (openStep P s (.prologue rest) call)
  | .loop => some (s.goto (if s.active then .reading none else .epilogue P.epilogue))
  | .reading a => readStep P s key a
  | .handling data => some (handleStep P s data)
  | .stopping => some { s.goto .loop with active := false }
  | .epilogue [] => none
  | .epilogue (call :: rest) => closeStep P s key (.epilogue rest) call

/-- A thread that sends, outside of its call of `sendFrame`. -/
def beatStep (b : β) (number : Int64) : Beat β → Option (State β V W)
  | .loop => some (s.withBeat b (if s.active then .asleep else .done))
  | .asleep => some (s.withBeat b .recheck)
  | .recheck => some (s.withBeat b (if s.active then .build else .done))
  | .build => some (s.withBeat b
      (.sending (.data (.beat b) (P.build b (s.counters b) s.clock.nowMs number))))
  | .clear => some (s.interrupt.withBeat b .done)
  | .unborn | .sending _ | .done => none

def watchStep : Option (State β V W) :=
  match s.watch with
  | .loop => some { s with watch := if s.active then .asleep else .done }
  | .asleep => some { s with watch := .recheck }
  | .recheck => some { s with watch := if s.active then .check else .done }
  | .check => some { s with watch := if P.expired s.vars s.clock.nowMs then .clear else .loop }
  | .clear => some { s.interrupt with watch := .shutdown }
  | .shutdown => some { s.used with shut := true, watch := .done }
  | .unborn | .done => none

/-- The next step of a thread. -/
def moveStep (choice : Choice) (t : Thread β) : Option (State β V W) :=
  match s.sending? t with
  | some x => sendStep P s t choice.key x
  | none =>
      match t with
      | .main =>
          match s.main with
          | .standing p => pointStep P s choice.key p
          | .sending .. => none
      | .beat b => beatStep P s b choice.number (s.beats b)
      | .watch => watchStep P s

/-- One step of the session. -/
def step : Label β → Option (State β V W)
  | .arrive octets =>
      if s.ended then none
      else some { s with inbox := s.inbox ++ octets, arrived := s.arrived ++ octets }
  | .hangUp => some { s with ended := true }
  | .time ms adjustment => (s.clock.moved ms adjustment).map fun c => { s with clock := c }
  | .move t choice => moveStep P s choice t
  | .write t n => (s.sending? t).bind (writeStep s t n)
  | .refuse t => (s.sending? t).bind (refuseStep s t)

end Steps

section Inversion

variable {β V W : Type} [Fintype β] {P : Program β V W} {s s' : State β V W} {l : Label β}

/-- What a step of the main thread outside of a call can be. -/
inductive PointStep (P : Program β V W) (s : State β V W) (key : Key) : Point → State β V W → Prop
  | begin : PointStep P s key (.prologue []) (s.goto .loop)
  | prologue {call rest} :
      PointStep P s key (.prologue (call :: rest)) (openStep P s (.prologue rest) call)
  | epilogue {call rest s'} (hcall : closeStep P s key (.epilogue rest) call = some s') :
      PointStep P s key (.epilogue (call :: rest)) s'
  | loop : PointStep P s key .loop
      (s.goto (if s.active then .reading none else .epilogue P.epilogue))
  | frame {a f b rest} (hinbox : s.inbox = b ++ rest) (hb : Encodes (!P.masked) f b)
      (hok : a.Admits f) :
      PointStep P s key (.reading a) (frameStep P { s with inbox := rest } key a b f)
  | exhausted {a left} (hread : readFrame (!P.masked) a.held s.inbox = .error .endOfStream left)
      (hover : s.ended ∨ s.shut ∨ s.closed) :
      PointStep P s key (.reading a) (s.goto (.epilogue P.epilogue))
  | refused {a left} (hread : readFrame (!P.masked) a.held s.inbox = .error .violation left) :
      PointStep P s key (.reading a) (s.goto (.epilogue P.epilogue))
  | handle {data} : PointStep P s key (.handling data) (handleStep P s data)
  | stop : PointStep P s key .stopping { s.goto .loop with active := false }

theorem pointStep_of_readStep {key : Key} {a : Assembly} (h : readStep P s key a = some s') :
    PointStep P s key (.reading a) s' := by
  rw [readStep] at h
  split at h
  · next f rest hread =>
      obtain ⟨hok, b, hb, hinbox⟩ := readFrame_sound hread
      have hoctets : s.inbox.take (s.inbox.length - rest.length) = b := by
        rw [hinbox, List.length_append, Nat.add_sub_cancel, List.take_left]
      rw [hoctets] at h
      cases h
      exact .frame hinbox hb hok
  · next left hread =>
      obtain ⟨hover, h⟩ := Option.ite_none_right_eq_some.mp h
      cases h
      exact .exhausted hread hover
  · next left hread =>
      cases h
      exact .refused hread

theorem pointStep_cases {key : Key} {p : Point} (h : pointStep P s key p = some s') :
    PointStep P s key p s' := by
  match p, h with
  | .prologue [], h =>
      cases h
      exact .begin
  | .prologue (call :: rest), h =>
      cases h
      exact .prologue
  | .loop, h =>
      cases h
      exact .loop
  | .reading a, h => exact pointStep_of_readStep h
  | .handling data, h =>
      cases h
      exact .handle
  | .stopping, h =>
      cases h
      exact .stop
  | .epilogue [], h => cases h
  | .epilogue (call :: rest), h => exact .epilogue h

variable [DecidableEq β]

/-- What a step of the session can be. -/
inductive Step (P : Program β V W) (s : State β V W) : Label β → State β V W → Prop
  | arrive {octets} (hended : s.ended = false) :
      Step P s (.arrive octets)
        { s with inbox := s.inbox ++ octets, arrived := s.arrived ++ octets }
  | hangUp : Step P s .hangUp { s with ended := true }
  | time {ms adjustment c} (hclock : s.clock.moved ms adjustment = some c) :
      Step P s (.time ms adjustment) { s with clock := c }
  | acquire {t choice x} (hx : s.sending? t = some x) (hphase : x.phase = .acquire)
      (hfree : s.mutex = none) :
      Step P s (.move t choice) ({ s with mutex := some t }.moveSending t .test)
  | test {t choice x} (hx : s.sending? t = some x) (hphase : x.phase = .test) :
      Step P s (.move t choice) (s.moveSending t
        (if s.active then .write (P.octets choice.key x.frame) else .release false))
  | release {t choice x result} (hx : s.sending? t = some x) (hphase : x.phase = .release result) :
      Step P s (.move t choice) (returned P
        { s with mutex := if x.origin = .control then s.mutex else none } t result)
  | write {t n x rest} (hx : s.sending? t = some x) (hphase : x.phase = .write rest) (hpos : 0 < n)
      (hle : n ≤ rest.length) (hbroken : s.broken = false) (hshut : s.shut = false) :
      Step P s (.write t n) (wrote s t n x rest)
  | refuse {t x rest} (hx : s.sending? t = some x) (hphase : x.phase = .write rest) :
      Step P s (.refuse t) ({ s.used with broken := true }.moveSending t (.release false))
  | point {choice p s'} (hmain : s.main = .standing p) (hstep : PointStep P s choice.key p s') :
      Step P s (.move .main choice) s'
  | beat {b choice s'} (hidle : s.sending? (.beat b) = none)
      (hstep : beatStep P s b choice.number (s.beats b) = some s') :
      Step P s (.move (.beat b) choice) s'
  | watch {choice s'} (hstep : watchStep P s = some s') : Step P s (.move .watch choice) s'

theorem step_of_sendStep {t : Thread β} {choice : Choice} {x : Sending β}
    (hx : s.sending? t = some x) (h : sendStep P s t choice.key x = some s') :
    Step P s (.move t choice) s' := by
  cases hphase : x.phase with
  | acquire =>
      rw [sendStep, hphase] at h
      obtain ⟨hfree, h⟩ := Option.ite_none_right_eq_some.mp h
      cases h
      exact .acquire hx hphase hfree
  | test =>
      rw [sendStep, hphase] at h
      cases h
      exact .test hx hphase
  | write rest =>
      rw [sendStep, hphase] at h
      cases h
  | release result =>
      rw [sendStep, hphase] at h
      cases h
      exact .release hx hphase

theorem step_cases (h : step P s l = some s') : Step P s l s' := by
  cases l with
  | arrive octets =>
      obtain ⟨hended, h⟩ := Option.ite_none_left_eq_some.mp h
      cases h
      exact .arrive (Bool.not_eq_true _ ▸ hended)
  | hangUp =>
      cases h
      exact .hangUp
  | time ms adjustment =>
      obtain ⟨c, hc, rfl⟩ := Option.map_eq_some_iff.mp h
      exact .time hc
  | move t choice =>
      rw [step, moveStep.eq_def] at h
      cases hx : s.sending? t with
      | some x =>
          rw [hx] at h
          exact step_of_sendStep hx h
      | none =>
          rw [hx] at h
          cases t with
          | main =>
              cases hmain : s.main with
              | standing p =>
                  rw [hmain] at h
                  exact .point hmain (pointStep_cases h)
              | sending x k k' =>
                  rw [hmain] at h
                  cases h
          | beat b => exact .beat hx h
          | watch => exact .watch h
  | write t n =>
      obtain ⟨x, hx, h⟩ := Option.bind_eq_some_iff.mp h
      cases hphase : x.phase with
      | write rest =>
          rw [writeStep, hphase] at h
          obtain ⟨⟨hpos, hle, hbroken, hshut⟩, h⟩ := Option.ite_none_right_eq_some.mp h
          cases h
          exact .write hx hphase hpos hle hbroken hshut
      | _ =>
          rw [writeStep, hphase] at h
          cases h
  | refuse t =>
      obtain ⟨x, hx, h⟩ := Option.bind_eq_some_iff.mp h
      cases hphase : x.phase with
      | write rest =>
          rw [refuseStep, hphase] at h
          cases h
          exact .refuse hx hphase
      | _ =>
          rw [refuseStep, hphase] at h
          cases h

end Inversion

end HelloWebsocket.Cpp.Threads
