import SteamStream.Library.CText
import SteamStream.Library.Runs
import Mathlib.Data.List.Induction

/-!
# Where the RTP packets go

Each of the two media streams of a session has a `UDPSink`: a socket, the address the packets are
sent to, and a thread that receives on the socket. The client is not known when the stream starts;
it sends pings to the port, and the thread takes the source of a datagram for the address to send
to. It follows every later datagram from another address, and `retarget` has it look for the client
anew.

What is in the datagram is not looked at, nor whether it comes from `client_ip`, which the sink has
and nothing reads. So the packets go to whoever was the last to send a datagram to the port
(`send_run_iff`), and they go to the client exactly if each datagram that determines where a packet
goes comes from the client's address or from one that has shown the payload of the session
(`sendsToClient_iff`).
-/

namespace SteamStream.Media

open Runs Wire CText

/-! ### Sinks -/

/-- The address and the port of a `sockaddr_in`. -/
structure SockaddrIn where
  addr : UInt32 := 0
  port : UInt16 := 0
  deriving DecidableEq, Repr

/-- `inet_ntop`: the address in dotted decimal. -/
def inetNtop (addr : UInt32) : Bytes :=
  [46].intercalate ((beBytes 4 addr.toNat).map fun b => toDecimal b.toNat)

/-- A `UDPSink`, as far as it decides where the packets go. -/
structure UDPSink where
  clientIp : Bytes
  haveClient : Bool := false
  dest : SockaddrIn := {}
  deriving DecidableEq, Repr

namespace UDPSink

/-- `send`: where the packet goes. -/
def send (sink : UDPSink) : Option SockaddrIn := if sink.haveClient then some sink.dest else none

/-- What the listener does with what `recvfrom` returns; it goes on waiting after an empty
datagram. -/
def receive (sink : UDPSink) (source : SockaddrIn) (data : Bytes) : UDPSink :=
  if data.length ≤ 0 then sink
  else
    let first := !sink.haveClient
    let moved := !first && (sink.dest.addr ≠ source.addr || sink.dest.port ≠ source.port)
    if first || moved then { sink with dest := source, haveClient := true } else sink

/-- What `retarget` does with a sink: the listener is to discover the client again. -/
def forget (sink : UDPSink) : UDPSink := { sink with haveClient := false }

theorem send_forget (sink : UDPSink) : sink.forget.send = none := rfl

/-- A datagram from another address is followed, one from the same changes nothing. -/
theorem send_receive (sink : UDPSink) (source : SockaddrIn) (data : Bytes) :
    (sink.receive source data).send = if data = [] then sink.send else some source := by
  rw [receive]
  split_ifs with hlen hnil hnil
  · rfl
  · exact absurd (List.length_eq_zero_iff.mp (Nat.le_zero.mp hlen)) hnil
  · exact absurd (by rw [hnil]; exact le_rfl) hlen
  · dsimp only
    split_ifs with hfollow
    · rfl
    · obtain ⟨clientIp, haveClient, ⟨addr, port⟩⟩ := sink
      obtain ⟨addr', port'⟩ := source
      cases haveClient with
      | false => exact absurd rfl hfollow
      | true =>
        obtain ⟨rfl, rfl⟩ : addr = addr' ∧ port = port' := by simpa using hfollow
        rfl

end UDPSink

/-! ### The session -/

inductive Stream | video | audio
  deriving DecidableEq, Repr

/-- `video_sink_` and `audio_sink_`. -/
structure MediaSinks where
  video : UDPSink
  audio : UDPSink
  deriving DecidableEq, Repr

namespace MediaSinks

def sink (sinks : MediaSinks) : Stream → UDPSink
  | .video => sinks.video
  | .audio => sinks.audio

def modify (sinks : MediaSinks) (f : UDPSink → UDPSink) : Stream → MediaSinks
  | .video => { sinks with video := f sinks.video }
  | .audio => { sinks with audio := f sinks.audio }

/-- `retarget`, both sinks. -/
def retarget (sinks : MediaSinks) : MediaSinks where
  video := sinks.video.forget
  audio := sinks.audio.forget

theorem sink_modify (sinks : MediaSinks) (f : UDPSink → UDPSink) (stream stream' : Stream) :
    (sinks.modify f stream).sink stream' =
      if stream' = stream then f (sinks.sink stream') else sinks.sink stream' := by
  cases stream <;> cases stream' <;> rfl

theorem sink_retarget (sinks : MediaSinks) (stream : Stream) :
    sinks.retarget.sink stream = (sinks.sink stream).forget := by
  cases stream <;> rfl

end MediaSinks

/-- What happens to the sinks of a session, in the order in which it does. -/
inductive SinkEvent
  /-- A datagram arrives on the port of a stream. -/
  | datagram (stream : Stream) (source : SockaddrIn) (data : Bytes)
  /-- The pipeline of a stream hands over an RTP packet. -/
  | buffer (stream : Stream) (data : Bytes)
  | retarget
  deriving DecidableEq, Repr

/-- The sinks of a session that was started for a client. -/
def sinkSystem (clientIp : Bytes) : System MediaSinks SinkEvent where
  init := { video := { clientIp }, audio := { clientIp } }
  step sinks
    | .datagram stream source data =>
      some (sinks.modify (fun sink => sink.receive source data) stream)
    | .buffer _ _ => some sinks
    | .retarget => some sinks.retarget

/-! ### The last datagram -/

/-- The event decides where the packets of the stream go. -/
def SinkEvent.aims (stream : Stream) : SinkEvent → Bool
  | .datagram stream' _ data => stream' = stream && data ≠ []
  | .buffer _ _ => false
  | .retarget => true

theorem exists_run_sinks (clientIp : Bytes) (sinks : MediaSinks) (events : List SinkEvent) :
    ∃ sinks', (sinkSystem clientIp).run sinks events = some sinks' := by
  refine System.exists_run (fun sinks e => ?_) sinks events
  cases e <;> exact ⟨_, rfl⟩

/-- A datagram on the port of the stream from the address; an empty one is none. -/
def SinkEvent.IsFrom (stream : Stream) (source : SockaddrIn) (e : SinkEvent) : Prop :=
  ∃ data, data ≠ [] ∧ e = .datagram stream source data

/-- Where the packets of a stream go after one event. -/
theorem send_step {clientIp : Bytes} {sinks sinks' : MediaSinks} {e : SinkEvent} {stream : Stream}
    {target : SockaddrIn} (h : (sinkSystem clientIp).step sinks e = some sinks') :
    (sinks'.sink stream).send = some target ↔
      e.IsFrom stream target ∨ ¬ e.aims stream ∧ (sinks.sink stream).send = some target := by
  cases e with
  | datagram stream' source data =>
    obtain rfl := Option.some.inj h
    rw [MediaSinks.sink_modify]
    by_cases hstream : stream = stream'
    · subst hstream
      rw [if_pos rfl, UDPSink.send_receive]
      by_cases hdata : data = [] <;> simp [SinkEvent.IsFrom, SinkEvent.aims, hdata]
    · simp [SinkEvent.IsFrom, SinkEvent.aims, hstream, Ne.symm hstream]
  | buffer stream' data =>
    obtain rfl := Option.some.inj h
    simp [SinkEvent.IsFrom, SinkEvent.aims]
  | retarget =>
    obtain rfl := Option.some.inj h
    rw [MediaSinks.sink_retarget, UDPSink.send_forget]
    simp [SinkEvent.IsFrom, SinkEvent.aims]

/-- The packets of a stream go to the source of the last datagram on its port, unless `retarget`
has come after it. -/
theorem send_run_iff {clientIp : Bytes} {events : List SinkEvent} {sinks : MediaSinks}
    {stream : Stream} {target : SockaddrIn}
    (hrun : (sinkSystem clientIp).run (sinkSystem clientIp).init events = some sinks) :
    (sinks.sink stream).send = some target ↔
      Since (·.IsFrom stream target) (fun e => e.aims stream) events := by
  induction events using List.reverseRecOn generalizing sinks with
  | nil =>
    obtain rfl := Option.some.inj hrun
    refine iff_of_false ?_ not_since_nil
    cases stream <;> exact Option.some_ne_none target ∘ Eq.symm
  | append_singleton events e ih =>
    obtain ⟨t, ht, hstep⟩ := System.run_concat_eq_some.mp hrun
    rw [since_concat, ← ih ht, send_step hstep]

/-! ### The client of the session -/

/-- The address is the client's, or one that has shown the payload of the session in a ping, whose
first sixteen bytes it is. -/
def Trusted (clientIp rtpSecretPayload : Bytes) (events : List SinkEvent) (addr : UInt32) : Prop :=
  inetNtop addr = clientIp ∨
    ∃ stream source ping, .datagram stream source ping ∈ events ∧ source.addr = addr ∧
      ping.take 16 = rtpSecretPayload

/-- Each RTP packet is sent to the client. -/
def SendsToClient (clientIp rtpSecretPayload : Bytes) (events : List SinkEvent) : Prop :=
  ∀ before stream data after sinks target, events = before ++ .buffer stream data :: after →
    (sinkSystem clientIp).run (sinkSystem clientIp).init before = some sinks →
    (sinks.sink stream).send = some target →
    Trusted clientIp rtpSecretPayload before target.addr

/-- The datagrams that are the last on their port before a packet come from the client. -/
def AimedByClient (clientIp rtpSecretPayload : Bytes) (events : List SinkEvent) : Prop :=
  ∀ before stream data after source, events = before ++ .buffer stream data :: after →
    Since (·.IsFrom stream source) (fun e => e.aims stream) before →
    Trusted clientIp rtpSecretPayload before source.addr

/-- **RTP goes to the client** exactly if it is the client that determines where it goes. -/
theorem sendsToClient_iff {clientIp rtpSecretPayload : Bytes} {events : List SinkEvent} :
    SendsToClient clientIp rtpSecretPayload events ↔
      AimedByClient clientIp rtpSecretPayload events := by
  constructor
  · intro hsends before stream data after source hevents hlast
    obtain ⟨sinks, hrun⟩ := exists_run_sinks clientIp (sinkSystem clientIp).init before
    exact hsends before stream data after sinks source hevents hrun ((send_run_iff hrun).mpr hlast)
  · intro haimed before stream data after sinks target hevents hrun hsend
    exact haimed before stream data after target hevents ((send_run_iff hrun).mp hsend)

/-- A stranger sends a byte to the video port before the first packet. -/
def strangersDatagram : List SinkEvent :=
  [.datagram .video ⟨0x0a000009, 40000⟩ [0], .buffer .video [128]]

/-- The packet goes to the stranger. -/
theorem not_sendsToClient_strangersDatagram :
    ¬ SendsToClient (ascii "192.168.1.20") (ascii "0123456789abcdef") strangersDatagram := by
  intro hsends
  rcases hsends [.datagram .video ⟨0x0a000009, 40000⟩ [0]] .video [128] [] _ ⟨0x0a000009, 40000⟩ rfl
    rfl rfl with hip | ⟨stream, source, ping, hmem, -, hping⟩
  · exact absurd hip (by decide +kernel)
  · rw [List.mem_singleton, SinkEvent.datagram.injEq] at hmem
    rw [hmem.2.2] at hping
    exact absurd hping (by decide)

end SteamStream.Media
