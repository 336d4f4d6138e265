import SteamStream.Audio.FecBlock

/-!
# The audio RTP clock

The timestamp of a data packet is the product of its sequence number and the packet duration, and
the sequence number has sixteen bits. So the clock advances by one duration per packet up to the
packet numbered 65535, and the next one carries the timestamp zero again: after five and a half
minutes of packets of five milliseconds.
-/

namespace SteamStream.Audio

open Wire

/-- From each data packet to the next the timestamp, a 32-bit number, advances by the duration of
a packet. -/
def SteadyClock (duration : ℕ) (lists : List (List Bytes)) : Prop :=
  ∀ i, i + 1 < lists.length →
    time (dataPacket lists (i + 1)) = (time (dataPacket lists i) + duration) % 2 ^ 32

/-- The event is the arrival of a packet. -/
def PayEvent.isPacket : PayEvent → Bool
  | .generateOutput _ => true
  | .setAesKey _ | .setAesIv _ => false

section Clock

variable {cipher : Cipher} {memory : PacketsBuffer} {props : Properties} {events : List PayEvent}
  {pay start : GstRtpMoonlightPayAudio} {lists : List (List Bytes)} {duration : ℕ}

/-- Up to the wrap of the sequence number the clock is steady, and at the wrap it is not. -/
theorem Tracks.steadyClock_iff (h : Tracks duration pay lists) (hduration : duration ≤ 60) :
    SteadyClock duration lists ↔ lists.length ≤ 2 ^ 16 ∨ duration = 0 := by
  constructor
  · intro hsteady
    by_contra hlong
    obtain ⟨hlong, hpositive⟩ := not_or.mp hlong
    -- the packets numbered 65535 and 0
    have hwrap := hsteady (2 ^ 16 - 1) (by omega)
    rw [h.time _ (by omega), h.time _ (by omega)] at hwrap
    omega
  · intro hcase i hi
    rw [h.time _ hi, h.time _ (by omega)]
    rcases hcase with hshort | rfl
    · rw [Nat.mod_eq_of_lt (by omega : i + 1 < 2 ^ 16), Nat.mod_eq_of_lt (by omega : i < 2 ^ 16),
        ← Nat.succ_mul]
      have hmul : (i + 1) * duration ≤ 2 ^ 16 * 60 := Nat.mul_le_mul (by omega) hduration
      exact (Nat.mod_eq_of_lt (by omega)).symm
    · rfl

/-- A run that comes to its end pushes one list for every packet. -/
theorem length_pushed {pay' : GstRtpMoonlightPayAudio}
    (hrun : (payloader cipher (.start memory props)).run (.start memory props) events =
      some pay') : (pushed cipher memory props events).length = events.countP PayEvent.isPacket := by
  refine Runs.System.length_outputs (fun {pay event pay'} hstep => ?_) hrun
  cases event with
  | setAesKey value => rfl
  | setAesIv value => rfl
  | generateOutput inbuf =>
    obtain ⟨⟨_, list⟩, hsplit, -⟩ := Option.map_eq_some_iff.mp hstep
    simp [pushList, hsplit, PayEvent.isPacket]

/-- **The audio clock jumps at the wrap of the sequence number.** In every run of a new element
that comes to its end, the clock is steady exactly if the sequence number has not wrapped. -/
theorem pushed_steadyClock_iff {pay' : GstRtpMoonlightPayAudio}
    (hrun : (payloader cipher (.start memory props)).run (.start memory props) events =
      some pay') :
    SteadyClock props.packetDuration (pushed cipher memory props events) ↔
      events.countP PayEvent.isPacket ≤ 2 ^ 16 ∨ props.packetDuration = 0 := by
  obtain ⟨pay, htracks, -⟩ := @exists_tracks_pushed cipher memory props events
  rw [htracks.steadyClock_iff props.packetDuration_le, length_pushed hrun]

/-- Packets that are not encrypted and fit their buffers keep the element running. -/
theorem exists_run_plain {inbuf : Bytes} (hpay : pay.encrypt = false)
    (hfit : inbuf.length + rtpHeaderSize ≤ audioMaxBlockSize) (n : ℕ) :
    ∃ pay', (payloader cipher start).run pay (List.replicate n (.generateOutput inbuf)) =
      some pay' := by
  induction n generalizing pay with
  | zero => exact ⟨pay, rfl⟩
  | succ n ih =>
    have hlen : (createRtpHeader pay ++ inbuf).length ≤ audioMaxBlockSize := by
      rwa [List.length_append, length_createRtpHeader, Nat.add_comm]
    obtain ⟨next, hnext, hplain⟩ : ∃ next, (payloader cipher start).step pay
        (.generateOutput inbuf) = some next ∧ next.encrypt = false := by
      simp only [payloader, splitIntoRtp, createRtpAudioBuffer, hpay, Bool.false_eq_true, if_false,
        Option.bind_some, pushRtp, dif_pos hlen, Option.map_some]
      exact ⟨_, rfl, rfl⟩
    obtain ⟨pay', hrun⟩ := ih hplain
    exact ⟨pay', (Runs.System.run_cons_of_step hnext).trans hrun⟩

end Clock

/-- Three plain packets: two steps of the clock. -/
theorem steadyClock_threePackets :
    SteadyClock 5 (pushed unusedCipher .zero plainProperties
      (List.replicate 3 (.generateOutput [0xf8, 0xff, 0xfe]))) ↔
    (List.replicate 3 (PayEvent.generateOutput [0xf8, 0xff, 0xfe])).countP PayEvent.isPacket ≤
      2 ^ 16 ∨ 5 = 0 :=
  pushed_steadyClock_iff (exists_run_plain rfl (by decide) 3).choose_spec

/-- The packet after the wrap: the timestamps go from 327675 to 0. -/
theorem not_steadyClock_wrap : ¬ SteadyClock 5 (pushed unusedCipher .zero plainProperties
    (List.replicate (2 ^ 16 + 1) (.generateOutput [0xf8, 0xff, 0xfe]))) := by
  obtain ⟨pay, htracks, -⟩ := @exists_tracks_pushed unusedCipher .zero plainProperties
    (List.replicate (2 ^ 16 + 1) (.generateOutput [0xf8, 0xff, 0xfe]))
  obtain ⟨pay', hrun⟩ := @exists_run_plain unusedCipher (.start .zero plainProperties)
    (.start .zero plainProperties) [0xf8, 0xff, 0xfe] rfl (by decide) (2 ^ 16 + 1)
  have hlength := length_pushed hrun
  rw [List.countP_replicate, if_pos (by rfl)] at hlength
  intro hsteady
  rcases (htracks.steadyClock_iff plainProperties.packetDuration_le).mp hsteady with hshort | hzero
  · omega
  · exact absurd hzero (by decide)

end SteamStream.Audio
