import SteamStream.Video.FecBlock

/-!
# The advertised FEC percentage

A receiver is not told how many parity packets a block has: it applies the sender's formula to the
percentage in `fecInfo`. The formula rounds up. A block that is raised to the required number of
parity packets advertises the percentage of that number instead, rounded down, and in eight bits.
So the two sides agree on every block that is not raised, and on a raised one exactly if its
percentage is below 256 and rounding it down costs less than one packet (`advertisesParity_iff`).
-/

namespace SteamStream.Video

open Wire

/-- The number of parity packets a percentage stands for: `(data_shards * percentage + 99) / 100`. -/
def parityOf (dataShards percentage : ℕ) : ℕ := (dataShards * percentage + 99) / 100

/-- The block of `n` data packets tells its receivers how many parity packets it has: what is packed
into `fecInfo` reads back, and the percentage stands for the parity packets there are. -/
def AdvertisesParity (pay : GstRtpMoonlightPayVideo) (n : ℕ) : Prop :=
  ∃ blocks, determineSplit pay n = some blocks ∧ blocks.fecPercentage < 256 ∧
    (∀ bs : Bytes, videoRtpHeadersSize ≤ bs.length → ∀ b l o,
      ∀ shardIdx < blocks.dataShards + blocks.parityShards,
        let p : Packet := ⟨updateFecInfo pay bs shardIdx blocks.dataShards blocks.fecPercentage b l, o⟩
        p.shard = shardIdx ∧ p.dataShards = blocks.dataShards ∧ p.percentage = blocks.fecPercentage) ∧
    parityOf blocks.dataShards blocks.fecPercentage = blocks.parityShards

/-- The block has fewer parity packets than required by its percentage alone. -/
def RaisesParity (pay : GstRtpMoonlightPayVideo) (n : ℕ) : Prop :=
  parityOf n pay.fecPercentage < pay.minRequiredFecPackets

section Split

variable {pay : GstRtpMoonlightPayVideo} {n : ℕ}

theorem blockPercentage_of_raises (h : RaisesParity pay n) :
    blockPercentage pay n = 100 * pay.minRequiredFecPackets / n := if_pos h

theorem blockPercentage_of_not_raises (h : ¬ RaisesParity pay n) :
    blockPercentage pay n = pay.fecPercentage := if_neg h

theorem parityShards_of_raises (h : RaisesParity pay n) :
    parityShards pay n = pay.minRequiredFecPackets := max_eq_right h.le

theorem parityShards_of_not_raises (h : ¬ RaisesParity pay n) :
    parityShards pay n = parityOf n pay.fecPercentage := max_eq_left (not_lt.mp h)

/-- Rounding the percentage down and the packets up gives back the packets when less than one packet,
a hundred of its percents, is lost in between. -/
theorem parityOf_div_iff {m : ℕ} :
    parityOf n (100 * m / n) = m ↔ 100 * m % n < 100 := by
  have hdiv : n * (100 * m / n) + 100 * m % n = 100 * m := Nat.div_add_mod ..
  rw [parityOf, Nat.div_eq_iff (by decide)]
  omega

/-- What is packed reads back when it fits its fields. -/
theorem fecInfo_updateFecInfo_reads {bs : Bytes} {s d pct b l : ℕ} {o : Origin}
    (hhdr : videoRtpHeadersSize ≤ bs.length) (hs : s < 1024) (hd : d < 1024) (hpct : pct < 256) :
    Packet.shard ⟨updateFecInfo pay bs s d pct b l, o⟩ = s ∧
      Packet.dataShards ⟨updateFecInfo pay bs s d pct b l, o⟩ = d ∧
      Packet.percentage ⟨updateFecInfo pay bs s d pct b l, o⟩ = pct := by
  rw [shard_updateFecInfo hhdr hpct, dataShards_updateFecInfo hhdr hpct hs,
    percentage_updateFecInfo hhdr, Nat.mod_eq_of_lt hs, Nat.mod_eq_of_lt hd, Nat.mod_eq_of_lt hpct]
  exact ⟨rfl, rfl, rfl⟩

/-- Within the limit on the shards, the packing loses nothing but from the percentage. -/
theorem advertisesParity_iff_blockPercentage (hn : 0 < n) (hshards : n + parityShards pay n ≤ 255) :
    AdvertisesParity pay n ↔ blockPercentage pay n < 256 ∧
      parityOf n (blockPercentage pay n) = parityShards pay n := by
  rw [AdvertisesParity, determineSplit_eq hn]
  constructor
  · rintro ⟨blocks, hblocks, hfits, -, hparity⟩
    obtain rfl := Option.some.inj hblocks
    exact ⟨hfits, hparity⟩
  · rintro ⟨hfits, hparity⟩
    refine ⟨_, rfl, hfits, ?_, hparity⟩
    intro bs hhdr b l o shardIdx hidx
    exact fecInfo_updateFecInfo_reads hhdr (by dsimp only at hidx; omega) (by dsimp only; omega) hfits

/-- Without data packets there is nothing to advertise, unless parity is required: then the split
divides by zero. -/
theorem advertisesParity_zero : AdvertisesParity pay 0 ↔ ¬ RaisesParity pay 0 := by
  have hpct := pay.fecPercentage_le
  constructor
  · rintro ⟨blocks, hblocks, -⟩ hraise
    rw [determineSplit] at hblocks
    simp only [if_pos (show (0 * pay.fecPercentage + 99) / 100 < _ from hraise)] at hblocks
    cases hblocks
  · intro h
    refine ⟨_, if_neg h, by dsimp only; omega, ?_, rfl⟩
    intro bs _ b l o shardIdx hidx
    dsimp only at hidx
    omega

/-- **The advertised percentage determines the parity packets** of every block that is not raised to
the required number, and of a raised one exactly if its percentage fits eight bits and rounding it
down costs less than one packet. -/
theorem advertisesParity_iff (hshards : n + parityShards pay n ≤ 255) :
    AdvertisesParity pay n ↔ (RaisesParity pay n →
      100 * pay.minRequiredFecPackets < 256 * n ∧ 100 * pay.minRequiredFecPackets % n < 100) := by
  rcases Nat.eq_zero_or_pos n with rfl | hn
  · rw [advertisesParity_zero]
    exact ⟨fun h hraise => absurd hraise h, fun h hraise => absurd (h hraise).1 (by omega)⟩
  rw [advertisesParity_iff_blockPercentage hn hshards]
  by_cases hraise : RaisesParity pay n
  · rw [blockPercentage_of_raises hraise, parityShards_of_raises hraise, parityOf_div_iff,
      Nat.div_lt_iff_lt_mul hn]
    exact ⟨fun h _ => h, fun h => h hraise⟩
  · have hpct := pay.fecPercentage_le
    rw [blockPercentage_of_not_raises hraise, parityShards_of_not_raises hraise]
    exact ⟨fun _ h => absurd h hraise, fun _ => ⟨by omega, rfl⟩⟩

end Split

/-- A fresh element that requires three parity packets. -/
def GstRtpMoonlightPayVideo.requiringThree : GstRtpMoonlightPayVideo :=
  { GstRtpMoonlightPayVideo.init with
    minRequiredFecPackets := 3
    minRequiredFecPackets_le := by decide }

/-- A frame of one packet is raised to three parity packets, 300 percent: more than eight bits hold. -/
theorem not_advertisesParity_requiringThree : ¬ AdvertisesParity .requiringThree 1 := by
  rintro ⟨blocks, hblocks, hfits, -⟩
  obtain rfl := Option.some.inj hblocks
  exact absurd hfits (by decide)

/-- With two required, the default, a frame of one packet is raised to 200 percent. -/
theorem advertisesParity_init : AdvertisesParity .init 1 :=
  (advertisesParity_iff (by decide)).mpr fun _ => by decide

end SteamStream.Video
