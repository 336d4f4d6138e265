import SteamStream.Rtsp.Commands
import SteamStream.Rtsp.Receive

/-!
# The bitrate budget

A client that names the bitrate it is configured for gets the video at what is left of it when FEC,
the audio and an overhead have been taken off. `Budget` keeps these amounts apart. What it says of
them does not depend on how the quotient for FEC is rounded: `LeavesFec` is all that is asked of it,
and the exact quotient has it as well as the one in single precision.

The product for the audio is taken in `int` before it is widened, and nothing looks at the number of
channels it is taken of. `announce_kept_iff` says for which numbers the budget is kept.
-/

namespace SteamStream.Rtsp

open Wire CText Session

/-! ### The amounts -/

/-- What `announce` computes from a configured bitrate. -/
structure Budget where
  configured : ℤ
  /-- What FEC leaves. -/
  withoutFec : ℤ
  /-- The product for the audio, as a number. -/
  product : ℤ
  audio : ℤ
  overhead : ℤ
  deriving DecidableEq, Repr

namespace Budget

/-- What is left for the video. -/
def left (budget : Budget) : ℤ := budget.withoutFec - budget.audio - budget.overhead

/-- The values of type `long`. -/
def longs (budget : Budget) : List ℤ :=
  [budget.configured, budget.withoutFec, budget.withoutFec.tdiv 5, budget.audio,
    budget.withoutFec - budget.audio, (budget.withoutFec - budget.audio).tdiv 10,
    budget.overhead, budget.left]

/-- The values fit their types, no amount is negative, and what is left is between 1 and what was
configured. -/
structure Kept (budget : Budget) : Prop where
  int : -2 ^ 31 ≤ budget.product ∧ budget.product < 2 ^ 31
  long : ∀ v ∈ budget.longs, -2 ^ 63 ≤ v ∧ v < 2 ^ 63
  fec_nonneg : 0 ≤ budget.configured - budget.withoutFec
  audio_nonneg : 0 ≤ budget.audio
  overhead_nonneg : 0 ≤ budget.overhead
  one_le : 1 ≤ budget.left
  le_configured : budget.left ≤ budget.configured

end Budget

/-- The budget of a configured bitrate, by the quotient that is taken for FEC. -/
def budget (quotient : ℤ → ℤ) (bitrate channels : ℤ) : Budget :=
  let audio := min (toInt32 (96 * channels)) ((quotient bitrate).tdiv 5)
  { configured := bitrate
    withoutFec := quotient bitrate
    product := 96 * channels
    audio := audio
    overhead := min 500 ((quotient bitrate - audio).tdiv 10) }

/-- What `announce` captures is what its budget leaves. -/
theorem configuredBitrate_eq (bitrate channels : ℤ) :
    configuredBitrate bitrate channels = (budget withoutFec bitrate channels).left := rfl

/-! ### The quotient for FEC -/

/-- The bitrate without what FEC takes of it, by an exact division. -/
def withoutFecExact (bitrate : ℤ) : ℤ :=
  if fecPercentage ≤ 80 then truncate (bitrate / (100 / (100 - fecPercentage))) else bitrate

/-- A quotient that leaves something of every bitrate but 1, and no more than there was. -/
structure LeavesFec (quotient : ℤ → ℤ) : Prop where
  one : quotient 1 = 0
  pos {bitrate : ℤ} (h : 2 ≤ bitrate) : 1 ≤ quotient bitrate
  le {bitrate : ℤ} (h : 1 ≤ bitrate) : quotient bitrate ≤ bitrate

theorem truncate_of_nonneg {x : ℚ} (h : 0 ≤ x) : truncate x = ⌊x⌋ := by
  rw [truncate, Int.tdiv_eq_ediv_of_nonneg (Rat.num_nonneg.mpr h), Rat.floor_def']

/-- A truncated number is such a quotient if the number is in bounds. -/
theorem LeavesFec.of_truncate {quotient : ℤ → ℤ} {f : ℤ → ℚ}
    (hquotient : ∀ bitrate, quotient bitrate = truncate (f bitrate))
    (hone : 0 ≤ f 1 ∧ f 1 < 1) (hpos : ∀ bitrate : ℤ, 2 ≤ bitrate → 1 ≤ f bitrate)
    (hle : ∀ bitrate : ℤ, 1 ≤ bitrate → f bitrate ≤ bitrate) : LeavesFec quotient where
  one := by
    rw [hquotient, truncate_of_nonneg hone.1]
    exact Int.floor_eq_zero_iff.mpr hone
  pos {bitrate} h := by
    have hf := hpos bitrate h
    rw [hquotient, truncate_of_nonneg (zero_le_one.trans hf)]
    exact Int.le_floor.mpr (by exact_mod_cast hf)
  le {bitrate} h := by
    have hf : 0 ≤ f bitrate := by
      rcases h.eq_or_lt with rfl | hlt
      · exact hone.1
      · exact zero_le_one.trans (hpos bitrate hlt)
    rw [hquotient, truncate_of_nonneg hf]
    exact_mod_cast (Int.floor_le (f bitrate)).trans (hle bitrate h)

theorem leavesFec_exact : LeavesFec withoutFecExact := by
  have hquotient : ∀ bitrate : ℤ, withoutFecExact bitrate = truncate ((bitrate : ℚ) / (5 / 4)) := by
    intro bitrate
    norm_num [withoutFecExact, fecPercentage]
  refine .of_truncate hquotient (by norm_num) (fun bitrate h => ?_) fun bitrate h => ?_
  · have hq : (2 : ℚ) ≤ bitrate := by exact_mod_cast h
    linarith
  · have hq : (1 : ℚ) ≤ bitrate := by exact_mod_cast h
    linarith

private theorem float_natCast {n : ℕ} (h : n ≤ 2 ^ 24) : float n = n :=
  BinaryFloat.round_natCast (by decide) h

/-- The divisor is a number of single precision. -/
private theorem float_divisor : float (float 100 / float (100 - fecPercentage)) = 5 / 4 := by
  have hlog : Int.log 2 |(5 / 4 : ℚ)| = 0 := by
    have hfloor : ⌊(5 / 4 : ℚ)⌋₊ = 1 := (Nat.floor_eq_iff (by norm_num)).mpr (by norm_num)
    rw [abs_of_pos (by norm_num), Int.log_of_one_le_right _ (by norm_num), hfloor]
    rfl
  have hulp : (5 / 4 : ℚ) = (5 * 2 ^ 21 : ℤ) * BinaryFloat.ulp 24 (5 / 4) := by
    rw [BinaryFloat.ulp, hlog]
    norm_num
  have hhundred : float 100 = 100 := float_natCast (n := 100) (by decide)
  have heighty : float (100 - fecPercentage) = 80 := by
    norm_num [fecPercentage]
    exact float_natCast (n := 80) (by decide)
  rw [hhundred, heighty, show (100 / 80 : ℚ) = 5 / 4 by norm_num]
  exact BinaryFloat.round_eq_self hulp

theorem leavesFec_float : LeavesFec withoutFec := by
  have hquotient : ∀ bitrate : ℤ,
      withoutFec bitrate = truncate (float (float bitrate / (5 / 4))) := by
    intro bitrate
    rw [withoutFec, if_pos (by decide), float_divisor]
  have hfloat : ∀ {n : ℕ} {x : ℚ}, n ≤ 2 ^ 24 → n ≤ x → n ≤ float x := fun {n x} hn hx =>
    (float_natCast hn).ge.trans (BinaryFloat.round_mono (by decide) (by positivity) hx)
  refine .of_truncate hquotient ?_ (fun bitrate h => ?_) fun bitrate h => ?_
  · have hdividend : float (1 : ℤ) = 1 := mod_cast float_natCast (n := 1) (by decide)
    have hround : float (1 / (5 / 4)) ≤ 1 / (5 / 4) + 1 / (5 / 4) / 2 ^ 24 :=
      BinaryFloat.round_le (by norm_num)
    rw [hdividend]
    exact ⟨BinaryFloat.round_nonneg (by decide) (by norm_num), hround.trans_lt (by norm_num)⟩
  · -- the quotient of 2 is above 1, which is a number of single precision
    have htwo : (2 : ℚ) ≤ float bitrate :=
      mod_cast hfloat (n := 2) (by decide) (by exact_mod_cast h)
    exact mod_cast hfloat (n := 1) (by decide) (by push_cast; linarith)
  · -- the two roundings together add less than the quotient takes off
    have hq : (1 : ℚ) ≤ bitrate := by exact_mod_cast h
    have hdividend : float bitrate ≤ bitrate + bitrate / 2 ^ 24 :=
      BinaryFloat.round_le (by linarith)
    have hpos : 0 < float bitrate := BinaryFloat.round_pos (by decide) (by linarith)
    have hround : float (float bitrate / (5 / 4)) ≤
        float bitrate / (5 / 4) + float bitrate / (5 / 4) / 2 ^ 24 :=
      BinaryFloat.round_le (by positivity)
    linarith

/-! ### When the budget is kept -/

theorem toInt32_eq_self {v : ℤ} (h : -2 ^ 31 ≤ v ∧ v < 2 ^ 31) : toInt32 v = v := by
  unfold toInt32
  omega

/-- What is set aside is not negative, and leaves something, if it is at most a part of what there
is. -/
private theorem setAside_bounds {total : ℤ} (amount parts : ℤ) (hamount : 0 ≤ amount)
    (htotal : 1 ≤ total) (hparts : 2 ≤ parts) :
    0 ≤ total.tdiv parts ∧ total.tdiv parts ≤ total ∧ 0 ≤ min amount (total.tdiv parts) ∧
      1 ≤ total - min amount (total.tdiv parts) := by
  have hnonneg : 0 ≤ total.tdiv parts := Int.tdiv_nonneg (by omega) (by omega)
  have hlt : total.tdiv parts < total := by
    rw [Int.tdiv_eq_ediv_of_nonneg (by omega)]
    exact Int.ediv_lt_self_of_pos_of_ne_one (by omega) (by omega)
  omega

/-- The budget is kept by every bitrate but 1, for as many channels as the product has room for. -/
theorem budget_kept_iff {quotient : ℤ → ℤ} (hquotient : LeavesFec quotient) {bitrate : ℤ}
    (channels : ℤ) (hone : 1 ≤ bitrate) (hint : bitrate < 2 ^ 31) :
    (budget quotient bitrate channels).Kept ↔
      2 ≤ bitrate ∧ 0 ≤ channels ∧ channels ≤ 22369621 := by
  constructor
  · rintro ⟨hproduct, -, -, haudio, -, hleft, -⟩
    dsimp only [budget, Budget.left] at hproduct haudio hleft
    rw [toInt32_eq_self hproduct] at haudio hleft
    have hchannels : 0 ≤ channels := by omega
    refine ⟨?_, hchannels, by omega⟩
    by_contra hlt
    -- of a bitrate of 1 nothing is left once FEC is off
    obtain rfl : bitrate = 1 := by omega
    rw [hquotient.one, Int.zero_tdiv, min_eq_right (by omega), sub_zero, Int.zero_tdiv] at hleft
    omega
  · rintro ⟨htwo, hnonneg, hmax⟩
    have hproduct : -2 ^ 31 ≤ 96 * channels ∧ 96 * channels < 2 ^ 31 := by omega
    have hpos := hquotient.pos htwo
    have hle := hquotient.le hone
    obtain ⟨hfifth, hfifthLe, haudio, hleft⟩ :=
      setAside_bounds (96 * channels) 5 (by omega) hpos (by decide)
    obtain ⟨htenth, htenthLe, hoverhead, hrest⟩ :=
      setAside_bounds 500 10 (by decide) hleft (by decide)
    rw [budget, toInt32_eq_self hproduct]
    generalize min (96 * channels) ((quotient bitrate).tdiv 5) = audio at *
    generalize min 500 ((quotient bitrate - audio).tdiv 10) = overhead at *
    refine ⟨hproduct, fun v hv => ?_, by dsimp only; omega, haudio, hoverhead, hrest,
      by dsimp only [Budget.left]; omega⟩
    -- every value is one of the amounts, or what they leave
    have hv' : 0 ≤ v ∧ v ≤ bitrate := by
      simp only [Budget.longs, Budget.left, List.mem_cons, List.not_mem_nil, or_false] at hv
      rcases hv with rfl | rfl | rfl | rfl | rfl | rfl | rfl | rfl <;> omega
    omega

/-- A negative number of channels adds to the bitrate, which is then still in bounds only as long as
the overhead takes as much off again. -/
theorem left_bounds_iff_of_neg {quotient : ℤ → ℤ} (hquotient : LeavesFec quotient)
    {bitrate channels : ℤ} (hone : 1 ≤ bitrate) (hneg : channels < 0)
    (hint : -2 ^ 31 ≤ 96 * channels) :
    (1 ≤ (budget quotient bitrate channels).left ∧
      (budget quotient bitrate channels).left ≤ bitrate) ↔
    quotient bitrate - 96 * channels ≤ bitrate + 500 ∧
      9 * (quotient bitrate - 96 * channels) ≤ 10 * bitrate := by
  have hnonneg : 0 ≤ quotient bitrate := by
    rcases hone.eq_or_lt with rfl | hlt
    · exact hquotient.one.ge
    · exact zero_le_one.trans (hquotient.pos hlt)
  have hfifth : 0 ≤ (quotient bitrate).tdiv 5 := Int.tdiv_nonneg hnonneg (by decide)
  have haudio : min (96 * channels) ((quotient bitrate).tdiv 5) = 96 * channels := by omega
  rw [budget, toInt32_eq_self ⟨hint, by omega⟩]
  dsimp only [Budget.left]
  rw [haudio, Int.tdiv_eq_ediv_of_nonneg (by omega)]
  omega

/-! ### The numbers of a request -/

theorem parseArgLine_bounds (line : Bytes × Bytes) :
    ∀ n ∈ (parseArgLine line).2, -2 ^ 31 ≤ n ∧ n < 2 ^ 31 := by
  intro n hn
  unfold parseArgLine at hn
  split at hn
  · cases hn
  · exact stoi_bounds hn

/-- A number of a request is one of type `int`. -/
theorem number?_bounds {req : RtspPacket} {k : String} {v : ℤ} (h : number? req k = some v) :
    -2 ^ 31 ≤ v ∧ v < 2 ^ 31 := by
  have hargs : ∀ e ∈ (args req).entries, True ∧ ∀ n ∈ e.2, -2 ^ 31 ≤ n ∧ n < 2 ^ 31 := by
    refine List.foldlRecOn (motive := fun args : SortedMap Bytes (Option ℤ) =>
      ∀ e ∈ args.entries, True ∧ ∀ n ∈ e.2, -2 ^ 31 ≤ n ∧ n < 2 ^ 31) _ _ (List.forall_mem_nil _) ?_
    intro args hargs line _
    split_ifs
    · exact SortedMap.forall_mem_insert (K := fun _ => True)
        (V := fun v : Option ℤ => ∀ n ∈ v, -2 ^ 31 ≤ n ∧ n < 2 ^ 31) hargs trivial
        (parseArgLine_bounds line)
    · exact hargs
  obtain ⟨e, he, hv⟩ := Option.map_eq_some_iff.mp (Option.join_eq_some_iff.mp h)
  exact (hargs e (List.mem_of_find?_eq_some he)).2 v hv

/-- An `ANNOUNCE` with a configured bitrate keeps the budget if it is not 1 and the number of
channels is one the product has room for; it makes no difference whether the division for FEC is
exact. What is captured is what the budget leaves. -/
theorem announce_kept_iff {req : RtspPacket} {bitrate : ℤ} (s : StreamSession)
    (hbitrate : number? req "x-ml-video.configuredBitrateKbps" = some bitrate)
    (hone : 1 ≤ bitrate) :
    ((budget withoutFecExact bitrate (audioChannels req s)).Kept ↔
      2 ≤ bitrate ∧ 0 ≤ audioChannels req s ∧ audioChannels req s ≤ 22369621) ∧
    ((budget withoutFec bitrate (audioChannels req s)).Kept ↔
      2 ≤ bitrate ∧ 0 ≤ audioChannels req s ∧ audioChannels req s ≤ 22369621) ∧
    (announce req s).2.video.bitrateKbps =
      (budget withoutFec bitrate (audioChannels req s)).left := by
  have hint := (number?_bounds hbitrate).2
  refine ⟨budget_kept_iff leavesFec_exact _ hone hint, budget_kept_iff leavesFec_float _ hone hint,
    ?_⟩
  change bitrateKbps req s = _
  rw [bitrateKbps, hbitrate]
  exact configuredBitrate_eq bitrate _

/-- The attributes of an `ANNOUNCE` for a bitrate and a number of channels. -/
def announced (bitrate channels : String) : RtspPacket where
  request.cmd := ascii "ANNOUNCE"
  payloads := [(ascii "a", ascii "x-ml-video.configuredBitrateKbps:" ++ ascii bitrate),
    (ascii "a", ascii "x-nv-audio.surround.numChannels:" ++ ascii channels)]

/-- A budget that is kept, and one that is not for the product alone. -/
theorem announce_kept_iff_surround :
    (budget withoutFecExact 10000 6).Kept ∧ ¬ (budget withoutFecExact 10000 30000000).Kept := by
  have hsix : number? (announced "10000" "6") "x-ml-video.configuredBitrateKbps" = some 10000 := by
    decide
  have hmany : number? (announced "10000" "30000000") "x-ml-video.configuredBitrateKbps" =
      some 10000 := by decide
  refine ⟨(announce_kept_iff {} hsix (by decide)).1.mpr (by decide), fun h => ?_⟩
  exact absurd ((announce_kept_iff {} hmany (by decide)).1.mp h) (by decide)

/-- For -100 channels, more is left than was configured. -/
theorem not_kept_negative_channels :
    number? (announced "10000" "-100") "x-ml-video.configuredBitrateKbps" = some 10000 ∧
    audioChannels (announced "10000" "-100") {} = -100 ∧
    (budget withoutFecExact 10000 (-100)).left = 17100 ∧
    ¬ (budget withoutFecExact 10000 (-100)).Kept := by
  have hfec : withoutFecExact 10000 = 8000 := by
    rw [withoutFecExact, if_pos (by decide), truncate_of_nonneg (by norm_num [fecPercentage])]
    norm_num [fecPercentage]
  have hleft : (budget withoutFecExact 10000 (-100)).left = 17100 := by
    rw [budget, hfec]
    decide
  refine ⟨by decide, by decide, hleft, fun h => ?_⟩
  have hle := h.le_configured
  rw [hleft] at hle
  exact absurd hle (by decide)

end SteamStream.Rtsp
