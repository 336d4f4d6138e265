import SteamStream.Rtsp.Commands

/-!
# Renegotiation

A client that resumes sends `ANNOUNCE` again. What the new parameters are depends on the numbers
the request gives for its attributes and on what the session was launched with, and on nothing an
earlier `ANNOUNCE` captured. The numbers are kept in a map, so the lines that give them can come in
any order as long as no two of them are about the same attribute.
-/

namespace SteamStream.Rtsp

open Wire Session

/-- The lines of a request that give attributes. -/
def attributeLines (req : RtspPacket) : List (Bytes × Bytes) :=
  req.payloads.filter fun line => line.1 = ascii "a"

/-- The part of a line before the first colon. -/
def attributeName (line : Bytes × Bytes) : Bytes := line.2.takeWhile (· ≠ 58)

theorem parseArgLine_fst (line : Bytes × Bytes) : (parseArgLine line).1 = attributeName line := by
  have happend : attributeName line ++ line.2.dropWhile (· ≠ 58) = line.2 :=
    List.takeWhile_append_dropWhile
  unfold parseArgLine
  split
  · -- without a colon the name is the whole line
    rename_i hcolon
    rw [hcolon, List.append_nil] at happend
    exact happend.symm
  · rfl

/-- Only the lines that give attributes count, one assignment each. -/
theorem args_eq_foldl (req : RtspPacket) :
    args req = ((attributeLines req).map parseArgLine).foldl
      (fun args e => args.insert e.1 e.2) ∅ := by
  rw [List.foldl_map, attributeLines, List.foldl_filter, args]
  simp only [decide_eq_true_eq]

/-- Lines about different attributes can be read in any order. -/
theorem args_eq_of_perm {req req' : RtspPacket}
    (hperm : (attributeLines req).Perm (attributeLines req'))
    (hnames : ((attributeLines req).map attributeName).Nodup) : args req = args req' := by
  have hkeys : (((attributeLines req).map parseArgLine).map Prod.fst).Nodup := by
    rw [List.map_map]
    convert hnames using 2
    funext line
    exact parseArgLine_fst line
  rw [args_eq_foldl, args_eq_foldl]
  exact SortedMap.foldl_insert_perm (hperm.map parseArgLine) hkeys ∅

/-- The sessions were launched with the same picture and the same number of audio channels. -/
structure SameLaunch (s s' : StreamSession) : Prop where
  clientWidth : s.clientWidth = s'.clientWidth
  clientHeight : s.clientHeight = s'.clientHeight
  clientFps : s.clientFps = s'.clientFps
  audioChannelCount : s.audioChannelCount = s'.audioChannelCount

/-- An `ANNOUNCE` keeps what the session was launched with. -/
theorem sameLaunch_announce (req : RtspPacket) (s : StreamSession) :
    SameLaunch (announce req s).2 s := ⟨rfl, rfl, rfl, rfl⟩

section Captured

variable {req req' : RtspPacket} {s s' : StreamSession}

theorem number?_congr (hargs : args req = args req') : number? req = number? req' := by
  funext k
  rw [number?, number?, hargs]

theorem arg_congr (hargs : args req = args req') : arg req = arg req' := by
  funext k default
  rw [arg, arg, number?_congr hargs]

theorem audioChannels_congr (hargs : args req = args req') (hs : SameLaunch s s') :
    audioChannels req s = audioChannels req' s' := by
  rw [audioChannels, audioChannels, arg_congr hargs, hs.audioChannelCount]

theorem bitrateKbps_congr (hargs : args req = args req') (hs : SameLaunch s s') :
    bitrateKbps req s = bitrateKbps req' s' := by
  rw [bitrateKbps, bitrateKbps, number?_congr hargs, arg_congr hargs, audioChannels_congr hargs hs]

/-- Every video parameter is a number of the request, a default, or what the session was launched
with. -/
theorem videoParams_congr (hargs : args req = args req') (hs : SameLaunch s s') :
    videoParams req s = videoParams req' s' := by
  rw [videoParams, videoParams, arg_congr hargs, bitrateKbps_congr hargs hs, hs.clientWidth,
    hs.clientHeight, hs.clientFps]

theorem audioParams_congr (hargs : args req = args req') (hs : SameLaunch s s') :
    audioParams req s = audioParams req' s' := by
  rw [audioParams, audioParams, arg_congr hargs, audioChannels_congr hargs hs]

/-- **Renegotiation leaves nothing behind.** Two `ANNOUNCE`s with the same lines, in whatever order,
capture the same parameters in sessions launched alike, whatever these captured before; announcing
the same once more changes nothing. -/
theorem announce_renegotiates (hs : SameLaunch s s')
    (hperm : (attributeLines req).Perm (attributeLines req'))
    (hnames : ((attributeLines req).map attributeName).Nodup) :
    (announce req s).2.video = (announce req' s').2.video ∧
      (announce req s).2.audio = (announce req' s').2.audio ∧
      (announce req' (announce req s).2).2 = (announce req s).2 := by
  have hargs : args req = args req' := args_eq_of_perm hperm hnames
  refine ⟨videoParams_congr hargs hs, audioParams_congr hargs hs, ?_⟩
  have hagain : SameLaunch (announce req s).2 s := sameLaunch_announce req s
  have hvideo : videoParams req' (announce req s).2 = videoParams req s :=
    videoParams_congr hargs.symm hagain
  have haudio : audioParams req' (announce req s).2 = audioParams req s :=
    audioParams_congr hargs.symm hagain
  rw [announce, hvideo, haudio]
  rfl

end Captured

/-- Two lines in both orders, in a session that has captured nothing yet and in one that streamed
AV1 at another packet size. -/
theorem announce_renegotiates_pair :
    let width : Bytes × Bytes := (ascii "a", ascii "x-nv-video[0].clientViewportWd:1280")
    let size : Bytes × Bytes := (ascii "a", ascii "x-nv-video[0].packetSize:1024")
    let req : RtspPacket := { payloads := [width, size] }
    let req' : RtspPacket := { payloads := [size, width] }
    (announce req {}).2.video =
      (announce req' { video := { format := .av1, packetSize := 512 } }).2.video := by
  intro width size req req'
  have hs : SameLaunch {} { video := { format := .av1, packetSize := 512 } } := ⟨rfl, rfl, rfl, rfl⟩
  have hperm : (attributeLines req).Perm (attributeLines req') := .swap size width []
  have hnames : ((attributeLines req).map attributeName).Nodup := by decide
  exact (announce_renegotiates hs hperm hnames).1

end SteamStream.Rtsp
