import SteamStream.Library.Runs
import SteamStream.Rtsp.Commands
import SteamStream.Server.System

/-!
# Media start on negotiated parameters

The RTSP requests of a session, in whatever order they come. `on_play` reads the parameters the
session holds: those of the last `ANNOUNCE`, since nothing else writes them. Without one they are
the defaults of the types, a picture of no width and no height.

`announced` says that there was an `ANNOUNCE`, and nothing asks for it: a `PLAY` starts the media
whether it is set or not. So what the client negotiates is what the media start on exactly if an
`ANNOUNCE` comes before every `PLAY` (`playsNegotiated_iff`).
-/

namespace SteamStream.Rtsp

open Wire Session Rest Runs Server X509

/-! ### In the server -/

section InServer

variable {Cert : Type} {ssl : OpenSSL Cert} {st : ServerState} {uriIp hostOpt peerIp : Bytes}
  {sess : SessionRef}

/-- What a request is to the server: an `ANNOUNCE` or a `PLAY` for the session it is about. -/
def serverEvent (Cert : Type) (uriIp hostOpt peerIp : Bytes) (req : RtspPacket)
    (s : StreamSession) : Option (ServerEvent Cert) :=
  if IsAnnounce req then
    some (.announce uriIp hostOpt peerIp (videoParams req s) (audioParams req s))
  else if IsPlay req then some (.play uriIp hostOpt peerIp)
  else none

/-- The server does with the session what `message_handler` does, and goes on with `on_play` where
that is called. -/
theorem serverStep_request {req : RtspPacket} {event : ServerEvent Cert}
    (hidle : st.playPc = .idle)
    (hsess : st.sessions.getForRtsp uriIp hostOpt peerIp = some sess)
    (hevent : serverEvent Cert uriIp hostOpt peerIp req (st.sessions.object sess) = some event) :
    ∃ st', serverStep ssl st event = some st' ∧
      st'.sessions.object sess = (messageHandler req (st.sessions.object sess)).session ∧
      (st'.playPc = .lookup sess ↔
        (messageHandler req (st.sessions.object sess)).played.isSome = true) := by
  have hlt := st.sessions.sessions_lt sess (SessionRegistry.find?_eq_some hsess).1
  unfold serverEvent at hevent
  split_ifs at hevent with hann hplay
  · obtain rfl := Option.some.inj hevent
    rw [serverStep, if_pos hidle, hsess, messageHandler_announce hann]
    refine ⟨_, rfl, SessionRegistry.object_modify_self hlt, ?_⟩
    constructor
    · intro hlookup
      cases hidle.symm.trans hlookup
    · intro hplayed
      cases hplayed
  · obtain rfl := Option.some.inj hevent
    rw [serverStep, if_pos hidle, hsess, messageHandler_play hplay]
    exact ⟨_, rfl, SessionRegistry.object_modify_self hlt, fun _ => rfl, fun _ => rfl⟩

end InServer

/-! ### The requests of a session -/

/-- A session that handles one request after the other. -/
def rtspSystem (launched : StreamSession) : System StreamSession RtspPacket where
  init := launched
  step s req := some (messageHandler req s).session

/-- A session `/launch` has just created. -/
def FreshlyLaunched (s : StreamSession) : Prop :=
  ∃ state headers clientIp rand, (createLaunchSession state headers clientIp rand).1 = some s

theorem FreshlyLaunched.not_announced {s : StreamSession} (h : FreshlyLaunched s) :
    s.announced = false := by
  obtain ⟨state, headers, clientIp, rand, hcreated⟩ := h
  unfold createLaunchSession at hcreated
  dsimp only at hcreated
  split at hcreated
  · cases hcreated
  · obtain rfl := Option.some.inj hcreated
    rfl

section Requests

variable {launched s s' : StreamSession} {req : RtspPacket} {before reqs : List RtspPacket}

theorem exists_run_rtsp (launched : StreamSession) (reqs : List RtspPacket) :
    ∃ s, (rtspSystem launched).run launched reqs = some s :=
  System.exists_run (fun _ _ => ⟨_, rfl⟩) launched reqs

/-- What a session holds stays until the next `ANNOUNCE`. -/
theorem run_media (h : ∀ r ∈ reqs, ¬ IsAnnounce r)
    (hrun : (rtspSystem launched).run s reqs = some s') :
    s'.video = s.video ∧ s'.audio = s.audio ∧ s'.announced = s.announced := by
  refine System.run_of_along (P := fun _ r => ¬ IsAnnounce r)
    (I := fun t => t.video = s.video ∧ t.audio = s.audio ∧ t.announced = s.announced)
    (fun {t r t'} hI hr hstep => ?_) ⟨rfl, rfl, rfl⟩
    (System.along_of_forall fun r hr _ => h r hr) hrun
  obtain ⟨hvideo, haudio, hannounced⟩ := hI
  obtain rfl : (messageHandler r t).session = t' := Option.some.inj hstep
  obtain ⟨hvideo', haudio', hannounced'⟩ := messageHandler_media (s := t) hr
  exact ⟨hvideo'.trans hvideo, haudio'.trans haudio, hannounced'.trans hannounced⟩

end Requests

/-! ### Negotiated media -/

/-- `on_play` reads what the most recent `ANNOUNCE` of the requests before it has captured. -/
structure Negotiated (launched : StreamSession) (before : List RtspPacket)
    (played : StreamSession) : Prop where
  announced : played.announced = true
  captured : ∃ early ann late s, before = early ++ ann :: late ∧ IsAnnounce ann ∧
    (∀ r ∈ late, ¬ IsAnnounce r) ∧ (rtspSystem launched).run launched early = some s ∧
    played.video = videoParams ann s ∧ played.audio = audioParams ann s

/-- Whenever one of the requests calls `on_play`, the session has been negotiated. -/
def PlaysNegotiated (launched : StreamSession) (reqs : List RtspPacket) : Prop :=
  ∀ before req after s played, reqs = before ++ req :: after →
    (rtspSystem launched).run launched before = some s →
    (messageHandler req s).played = some played → Negotiated launched before played

/-- No `PLAY` comes before the first `ANNOUNCE`. -/
def AnnouncesFirst (reqs : List RtspPacket) : Prop :=
  ∀ before req after, reqs = before ++ req :: after → IsPlay req → ∃ r ∈ before, IsAnnounce r

/-- After an `ANNOUNCE`, the session holds what it has captured. -/
theorem negotiated_of_announce {launched s : StreamSession} {before : List RtspPacket}
    (h : ∃ r ∈ before, IsAnnounce r) (hrun : (rtspSystem launched).run launched before = some s) :
    Negotiated launched before s := by
  obtain ⟨early, ann, late, rfl, hann, hlate⟩ := System.exists_last_event h
  obtain ⟨s₁, hearly⟩ := exists_run_rtsp launched early
  have hstep : (rtspSystem launched).step s₁ ann = some (announce ann s₁).2 := by
    change some (messageHandler ann s₁).session = _
    rw [messageHandler_announce hann]
  have hrest : (rtspSystem launched).run (announce ann s₁).2 late = some s := by
    rwa [System.run_append, hearly, Option.bind_some, System.run_cons_of_step hstep] at hrun
  obtain ⟨hvideo, haudio, hannounced⟩ := run_media hlate hrest
  exact ⟨hannounced, early, ann, late, s₁, rfl, hann, hlate, hearly, hvideo, haudio⟩

/-- **The media start on negotiated parameters exactly if an `ANNOUNCE` comes before every
`PLAY`.** -/
theorem playsNegotiated_iff {launched : StreamSession} (hlaunched : FreshlyLaunched launched)
    (reqs : List RtspPacket) : PlaysNegotiated launched reqs ↔ AnnouncesFirst reqs := by
  constructor
  · intro h before req after hsplit hplay
    by_contra hnone
    obtain ⟨s, hrun⟩ := exists_run_rtsp launched before
    have hplayed : (messageHandler req s).played = some { s with playing := true } := by
      rw [messageHandler_play hplay]
    -- without an `ANNOUNCE` the flag is as `/launch` has left it
    obtain ⟨-, -, hannounced⟩ := run_media (fun r hr hann => hnone ⟨r, hr, hann⟩) hrun
    have hset := (h before req after s _ hsplit hrun hplayed).announced
    rw [show s.announced = false from hannounced.trans hlaunched.not_announced] at hset
    cases hset
  · intro h before req after s played hsplit hrun hplayed
    obtain ⟨hplay, rfl⟩ := isPlay_of_played hplayed
    obtain ⟨hannounced, hcaptured⟩ := negotiated_of_announce (h before req after hsplit hplay) hrun
    exact ⟨hannounced, hcaptured⟩

/-- The session of a `/launch` without a query. -/
def launchedSession : StreamSession :=
  ((createLaunchSession {} [] (ascii "10.0.0.7") (drawn 1)).1).getD {}

theorem freshlyLaunched_launchedSession : FreshlyLaunched launchedSession :=
  ⟨{}, [], ascii "10.0.0.7", drawn 1, by decide +kernel⟩

def announcePacket : RtspPacket where
  seqNumber := 6
  request :=
    { cmd := ascii "ANNOUNCE", type := .stream, stream := ⟨ascii "control", ascii "/13/0"⟩ }
  payloads :=
    [(ascii "v", ascii "0"), (ascii "a", ascii "x-nv-video[0].clientViewportWd:1280 "),
      (ascii "a", ascii "x-nv-video[0].clientViewportHt:720 "),
      (ascii "a", ascii "x-nv-video[0].packetSize:1024 ")]

def playPacket : RtspPacket where
  seqNumber := 7
  request := { cmd := ascii "PLAY", uri := ⟨ascii "rtsp", ascii "10.0.0.1", 48010⟩ }

example : (videoParams announcePacket launchedSession).width = 1280 ∧
    (videoParams announcePacket launchedSession).packetSize = 1024 ∧
    (videoParams announcePacket launchedSession).fps = 60 := by
  decide +kernel

theorem playsNegotiated_announcePlay :
    PlaysNegotiated launchedSession [announcePacket, playPacket] ↔
      AnnouncesFirst [announcePacket, playPacket] :=
  playsNegotiated_iff freshlyLaunched_launchedSession _

/-- **A `PLAY` starts the media without an `ANNOUNCE`.** -/
theorem not_playsNegotiated_playOnly :
    ¬ ∀ launched, FreshlyLaunched launched → ∀ reqs, PlaysNegotiated launched reqs := by
  intro h
  have hplayed : (messageHandler playPacket launchedSession).played =
      some { launchedSession with playing := true } := by
    rw [messageHandler_play (show IsPlay playPacket from rfl)]
  have hset := (h _ freshlyLaunched_launchedSession [playPacket] [] playPacket [] _ _ rfl rfl
    hplayed).announced
  rw [show launchedSession.announced = false from
    freshlyLaunched_launchedSession.not_announced] at hset
  cases hset

end SteamStream.Rtsp
