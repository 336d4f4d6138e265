import SteamStream.Rest.Launch

/-!
# `/serverinfo`

What the server says about itself. A client that sees `SUNSHINE_SERVER_BUSY`, or a game that is
not 0, offers to resume instead of launching; both stand for whether any session is registered.
-/

namespace SteamStream.Rest

open Wire CText Session

structure DisplayMode where
  width : ℕ
  height : ℕ
  refreshRate : ℕ
  deriving DecidableEq, Repr

/-- The server state that only `/serverinfo` reads. -/
structure HostInfo where
  uuid : Bytes
  hostname : Bytes
  macAddress : Bytes
  httpPort : ℕ := 47989
  httpsPort : ℕ := 47984
  displayModes : List DisplayMode := [⟨1920, 1080, 60⟩, ⟨1280, 720, 60⟩]

def mVersion : Bytes := ascii "7.1.431.-1"

def mGfeVersion : Bytes := ascii "3.23.0.74"

def videoFormatH264 : ℕ := 0x0001
def videoFormatH265 : ℕ := 0x0100
def videoFormatAv1Main8 : ℕ := 0x10000

/-- `ServerCodecModeSupport`. -/
def codecSupport (supportHevc supportAv1 : Bool) : ℕ :=
  let codecSupport := videoFormatH264
  let codecSupport := if supportHevc then codecSupport ||| videoFormatH265 else codecSupport
  if supportAv1 then codecSupport ||| videoFormatAv1Main8 else codecSupport

/-- The children of `SupportedDisplayMode`. -/
def displayNodes (displayModes : List DisplayMode) : Xml :=
  displayModes.flatMap fun mode =>
    [("SupportedDisplayMode.DisplayMode.Width", toDecimal mode.width),
      ("SupportedDisplayMode.DisplayMode.Height", toDecimal mode.height),
      ("SupportedDisplayMode.DisplayMode.RefreshRate", toDecimal mode.refreshRate)]

/-- `moonlight::serverinfo`. -/
def moonlightServerinfo (isServerBusy : Bool) (currentAppid : ℕ) (host : HostInfo)
    (localIp : Bytes) (pairStatus : ℕ) (supportHevc supportAv1 : Bool) : Xml :=
  let maxLumaPixels := if supportHevc then 1869449984 else 0
  [("<xmlattr>.status_code", toDecimal 200), ("hostname", host.hostname),
    ("appversion", mVersion), ("GfeVersion", mGfeVersion), ("uniqueid", host.uuid),
    ("MaxLumaPixelsHEVC", toDecimal maxLumaPixels),
    ("ServerCodecModeSupport", toDecimal (codecSupport supportHevc supportAv1)),
    ("HttpsPort", toDecimal host.httpsPort), ("ExternalPort", toDecimal host.httpPort),
    ("mac", host.macAddress), ("LocalIP", localIp)] ++
  displayNodes host.displayModes ++
  [("PairStatus", toDecimal pairStatus), ("currentgame", toDecimal currentAppid),
    ("state", ascii (if isServerBusy then "SUNSHINE_SERVER_BUSY" else "SUNSHINE_SERVER_FREE"))]

/-- `/serverinfo`, over HTTP or to a paired client. -/
def serverinfo (state : AppState) (host : HostInfo) (localIp : Bytes) (isPaired : Bool) : Reply :=
  let running := state.sessions.getRunning
  { statusCode := 200
    xml := moonlightServerinfo running.isSome (if running.isSome then 1 else 0) host localIp
      (if isPaired then 1 else 0) state.supportHevc state.supportAv1 }

end SteamStream.Rest
