import Displays.Fault
import Displays.Randr.Table

/-!
# X servers

A server describes modes, outputs and CRTCs by their ids. A CRTC scans a part of the screen out to
the outputs it drives; its mode is zero while it is off. Requests that change the server are kept
in a log, those it answers with an error included.
-/

namespace Displays.Randr

/-- A mode as the server describes it. -/
structure ModeInfo where
  /-- The number of columns. -/
  width : Nat
  /-- The number of rows. -/
  height : Nat
  /-- Pixels in a second. -/
  dotClock : Nat
  /-- The number of columns with those of the blanking. -/
  htotal : Nat
  /-- The number of rows with those of the blanking. -/
  vtotal : Nat
  /-- Properties of the mode, one to a bit. -/
  flags : Nat
  deriving DecidableEq, Repr

/-- A CRTC. -/
structure Crtc where
  /-- The column of the screen at which its picture begins. -/
  x : Int
  /-- The row of the screen at which its picture begins. -/
  y : Int
  /-- The id of its mode; zero while it is off. -/
  mode : Nat
  /-- How its picture is turned. -/
  rotation : Nat
  /-- The ids of the outputs it drives. -/
  outputs : List Nat
  deriving DecidableEq, Repr

/-- The rotation of a picture that is not turned. -/
def upright : Nat := 1

/-- An output as the server describes it. -/
structure Connector where
  /-- The name. -/
  name : List UInt8
  /-- A display hangs on the output. -/
  connected : Bool
  /-- The id of the CRTC that drives it; zero if none does. -/
  crtc : Nat
  /-- The ids of the CRTCs that can drive it. -/
  crtcs : List Nat
  /-- The ids of its modes. -/
  modes : List Nat
  /-- The extent of the display. -/
  size : PhysicalSize
  /-- The octets of its EDID property. -/
  edid : List UInt8 := []
  deriving DecidableEq, Repr

/-- The name of an output as text. -/
def Connector.id (o : Connector) : OutputId :=
  String.ofList (Text.Utf8.decodeLossy o.name)

/-- The requests by kind. -/
inductive RequestKind where
  | internAtom | getScreenResources | getOutputInfo | getCrtcInfo | getOutputProperty
  | setCrtcConfig | setScreenSize
  deriving DecidableEq, Repr

/-- The size of a screen. -/
structure ScreenSize where
  /-- The number of columns. -/
  width : Nat
  /-- The number of rows. -/
  height : Nat
  /-- The extent in millimetres. -/
  physical : PhysicalSize
  deriving DecidableEq, Repr

/-- A request that changes the server. -/
inductive Request where
  /-- Sets up a CRTC. -/
  | setCrtc (id : Nat) (crtc : Crtc)
  /-- Resizes the screen. -/
  | setScreenSize (size : ScreenSize)
  deriving DecidableEq, Repr

/-- The kind of a request. -/
def Request.kind : Request → RequestKind
  | setCrtc _ _ => .setCrtcConfig
  | setScreenSize _ => .setScreenSize

/-- An X server. -/
structure Server where
  /-- The modes. -/
  modes : Table ModeInfo
  /-- The outputs, in the order of the server. -/
  outputs : List (Nat × Connector)
  /-- The CRTCs. -/
  crtcs : Table Crtc
  /-- It refuses connections. -/
  refuses : Bool := false
  /-- It lacks the extension for outputs. -/
  lacksExtension : Bool := false
  /-- It knows the name of the EDID property. -/
  knowsEdid : Bool := true
  /-- The kind of request that it answers with an error. -/
  failing : Option RequestKind := none
  /-- The changing requests it received, oldest first. -/
  log : List Request := []
  deriving Repr

namespace Server

/-- Makes a request that asks. -/
def ask (s : Server) (kind : RequestKind) : Except HardwareFault Unit :=
  if s.failing = some kind then .error .request else .ok ()

/-- Makes a request for each of some objects. -/
def askEach {α : Type} (s : Server) (kind : RequestKind) (objects : List α) :
    Except HardwareFault Unit :=
  if objects.isEmpty then .ok () else s.ask kind

/-- Connects and asks for the resources of the screen. -/
def connect (s : Server) : Except HardwareFault Unit :=
  if s.refuses then .error .connect
  else if s.lacksExtension then .error .extensionMissing
  else s.ask .getScreenResources

/-- The output after a CRTC was set up to drive these outputs. -/
def reassign (crtc : Nat) (driven : List Nat) (id : Nat) (o : Connector) : Connector :=
  if id ∈ driven then { o with crtc := crtc }
  else if o.crtc = crtc then { o with crtc := 0 }
  else o

/-- The server after a request it grants. -/
def granted (s : Server) : Request → Server
  | .setCrtc id crtc =>
    { s with
      crtcs := s.crtcs.modify id fun _ => crtc
      outputs := s.outputs.map fun e => (e.1, reassign id crtc.outputs e.1 e.2) }
  | .setScreenSize _ => s

/-- Makes a request that changes the server. -/
def perform (s : Server) (r : Request) : Except HardwareFault Unit × Server :=
  let s := { s with log := s.log ++ [r] }
  match s.ask r.kind with
  | .error fault => (.error fault, s)
  | .ok () => (.ok (), s.granted r)

/-- Makes requests up to the first that fails. -/
def performAll (s : Server) : List Request → Except HardwareFault Unit × Server
  | [] => (.ok (), s)
  | r :: rest =>
    match s.perform r with
    | (.ok (), s) => s.performAll rest
    | failed => failed

end Server

end Displays.Randr
