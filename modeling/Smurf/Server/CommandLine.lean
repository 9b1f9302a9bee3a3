import Mathlib.Data.List.Infix
import Smurf.Library.Options
import Smurf.Server.RssiSessions

/-! The control server's command line.
The options are checked one by one; then the process that ran before is replaced, the settings
are checked, the modules imported, and the PCIe card is set up. Only behind all this is the
server started.
-/

namespace Smurf

/-- How `ping` ends; without the program, or without `os.devnull`, it cannot be run. -/
inductive Ping
  | answers
  | noAnswer
  | osError
  deriving DecidableEq

/-- How the import of a module ends. -/
inductive Import
  | loads
  | importError
  | raises
  deriving DecidableEq

/-- What the program asks its surroundings: the value of a text as `int`; whether the process
that a pid file names is the program itself, and whether the file can be opened for writing;
whether `inet_pton` takes an address and `ping` reaches it; how imports end, and whether the
version of pyrogue is above 2.6.0, if it can be parsed; whether a path exists, if that can be
asked; whether the calls on the PCIe card there raise nothing, and the card's registers.
-/
structure World where
  int : String → Option Int
  namesItself : String → Bool
  writable : String → Bool
  inetPton : String → Bool
  ping : String → Ping
  imports : String → Import
  newerPyrogue : Option Bool
  pathExists : String → Option Bool
  cardAnswers : String → Bool
  lane : EthLane

/-- How the program ends before the server is started: with a text, killed, or by an exception
that nothing catches.
-/
inductive Exit
  | usage
  | message (text : String)
  | importError
  | killed
  | valueError
  | attributeError
  | osError
  | uncaught

/-- The options, as `getopt` returns them. -/
inductive Opt
  | help
  | addr (arg : String)
  | server
  | pyro (arg : String)
  | epics (arg : String)
  | nopoll
  | streamSize (arg : String)
  | streamType (arg : String)
  | defaults (arg : String)
  | commType (arg : String)
  | pcieRssiLink (arg : String)
  | dumpPvs (arg : String)
  | disableBay0
  | disableBay1
  | disableGc
  | windowsTitle (arg : String)
  | pcieDev (arg : String)

def streamPvValidTypes : List String :=
  ["UInt16", "Int16", "UInt32", "Int32"]

def commTypeValidTypes : List String :=
  ["eth-rssi-non-interleaved", "eth-rssi-interleaved", "pcie-rssi-interleaved"]

@[ext] structure Settings where
  ipAddr : String
  groupName : String
  epicsPrefix : String
  pidFile : String
  configFile : String
  serverMode : Bool
  pollingEn : Bool
  streamPvSize : Int
  streamPvType : String
  commType : String
  pcieRssiLink : Option Int
  pvDumpFile : String
  pcieDev : String
  disableBay0 : Bool
  disableBay1 : Bool
  disableGc : Bool
  windowsTitle : String

namespace Settings

def pidFileOf (epicsPrefix : String) : String :=
  "/tmp/smurf_" ++ epicsPrefix ++ ".pid"

/-- The settings without any option. -/
def unset : Settings where
  ipAddr := ""
  groupName := ""
  epicsPrefix := ""
  pidFile := "/tmp/smurf.pid"
  configFile := ""
  serverMode := false
  pollingEn := true
  streamPvSize := 0
  streamPvType := "UInt16"
  commType := "eth-rssi-non-interleaved"
  pcieRssiLink := none
  pvDumpFile := ""
  pcieDev := "/dev/datadev_0"
  disableBay0 := false
  disableBay1 := false
  disableGc := false
  windowsTitle := ""

/-- One round of the loop over the options. -/
def readArgument (world : World) (self : Settings) : Opt → Except Exit Settings
  | .help => .error .usage
  | .addr arg => .ok { self with ipAddr := arg }
  | .server => .ok { self with serverMode := true }
  | .pyro arg => .ok { self with groupName := arg }
  | .epics arg => .ok { self with epicsPrefix := arg, pidFile := pidFileOf arg }
  | .nopoll => .ok { self with pollingEn := false }
  | .streamSize arg =>
      match world.int arg with
      | some size => .ok { self with streamPvSize := size }
      | none => .error (.message "ERROR: Invalid stream PV size")
  | .streamType arg =>
      if arg ∈ streamPvValidTypes then .ok { self with streamPvType := arg } else .ok self
  | .defaults arg => .ok { self with configFile := arg }
  | .commType arg =>
      if arg ∈ commTypeValidTypes then .ok { self with commType := arg }
      else .error (.message "ERROR: Invalid communication type")
  | .pcieRssiLink arg =>
      match world.int arg with
      | some link => .ok { self with pcieRssiLink := some link }
      | none => .error .valueError
  | .dumpPvs arg => .ok { self with pvDumpFile := arg }
  | .disableBay0 => .ok { self with disableBay0 := true }
  | .disableBay1 => .ok { self with disableBay1 := true }
  | .disableGc => .ok { self with disableGc := true }
  | .windowsTitle arg => .ok { self with windowsTitle := arg }
  | .pcieDev arg => .ok { self with pcieDev := arg }

/-- `pattern in text` -/
def contains (pattern text : String) : Bool :=
  decide (pattern.toList <:+: text.toList)

/-- The checks of the settings. -/
def check (world : World) (self : Settings) : Except Exit Unit :=
  if self.ipAddr ≠ "" ∧ world.inetPton self.ipAddr = false then
    .error (.message "ERROR: Invalid IP Address.")
  else if contains "eth-" self.commType = true ∧ self.ipAddr = "" then
    .error
      (.message
        "ERROR: Must specify an IP address for ethernet base communication devices.")
  else if contains "eth-" self.commType = true ∧ world.ping self.ipAddr = .noAnswer then
    .error (.message "    ERROR: FPGA can't be reached!")
  else if contains "eth-" self.commType = true ∧ world.ping self.ipAddr = .osError then
    .error .osError
  else if self.serverMode = true ∧ self.groupName = "" ∧ self.epicsPrefix = "" then
    .error (.message "    ERROR: Can not start in server mode without Pyro or EPICS server")
  else .ok ()

end Settings

/-- An import whose exceptions nothing catches. -/
def importModule (world : World) (module : String) : Except Exit Unit :=
  if world.imports module = .loads then .ok () else .error .uncaught

namespace PcieCard

/-- The link of the card, which is not set when PCIe is not used. -/
def initLink (usePcie : Bool) (link : Option Int) : Except Exit (Option (Fin 6)) :=
  if usePcie then
    match link with
    | none => .error (.message "  ERROR: Must specify an RSSI link number")
    | some link =>
        if inside : 0 ≤ link ∧ link < 6 then .ok (some ⟨link.toNat, by omega⟩)
        else .error (.message "  ERROR: Invalid RSSI link number. Must be between 0 and 5")
  else .ok none

/-- The address of the carrier: the one given, or the one that the link points to. It is not set
without a card.
-/
def initIpAddr (world : World) (pciePresent : Bool) (link : Option (Fin 6)) (ipAddr : String)
    : Except Exit String :=
  if pciePresent = false then .ok ""
  else if ipAddr = "" then
    match link with
    | none => .error .attributeError
    | some link =>
        let ipAddr := (world.lane.link link).clientRemoteIp
        if world.inetPton ipAddr then .ok ipAddr
        else
          .error
            (.message ("ERROR: IP Address read from the PCIe card: " ++ ipAddr ++ " is invalid."))
  else .ok ipAddr

/-- The modules and the calls on a card that is present. -/
def initPcie (world : World) (pciePresent : Bool) (dev : String) : Except Exit Unit :=
  if pciePresent then do
    importModule world "rogue.hardware.axi"
    importModule world "SmurfKcu1500RssiOffload"
    if world.cardAnswers dev then .ok () else .error .uncaught
  else .ok ()

/-- The set-up of the card. Nothing reads the link or the address when it is not set. -/
def init (world : World) (commType : String) (link : Option Int) (ipAddr dev : String)
    : Except Exit PcieCard :=
  match world.pathExists dev with
  | none => .error .osError
  | some pciePresent =>
      let usePcie := Settings.contains "pcie-" commType
      if usePcie && !pciePresent then
        .error (.message ("  ERROR: PCIe device " ++ dev ++ " does not exist."))
      else do
        let link ← initLink usePcie link
        initPcie world pciePresent dev
        let ipAddr ← initIpAddr world pciePresent link ipAddr
        .ok ⟨pciePresent, usePcie, link.getD 0, ipAddr⟩

end PcieCard

/-- The option does not end the program. -/
def Opt.Accepted (world : World) : Opt → Prop
  | .help => False
  | .streamSize arg => (world.int arg).isSome = true
  | .commType arg => arg ∈ commTypeValidTypes
  | .pcieRssiLink arg => (world.int arg).isSome = true
  | _ => True

namespace Settings

open Options

/-- The settings behind an option that is accepted. -/
def update (world : World) (self : Settings) (opt : Opt) : Settings :=
  (self.readArgument world opt).toOption.getD self

/-- Each setting is as the last option that is for it gives it. -/
def given (world : World) (opts : List Opt) : Settings where
  ipAddr := last (fun | .addr arg => some arg | _ => none) "" opts
  groupName := last (fun | .pyro arg => some arg | _ => none) "" opts
  epicsPrefix := last (fun | .epics arg => some arg | _ => none) "" opts
  pidFile :=
    last (fun | .epics arg => some (pidFileOf arg) | _ => none) "/tmp/smurf.pid" opts
  configFile := last (fun | .defaults arg => some arg | _ => none) "" opts
  serverMode := last (fun | .server => some true | _ => none) false opts
  pollingEn := last (fun | .nopoll => some false | _ => none) true opts
  streamPvSize := last (fun | .streamSize arg => world.int arg | _ => none) 0 opts
  streamPvType :=
    last (fun | .streamType arg => if arg ∈ streamPvValidTypes then some arg else none | _ => none)
      "UInt16" opts
  commType :=
    last (fun | .commType arg => if arg ∈ commTypeValidTypes then some arg else none | _ => none)
      "eth-rssi-non-interleaved" opts
  pcieRssiLink :=
    last (fun | .pcieRssiLink arg => (world.int arg).map some | _ => none) none opts
  pvDumpFile := last (fun | .dumpPvs arg => some arg | _ => none) "" opts
  pcieDev := last (fun | .pcieDev arg => some arg | _ => none) "/dev/datadev_0" opts
  disableBay0 := last (fun | .disableBay0 => some true | _ => none) false opts
  disableBay1 := last (fun | .disableBay1 => some true | _ => none) false opts
  disableGc := last (fun | .disableGc => some true | _ => none) false opts
  windowsTitle := last (fun | .windowsTitle arg => some arg | _ => none) "" opts

end Settings

section Steps

variable (world : World)

end Steps

namespace PcieCard

section Init

variable {world : World} {settings : Settings} {card : PcieCard}

end Init

end PcieCard

end Smurf
