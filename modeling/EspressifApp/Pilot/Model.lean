import EspressifApp.Reactive.Machine
import EspressifApp.Stdlib.Strtol

/-!
The pilot light, `PilotLight.cpp`: a thread that switches a light on and off,
and a console command that sets for how long. Times are given in milliseconds
and kept in ticks; the constructor converts them with `Ticks::MsToTicks`, the
command with `pdMS_TO_TICKS`, and the getters convert back.
-/

namespace EspressifApp.Pilot

open Reactive Stdlib

/-! ### Ticks -/

/-- `pdMS_TO_TICKS` at a tick rate: the product wraps. -/
def pdMsToTicks (hz ms : UInt32) : UInt32 := ms * hz / 1000

/-- `pdTICKS_TO_MS`: the product has 64 bits, the result 32. -/
def pdTicksToMs (hz ticks : UInt32) : UInt32 :=
  (ticks.toUInt64 * 1000 / hz.toUInt64).toUInt32

def portTickPeriodMs (hz : UInt32) : UInt32 := 1000 / hz

def msToTicks (hz milliseconds : UInt32) : UInt32 := milliseconds / portTickPeriodMs hz

/-! ### The light -/

/-- What the build configures: `configTICK_RATE_HZ`, the pin, the kind of light
and the times it starts with. -/
structure Config where
  tickRateHz : UInt32
  gpio : ℕ
  isNeopixel : Bool
  onTime : UInt32
  offTime : UInt32
  deriving DecidableEq, Repr

/-- `class PilotLight`; the times are in ticks. -/
structure PilotLight where
  pin : ℕ
  onTime : UInt32
  offTime : UInt32
  deriving DecidableEq, Repr

def PilotLight.new (cfg : Config) (ponTime poffTime : UInt32) : PilotLight where
  pin := cfg.gpio
  onTime := msToTicks cfg.tickRateHz ponTime
  offTime := msToTicks cfg.tickRateHz poffTime

def PilotLight.setOnOffTime (cfg : Config) (l : PilotLight) (onTime offTime : UInt32) :
    PilotLight :=
  { l with
    onTime := pdMsToTicks cfg.tickRateHz onTime
    offTime := pdMsToTicks cfg.tickRateHz offTime }

def PilotLight.getOnTime (cfg : Config) (l : PilotLight) : UInt32 :=
  pdTicksToMs cfg.tickRateHz l.onTime

def PilotLight.getOffTime (cfg : Config) (l : PilotLight) : UInt32 :=
  pdTicksToMs cfg.tickRateHz l.offTime

/-! ### The command -/

inductive PilotCall
  | ledStripNewRmtDevice (stripGpioNum maxLeds : ℕ)
  | ledStripClear
  | ledStripSetPixel (index red green blue : ℕ)
  | ledStripRefresh
  | gpioResetPin (pin : ℕ)
  | gpioSetDirectionOutput (pin : ℕ)
  | gpioSetLevel (pin level : ℕ)
  | delay (ticks : UInt32)
  | setOnOffTime (onTime offTime : UInt32)
  | logInfo (text : String)
  | logError (text : String)
  | printf (text : String)
  deriving DecidableEq, Repr

def cmdPilot (cfg : Config) (argv : List CString) (l : PilotLight) :
    PilotLight × List PilotCall :=
  match argv with
  | [_, arg1, arg2] =>
      let on := (strtol arg1).1
      let off := (strtol arg2).1
      if on > 0 ∧ off > 0 then
        (l.setOnOffTime cfg (UInt32.ofInt on) (UInt32.ofInt off),
          [.logInfo ("set on=" ++ toString on ++ ", off=" ++ toString off),
            .setOnOffTime (UInt32.ofInt on) (UInt32.ofInt off)])
      else (l, [.logError "invalid on or off time"])
  | _ =>
      let onTime := l.getOnTime cfg
      let offTime := l.getOffTime cfg
      (l, [.printf ("pilot on=" ++ toString onTime.toNat ++ " off=" ++ toString offTime.toNat
        ++ "\n")])

/-! ### The thread -/

/-- What `Run` does before its loop. -/
def setUp (cfg : Config) (l : PilotLight) : List PilotCall :=
  if cfg.isNeopixel then [.ledStripNewRmtDevice l.pin 1]
  else [.gpioResetPin l.pin, .gpioSetDirectionOutput l.pin]

/-- How far the thread is: it has started `Run`, or it is in one of the two
halves of the loop. -/
inductive Phase
  | start
  | dark
  | lit
  deriving DecidableEq, Repr

/-- What the thread does from one `Delay` to the next. The command runs in
another task, so each `Delay` reads its time as it then is. -/
def turn (cfg : Config) (l : PilotLight) : Phase → Phase × List PilotCall
  | .start => (.dark, setUp cfg l)
  | .dark =>
      (.lit, (if cfg.isNeopixel then [.ledStripClear] else [.gpioSetLevel l.pin 1]) ++
        [.delay l.offTime])
  | .lit =>
      (.dark, (if cfg.isNeopixel then [.ledStripSetPixel 0 5 6 5, .ledStripRefresh]
        else [.gpioSetLevel l.pin 0]) ++ [.delay l.onTime])

/-- What drives the light: the console and the scheduler. -/
inductive PilotInput
  | command (argv : List CString)
  | turn
  deriving DecidableEq, Repr

/-- The light with its thread. -/
def pilot (cfg : Config) : Machine (PilotLight × Phase) PilotInput PilotCall where
  init := (PilotLight.new cfg cfg.onTime cfg.offTime, .start)
  next s i :=
    match i with
    | .command argv => ((cmdPilot cfg argv s.1).1, s.2)
    | .turn => (s.1, (turn cfg s.1 s.2).1)
  out s i :=
    match i with
    | .command argv => (cmdPilot cfg argv s.1).2
    | .turn => (turn cfg s.1 s.2).2

end EspressifApp.Pilot
