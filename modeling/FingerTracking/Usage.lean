import FingerTracking.CommandLine

/-!
Usage: what the program says about its command line, when asked and when it cannot read it.
-/

namespace FingerTracking.Usage

open CommandLine (Stop Topic Scope Opt Flag)

def programName : String := "touch-synth"

def version : String := "0.1.0"

/-- What a variable of the environment holds now. -/
def heldBy (name : String) (value : Option String) : String :=
  s!"[env: {name}=" ++ value.getD "" ++ "]"

/-- A line that names an option and a line that explains it. -/
def entry (name explanation : String) : String :=
  "  " ++ name ++ "\n          " ++ explanation ++ "\n"

def programHelp (env : Environment) : String :=
  "Synthesize multitouch finger events from a single-touch panel\n\n" ++
  "Usage: touch-synth [OPTIONS] [COMMAND]\n\n" ++
  "Commands:\n" ++
  "  dump  Dump raw input events from the touch device for debugging\n" ++
  "  help  Print this message or the help of the given subcommand(s)\n\n" ++
  "Options:\n" ++
  entry "    --device <DEVICE>"
    ("Touch input device path " ++ heldBy "TOUCH_SYNTH_DEVICE" env.device) ++
  entry "    --profile <PROFILE>" "Device profile supplying screen size and axis maxima" ++
  entry "    --screen-width <SCREEN_WIDTH>" "Screen width coordinates are scaled to" ++
  entry "    --screen-height <SCREEN_HEIGHT>" "Screen height coordinates are scaled to" ++
  entry "    --x-max <X_MAX>" "Maximum raw X value reported by the panel" ++
  entry "    --y-max <Y_MAX>" "Maximum raw Y value reported by the panel" ++
  entry "    --coord-buffer-size <COORD_BUFFER_SIZE>" "Coordinates remembered per finger" ++
  entry "    --finger-down-threshold <FINGER_DOWN_THRESHOLD>"
    "Minimum contact weight for a new finger" ++
  entry "    --position-filter" "Move tracked positions at most one unit per sample" ++
  entry "    --no-position-filter" "Disable the position filter (overrides config file)" ++
  entry "    --max-fingers <MAX_FINGERS>" "Simultaneous fingers to track" ++
  entry "    --max-events-per-call <MAX_EVENTS_PER_CALL>"
    "Raw records read per wake-up before yielding" ++
  entry "    --format <FORMAT>" "Output format (events, reports, raw)" ++
  entry "    --layout <LAYOUT>"
    "input_event layout of the device and of raw output (compat32, native64)" ++
  entry "    --config <CONFIG>"
    ("Path to config file " ++ heldBy "TOUCH_SYNTH_CONFIG" env.config) ++
  entry "-h, --help" "Print help" ++
  entry "-V, --version" "Print version"

def dumpHelp : String :=
  "Dump raw input events from the touch device for debugging\n\n" ++
  "Usage: touch-synth dump [OPTIONS]\n\n" ++
  "Options:\n" ++
  "      --count <COUNT>  " ++
    "Stop after this many events (0 = run until interrupted) [default: 0]\n" ++
  "  -h, --help           Print help\n"

def helpHelp : String :=
  "Print this message or the help of the given subcommand(s)\n\n" ++
  "Usage: touch-synth help [COMMAND]...\n\n" ++
  "Arguments:\n" ++
  "  [COMMAND]...  Print help for the subcommand(s)\n"

def help (env : Environment) : Topic → String
  | .scope .program => programHelp env
  | .scope .dump => dumpHelp
  | .help => helpHelp

def versionLine : String :=
  programName ++ " " ++ version ++ "\n"

/-- The cause of a stop in words. Asking for help or the version is no mistake. -/
def mistake? : Stop → Option String
  | .help _ | .version => none
  | .unknownArgument word => some s!"unexpected argument '{word}' found"
  | .missingValue o => some s!"a value is required for '--{o.name}' but none was supplied"
  | .badValue o value => some s!"invalid value '{value}' for '--{o.name}'"
  | .repeatedOption o => some s!"the argument '--{o.name}' cannot be used multiple times"
  | .repeatedFlag f => some s!"the argument '--{f.name}' cannot be used multiple times"
  | .unexpectedValue f value =>
    some s!"unexpected value '{value}' for '--{f.name}' found; no more were expected"
  | .unknownCommand word => some s!"unrecognized subcommand '{word}'"

/-- What is said about a mistake. -/
def complaint (mistake : String) : String :=
  s!"error: {mistake}\n\nUsage: touch-synth [OPTIONS] [COMMAND]\n\n" ++
    "For more information, try '--help'.\n"

end FingerTracking.Usage
