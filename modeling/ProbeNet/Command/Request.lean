import ProbeNet.Command.Transcript
import ProbeNet.Settings.Basic

/-!
# Command lines of the host

What a command line asks the host to do.  Options may stand anywhere between
the words of the command; everything that is no option is such a word.  The
numbers of a command are read when the command is performed, the numbers of
options at once.
-/

namespace ProbeNet

open Register

/-! ## Options -/

structure HostOptions where
  target : String
  /-- The address of the host's own end. -/
  bind : String := "0.0.0.0:0"
  width : Width := .w16
  count : Option Nat := none
  /-- Whether the modules are listed for other programs to read. -/
  json : Bool := false
  /-- Whether a reset leaves the system alone and concerns the processors. -/
  processors : Bool := false
  deriving DecidableEq, Repr

namespace HostOptions

/-- The number of an option, below a bound. -/
def readNumber (option : String) (bound : Nat) (text : String) : Except Failure Nat :=
  match Numeral.read 10 bound text with
  | .ok n => .ok n
  | .error e => .error { summary := option ++ " must be a number", causes := [e.message] }

def readWidth (text : String) : Except Failure Width := do
  let bits ← readNumber "--width" (1 <<< 32) text
  match Width.ofBits? bits with
  | some w => .ok w
  | none => .error { summary := "--width must be 16, 32, 64 or 128" }

/-- Reads a command line from left to right.  Returns the options and the
words between them.  The last one of several options of a name counts, but
the first one that is wrong ends the reading. -/
def read (o : HostOptions) : List String → Except Failure (HostOptions × List String)
  | [] => .ok (o, [])
  | "--target" :: target :: rest => read { o with target } rest
  | "--bind" :: bind :: rest => read { o with bind } rest
  | "--width" :: text :: rest => do
    let width ← readWidth text
    read { o with width } rest
  | "--count" :: text :: rest => do
    let n ← readNumber "--count" (1 <<< 64) text
    read { o with count := some n } rest
  | "--json" :: rest => read { o with json := true } rest
  | "--cpu" :: rest => read { o with processors := true } rest
  | word :: rest =>
    if word ∈ ["--target", "--bind", "--width", "--count"] then
      .error { summary := word ++ " requires a value" }
    else do
      let (o, words) ← read o rest
      .ok (o, word :: words)

end HostOptions

/-! ## Commands -/

inductive HostCommand where
  | help
  | modules
  | read (module address : String)
  | write (module address value : String)
  | events (modules : List String)
  | sendEvent (module : String) (payload : List String)
  | reset
  | unknown (words : List String)
  deriving DecidableEq, Repr

def HostCommand.ofWords : List String → HostCommand
  | ["help"] | ["--help"] | ["-h"] => .help
  | [] | ["modules"] => .modules
  | ["read", m, address] => .read m address
  | ["write", m, address, value] => .write m address value
  | "events" :: ms => .events ms
  | "send-event" :: m :: payload => .sendEvent m payload
  | ["reset"] => .reset
  | words => .unknown words

def hostUsage : List String :=
  ["Usage: dinet-ctl [options] <command>",
   "",
   "Commands:",
   "  modules                            List discovered debug modules",
   "  read <module> <address>            Read a register",
   "  write <module> <address> <value>   Write a register",
   "  events [<module>...]               Print events (default: every STM)",
   "  send-event <module> <word>...      Send an event to a module",
   "  reset                              Pulse the system reset",
   "",
   "Options:",
   "  --target <addr>   dinetd address (default: from config)",
   "  --bind <addr>     Local UDP address (default: 0.0.0.0:0)",
   "  --width <bits>    Register width: 16, 32, 64 or 128 (default: 16)",
   "  --count <n>       Stop after n events",
   "  --json            Machine-readable module list",
   "  --cpu             Reset the CPUs only"]

/-! ## Numbers in commands -/

/-- The value that a word stands for, decimal or behind `0x`. -/
def readValue (text : String) : Except Failure Value :=
  match Numeral.readPrefixed (1 <<< 128) text with
  | .ok n => .ok (BitVec.ofNat 128 n)
  | .error e => .error { summary := "not a number: " ++ text, causes := [e.message] }

/-- The 16-bit value that a word stands for. -/
def readShort (text : String) : Except Failure Word := do
  let v ← readValue text
  if v.toNat < 0x10000 then .ok (v.setWidth 16)
  else
    .error { summary := text ++ " does not fit 16 bits",
             causes := ["out of range integral type conversion attempted"] }

def readModule (text : String) : Except Failure Address := do
  let raw ← readShort text
  match Address.ofNat raw.toNat with
  | .ok a => .ok a
  | .error e => .error { summary := "invalid module address " ++ text, causes := [e.message] }

end ProbeNet
