import ProbeNet.Settings.Basic
import ProbeNet.Text.Blank

/-!
# Overrides

Five variables of the environment take the place of settings.  They are
looked at in a fixed order, and the first one whose text is not what its
setting needs ends the work: the settings of the variables before it have
changed by then, no other has.
-/

namespace ProbeNet

namespace Settings

/-- A variable whose text is not what its setting needs. -/
structure OverrideError where
  key : String
  /-- Its text without blanks around it, or what is wrong with its number. -/
  text : String
  deriving DecidableEq, Repr

def OverrideError.message (e : OverrideError) : String :=
  "invalid value for " ++ e.key ++ ": " ++ e.text

def maxPacketLenKey : String := "DINET_LINK__MAX_PACKET_LEN"

def addressKey : String := "DINET_HOST__ADDRESS"

def registerTimeoutKey : String := "DINET_HOST__REGISTER_TIMEOUT_MS"

def listenKey : String := "DINET_NETWORK__LISTEN"

def targetKey : String := "DINET_NETWORK__TARGET"

/-- The number below `bound` that a variable gives, decimal or behind `0x`.
Blanks around it do not matter. -/
def readNumber (key : String) (bound : Nat) (text : String) : Except OverrideError Nat :=
  let text := Text.trim text
  match Numeral.readPrefixed (1 <<< 64) text with
  | .ok n => if n < bound then .ok n else .error { key, text }
  | .error _ => .error { key, text }

def readAddress (key text : String) : Except OverrideError Address := do
  let raw ← readNumber key (1 <<< 16) text
  match Address.ofNat raw with
  | .ok a => .ok a
  | .error e => .error { key, text := e.message }

def applyKey (key text : String) (s : Settings) : Except OverrideError Settings :=
  if key = maxPacketLenKey then do
    let n ← readNumber key (1 <<< 64) text
    .ok { s with link.maxPacketLen := n }
  else if key = addressKey then do
    let a ← readAddress key text
    .ok { s with host.address := a }
  else if key = registerTimeoutKey then do
    let n ← readNumber key (1 <<< 64) text
    .ok { s with host.registerTimeoutMs := n }
  else if key = listenKey then .ok { s with network.listen := text }
  else if key = targetKey then .ok { s with network.target := text }
  else .ok s

/-- The variables in the order in which they are looked at. -/
def overrideKeys : List String :=
  [maxPacketLenKey, addressKey, registerTimeoutKey, listenKey, targetKey]

/-- Applies the variables that are set, one after the other.  Returns the
settings as they stand at the end, and the error that ended the work early. -/
def applyKeys (lookup : String → Option String) :
    List String → Settings → Settings × Option OverrideError
  | [], s => (s, none)
  | key :: keys, s =>
    match lookup key with
    | none => applyKeys lookup keys s
    | some text =>
      match applyKey key text s with
      | .ok s => applyKeys lookup keys s
      | .error e => (s, some e)

def applyOverrides (lookup : String → Option String) (s : Settings) :
    Settings × Option OverrideError :=
  applyKeys lookup overrideKeys s

end Settings

end ProbeNet
