import ProbeNet.Session.Error
import ProbeNet.Text.Console

/-!
# Transcripts of commands

What a run of a command leaves behind: an exit code and what it has written.
A run that fails writes why, at the end of its remarks: first what it could
not do, then, if there are any, the causes from the nearest to the last.  A
single cause stands alone; several are numbered from zero.
-/

namespace ProbeNet

/-- Why a command has failed. -/
structure Failure where
  summary : String
  /-- What that comes from, the nearest cause first. -/
  causes : List String := []
  deriving DecidableEq, Repr

namespace Failure

/-- The failure to do something because of another failure. -/
def within (f : Failure) (summary : String) : Failure :=
  { summary, causes := f.summary :: f.causes }

def causeLines : List String → List String
  | [] => []
  | [cause] => ["", "Caused by:", "    " ++ cause]
  | causes =>
    "" :: "Caused by:" ::
      (causes.zipIdx.map fun (cause, i) =>
        let number := Numeral.decimal i
        String.ofList (List.replicate (5 - number.length) ' ') ++ number ++ ": " ++ cause)

def lines (f : Failure) : List String := ("Error: " ++ f.summary) :: causeLines f.causes

/-- A failure of the transport.  What the system says about it is a cause of
its own. -/
def ofTransport (e : TransportError) : Failure :=
  match e with
  | .closed => { summary := e.message }
  | .io text => { summary := e.message, causes := [text] }

def ofSession (e : SessionError) : Failure :=
  match e with
  | .transport t => ofTransport t
  | e => { summary := e.message }

end Failure

/-- How a command ends when it does not come to its regular end. -/
inductive Halt where
  | failure (f : Failure)
  /-- It ends without a report. -/
  | exit (code : Nat)
  deriving DecidableEq, Repr

def failureCode : Nat := 1

/-- The exit code of a command, and what it writes last. -/
def Halt.ending : Except Halt Unit → Nat × Console
  | .ok () => (0, {})
  | .error (.exit code) => (code, {})
  | .error (.failure f) => (failureCode, { err := String.join (f.lines.map (· ++ "\n")) })

/-- What a run of a command leaves behind. -/
structure Transcript where
  code : Nat
  console : Console
  deriving DecidableEq, Repr

/-- The transcript of a command that has written something before its end. -/
def Transcript.ofEnding (written : Console) (r : Except Halt Unit) : Transcript :=
  let (code, last) := Halt.ending r
  { code, console := written ++ last }

end ProbeNet
