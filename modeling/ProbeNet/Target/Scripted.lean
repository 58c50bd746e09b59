import ProbeNet.Packet.Basic

/-!
# Scripted targets

A target that answers by a script: the first packet it receives with the
first entry, and so on, and every packet behind the end of the script in one
and the same way.
-/

namespace ProbeNet

/-- A packet that answers another one.  It goes back to the sender unless it
says otherwise. -/
structure ScriptedReply where
  kind : PacketKind
  payload : List Word
  /-- The source, if it is not where the other packet went. -/
  src : Option Address := none
  /-- The destination, if it is not where the other packet came from. -/
  dest : Option Address := none
  delayMs : Nat := 0
  deriving DecidableEq, Repr

def ScriptedReply.toPacket (r : ScriptedReply) (p : Packet) : Packet :=
  let reply := p.reply r.kind r.payload
  { reply with src := r.src.getD reply.src, dest := r.dest.getD reply.dest }

/-- What a target does about one packet. -/
inductive ScriptEntry where
  | silent
  | hangUp
  | reply (replies : List ScriptedReply)
  deriving DecidableEq, Repr

/-- A script, as far as it has not been followed yet. -/
structure ScriptedTarget where
  script : List ScriptEntry
  /-- What to do when the script is at its end. -/
  fallback : ScriptEntry
  deriving DecidableEq, Repr

def ScriptedTarget.next (t : ScriptedTarget) : ScriptedTarget × ScriptEntry :=
  match t.script with
  | [] => (t, t.fallback)
  | e :: rest => ({ t with script := rest }, e)

end ProbeNet
