import ProbeNet.Proofs.Event.Delivery
import ProbeNet.Proofs.Session.Terms

/-!
# What calls keep to

A call for a register is quiet: it leaves the request to a register channel.  The
calls that send events hand over no register packets, and none that is longer than
the limit.  None of them changes the limit; it is found out while connecting, and
what is found out leaves room for a payload.
-/

namespace ProbeNet

open Register SessionM

/-- What calls keep to while the session is connected. -/
def Terms.connected : Terms where
  sends limit p := p.packetClass ≠ .register ∧ p.lenWords ≤ limit
  changes := Eq

/-- What connecting keeps to. -/
def Terms.connecting : Terms where
  sends _ _ := False
  changes _ _ := True

namespace Session

variable {terms : Terms} {limit : Nat}

/-! ## Registers -/

theorem quiet_checkModule (m : Address) : (checkModule m).Quiet := by
  unfold checkModule
  refine quiet_bind quiet_state fun s => ?_
  dsimp only
  split
  · split
    · exact quiet_pure ()
    · exact quiet_throw _
  · exact quiet_throw_bind _ _

theorem quiet_registerRead (m : Address) (width : Width) (address : Word) :
    (registerRead m width address).Quiet :=
  quiet_bind (quiet_checkModule m) fun _ => quiet_access _ _

theorem quiet_registerWrite (m : Address) (width : Width) (address : Word) (value : Value) :
    (registerWrite m width address value).Quiet := by
  unfold registerWrite
  dsimp only
  split
  · exact quiet_bind (quiet_checkModule m) fun _ =>
      quiet_bind (quiet_access _ _) fun _ => quiet_pure ()
  · exact quiet_throw_bind _ _

theorem quiet_registerSetBit (m : Address) (address : Word) (bit : Nat) (on : Bool) :
    (registerSetBit m address bit on).Quiet := by
  unfold registerSetBit
  dsimp only
  split
  · exact quiet_throw_bind _ _
  · refine quiet_bind (quiet_registerRead _ _ _) fun current => ?_
    generalize (if on = true then _ else _) = value
    split
    · exact quiet_registerWrite _ _ _ _
    · exact quiet_pure ()

theorem quiet_setEventDestination (m : Address) : (setEventDestination m).Quiet :=
  quiet_bind quiet_state fun _ => quiet_registerWrite _ _ _ _

theorem quiet_setEventActive (m : Address) (active : Bool) : (setEventActive m active).Quiet :=
  quiet_registerSetBit _ _ _ _

/-! ## Events -/

/-- A single event is not sent if it is too long. -/
theorem keeps_eventSend (p : Packet) :
    (eventSend p).run.Keeps .connected (fun _ _ => True) limit := by
  unfold eventSend
  refine keeps_state_bind fun s hs => ?_
  dsimp only
  split
  · split
    · exact keeps_throw_bind trivial
    · rename_i hclass
      unfold Packet.checkLen
      by_cases hlen : p.lenWords ≤ s.maxPacketLen
      · rw [if_pos hlen]
        exact keeps_send ⟨hclass, hs ▸ hlen⟩ fun _ => trivial
      · rw [if_neg hlen]
        trivial
  · exact keeps_throw_bind trivial

theorem keeps_sendAll {ps : List Packet} (hps : ∀ p ∈ ps, terms.sends limit p) :
    (sendAll ps).run.Keeps terms (fun _ limit' => limit' = limit) limit := by
  induction ps with
  | nil => rfl
  | cons p ps ih =>
    refine SessionM.keeps_bind (keeps_send (hps p List.mem_cons_self) fun r => ?_)
    cases r with
    | ok _ => exact ih fun q hq => hps q (List.mem_cons_of_mem p hq)
    | error _ => rfl

/-- The packets of an event fill the limit, and do not exceed it. -/
theorem lenWords_of_mem_fragment {dest src : Address} {payload : List Word} {ps : List Packet}
    (h : fragment dest src payload (maxPayloadWords limit) = .ok ps) {p : Packet} (hp : p ∈ ps) :
    p.packetClass = .event ∧ p.lenWords ≤ limit := by
  cases hwords : maxPayloadWords limit with
  | zero =>
    rw [hwords] at h
    cases h
  | succ words =>
    rw [hwords] at h
    obtain rfl : fragments dest src .eventLast words payload = ps := Except.ok.inj h
    have hlength := length_of_mem_fragments hp
    refine ⟨(mem_fragments hp).2.2, ?_⟩
    unfold Packet.lenWords
    unfold maxPayloadWords at hwords
    omega

/-- An event of any length is sent in packets that are short enough. -/
theorem keeps_eventSendPayload (m : Address) (payload : List Word) :
    (eventSendPayload m payload).run.Keeps .connected (fun _ _ => True) limit := by
  unfold eventSendPayload
  refine (quiet_checkModule m).keeps_bind (fun _ => rfl) (fun _ => ?_) fun _ => trivial
  refine keeps_state_bind fun s hs => ?_
  cases hpackets : fragment m s.config.host payload s.maxEventWords with
  | error e => trivial
  | ok packets =>
    have hallowed : ∀ p ∈ packets, Terms.connected.sends limit p := by
      intro p hp
      rw [maxEventWords, hs] at hpackets
      obtain ⟨hclass, hlen⟩ := lenWords_of_mem_fragment hpackets hp
      exact ⟨by simp [hclass], hlen⟩
    exact SessionM.keeps_bind ((keeps_sendAll hallowed).mono (fun _ _ => id) (fun _ _ => id)
      fun r _ _ => by cases r <;> trivial)

/-! ## Connecting -/

theorem quiet_readWord (m : Address) (address : Word) : (readWord m address).Quiet :=
  quiet_bind (quiet_access _ _) fun _ => quiet_pure _

theorem quiet_describe (m : Address) : (describe m).Quiet :=
  quiet_bind (quiet_readWord _ _) fun _ => quiet_bind (quiet_readWord _ _) fun _ =>
    quiet_bind (quiet_readWord _ _) fun _ => quiet_pure _

theorem quiet_enterModule (m : Address) : (enterModule m).Quiet := by
  refine quiet_bind (quiet_attempt (quiet_describe m)) fun r => ?_
  cases r with
  | ok identity => exact quiet_bind (quiet_modify fun _ => rfl) fun _ => quiet_pure true
  | error e => exact quiet_bind (quiet_modify fun _ => rfl) fun _ => quiet_pure false

theorem quiet_enterModules (ms : List Address) : (enterModules ms).Quiet := by
  induction ms with
  | nil => exact quiet_pure []
  | cons m ms ih =>
    exact quiet_bind (quiet_enterModule m) fun _ => quiet_bind ih fun _ => quiet_pure _

/-- A discovery that has succeeded reports the limit that it leaves, and packets have
room for a payload. -/
def Finds : Except SessionError DiscoveryReport → Nat → Prop
  | .ok report, limit => report.maxPacketLen = limit ∧ maxPayloadWords limit ≠ 0
  | .error _, _ => True

theorem keeps_discover : discover.run.Keeps .connecting Finds limit := by
  unfold discover
  refine (quiet_modify fun _ => rfl).keeps_bind (fun _ => trivial) (fun _ => ?_) fun _ => trivial
  refine (quiet_readWord _ _).keeps_bind (fun _ => trivial) (fun modules => ?_) fun _ => trivial
  refine (quiet_readWord _ _).keeps_bind (fun _ => trivial) (fun len => ?_) fun _ => trivial
  dsimp only
  split
  · exact keeps_throw_bind trivial
  · rename_i hroom
    refine SessionM.keeps_bind fun s hs => ⟨trivial, ?_⟩
    exact (quiet_enterModules _).keeps_bind (fun _ => trivial) (fun undescribed => ⟨rfl, hroom⟩)
      fun _ => trivial

/-- Connecting that succeeds has found out the limit. -/
theorem keeps_connect : connect.run.Keeps .connecting Finds limit := by
  unfold connect
  refine quiet_takeStep.keeps_bind (fun _ => trivial) (fun _ => ?_) fun _ => trivial
  refine keeps_state_bind fun s hs => ?_
  dsimp only
  split
  · exact keeps_throw_bind trivial
  · refine (quiet_modify fun _ => rfl).keeps_bind (fun _ => trivial) (fun _ => ?_) fun _ => trivial
    refine SessionM.keeps_bind (Operation.keeps_bind (keeps_discover.mono (fun _ _ => id)
      (fun _ _ => id) fun r l hr => ?_))
    cases r with
    | ok report => exact hr
    | error e => exact fun s hs => ⟨trivial, trivial⟩

end Session

end ProbeNet
