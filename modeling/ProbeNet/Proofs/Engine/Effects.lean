import ProbeNet.Proofs.Engine.Refinement
import ProbeNet.Proofs.Register.Effects

/-!
# What an engine does to its registers

Between two moments in which an engine has no packet in hand it may have read one packet.  If it
has granted a write, the register that the packet names is the only one that may have changed;
in all other cases, whatever the packet was, the registers are as they were.  A refused request
leaves no trace, however far it got before it was refused.

* `Engine.unit` are the registers of an engine as a register unit.
* `Serving.unit_of_quiet` reads them off the invariant of `Engine.Serves`, and
  `only_granted_writes_change_registers` is what a run comes to.
-/

namespace ProbeNet

open Register

namespace Engine

/-- The registers of an engine.  How far its backend is with an access does not count. -/
def unit (e : Engine ModuleBackend) : RegisterUnit where
  config := e.config
  registers := e.registers
  backend := e.backend.settled

variable {u : RegisterUnit} {e : Engine ModuleBackend} {read sent : List Flit}
  {done : List Packet}

theorem Matches.unit_eq (h : e.Matches u) : e.unit = u.settled := by
  rw [unit, RegisterUnit.settled, h.config, h.registers, h.backend]

/-- An engine without a packet in hand is done with all packets that it has read. -/
theorem Serving.unit_of_quiet (h : Serving u e read sent done) (hquiet : e.phase.inHand = none) :
    done = Packet.ofStream read ∧ e.unit = (u.after done).settled := by
  obtain ⟨-, -, hpackets, -, -, hknown⟩ := h
  rw [hquiet] at hpackets
  refine ⟨by simpa using hpackets.symm, Matches.unit_eq ?_⟩
  cases hphase : e.phase with
  | idle | respond =>
    rw [hphase] at hknown
    exact hknown
  | _ => simp [hphase, EnginePhase.inHand] at hquiet

/-- At any time the registers are those that some of the packets have left. -/
theorem Serves.exists_unit (h : Serves u e read sent) : ∃ ps, e.unit = (u.after ps).settled := by
  obtain ⟨done, h⟩ := h
  have hknown := h.known
  cases hphase : e.phase with
  | idle | respond | decode request =>
    rw [hphase] at hknown
    exact ⟨done, Matches.unit_eq hknown⟩
  | dispatch request t | await request t responder =>
    rw [hphase] at hknown
    exact ⟨done, Matches.unit_eq hknown.1⟩
  | conclude request t outcome =>
    rw [hphase] at hknown
    refine ⟨done ++ [request], Matches.unit_eq ?_⟩
    rw [RegisterUnit.after_append, RegisterUnit.after_singleton]
    exact hknown.1

end Engine

namespace EngineRun

/-- The answers that the engine has made; it may not have sent all of them. -/
def answered (r : EngineRun) : List Packet := Packet.ofStream (r.sent ++ r.engine.writer.flits)

variable {u : RegisterUnit} {r r' : EngineRun} {done done' : List Packet}

theorem answered_eq (h : r.engine.Serving u r.taken r.sent done) : r.answered = u.answers done := by
  rw [answered, h.answered, Packet.ofStream_stream]

/-- Between two moments without a packet in hand the unit has served the packet that was read. -/
theorem effect_between (h : r.engine.Serves u r.taken r.sent)
    (h' : r'.engine.Serves u r'.taken r'.sent) (hquiet : r.engine.phase.inHand = none)
    (hquiet' : r'.engine.phase.inHand = none) {run : List Flit}
    (hread : Flit.runs r'.taken = Flit.runs r.taken ++ [run]) :
    ∃ answer?, r'.answered = r.answered ++ answer?.toList ∧
      r.engine.unit.Effect (Packet.ofFlits run).toOption answer? r'.engine.unit := by
  obtain ⟨done, h⟩ := h
  obtain ⟨done', h'⟩ := h'
  obtain ⟨hdone, hunit⟩ := h.unit_of_quiet hquiet
  obtain ⟨hdone', hunit'⟩ := h'.unit_of_quiet hquiet'
  have hstream : Packet.ofStream r'.taken =
      Packet.ofStream r.taken ++ (Packet.ofFlits run).toOption.toList :=
    Packet.ofStream_of_runs_snoc hread
  rw [hdone', hstream, ← hdone] at hunit'
  rw [answered_eq h, answered_eq h', hdone', hstream, ← hdone, hunit, hunit']
  cases (Packet.ofFlits run).toOption with
  | none => exact ⟨none, by simp, by simpa using RegisterUnit.effect_none _⟩
  | some p =>
    refine ⟨((u.after done).serve p).2, ?_, ?_⟩
    · simp [RegisterUnit.answers_append]
    · rw [Option.toList_some, RegisterUnit.after_append, RegisterUnit.after_singleton]
      exact RegisterUnit.effect_serve _ p

end EngineRun

/-- Take a run of an engine, and the same run with some more steps, such that the engine has no
packet in hand at the end of either, and has read one packet in between.

Then it has made one answer to this packet or none.  Unless it is the success of a write, all
registers are the same as before: the base registers and everything in the backend.  If it is,
then the packet was a request to write, and the registers are the same except the one that it
names.  A request to read never changes anything.

And whatever has been requested, what the module is can be read as it was configured, events go to
an address, a module that cannot stall is active, and of the control registers of a subnet only
the two reset lines can have changed. -/
theorem only_granted_writes_change_registers (config : EngineConfig) (backend : ModuleBackend)
    (steps : List (Option Flit × Bool)) :
    let r := EngineRun.ofSteps config backend steps
    (∀ more run,
      let r' := EngineRun.ofSteps config backend (steps ++ more)
      r.engine.phase.inHand = none → r'.engine.phase.inHand = none →
      Flit.runs r'.taken = Flit.runs r.taken ++ [run] →
      ∃ answer?, r'.answered = r.answered ++ answer?.toList ∧
        r.engine.unit.Effect (Packet.ofFlits run).toOption answer? r'.engine.unit) ∧
      r.engine.registers.read vendorAddress = .ok config.identity.vendor.code ∧
      r.engine.registers.read typeAddress = .ok config.identity.moduleType.code ∧
      r.engine.registers.read versionAddress = .ok config.identity.version ∧
      (∃ w, r.engine.registers.read eventDestAddress = .ok w ∧ w ≤ 0x3ff) ∧
      (config.canStall = false → r.engine.registers.isActive = true) ∧
      ∀ b, backend = .control b → ∃ b', r.engine.backend = .control b' ∧
        (∀ a, a ≠ resetAddress → b'.read a = b.read a) ∧
        ∃ w, b'.read resetAddress = .ok w ∧ w ≤ 3 := by
  intro r
  obtain ⟨ps, hunit⟩ := (EngineRun.serves config backend steps).exists_unit
  have hfixed : r.engine.unit.fixed = (RegisterUnit.initial config backend).fixed := by
    rw [hunit, RegisterUnit.fixed_settled, RegisterUnit.fixed_after]
  obtain ⟨hidentity, hactive⟩ := BaseRegisters.of_fixed_eq_initial
    (congrArg RegisterUnit.registers hfixed)
  have hbackend : r.engine.backend.fixed = backend.fixed := by
    rw [← ModuleBackend.fixed_settled]
    exact congrArg RegisterUnit.backend hfixed
  refine ⟨?_, ?_, ?_, ?_, r.engine.registers.read_eventDest, hactive, ?_⟩
  · intro more run r' hquiet hquiet' hread
    exact EngineRun.effect_between (EngineRun.serves config backend steps)
      (EngineRun.serves config backend (steps ++ more)) hquiet hquiet' hread
  · rw [← hidentity]
    rfl
  · rw [← hidentity]
    rfl
  · rw [← hidentity]
    rfl
  · rintro b rfl
    obtain ⟨b', hb', hread⟩ := ModuleBackend.control_of_fixed_eq hbackend
    exact ⟨b', hb', hread, b'.read_reset⟩

/-- A module that cannot stall describes a subnet.  Its backend refuses to write the number of
modules, which leaves no trace; then both reset lines are set, and nothing else. -/
theorem only_granted_writes_change_registers_resets :
    let b : ControlBackend :=
      { systemVendor := 1, systemDevice := 2, moduleCount := 3, maxPacketLen := 12, reset := 0 }
    let write (address value : Word) : Packet :=
      { dest := 0, src := 0x3ff, kind := .register (.writeRequest .w16),
        payload := [address, value] }
    let served (p : Packet) : List (Option Flit × Bool) :=
      p.toFlits.map (some ·, true) ++ List.replicate 9 (none, true)
    let refused := write moduleCountAddress 9
    let granted := write resetAddress 0xffff
    let config : EngineConfig := { identity := .standard .control 0, canStall := false }
    let run := EngineRun.ofSteps config (.control b)
    let before := run []
    let between := run (served refused)
    let after := run (served refused ++ served granted)
    [before, between, after].map (fun r => r.engine.phase.inHand) = [none, none, none] ∧
      between.answered = [refused.reply (.register .writeError) []] ∧
      between.engine.unit = before.engine.unit ∧
      after.answered = between.answered ++ [granted.reply (.register .writeSuccess) []] ∧
      between.engine.unit.AgreeExcept resetAddress after.engine.unit ∧
      after.engine.registers.isActive = true ∧
      ∃ b', after.engine.backend = .control b' ∧
        (∀ a, a ≠ resetAddress → b'.read a = b.read a) ∧ b'.read resetAddress = .ok 3 := by
  intro b write served refused granted config run before between after
  obtain ⟨hbefore, hbetween, hafter⟩ : before.engine.phase.inHand = none ∧
      between.engine.phase.inHand = none ∧ after.engine.phase.inHand = none := by decide +kernel
  have hfirst : Flit.runs between.taken = Flit.runs before.taken ++ [refused.toFlits] ∧
      before.answered = [] ∧ between.answered = [refused.reply (.register .writeError) []] := by
    decide +kernel
  have hsecond : Flit.runs after.taken = Flit.runs between.taken ++ [granted.toFlits] ∧
      (Packet.ofFlits granted.toFlits).toOption = some granted ∧
      after.answered = between.answered ++ [granted.reply (.register .writeSuccess) []] := by
    decide +kernel
  obtain ⟨hread, hnone, hrefused⟩ := hfirst
  obtain ⟨hread', hpacket, hgranted⟩ := hsecond
  refine ⟨by simp [hbefore, hbetween, hafter], hrefused, ?_, hgranted, ?_, ?_⟩
  · obtain ⟨heffect, -⟩ := only_granted_writes_change_registers config (.control b) []
    obtain ⟨answer?, hanswered, hunit⟩ := heffect _ _ hbefore hbetween hread
    replace hanswered : between.answered = before.answered ++ answer?.toList := hanswered
    rw [hrefused, hnone] at hanswered
    obtain rfl := Option.toList_eq_singleton_iff.mp hanswered.symm
    refine hunit.refused fun answer hanswer => ?_
    obtain rfl := Option.some.inj hanswer
    exact nofun
  · obtain ⟨heffect, -⟩ :=
      only_granted_writes_change_registers config (.control b) (served refused)
    obtain ⟨answer?, hanswered, hunit⟩ := heffect _ _ hbetween hafter hread'
    replace hanswered : after.answered = between.answered ++ answer?.toList := hanswered
    rw [hgranted] at hanswered
    obtain rfl := Option.toList_eq_singleton_iff.mp (List.append_cancel_left hanswered).symm
    obtain ⟨request, hrequest, w, address, ws, -, hpayload, hagree⟩ := hunit.granted _ rfl rfl
    rw [hpacket] at hrequest
    obtain rfl := Option.some.inj hrequest
    obtain ⟨rfl, -⟩ := List.cons.inj hpayload
    exact hagree
  · obtain ⟨-, -, -, -, -, hactive, hlines⟩ :=
      only_granted_writes_change_registers config (.control b) (served refused ++ served granted)
    obtain ⟨b', hb', hsame, -⟩ := hlines b rfl
    have hlast : after.engine.backend = .control { b with reset := 3 } := by decide +kernel
    obtain rfl := ModuleBackend.control.inj (hb'.symm.trans hlast)
    exact ⟨hactive rfl, _, hlast, hsame, rfl⟩

end ProbeNet
