import ProbeNet.Proofs.Engine.Serving

/-!
# The engine is a register unit

An engine runs between a source that shows a flit or none and a sink that is
ready or not, both as they like.  Whatever they do, the flits that it sends
are the answers of a register unit that has no flits, no phases and no
waiting: `engine_sends_answers`.

* `EngineRun` is the engine with what it has taken and sent so far.
* `EngineRun.serves` is the invariant of `Engine.Serves` along a run.
-/

namespace ProbeNet

open Register

/-- An engine, the flits that it has taken and the flits that it has sent. -/
structure EngineRun where
  engine : Engine ModuleBackend
  taken : List Flit := []
  sent : List Flit := []

namespace EngineRun

/-- One step between a source that shows `input` and a sink that is ready or
not. -/
def tick (r : EngineRun) (input : Option Flit) (ready : Bool) : EngineRun :=
  let step := r.engine.tick input ready
  { engine := step.engine
    taken := r.taken ++ if step.taken then input.toList else []
    sent := r.sent ++ if ready then step.offered.toList else [] }

/-- The run with some more steps.  Every step says what the source shows and whether the sink is
ready. -/
def more (r : EngineRun) (steps : List (Option Flit × Bool)) : EngineRun :=
  steps.foldl (fun r step => r.tick step.1 step.2) r

/-- A run of an engine that has served nothing yet.  Every step says what the
source shows and whether the sink is ready. -/
def ofSteps (config : EngineConfig) (backend : ModuleBackend)
    (steps : List (Option Flit × Bool)) : EngineRun :=
  steps.foldl (fun r step => r.tick step.1 step.2) { engine := .initial config backend }

theorem ofSteps_append (config : EngineConfig) (backend : ModuleBackend)
    (steps steps' : List (Option Flit × Bool)) :
    ofSteps config backend (steps ++ steps') = (ofSteps config backend steps).more steps' :=
  List.foldl_append

theorem more_append (r : EngineRun) (steps steps' : List (Option Flit × Bool)) :
    r.more (steps ++ steps') = (r.more steps).more steps' :=
  List.foldl_append

theorem serves_more {r : EngineRun} {u : RegisterUnit} (h : r.engine.Serves u r.taken r.sent)
    (steps : List (Option Flit × Bool)) :
    (r.more steps).engine.Serves u (r.more steps).taken (r.more steps).sent := by
  induction steps generalizing r with
  | nil => exact h
  | cons step steps ih => exact ih (r := r.tick step.1 step.2) (h.tick step.1 step.2)

theorem serves (config : EngineConfig) (backend : ModuleBackend)
    (steps : List (Option Flit × Bool)) :
    (ofSteps config backend steps).engine.Serves (.initial config backend)
      (ofSteps config backend steps).taken (ofSteps config backend steps).sent :=
  serves_more (r := { engine := .initial config backend })
    (Engine.serves_initial config backend) steps

end EngineRun

/-- At every step of a run an engine has sent the beginning of the answers to
the packets that it has read, and all of them whenever it is idle.  Each
register request has one answer there, the one that the unit owes to it after
the packets before it; every other packet has none.  The unit keeps its
configuration, and a register holds what the last granted write left in it. -/
theorem engine_sends_answers (config : EngineConfig) (backend : ModuleBackend)
    (steps : List (Option Flit × Bool)) :
    let u := RegisterUnit.initial config backend
    let r := EngineRun.ofSteps config backend steps
    let requests := Packet.ofStream r.taken
    r.sent <+: Packet.stream (u.answers requests) ∧
      (r.engine.isIdle = true → r.sent = Packet.stream (u.answers requests)) ∧
      ∀ before request rest, requests = before ++ request :: rest →
        (u.after before).config = config ∧
        (∀ address, (u.after before).content? address =
          ((RegisterUnit.lastWrite? address (u.writes before)).map (u.kept address)).or
            (u.content? address)) ∧
        (request.isRequest = true → ∃ answer, (u.after before).IsAnswer request answer ∧
          u.answers requests =
            u.answers before ++ answer :: (u.after (before ++ [request])).answers rest) ∧
        (request.isRequest = false →
          u.answers requests = u.answers before ++ (u.after before).answers rest) := by
  intro u r requests
  have hserves : r.engine.Serves u r.taken r.sent := EngineRun.serves config backend steps
  refine ⟨hserves.sent_prefix, hserves.sent_of_isIdle, fun before request rest hrequests => ?_⟩
  refine ⟨?_, ?_, ?_, ?_⟩
  · exact RegisterUnit.config_after u before
  · exact RegisterUnit.content?_after u before
  · intro hrequest
    rw [hrequests]
    exact u.answers_of_request before rest hrequest
  · intro hother
    rw [hrequests, RegisterUnit.answers_append, RegisterUnit.answers,
      RegisterUnit.serve_of_not_request hother]
    rfl

end ProbeNet
