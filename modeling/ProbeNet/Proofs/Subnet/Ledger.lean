import ProbeNet.Proofs.Module.Ledger
import ProbeNet.Proofs.Subnet.Routing

/-!
# The ledger of a subnet

No packet vanishes in a subnet.  When it is idle, each packet of the host has been counted by the
router, each packet that was routed to a module has been counted there or was collected from its
inbox, and for each request and for each packet of an event one packet has left:
`idle_subnet_accounts`.

* A `SubnetLedger` is a run that keeps account of what cannot be seen in the flits: the answers
  that were made, the events that were queued and the packets that were collected.
* `SubnetLedger.Balanced` ties it to the accounts of the modules and of the router, and each
  action keeps it.
-/

namespace ProbeNet

open Register

/-! ## Runs -/

namespace Subnet

/-- The answer that the engine of the module at place `i` makes in the next step. -/
def answer? (s : Subnet) (i : Nat) : Option Packet :=
  (s.nodes[i]?.map Node.module).bind fun m => m.engine.answer?

/-- The packets that a module queues for an event that it is made to emit; none if there is no
such module. -/
def queuedBy (s : Subnet) (a : Address) (payload : List Word) : List Packet :=
  ((s.module? a).map fun m => m.queuedBy payload).getD []

end Subnet

/-- A run that also keeps account of what the modules make, queue and have collected. -/
structure SubnetLedger extends RouterRun where
  /-- What is on record of the module at each place. -/
  records : Nat → ModuleRecord := fun _ => {}
  /-- How many event packets the calls have reported. -/
  emitted : Nat := 0

namespace SubnetLedger

/-- The ledger after one more action.  Engines make answers in a step. -/
def act (l : SubnetLedger) (action : SubnetAction) : SubnetLedger :=
  let l' : SubnetLedger := { l with toRouterRun := l.toRouterRun.act (.act action) }
  match action with
  | .push _ | .pop => l'
  | .step =>
    { l' with
      records := fun i =>
        { l.records i with answered := (l.records i).answered ++ (l.subnet.answer? i).toList } }
  | .emit a payload =>
    { l' with
      records := Function.update l.records a.toNat
        { l.records a.toNat with
          queued := (l.records a.toNat).queued ++ l.subnet.queuedBy a payload }
      emitted := l.emitted + (l.subnet.emitEvent a payload).2.toOption.getD 0 }
  | .takeInbox a =>
    { l' with
      records := Function.update l.records a.toNat
        { l.records a.toNat with
          collected := (l.records a.toNat).collected ++
            (l.subnet.takeInbox a).2.toOption.getD [] } }

/-- The ledger of some actions on a subnet. -/
def ofActions (s : Subnet) (actions : List SubnetAction) : SubnetLedger :=
  actions.foldl act { subnet := s }

end SubnetLedger

/-! ## The accounts of the modules -/

namespace Subnet

/-- The modules were given `received`, and what is on record of them is so. -/
def Accounted (s : Subnet) (records : Nat → ModuleRecord) (received : Nat → List Flit)
    (popped : List Flit) (merged : Passage) : Prop :=
  s.Hosts (fun i m sent => m.Accounted (BitVec.ofNat 10 i) (records i) (received i) sent) popped
    merged

variable {s : Subnet} {records : Nat → ModuleRecord} {received : Nat → List Flit}
  {popped : List Flit} {merged : Passage}

theorem Accounted.stepNodes (h : s.Accounted records received popped merged) :
    ({ s with nodes := s.nodes.map stepNode } : Subnet).Accounted
      (fun i => { records i with answered := (records i).answered ++ (s.answer? i).toList })
      received popped merged := by
  refine Hosts.stepNodes h fun i n sent ready hn hm => ?_
  have hanswer : s.answer? i = n.module.engine.answer? := by
    rw [answer?, hn]
    rfl
  simp only [hanswer]
  exact hm.tick ready

theorem Accounted.stepRouter (h : s.Accounted records received popped merged) :
    s.stepRouter.Accounted records (fun i => received i ++ s.handed i) popped merged := by
  obtain ⟨hegress, harbiter, hnodes | ⟨j, n, f, hn, hnodes⟩⟩ := s.stepRouter_frame
  · simp only [handed_of_nodes hnodes, List.append_nil]
    exact Hosts.congr h hnodes hegress harbiter
  · have hpushed : (s.modifyModule j fun m => { m with input := m.input.push f }).Accounted records
        (fun i => received i ++ s.handed i) popped merged := by
      refine Hosts.modifyModule h (fun i n' sent _ hne hm => ?_) fun n' sent hn' hm => ?_
      · have hnothing : s.handed i = [] := by
          rw [handed_of_push hn hnodes, if_neg fun hpushed => hne hpushed.1]
        simpa only [hnothing, List.append_nil] using hm
      · obtain rfl := Option.some.inj (hn.symm.trans hn')
        simpa only [handed_of_push hn hnodes, true_and] using hm.push f
    exact Hosts.congr hpushed hnodes hegress harbiter

/-- In a step the engines make their answers, and the router hands flits over. -/
theorem Accounted.step (h : s.Accounted records received popped merged) :
    ∃ merged', s.step.Accounted
      (fun i => { records i with answered := (records i).answered ++ (s.answer? i).toList })
      (fun i => received i ++ s.routing.handed i) popped merged' := by
  have hcount : ({ s with counts.steps := s.counts.steps + 1 } : Subnet).Accounted records received
      popped merged := Hosts.congr h rfl rfl rfl
  obtain ⟨merged', h⟩ := Hosts.stepEgress hcount
  have hanswer : ∀ i, (stepEgress { s with counts.steps := s.counts.steps + 1 }).answer? i =
      s.answer? i := by
    intro i
    rw [answer?, module_stepEgress]
    rfl
  have hnodes := Accounted.stepNodes h
  simp only [hanswer] at hnodes
  exact ⟨merged', hnodes.stepRouter⟩

/-- The account of one module changes with the module. -/
theorem Accounted.modifyModule (h : s.Accounted records received popped merged) {i : Nat}
    {g : DebugModule ModuleBackend → DebugModule ModuleBackend} {record : ModuleRecord}
    (hg : ∀ n sent, s.nodes[i]? = some n →
      n.module.Accounted (BitVec.ofNat 10 i) (records i) (received i) sent →
      (g n.module).Accounted (BitVec.ofNat 10 i) record (received i) sent) :
    (s.modifyModule i g).Accounted (Function.update records i record) received popped merged := by
  refine Hosts.modifyModule h (fun j n sent hn hne hm => ?_) fun n sent hn hm => ?_
  · rw [Function.update_of_ne hne.symm]
    exact hm
  · rw [Function.update_self]
    exact hg n sent hn hm

theorem Accounted.emitEvent (h : s.Accounted records received popped merged) (a : Address)
    (payload : List Word) :
    (s.emitEvent a payload).1.Accounted
      (Function.update records a.toNat
        { records a.toNat with queued := (records a.toNat).queued ++ s.queuedBy a payload })
      received popped merged := by
  rw [emitEvent_fst]
  refine h.modifyModule fun n sent hn hm => ?_
  have hqueued : s.queuedBy a payload = n.module.queuedBy payload := by
    simp [queuedBy, module?, hn]
  rw [hqueued]
  exact hm.emitEvent payload

theorem Accounted.takeInbox (h : s.Accounted records received popped merged) (a : Address) :
    (s.takeInbox a).1.Accounted
      (Function.update records a.toNat
        { records a.toNat with
          collected := (records a.toNat).collected ++ (s.takeInbox a).2.toOption.getD [] })
      received popped merged := by
  rw [takeInbox_fst]
  refine h.modifyModule fun n sent hn hm => ?_
  have hcollected : (s.takeInbox a).2.toOption.getD [] = n.module.takeInbox.2 := by
    simp [Subnet.takeInbox, module?, hn, Except.toOption]
  rw [hcollected]
  exact hm.takeInbox

/-- As many packets are reported as are queued. -/
theorem emitEvent_snd (s : Subnet) (a : Address) (payload : List Word) :
    (s.emitEvent a payload).2.toOption.getD 0 = (s.queuedBy a payload).length := by
  cases hm : s.module? a with
  | none => simp [emitEvent, queuedBy, hm, Except.toOption]
  | some m =>
    simp only [emitEvent, queuedBy, hm, Option.map_some, Option.getD_some]
    exact (m.emitEvent_queues payload).2.1

theorem queuedBy_of_le {a : Address} (ha : s.nodes.length ≤ a.toNat) (payload : List Word) :
    s.queuedBy a payload = [] := by
  simp [queuedBy, module?, ha]

theorem accounted_initial {link : LinkSettings} {target : TargetSettings}
    {backends : List MapBackend} (h : withBackends link target backends = .ok s) :
    s.Accounted (fun _ => {}) (fun _ => []) [] {} := by
  obtain ⟨-, hnodes⟩ := nodes_of_withBackends h
  refine ⟨(traces_initial h).merges, fun i n hn => ?_⟩
  obtain ⟨hout, config, backend, -, hmodule⟩ := hnodes i n hn
  rw [hout]
  exact ⟨_, _, DebugModule.accounts_initial hmodule, rfl, rfl⟩

end Subnet

/-! ## The balance -/

namespace SubnetLedger

/-- The ledger is right.  The router has taken the flits `taken`, and the arbiter has let `merged`
through. -/
structure Balanced (l : SubnetLedger) (limit count : Nat) (taken : List Flit) (merged : Passage) :
    Prop where
  modules : l.subnet.Accounted l.records l.received l.popped merged
  router : l.subnet.Dispatches limit count l.accepted taken l.received
  emitted : l.emitted = ((List.range count).map fun i => (l.records i).queued.length).sum

variable {l : SubnetLedger} {limit count : Nat} {taken : List Flit} {merged : Passage}

theorem Balanced.emit (b : l.Balanced limit count taken merged) (a : Address)
    (payload : List Word) : (l.act (.emit a payload)).Balanced limit count taken merged := by
  refine ⟨b.modules.emitEvent a payload, b.router.emitEvent a payload, ?_⟩
  have hqueued : ∀ i, ((l.act (.emit a payload)).records i).queued.length =
      (l.records i).queued.length +
        if a.toNat = i then (l.subnet.queuedBy a payload).length else 0 := by
    intro i
    show (Function.update l.records a.toNat _ i).queued.length = _
    by_cases hi : a.toNat = i
    · subst hi
      rw [Function.update_self, if_pos rfl, List.length_append]
    · rw [Function.update_of_ne (Ne.symm hi), if_neg hi]
      rfl
  simp only [hqueued]
  rw [sum_range_add, ← b.emitted]
  show l.emitted + (l.subnet.emitEvent a payload).2.toOption.getD 0 = _
  rw [Subnet.emitEvent_snd]
  split
  · rfl
  · rename_i hplace
    rw [Subnet.queuedBy_of_le (b.router.places ▸ Nat.not_lt.mp hplace)]
    rfl

theorem Balanced.takeInbox (b : l.Balanced limit count taken merged) (a : Address) :
    (l.act (.takeInbox a)).Balanced limit count taken merged := by
  refine ⟨b.modules.takeInbox a, b.router.takeInbox a, ?_⟩
  have hqueued : ∀ i, ((l.act (.takeInbox a)).records i).queued = (l.records i).queued := by
    intro i
    show (Function.update l.records a.toNat _ i).queued = _
    by_cases hi : a.toNat = i
    · subst hi
      rw [Function.update_self]
    · rw [Function.update_of_ne (Ne.symm hi)]
  simp only [hqueued]
  exact b.emitted

/-- Each action keeps the balance. -/
theorem Balanced.act (b : l.Balanced limit count taken merged) (action : SubnetAction) :
    ∃ taken' merged', (l.act action).Balanced limit count taken' merged' := by
  cases action with
  | push f => exact ⟨taken, merged, b.modules.congr rfl rfl rfl, b.router.pushIngress f, b.emitted⟩
  | pop => exact ⟨taken, merged, b.modules.popEgress, b.router.congr rfl rfl rfl rfl rfl rfl,
      b.emitted⟩
  | step =>
    obtain ⟨merged', hmodules⟩ := b.modules.step
    obtain ⟨taken', hrouter⟩ := b.router.step
    exact ⟨taken', merged', hmodules, hrouter, b.emitted⟩
  | emit a payload => exact ⟨taken, merged, b.emit a payload⟩
  | takeInbox a => exact ⟨taken, merged, b.takeInbox a⟩

/-- The ledger is right in every state that a run reaches. -/
theorem balanced {link : LinkSettings} {target : TargetSettings} {backends : List MapBackend}
    {s : Subnet} (h : Subnet.withBackends link target backends = .ok s)
    (actions : List SubnetAction) :
    ∃ taken merged,
      (ofActions s actions).Balanced link.maxPacketLen s.moduleCount taken merged := by
  induction actions using List.reverseRecOn with
  | nil =>
    refine ⟨[], {}, Subnet.accounted_initial h, Subnet.dispatches_initial h, ?_⟩
    simp [ofActions]
  | append_singleton actions action ih =>
    obtain ⟨taken, merged, b⟩ := ih
    rw [ofActions, List.foldl_append]
    exact b.act action

/-! ## When the subnet is idle -/

/-- Every packet is too long, or for one module, or for nobody. -/
theorem length_eq_add_routes (limit count : Nat) (rs : List (List Flit)) :
    rs.length = ((List.range count).map fun i => (rs.filter (Subnet.goesTo limit i)).length).sum +
      (rs.filter fun p => p.length ≤ limit && count ≤ Subnet.destOf p).length +
      (rs.filter fun p => limit < p.length).length := by
  induction rs with
  | nil => simp
  | cons r rs ih =>
    have hgoes : ∀ i, ((r :: rs).filter (Subnet.goesTo limit i)).length =
        (rs.filter (Subnet.goesTo limit i)).length +
          if Subnet.destOf r = i then (if r.length ≤ limit then 1 else 0) else 0 := by
      intro i
      by_cases hshort : r.length ≤ limit <;> by_cases hi : Subnet.destOf r = i <;>
        simp [Subnet.goesTo, hshort, hi]
    simp only [hgoes]
    rw [sum_range_add, List.length_cons, ih]
    by_cases hshort : r.length ≤ limit
    · by_cases hplace : Subnet.destOf r < count
      · simp [hshort, hplace]
        omega
      · simp [hshort, hplace, Nat.not_lt.mp hplace]
        omega
    · simp [hshort, Nat.not_le.mp hshort]
      omega

/-- A sum over places that is one over the elements and one over the places. -/
theorem sum_range_eq_add {α : Type} (xs : List α) {f k : Nat → Nat} {g : α → Nat}
    (h : ∀ i x, xs[i]? = some x → f i = g x + k i) :
    ((List.range xs.length).map f).sum =
      (xs.map g).sum + ((List.range xs.length).map k).sum := by
  induction xs using List.reverseRecOn with
  | nil => rfl
  | append_singleton xs x ih =>
    have hbefore := ih fun i y hy => h i y (by
      rw [List.getElem?_append_left (List.getElem?_eq_some_iff.mp hy).1, hy])
    have hlast := h xs.length x (by simp)
    simp only [List.length_append, List.length_singleton, List.range_succ, List.map_append,
      List.sum_append, List.map_cons, List.map_nil, List.sum_singleton]
    omega

/-- The router of an idle subnet has taken everything and has nothing in hand. -/
theorem Balanced.router_of_isIdle (b : l.Balanced limit count taken merged)
    (hidle : l.subnet.isIdle = true) :
    (∀ i < count, l.received i = Subnet.deliveries limit i l.accepted) ∧
      l.accepted.countP Flit.last = l.subnet.counts.routed + l.subnet.counts.unroutable +
        l.subnet.counts.oversized := by
  obtain ⟨hingress, -, hstaged, hphase, -⟩ := Subnet.isIdle_iff.mp hidle
  have htaken : l.accepted = taken := by
    rw [b.router.ingress, hingress, List.append_nil]
  have hreceived : ∀ i < count, l.received i = Subnet.deliveries limit i taken := by
    intro i hi
    have hmodule := b.router.modules i hi
    rwa [Subnet.pendingFor_of_not_forward (by simp [hphase]), List.append_nil] at hmodule
  refine ⟨htaken ▸ hreceived, ?_⟩
  have hopen : Flit.openRun taken = [] := by
    rw [← (b.router.router.of_collect hphase).1, hstaged]
  have hoversized : Subnet.oversized limit taken =
      (Flit.runs taken).filter fun p => limit < p.length := by
    rw [Subnet.oversized, Flit.packets, hopen, List.filter_append]
    simp
  have hrouted : l.subnet.counts.routed = ((List.range count).map fun i =>
      ((Flit.runs taken).filter (Subnet.goesTo limit i)).length).sum := by
    rw [b.router.routed]
    refine congrArg List.sum (List.map_congr_left fun i hi => ?_)
    rw [hreceived i (List.mem_range.mp hi), ← Flit.length_runs, Subnet.runs_deliveries]
  rw [htaken, ← Flit.length_runs, hrouted, b.router.unroutable, b.router.oversized, hoversized]
  exact length_eq_add_routes limit count (Flit.runs taken)

/-- An idle module has counted the packets that it was given, or someone has collected them. -/
theorem Balanced.module_of_isIdle (b : l.Balanced limit count taken merged)
    (hidle : l.subnet.isIdle = true) {i : Nat} {n : Node} (hn : l.subnet.nodes[i]? = some n) :
    (l.received i).countP Flit.last = n.module.settled + (l.records i).collected.length ∧
      (merged.share i).countP Flit.last =
        n.module.engine.stats.requests + (l.records i).queued.length := by
  obtain ⟨hslot, hmodule⟩ := (Subnet.idle_parts hidle).2 i n hn
  obtain ⟨u, h, c, hreceived, hsent⟩ := b.modules.modules i n hn
  obtain ⟨hinFlight, hleaving, -⟩ := c.of_isIdle hmodule
  have hin := c.balance
  have hout := c.balance_out
  rw [hslot, Option.toList_none, List.append_nil] at hsent
  rw [hreceived, hinFlight, Nat.zero_add] at hin
  rw [hsent, hleaving, Nat.add_zero] at hout
  exact ⟨hin, hout⟩

/-- What has left an idle subnet are as many packets as there were requests and event packets. -/
theorem Balanced.popped_of_isIdle (b : l.Balanced limit count taken merged)
    (hidle : l.subnet.isIdle = true) :
    (Flit.runs l.popped).length =
      (l.subnet.nodes.map fun n => n.module.engine.stats.requests).sum + l.emitted := by
  have hmerges := b.modules.merges
  have hpopped : l.popped = merged.whole := by
    rw [hmerges.egress, (Subnet.idle_parts hidle).1, List.append_nil]
  have hplaces : l.subnet.outputs.length = l.subnet.nodes.length := List.length_map _
  rw [hpopped, hmerges.arbiter.sound.length_runs_whole hmerges.arbiter.sources, hplaces, b.emitted,
    ← b.router.places]
  refine sum_range_eq_add l.subnet.nodes fun i n hn => ?_
  rw [Flit.length_runs]
  exact (b.module_of_isIdle hidle hn).2

end SubnetLedger

/-- Take any subnet that can be built and anything that happens to it, and look at it whenever it
is idle.

The packets of the host are those that the router has handed over to their last flit, those that
are for nobody and those that are too long, each counted once.  The packets that were routed to a
module are those of the host that are short enough and name it, and there each of them was too
short for the demultiplexer, or a request, or discarded by the engine, or it is in the inbox, was
collected from it, or found it full.  And the packets that have left are as many as all engines
have counted requests and as the calls that emit events have reported packets. -/
theorem idle_subnet_accounts {link : LinkSettings} {target : TargetSettings}
    {backends : List MapBackend} {s : Subnet}
    (hs : Subnet.withBackends link target backends = .ok s) (actions : List SubnetAction)
    (hidle : (SubnetLedger.ofActions s actions).subnet.isIdle = true) :
    let l := SubnetLedger.ofActions s actions
    let now := l.subnet
    l.accepted.countP Flit.last =
      now.stats.routed + now.stats.unroutable + now.stats.oversized ∧
    (∀ i n, now.nodes[i]? = some n →
      Flit.runs (l.received i) =
        (Flit.runs l.accepted).filter (Subnet.goesTo link.maxPacketLen i) ∧
      (Flit.runs (l.received i)).length =
        n.module.demux.runts + n.module.engine.stats.requests +
          n.module.engine.stats.discarded + n.module.inbox.length +
          (l.records i).collected.length + n.module.inboxDropped) ∧
    (Flit.runs l.popped).length =
      (now.nodes.map fun n => n.module.engine.stats.requests).sum + l.emitted := by
  intro l now
  obtain ⟨taken, merged, b⟩ := SubnetLedger.balanced hs actions
  obtain ⟨hreceived, haccepted⟩ := b.router_of_isIdle hidle
  refine ⟨haccepted, fun i n hn => ⟨?_, ?_⟩, b.popped_of_isIdle hidle⟩
  · have hplace : i < s.moduleCount := by
      rw [← b.router.places]
      exact (List.getElem?_eq_some_iff.mp hn).1
    rw [hreceived i hplace, Subnet.runs_deliveries]
  · have hcounted : (l.received i).countP Flit.last =
        n.module.settled + (l.records i).collected.length := (b.module_of_isIdle hidle hn).1
    rw [Flit.length_runs, hcounted, DebugModule.settled]
    omega

/-- Of seven packets, five are for a module: a request, one that the engine discards, one that is
too short, and two for an inbox that are collected.  Then the module that was asked emits an
event. -/
theorem idle_subnet_accounts_mixed :
    ∃ s, Subnet.withBackends {} {} [.ofRange 0x200 0x300, .ofRange 0x200 0x300] = .ok s ∧
      let note : Packet := { dest := 2, src := 0x3ff, kind := .plain 0, payload := [7] }
      let read : Packet :=
        { note with dest := 1, kind := .register (.readRequest .w16), payload := [0x200] }
      let answer : Packet := { note with dest := 1, kind := .register (.readSuccess .w16) }
      let packets := [read, answer, note, note, { note with dest := 0x200 },
        { note with payload := List.replicate 12 7 }]
      let actions : List SubnetAction :=
        (Packet.stream packets ++ Flit.ofWords [1, 0x3ff]).flatMap (fun f => [.push f, .step]) ++
          (List.replicate 20 [.step, .pop]).flatten ++ [.takeInbox 2, .emit 1 [5]] ++
          (List.replicate 20 [.step, .pop]).flatten
      let l := SubnetLedger.ofActions s actions
      l.subnet.isIdle = true ∧
        l.subnet.stats = { steps := 77, routed := 5, unroutable := 1, oversized := 1 } ∧
        (l.records 2).collected = [note, note] ∧ l.emitted = 1 ∧
        l.accepted.countP Flit.last =
          l.subnet.stats.routed + l.subnet.stats.unroutable + l.subnet.stats.oversized ∧
        (Flit.runs l.popped).length =
          (l.subnet.nodes.map fun n => n.module.engine.stats.requests).sum + l.emitted := by
  have hs : Subnet.withBackends {} {} [.ofRange 0x200 0x300, .ofRange 0x200 0x300] = .ok _ := rfl
  refine ⟨_, hs, ?_⟩
  intro note read answer packets actions l
  have hidle : l.subnet.isIdle = true := by decide +kernel
  obtain ⟨haccepted, -, hpopped⟩ := idle_subnet_accounts hs actions hidle
  have hstats : l.subnet.stats = { steps := 77, routed := 5, unroutable := 1, oversized := 1 } := by
    decide +kernel
  have hcollected : (l.records 2).collected = [note, note] := by decide +kernel
  have hemitted : l.emitted = 1 := by decide +kernel
  with_reducible exact ⟨hidle, hstats, hcollected, hemitted, haccepted, hpopped⟩

end ProbeNet
