import Mathlib.Tactic.ByContra
import Mathlib.Tactic.SplitIfs
import ProbeNet.Node.Engine
import ProbeNet.Proofs.Packet.Codec

/-!
# Register units

A register unit is what a module's registers are to somebody who sends one
request at a time: the base registers, the backend behind them, and the
answer that each request gets at once.  Nothing here has flits, phases or
waiting.

* `RegisterUnit.content?` is what a register holds.  `RegisterUnit.serve`
  answers one request, `RegisterUnit.answers` a list of them.
* `RegisterUnit.IsAnswer` says which answer a request is owed, and
  `serve_isAnswer` that it gets this one.
* `RegisterUnit.writes` lists the writes that were granted.
* `content?_after` says that a register holds what the last granted write to
  it has left there, and what it held at the start if there was none.
-/

namespace ProbeNet

open Register

/-! ## Backends without waiting -/

namespace Register

/-- What a register of the file holds, `none` when accesses to it fail. -/
def MapBackend.content? (b : MapBackend) (address : Word) : Option Value :=
  if b.contains address && !b.faulty.contains address then some (b.value address) else none

/-- The file with another value in a register, `none` when accesses to the
register fail. -/
def MapBackend.store? (b : MapBackend) (address : Word) (v : Value) : Option MapBackend :=
  if b.contains address && !b.faulty.contains address then
    some { b with values := b.values.insert address v }
  else none

/-- What a control register holds, `none` when there is no such register. -/
def ControlBackend.content? (b : ControlBackend) (address : Word) : Option Value :=
  (b.read address).toOption.map (BitVec.setWidth 128)

/-- The control registers after a write.  Only the reset lines take one. -/
def ControlBackend.store? (b : ControlBackend) (address : Word) (v : Value) :
    Option ControlBackend :=
  if address = resetAddress then some { b with reset := v.setWidth 2 } else none

namespace ModuleBackend

/-- What a register of the backend holds, `none` when it cannot be read. -/
def content? : ModuleBackend → Word → Option Value
  | .control b, address => b.content? address
  | .map b, address => b.content? address

/-- The backend after a write, `none` when the register cannot be written. -/
def store? : ModuleBackend → Word → Value → Option ModuleBackend
  | .control b, address, v => (b.store? address v).map .control
  | .map b, address, v => (b.store? address v).map .map

/-- What a register of the backend makes of a value that is written to it. -/
def kept : ModuleBackend → Value → Value
  | .control _, v => (v.setWidth 2).setWidth 128
  | .map _, v => v

end ModuleBackend

end Register

/-! ## Units -/

/-- The registers of a module, base registers and backend. -/
structure RegisterUnit where
  config : EngineConfig
  registers : BaseRegisters
  backend : ModuleBackend

namespace RegisterUnit

/-- A unit that has served nothing yet. -/
def initial (config : EngineConfig) (backend : ModuleBackend) : RegisterUnit :=
  { config, registers := .initial config.identity config.canStall, backend }

/-- Whether accesses of a width are served at an address.  Base registers are
16 bits wide. -/
def admits (u : RegisterUnit) (address : Word) (w : Width) : Bool :=
  w.words ≤ u.config.maxWidth.words && (u.config.boundary ≤ address || w = .w16)

/-- What a register holds, `none` when it cannot be read. -/
def content? (u : RegisterUnit) (address : Word) : Option Value :=
  if address < u.config.boundary then
    (u.registers.read address).toOption.map (BitVec.setWidth 128)
  else u.backend.content? address

/-- The unit after a write, `none` when the register cannot be written. -/
def store? (u : RegisterUnit) (address : Word) (v : Value) : Option RegisterUnit :=
  if address < u.config.boundary then
    (u.registers.write address (v.setWidth 16)).toOption.map fun registers =>
      { u with registers }
  else (u.backend.store? address v).map fun backend => { u with backend }

/-- What a register makes of a value that is written to it.  Without the right
to stall, the control register stays as it is; the event destination is an
address. -/
def kept (u : RegisterUnit) (address : Word) (v : Value) : Value :=
  if address < u.config.boundary then
    if address = eventDestAddress then (Address.ofWord (v.setWidth 16)).word.setWidth 128
    else if u.registers.canStall then (v.setWidth 16).setWidth 128
    else u.registers.control.setWidth 128
  else u.backend.kept v

/-! ## Requests -/

/-- What a request to read at a width asks for: an address and nothing else. -/
def readValue? (u : RegisterUnit) (w : Width) : List Word → Option Value
  | [address] => if u.admits address w then u.content? address else none
  | _ => none

/-- What a request to write at a width does: the words behind the address are
the value. -/
def writeValue? (u : RegisterUnit) (w : Width) : List Word → Option RegisterUnit
  | address :: ws =>
    if ws.length = w.words ∧ u.admits address w then u.store? address (Value.ofWords ws) else none
  | [] => none

/-- Serves a packet.  A register request gets one answer, which goes back to its
sender; any other packet gets none. -/
def serve (u : RegisterUnit) (p : Packet) : RegisterUnit × Option Packet :=
  match p.kind with
  | .register (.readRequest w) =>
    match u.readValue? w p.payload with
    | some v => (u, some (p.reply (.register (.readSuccess w)) (v.toWords w)))
    | none => (u, some (p.reply (.register .readError) []))
  | .register (.writeRequest w) =>
    match u.writeValue? w p.payload with
    | some u' => (u', some (p.reply (.register .writeSuccess) []))
    | none => (u, some (p.reply (.register .writeError) []))
  | _ => (u, none)

/-- The unit after some packets. -/
def after (u : RegisterUnit) (ps : List Packet) : RegisterUnit :=
  ps.foldl (fun u p => (u.serve p).1) u

/-- The answers to packets that come one after the other. -/
def answers (u : RegisterUnit) : List Packet → List Packet
  | [] => []
  | p :: ps => (u.serve p).2.toList ++ (u.serve p).1.answers ps

/-- The write that a packet asks for, if it is granted. -/
def grantedWrite? (u : RegisterUnit) (p : Packet) : Option (Word × Value) :=
  match p.kind with
  | .register (.writeRequest w) =>
    if (u.writeValue? w p.payload).isSome then
      some (p.payload.headD 0, Value.ofWords p.payload.tail)
    else none
  | _ => none

/-- The writes that are granted, in the order in which they are. -/
def writes (u : RegisterUnit) : List Packet → List (Word × Value)
  | [] => []
  | p :: ps => (u.grantedWrite? p).toList ++ (u.serve p).1.writes ps

/-- The value of the last write to an address. -/
def lastWrite? (address : Word) (ws : List (Word × Value)) : Option Value :=
  ((ws.filter fun w => w.1 = address).getLast?).map Prod.snd

@[simp] theorem after_nil (u : RegisterUnit) : u.after [] = u := rfl

theorem after_append (u : RegisterUnit) (ps qs : List Packet) :
    u.after (ps ++ qs) = (u.after ps).after qs := List.foldl_append

@[simp] theorem after_singleton (u : RegisterUnit) (p : Packet) :
    u.after [p] = (u.serve p).1 := rfl

@[simp] theorem answers_nil (u : RegisterUnit) : u.answers [] = [] := rfl

@[simp] theorem answers_singleton (u : RegisterUnit) (p : Packet) :
    u.answers [p] = (u.serve p).2.toList := by
  simp [answers]

theorem answers_append (u : RegisterUnit) (ps qs : List Packet) :
    u.answers (ps ++ qs) = u.answers ps ++ (u.after ps).answers qs := by
  induction ps generalizing u with
  | nil => rfl
  | cons p ps ih =>
    simp only [List.cons_append, answers, ih, List.append_assoc]
    rfl

/-! ## What an answer says -/

/-- `answer` is what the unit owes to `request`.  A read is granted when its
payload is an address at which the width is served and whose register can be
read; a write when its payload is an address and exactly the words of its
width, and the register can be written.  Every other read or write is refused. -/
inductive IsAnswer (u : RegisterUnit) (request : Packet) : Packet → Prop where
  | readGranted {w : Width} {address : Word} {v : Value}
      (hkind : request.kind = .register (.readRequest w)) (hpayload : request.payload = [address])
      (hadmits : u.admits address w = true) (hcontent : u.content? address = some v) :
      u.IsAnswer request (request.reply (.register (.readSuccess w)) (v.toWords w))
  | readRefused {w : Width} (hkind : request.kind = .register (.readRequest w))
      (hrefused : ∀ address, request.payload = [address] → u.admits address w = true →
        u.content? address = none) :
      u.IsAnswer request (request.reply (.register .readError) [])
  | writeGranted {w : Width} {address : Word} {ws : List Word}
      (hkind : request.kind = .register (.writeRequest w))
      (hpayload : request.payload = address :: ws) (hlength : ws.length = w.words)
      (hadmits : u.admits address w = true)
      (hstore : (u.store? address (Value.ofWords ws)).isSome = true) :
      u.IsAnswer request (request.reply (.register .writeSuccess) [])
  | writeRefused {w : Width} (hkind : request.kind = .register (.writeRequest w))
      (hrefused : ∀ address ws, request.payload = address :: ws → ws.length = w.words →
        u.admits address w = true → u.store? address (Value.ofWords ws) = none) :
      u.IsAnswer request (request.reply (.register .writeError) [])

theorem readValue?_eq_some_iff {u : RegisterUnit} {w : Width} {payload : List Word} {v : Value} :
    u.readValue? w payload = some v ↔
      ∃ address, payload = [address] ∧ u.admits address w = true ∧ u.content? address = some v := by
  unfold readValue?
  split
  · simp
  · rename_i hpayload
    refine ⟨fun h => (by cases h), ?_⟩
    rintro ⟨address, rfl, -⟩
    exact absurd rfl (hpayload address)

theorem writeValue?_eq_some_iff {u u' : RegisterUnit} {w : Width} {payload : List Word} :
    u.writeValue? w payload = some u' ↔
      ∃ address ws, payload = address :: ws ∧ ws.length = w.words ∧
        u.admits address w = true ∧ u.store? address (Value.ofWords ws) = some u' := by
  cases payload with
  | nil => simp [writeValue?]
  | cons address ws => simp [writeValue?, and_assoc]

theorem serve_of_readValue? {u : RegisterUnit} {p : Packet} {w : Width} {v : Value}
    (hkind : p.kind = .register (.readRequest w)) (hread : u.readValue? w p.payload = some v) :
    u.serve p = (u, some (p.reply (.register (.readSuccess w)) (v.toWords w))) := by
  simp only [serve, hkind, hread]

theorem serve_of_writeValue? {u u' : RegisterUnit} {p : Packet} {w : Width}
    (hkind : p.kind = .register (.writeRequest w)) (hwrite : u.writeValue? w p.payload = some u') :
    u.serve p = (u', some (p.reply (.register .writeSuccess) [])) := by
  simp only [serve, hkind, hwrite]

/-- The unit answers a request with what it owes to it. -/
theorem serve_isAnswer {u : RegisterUnit} {p : Packet} (h : p.isRequest = true) :
    ∃ answer, (u.serve p).2 = some answer ∧ u.IsAnswer p answer := by
  unfold Packet.isRequest at h
  split at h
  · rename_i kind hkind
    cases kind with
    | readRequest w =>
      cases hread : u.readValue? w p.payload with
      | some v =>
        obtain ⟨address, hpayload, hadmits, hcontent⟩ := readValue?_eq_some_iff.mp hread
        exact ⟨_, by simp [serve, hkind, hread], .readGranted hkind hpayload hadmits hcontent⟩
      | none =>
        refine ⟨_, by simp [serve, hkind, hread], .readRefused hkind ?_⟩
        intro address hpayload hadmits
        rw [hpayload] at hread
        simpa [readValue?, hadmits] using hread
    | writeRequest w =>
      cases hwrite : u.writeValue? w p.payload with
      | some u' =>
        obtain ⟨address, ws, hpayload, hlength, hadmits, hstore⟩ :=
          writeValue?_eq_some_iff.mp hwrite
        exact ⟨_, by simp [serve, hkind, hwrite],
          .writeGranted hkind hpayload hlength hadmits (by simp [hstore])⟩
      | none =>
        refine ⟨_, by simp [serve, hkind, hwrite], .writeRefused hkind ?_⟩
        intro address ws hpayload hlength hadmits
        rw [hpayload] at hwrite
        simpa [writeValue?, hlength, hadmits] using hwrite
    | _ => cases h
  · cases h

/-- An answer goes back to the sender of its request and names the module. -/
theorem IsAnswer.addressed {u : RegisterUnit} {request answer : Packet}
    (h : u.IsAnswer request answer) : answer.dest = request.src ∧ answer.src = request.dest := by
  cases h <;> exact ⟨rfl, rfl⟩

theorem IsAnswer.packetClass {u : RegisterUnit} {request answer : Packet}
    (h : u.IsAnswer request answer) : answer.packetClass = .register := by
  cases h <;> rfl

/-- More requests only add answers. -/
theorem answers_prefix {ps qs : List Packet} (u : RegisterUnit) (h : ps <+: qs) :
    u.answers ps <+: u.answers qs := by
  obtain ⟨rest, rfl⟩ := h
  rw [answers_append]
  exact List.prefix_append _ _

theorem serve_of_not_request {u : RegisterUnit} {p : Packet} (h : p.isRequest = false) :
    u.serve p = (u, none) := by
  obtain ⟨dest, src, kind, payload⟩ := p
  cases kind with
  | register kind => cases kind <;> first | rfl | cases h
  | _ => rfl

/-- Packets that are no requests leave no trace. -/
theorem answers_filter (u : RegisterUnit) (ps : List Packet) :
    u.answers (ps.filter Packet.isRequest) = u.answers ps := by
  induction ps generalizing u with
  | nil => rfl
  | cons p ps ih =>
    cases hrequest : p.isRequest with
    | true =>
      rw [List.filter_cons_of_pos hrequest, answers, answers, ih]
    | false =>
      rw [List.filter_cons_of_neg (by simp [hrequest]), answers, serve_of_not_request hrequest, ih]
      rfl

/-- Requests get one answer each. -/
theorem length_answers (u : RegisterUnit) {ps : List Packet} (h : ∀ p ∈ ps, p.isRequest = true) :
    (u.answers ps).length = ps.length := by
  induction ps generalizing u with
  | nil => rfl
  | cons p ps ih =>
    obtain ⟨answer, hserve, -⟩ := serve_isAnswer (u := u) (h p (by simp))
    rw [answers, hserve, List.length_append, ih (u.serve p).1 fun q hq => h q (by simp [hq])]
    exact Nat.add_comm 1 ps.length

/-- An answer is the answer to one of the requests, by the unit that has served
the requests before it. -/
theorem exists_split_of_mem_answers {u : RegisterUnit} {ps : List Packet} {answer : Packet}
    (h : answer ∈ u.answers ps) :
    ∃ before request rest, ps = before ++ request :: rest ∧
      (u.after before).IsAnswer request answer := by
  induction ps generalizing u with
  | nil => simp at h
  | cons p ps ih =>
    rw [answers, List.mem_append] at h
    rcases h with hp | hps
    · cases hrequest : p.isRequest with
      | true =>
        obtain ⟨a, hserve, hanswer⟩ := serve_isAnswer (u := u) hrequest
        rw [hserve] at hp
        rw [List.mem_singleton.mp hp]
        exact ⟨[], p, ps, rfl, hanswer⟩
      | false =>
        rw [serve_of_not_request hrequest] at hp
        simp at hp
    · obtain ⟨before, request, rest, rfl, hanswer⟩ := ih hps
      exact ⟨p :: before, request, rest, rfl, hanswer⟩

/-- Every answer belongs to one of the requests. -/
theorem exists_of_mem_answers {u : RegisterUnit} {ps : List Packet} {answer : Packet}
    (h : answer ∈ u.answers ps) :
    ∃ request ∈ ps, ∃ u' : RegisterUnit, u'.IsAnswer request answer := by
  obtain ⟨before, request, rest, rfl, hanswer⟩ := exists_split_of_mem_answers h
  exact ⟨request, by simp, _, hanswer⟩

/-- A request among others gets one answer, behind those to the requests
before it. -/
theorem answers_of_request (u : RegisterUnit) (before rest : List Packet) {request : Packet}
    (h : request.isRequest = true) :
    ∃ answer, (u.after before).IsAnswer request answer ∧
      u.answers (before ++ request :: rest) =
        u.answers before ++ answer :: (u.after (before ++ [request])).answers rest := by
  obtain ⟨answer, hserve, hanswer⟩ := serve_isAnswer (u := u.after before) h
  refine ⟨answer, hanswer, ?_⟩
  rw [answers_append, after_append, answers, hserve]
  rfl

/-! ## What a register holds -/

theorem ok_of_toOption {ε α : Type} {x : Except ε α} {a : α} (h : x.toOption = some a) :
    x = .ok a := by
  cases x with
  | error e => cases h
  | ok b => exact congrArg Except.ok (Option.some.inj h)

/-- A granted write to a base register is seen at its address only. -/
theorem read_of_write {r r' : BaseRegisters} {b v : Word} (h : r.write b v = .ok r') (a : Word) :
    (r'.read a).toOption = if b = a then
        (if a = eventDestAddress then some (Address.ofWord v).word
          else if r.canStall then some v else some r.control)
      else (r.read a).toOption := by
  unfold BaseRegisters.write at h
  split_ifs at h with hread hcontrol hstall hevent
  · obtain rfl := Except.ok.inj h
    subst hcontrol
    by_cases ha : controlAddress = a
    · subst ha
      simp [BaseRegisters.read, vendorAddress, typeAddress, versionAddress, controlAddress,
        eventDestAddress, hstall, Except.toOption]
    · simp [BaseRegisters.read, ha, Ne.symm ha]
  · obtain rfl := Except.ok.inj h
    subst hcontrol
    by_cases ha : controlAddress = a
    · subst ha
      simp [BaseRegisters.read, vendorAddress, typeAddress, versionAddress, controlAddress,
        eventDestAddress, hstall, Except.toOption]
    · simp [ha]
  · obtain rfl := Except.ok.inj h
    subst hevent
    by_cases ha : eventDestAddress = a
    · subst ha
      simp [BaseRegisters.read, vendorAddress, typeAddress, versionAddress, controlAddress,
        eventDestAddress, Except.toOption]
    · simp [BaseRegisters.read, ha, Ne.symm ha]

theorem canStall_of_write {r r' : BaseRegisters} {b v : Word} (h : r.write b v = .ok r') :
    r'.canStall = r.canStall ∧ (r.canStall = false → r'.control = r.control) := by
  unfold BaseRegisters.write at h
  split_ifs at h with hread hcontrol hstall hevent
  all_goals
    obtain rfl := Except.ok.inj h
    simp_all

/-- The reset lines are the only control register that a write changes. -/
theorem control_content?_of_store? {b b' : ControlBackend} {address : Word} {v : Value}
    (h : b.store? address v = some b') (a : Word) :
    b'.content? a =
      if address = a then some ((v.setWidth 2).setWidth 128) else b.content? a := by
  unfold ControlBackend.store? at h
  split_ifs at h with hreset
  obtain rfl := Option.some.inj h
  subst hreset
  by_cases ha : resetAddress = a
  · subst ha
    simp [ControlBackend.content?, ControlBackend.read, systemVendorAddress,
      systemDeviceAddress, moduleCountAddress, maxPacketLenAddress, resetAddress,
      Except.toOption]
  · simp [ControlBackend.content?, ControlBackend.read, ha, Ne.symm ha]

theorem map_content?_of_store? {b b' : MapBackend} {address : Word} {v : Value}
    (h : b.store? address v = some b') (a : Word) :
    b'.content? a = if address = a then some v else b.content? a := by
  unfold MapBackend.store? at h
  split_ifs at h with hserved
  obtain rfl := Option.some.inj h
  simp only [MapBackend.content?, MapBackend.contains, MapBackend.value, Table.find?_insert]
  by_cases ha : address = a
  · subst ha
    rw [MapBackend.contains] at hserved
    rw [if_pos hserved, if_pos rfl, if_pos rfl]
    rfl
  · simp [ha]

/-- A granted write to the backend is seen at its address only. -/
theorem backend_content?_of_store? {b b' : ModuleBackend} {address : Word} {v : Value}
    (h : b.store? address v = some b') (a : Word) :
    b'.content? a = if address = a then some (b.kept v) else b.content? a := by
  cases b with
  | control b =>
    obtain ⟨c, hc, rfl⟩ := Option.map_eq_some_iff.mp h
    exact control_content?_of_store? hc a
  | map b =>
    obtain ⟨c, hc, rfl⟩ := Option.map_eq_some_iff.mp h
    exact map_content?_of_store? hc a

theorem backend_kept_of_store? {b b' : ModuleBackend} {address : Word} {v : Value}
    (h : b.store? address v = some b') : b'.kept = b.kept := by
  cases b with
  | control b =>
    obtain ⟨c, _, rfl⟩ := Option.map_eq_some_iff.mp h
    rfl
  | map b =>
    obtain ⟨c, _, rfl⟩ := Option.map_eq_some_iff.mp h
    rfl

/-- A granted write is seen at its address only. -/
theorem content?_of_store? {u u' : RegisterUnit} {address : Word} {v : Value}
    (h : u.store? address v = some u') (a : Word) :
    u'.content? a = if address = a then some (u.kept a v) else u.content? a := by
  unfold store? at h
  split_ifs at h with hbase
  · obtain ⟨registers, hwrite, rfl⟩ := Option.map_eq_some_iff.mp h
    have hok := ok_of_toOption hwrite
    unfold content? kept
    rw [read_of_write hok a]
    by_cases ha : address = a
    · subst ha
      simp only [hbase, if_true]
      split_ifs <;> rfl
    · simp [ha]
  · obtain ⟨backend, hstore, rfl⟩ := Option.map_eq_some_iff.mp h
    unfold content? kept
    rw [backend_content?_of_store? hstore a]
    by_cases ha : address = a
    · subst ha
      simp [hbase]
    · simp [ha]

theorem kept_of_store? {u u' : RegisterUnit} {address : Word} {v : Value}
    (h : u.store? address v = some u') : u'.kept = u.kept := by
  unfold store? at h
  split_ifs at h with hbase
  · obtain ⟨registers, hwrite, rfl⟩ := Option.map_eq_some_iff.mp h
    have hok := ok_of_toOption hwrite
    obtain ⟨hstall, hcontrol⟩ := canStall_of_write hok
    funext a w
    unfold kept
    cases hs : u.registers.canStall with
    | true => simp [hstall, hs]
    | false => simp [hstall, hs, hcontrol hs]
  · obtain ⟨backend, hstore, rfl⟩ := Option.map_eq_some_iff.mp h
    funext a w
    simp [kept, backend_kept_of_store? hstore]

@[simp] theorem lastWrite?_nil (a : Word) : lastWrite? a [] = none := rfl

theorem lastWrite?_append (a : Word) (ws ws' : List (Word × Value)) :
    lastWrite? a (ws ++ ws') = (lastWrite? a ws').or (lastWrite? a ws) := by
  simp only [lastWrite?, List.filter_append, List.getLast?_append]
  cases (List.filter (fun w => decide (w.1 = a)) ws').getLast? <;> simp

/-- What serving one packet does to the registers is its granted write. -/
theorem content?_serve (u : RegisterUnit) (p : Packet) (a : Word) :
    (u.serve p).1.content? a =
      ((lastWrite? a (u.grantedWrite? p).toList).map (u.kept a)).or (u.content? a) := by
  obtain ⟨dest, src, kind, payload⟩ := p
  cases kind with
  | register kind =>
    cases kind with
    | readRequest w =>
      cases hread : u.readValue? w payload <;> simp [serve, grantedWrite?, hread]
    | writeRequest w =>
      cases hwrite : u.writeValue? w payload with
      | none => simp [serve, grantedWrite?, hwrite]
      | some u' =>
        obtain ⟨address, ws, rfl, -, -, hstore⟩ := writeValue?_eq_some_iff.mp hwrite
        simp only [serve, grantedWrite?, hwrite, content?_of_store? hstore a]
        by_cases ha : address = a <;> simp [lastWrite?, ha]
    | _ => simp [serve, grantedWrite?]
  | _ => simp [serve, grantedWrite?]

theorem kept_serve (u : RegisterUnit) (p : Packet) : (u.serve p).1.kept = u.kept := by
  obtain ⟨dest, src, kind, payload⟩ := p
  cases kind with
  | register kind =>
    cases kind with
    | readRequest w =>
      cases hread : u.readValue? w payload <;> simp [serve, hread]
    | writeRequest w =>
      cases hwrite : u.writeValue? w payload with
      | none => simp [serve, hwrite]
      | some u' =>
        obtain ⟨address, ws, rfl, -, -, hstore⟩ := writeValue?_eq_some_iff.mp hwrite
        simp [serve, hwrite, kept_of_store? hstore]
    | _ => rfl
  | _ => rfl

/-- Serving packets does not change how a unit is set up. -/
theorem config_serve (u : RegisterUnit) (p : Packet) : (u.serve p).1.config = u.config := by
  unfold serve
  split
  · split <;> rfl
  · split
    · rename_i u' hwrite
      obtain ⟨address, ws, -, -, -, hstore⟩ := writeValue?_eq_some_iff.mp hwrite
      unfold store? at hstore
      split_ifs at hstore
      · obtain ⟨registers, -, rfl⟩ := Option.map_eq_some_iff.mp hstore
        rfl
      · obtain ⟨backend, -, rfl⟩ := Option.map_eq_some_iff.mp hstore
        rfl
    · rfl
  · rfl

theorem config_after (u : RegisterUnit) (ps : List Packet) : (u.after ps).config = u.config := by
  induction ps generalizing u with
  | nil => rfl
  | cons p ps ih => exact (ih (u.serve p).1).trans (config_serve u p)

/-- A register holds what the last granted write to it has left there, and what
it held before if there was none. -/
theorem content?_after (u : RegisterUnit) (ps : List Packet) (a : Word) :
    (u.after ps).content? a =
      ((lastWrite? a (u.writes ps)).map (u.kept a)).or (u.content? a) := by
  induction ps generalizing u with
  | nil => simp [writes]
  | cons p ps ih =>
    calc (u.after (p :: ps)).content? a
        = ((u.serve p).1.after ps).content? a := rfl
      _ = ((lastWrite? a ((u.serve p).1.writes ps)).map (u.kept a)).or
            ((u.serve p).1.content? a) := by rw [ih, kept_serve]
      _ = ((lastWrite? a (u.writes (p :: ps))).map (u.kept a)).or (u.content? a) := by
          rw [content?_serve, writes, lastWrite?_append, ← Option.or_assoc]
          cases lastWrite? a ((u.serve p).1.writes ps) <;> simp

end RegisterUnit

end ProbeNet
