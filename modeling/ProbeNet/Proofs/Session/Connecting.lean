import ProbeNet.Proofs.Session.Outcomes

/-!
# Connecting

What a session is like when connecting has ended depends only on what the registers of
the modules read as.  Without the two registers of the control module there is no
connection, and nothing is left of the attempt.  With them every module that has an
address is entered: `descriptor` says as what, and `Surveyed` what has been entered so
far.
-/

namespace ProbeNet

open Register SessionM

namespace Session

variable {reads : Readings} {s s' s'' : Session}

/-! ## What a target says -/

/-- What a module says about itself, if it says all of it. -/
def identityRead (reads : Readings) (m : Address) : Except SessionError Identity := do
  let vendor ← reads m vendorAddress
  let moduleType ← reads m typeAddress
  let version ← reads m versionAddress
  return { vendor := ⟨vendor⟩, moduleType := ⟨moduleType⟩, version }

/-- As what a module is entered. -/
def descriptor (reads : Readings) (m : Address) : ModuleDescriptor :=
  match identityRead reads m with
  | .ok identity => { address := m, identity, described := true }
  | .error _ => .unknown m

/-- Why the control module does not let anybody connect. -/
def discoveryError? (reads : Readings) : Option SessionError :=
  match reads controlModule moduleCountAddress, reads controlModule maxPacketLenAddress with
  | .error e, _ => some e
  | .ok _, .error e => some e
  | .ok _, .ok len =>
    if maxPayloadWords len.toNat = 0 then
      some (.invalidResponse controlModule (.noPayload len.toNat))
    else none

/-- Some register in which a module says what it is cannot be read. -/
def IsSilent (reads : Readings) (m : Address) : Prop :=
  ∃ e, reads m vendorAddress = .error e ∨ reads m typeAddress = .error e ∨
    reads m versionAddress = .error e

theorem identityRead_cases (reads : Readings) (m : Address) :
    (IsSilent reads m ∧ ∃ e, identityRead reads m = .error e) ∨
      ¬ IsSilent reads m ∧ ∃ vendor moduleType version,
        reads m vendorAddress = .ok vendor ∧ reads m typeAddress = .ok moduleType ∧
        reads m versionAddress = .ok version ∧
        identityRead reads m = .ok { vendor := ⟨vendor⟩, moduleType := ⟨moduleType⟩, version } := by
  unfold identityRead IsSilent
  cases hvendor : reads m vendorAddress with
  | error e => exact Or.inl ⟨⟨e, Or.inl rfl⟩, e, rfl⟩
  | ok vendor =>
    cases htype : reads m typeAddress with
    | error e => exact Or.inl ⟨⟨e, Or.inr (Or.inl rfl)⟩, e, rfl⟩
    | ok moduleType =>
      cases hversion : reads m versionAddress with
      | error e => exact Or.inl ⟨⟨e, Or.inr (Or.inr rfl)⟩, e, rfl⟩
      | ok version =>
        exact Or.inr ⟨by simp, vendor, moduleType, version, rfl, rfl, rfl, rfl⟩

/-! ## Reading -/

theorem tells_readWord (m : Address) (address : Word) :
    Tells reads (readWord m address) (reads m address) := by
  have htells : Tells reads (readWord m address) _ :=
    (tells_access m (.read address .w16)).bind fun v => tells_pure (v.setWidth 16)
  have hword : (((reads m address).map (·.setWidth 128)) >>= fun v : Value =>
      Except.ok (v.setWidth 16)) = reads m address := by
    cases reads m address with
    | ok w => exact congrArg Except.ok (by simp)
    | error e => rfl
  exact hword ▸ htells

theorem tells_describe (m : Address) : Tells reads (describe m) (identityRead reads m) :=
  (tells_readWord m _).bind fun _ => (tells_readWord m _).bind fun _ =>
    (tells_readWord m _).bind fun _ => tells_pure _

/-! ## Entering modules -/

/-- From `s` to `s'` these modules have been entered, and nothing else has changed. -/
structure Surveyed (reads : Readings) (ms : List Address) (s s' : Session) : Prop where
  limit : s'.maxPacketLen = s.maxPacketLen
  directory : ∀ m, s'.directory.find? m =
    if m ∈ ms then some (descriptor reads m) else s.directory.find? m

theorem Surveyed.nil (hs : s.Undisturbed s') : Surveyed reads [] s s' :=
  ⟨hs.limit, fun m => by rw [hs.directory]; rfl⟩

theorem Surveyed.cons {m : Address} {ms : List Address} (h : Surveyed reads [m] s s')
    (h' : Surveyed reads ms s' s'') : Surveyed reads (m :: ms) s s'' := by
  refine ⟨h'.limit.trans h.limit, fun k => ?_⟩
  rw [h'.directory, h.directory]
  simp only [List.mem_cons, List.not_mem_nil, or_false]
  grind

theorem surveyed_enter {m : Address} {s₁ : Session} (hs : s.Undisturbed s₁)
    (hs' : ({ s₁ with directory := s₁.directory.enter (descriptor reads m) } :
      Session).Undisturbed s') (haddress : (descriptor reads m).address = m) :
    Surveyed reads [m] s s' := by
  refine ⟨hs'.limit.trans hs.limit, fun k => ?_⟩
  rw [hs'.directory]
  show (s₁.directory.insert (descriptor reads m).address (descriptor reads m)).find? k = _
  rw [haddress, Table.find?_insert, hs.directory]
  simp only [List.mem_singleton]
  grind

theorem ensures_enterModule (m : Address) (s : Session) :
    (enterModule m).run.Ensures reads
      (fun r s' => r = .ok (descriptor reads m).described ∧ Surveyed reads [m] s s') s := by
  unfold enterModule
  apply (tells_describe m).attempt.ensures_bind
  · intro r hr
    obtain rfl := Except.ok.inj hr
    cases hread : identityRead reads m with
    | ok identity =>
      have hdescriptor : descriptor reads m = { address := m, identity, described := true } := by
        simp only [descriptor, hread]
      rw [hdescriptor]
      refine ensures_modify_bind fun s₁ hs s' hs' => ⟨rfl, ?_⟩
      rw [← hdescriptor] at hs'
      exact surveyed_enter hs hs' (by rw [hdescriptor])
    | error e =>
      have hdescriptor : descriptor reads m = .unknown m := by simp only [descriptor, hread]
      rw [hdescriptor]
      refine ensures_modify_bind fun s₁ hs s' hs' => ⟨rfl, ?_⟩
      rw [← hdescriptor] at hs'
      exact surveyed_enter hs hs' (by rw [hdescriptor]; rfl)
  · intro e he
    cases he

theorem ensures_enterModules (ms : List Address) (s : Session) :
    (enterModules ms).run.Ensures reads
      (fun r s' => r = .ok (ms.filter fun m => !(descriptor reads m).described) ∧
        Surveyed reads ms s s') s := by
  induction ms generalizing s with
  | nil => exact fun s' hs => ⟨rfl, .nil hs⟩
  | cons m ms ih =>
    refine SessionM.ensures_bind ((ensures_enterModule m s).mono ?_)
    rintro r s₁ ⟨rfl, hfirst⟩
    refine SessionM.ensures_bind ((ih s₁).mono ?_)
    rintro r s₂ ⟨rfl, hrest⟩ s' hs'
    refine ⟨?_, (hfirst.cons hrest).limit ▸ hs'.limit, fun k => ?_⟩
    · rw [List.filter_cons]
      cases (descriptor reads m).described <;> rfl
    · rw [hs'.directory, (hfirst.cons hrest).directory]

/-! ## The addresses of modules -/

theorem mem_moduleAddresses {count : Nat} {m : Address} :
    m ∈ moduleAddresses count ↔ m.toNat < min count (Address.max + 1) := by
  unfold moduleAddresses
  simp only [List.mem_map, List.mem_range]
  constructor
  · rintro ⟨k, hk, rfl⟩
    rw [BitVec.toNat_ofNat]
    exact (Nat.mod_le k _).trans_lt hk
  · intro hm
    exact ⟨m.toNat, hm, BitVec.ofNat_toNat 10 m⟩

theorem pairwise_moduleAddresses (count : Nat) :
    (moduleAddresses count).Pairwise fun m m' => m.toNat < m'.toNat := by
  unfold moduleAddresses
  rw [List.pairwise_map]
  refine List.pairwise_lt_range.imp_of_mem fun {k k'} hk hk' hlt => ?_
  rw [List.mem_range] at hk hk'
  have hmax : Address.max + 1 = 2 ^ 10 := rfl
  rw [BitVec.toNat_ofNat, BitVec.toNat_ofNat, Nat.mod_eq_of_lt (by omega),
    Nat.mod_eq_of_lt (by omega)]
  exact hlt

/-! ## Discovery -/

/-- The session knows what the target says, and the report agrees with it. -/
structure Discovered (reads : Readings) (report : DiscoveryReport) (s : Session) : Prop where
  modules : ∃ count, reads controlModule moduleCountAddress = .ok count ∧
    report.modules = count.toNat
  limit : ∃ len, reads controlModule maxPacketLenAddress = .ok len ∧
    report.maxPacketLen = len.toNat
  limit_eq : s.maxPacketLen = report.maxPacketLen
  four_le_limit : 4 ≤ report.maxPacketLen
  /-- The modules below the number that was read are entered, as far as there are
  addresses. -/
  entered : ∀ m, s.directory.contains m ↔ m.toNat < min report.modules (Address.max + 1)
  ascending : report.undescribed.Pairwise fun m m' => m.toNat < m'.toNat
  undescribed : ∀ m, m ∈ report.undescribed ↔ s.directory.contains m ∧ IsSilent reads m
  unknown : ∀ m ∈ report.undescribed, s.directory.find? m = some (.unknown m)
  described : ∀ m, s.directory.contains m → m ∉ report.undescribed →
    ∃ vendor moduleType version, reads m vendorAddress = .ok vendor ∧
      reads m typeAddress = .ok moduleType ∧ reads m versionAddress = .ok version ∧
      s.directory.find? m = some
        { address := m
          identity := { vendor := ⟨vendor⟩, moduleType := ⟨moduleType⟩, version }
          described := true }

theorem described_descriptor_iff (reads : Readings) (m : Address) :
    (descriptor reads m).described = false ↔ IsSilent reads m := by
  unfold descriptor
  rcases identityRead_cases reads m with ⟨hsilent, e, hread⟩ | ⟨hspeaks, _, _, _, -, -, -, hread⟩
  · rw [hread]
    exact iff_of_true rfl hsilent
  · rw [hread]
    exact iff_of_false (by simp) hspeaks

/-- Once all modules have been entered, the session knows what the target says. -/
theorem Surveyed.discovered {count len : Word} (hempty : s.directory = .empty)
    (hcount : reads controlModule moduleCountAddress = .ok count)
    (hlen : reads controlModule maxPacketLenAddress = .ok len)
    (hroom : maxPayloadWords len.toNat ≠ 0) (hlimit : s.maxPacketLen = len.toNat)
    (h : Surveyed reads (moduleAddresses count.toNat) s s') :
    Discovered reads
      { modules := count.toNat
        maxPacketLen := len.toNat
        undescribed := (moduleAddresses count.toNat).filter
          fun m => !(descriptor reads m).described } s' := by
  have hfind : ∀ m, s'.directory.find? m =
      if m ∈ moduleAddresses count.toNat then some (descriptor reads m) else none := by
    intro m
    rw [h.directory, hempty, Table.find?_empty]
  have hentered : ∀ m, s'.directory.contains m ↔ m ∈ moduleAddresses count.toNat := by
    intro m
    unfold Table.contains
    rw [hfind]
    split <;> simp_all
  have hundescribed : ∀ m, (m ∈ (moduleAddresses count.toNat).filter
      fun m => !(descriptor reads m).described) ↔
        m ∈ moduleAddresses count.toNat ∧ IsSilent reads m := by
    intro m
    rw [List.mem_filter, ← described_descriptor_iff, Bool.not_eq_true']
  refine ⟨⟨count, hcount, rfl⟩, ⟨len, hlen, rfl⟩, h.limit.trans hlimit, ?_, ?_, ?_, ?_, ?_, ?_⟩
  · show 4 ≤ len.toNat
    unfold maxPayloadWords headerWords at hroom
    omega
  · exact fun m => (hentered m).trans mem_moduleAddresses
  · exact (pairwise_moduleAddresses _).filter _
  · exact fun m => (hundescribed m).trans (and_congr_left' (hentered m).symm)
  · intro m hm
    obtain ⟨hmem, hsilent⟩ := (hundescribed m).mp hm
    rw [hfind, if_pos hmem]
    unfold descriptor
    rcases identityRead_cases reads m with ⟨-, e, hread⟩ | ⟨hspeaks, -⟩
    · rw [hread]
    · exact absurd hsilent hspeaks
  · intro m hm hnot
    have hmem := (hentered m).mp hm
    have hspeaks : ¬ IsSilent reads m := fun hsilent => hnot ((hundescribed m).mpr ⟨hmem, hsilent⟩)
    rcases identityRead_cases reads m with ⟨hsilent, -⟩ | ⟨-, vendor, moduleType, version, hread⟩
    · exact absurd hsilent hspeaks
    · obtain ⟨hvendor, htype, hversion, hread⟩ := hread
      refine ⟨vendor, moduleType, version, hvendor, htype, hversion, ?_⟩
      rw [hfind, if_pos hmem]
      unfold descriptor
      rw [hread]

/-- Others do not change what the session knows. -/
theorem Discovered.undisturbed {report : DiscoveryReport} (h : Discovered reads report s)
    (hs : s.Undisturbed s') : Discovered reads report s' := by
  obtain ⟨hmodules, hlimit, heq, hfour, hentered, hascending, hundescribed, hunknown,
    hdescribed⟩ := h
  rw [← hs.directory] at hentered hundescribed hunknown hdescribed
  exact ⟨hmodules, hlimit, hs.limit.trans heq, hfour, hentered, hascending, hundescribed,
    hunknown, hdescribed⟩

/-- What discovery leaves of a session that had this limit. -/
def Discovers (reads : Readings) (limit : Nat) : Except SessionError DiscoveryReport →
    Session → Prop
  | .ok report, s => discoveryError? reads = none ∧ Discovered reads report s
  | .error e, s => discoveryError? reads = some e ∧ s.maxPacketLen = limit

theorem ensures_discover (reads : Readings) (s : Session) :
    discover.run.Ensures reads (Discovers reads s.maxPacketLen) s := by
  unfold discover
  refine ensures_modify_bind fun s₁ hs₁ => ?_
  have hfails : ∀ e, discoveryError? reads = some e →
      (throw e : SessionM DiscoveryReport).run.Ensures reads (Discovers reads s.maxPacketLen)
        s₁.forgetModules :=
    fun e he s' hs => ⟨he, hs.limit.trans hs₁.limit⟩
  apply (tells_readWord _ _).ensures_bind
  · intro count hcount
    apply (tells_readWord _ _).ensures_bind
    · intro len hlen
      dsimp only
      by_cases hroom : maxPayloadWords len.toNat = 0
      · rw [if_pos hroom]
        exact hfails _ (by simp only [discoveryError?, hcount, hlen, if_pos hroom])
      · rw [if_neg hroom]
        have hnone : discoveryError? reads = none := by
          simp only [discoveryError?, hcount, hlen, if_neg hroom]
        refine ensures_modify_bind fun s₂ hs₂ => ?_
        refine SessionM.ensures_bind ((ensures_enterModules _ _).mono ?_)
        rintro r s₃ ⟨rfl, hsurveyed⟩ s' hs'
        refine ⟨hnone, (hsurveyed.discovered ?_ hcount hlen hroom rfl).undisturbed hs'⟩
        exact hs₂.directory
    · intro e hlen
      exact hfails e (by simp only [discoveryError?, hcount, hlen])
  · intro e hcount
    exact hfails e (by simp only [discoveryError?, hcount])

/-! ## Connecting -/

/-- Nothing is left of a connection; the limit is the one given. -/
structure IsTraceless (limit : Nat) (s : Session) : Prop where
  connected : s.connected = false
  connection : s.connection = none
  directory : s.directory = .empty
  limit_eq : s.maxPacketLen = limit

theorem ensures_disconnect (reads : Readings) (s : Session) :
    disconnect.Ensures reads (fun _ s' => s'.IsTraceless s.maxPacketLen) s := by
  -- Others may act before the connection is dropped, before the modules are forgotten, and
  -- afterwards.
  intro s₁ hs₁ s₂ hs₂ s₃ hs₃
  have hconnected : s₂.connected = false := hs₂.connected rfl
  have hconnection : s₂.connection = none := hs₂.connection rfl
  exact ⟨hs₃.connected hconnected, hs₃.connection hconnection, hs₃.directory,
    hs₃.limit.trans (hs₂.limit.trans hs₁.limit)⟩

/-- What connecting leaves of a session that had this limit. -/
def Connects (reads : Readings) (limit : Nat) : Except SessionError DiscoveryReport →
    Session → Prop
  | .ok report, s => discoveryError? reads = none ∧ Discovered reads report s
  | .error e, s => discoveryError? reads = some e ∧ s.IsTraceless limit

theorem ensures_connect (reads : Readings) (h : s.connection = none) :
    connect.run.Ensures reads (Connects reads s.maxPacketLen) s := by
  unfold connect
  refine ensures_takeStep_bind (ensures_state_bind fun s₁ hs₁ => ?_)
  rw [hs₁.connection h]
  refine ensures_modify_bind fun s₂ hs₂ => ?_
  refine ensures_attempt_bind ((ensures_discover reads _).mono ?_)
  intro r s₃ hr
  cases r with
  | ok report => exact fun s' hs => ⟨hr.1, hr.2.undisturbed hs⟩
  | error e =>
    refine ensures_lift_bind ((ensures_disconnect reads s₃).mono ?_)
    intro _ s₄ hleft s' hs
    have hlimit : s₃.maxPacketLen = s.maxPacketLen := hr.2.trans (hs₂.limit.trans hs₁.limit)
    exact ⟨hr.1, hs.connected hleft.connected, hs.connection hleft.connection,
      hs.directory.trans hleft.directory, hs.limit.trans (hleft.limit_eq.trans hlimit)⟩

/-- Connecting a session without a connection comes to an end, and however it ends, it has
either failed and left nothing behind, so that a later attempt is not told that there is a
connection, or the session and the report agree with what the target has said. -/
theorem connect_completes_or_leaves_no_trace {s : Session} (hclosed : s.connection = none)
    (reads : Readings) :
    (∃ result s', SessionRun.Ends reads connect.run s result s') ∧
      ∀ result s', SessionRun.Ends reads connect.run s result s' →
        match result with
        | .ok report => Discovered reads report s'
        | .error e => discoveryError? reads = some e ∧ s'.IsTraceless s.maxPacketLen ∧
            ∀ reads' s'', SessionRun.Ends reads' connect.run s' (.error .alreadyConnected) s'' →
              discoveryError? reads' = some .alreadyConnected := by
  refine ⟨SessionRun.exists_ends reads _ s, fun result s' hends => ?_⟩
  have hleft := hends.ensured (ensures_connect reads hclosed)
  cases result with
  | ok report => exact hleft.2
  | error e =>
    refine ⟨hleft.1, hleft.2, fun reads' s'' hagain => ?_⟩
    exact (hagain.ensured (ensures_connect reads' hleft.2.connection)).1

/-- The only module of a subnet does not say its version.  Connecting completes, and reports
that. -/
theorem connect_completes_undescribed :
    let s := Session.initial (.ofSettings {})
    let reads : Readings := fun m a =>
      if a = versionAddress then .error (.timeout m a)
      else if a = maxPacketLenAddress then .ok 8
      else .ok 1
    s.connection = none ∧ ∃ report s', SessionRun.Ends reads connect.run s (.ok report) s' ∧
      report.modules = 1 ∧ s'.maxPacketLen = 8 ∧ (∀ m, m ∈ report.undescribed ↔ m = 0) ∧
      s'.directory.find? 0 = some (.unknown 0) := by
  intro s reads
  obtain ⟨⟨result, s', hends⟩, hall⟩ :=
    connect_completes_or_leaves_no_trace (s := s) rfl reads
  have hresult := hall result s' hends
  cases result with
  | error e =>
    have hnone : discoveryError? reads = none := by decide
    exact absurd (hnone.symm.trans hresult.1) nofun
  | ok report =>
    obtain ⟨count, hcount, hmodules⟩ := hresult.modules
    obtain ⟨len, hlen, hlimit⟩ := hresult.limit
    obtain rfl : 1 = count := Except.ok.inj (show Except.ok 1 = Except.ok count from hcount)
    obtain rfl : 8 = len := Except.ok.inj (show Except.ok 8 = Except.ok len from hlen)
    have hundescribed : ∀ m, m ∈ report.undescribed ↔ m = 0 := by
      intro m
      have hsilent : IsSilent reads m := ⟨.timeout m versionAddress, Or.inr (Or.inr rfl)⟩
      rw [hresult.undescribed, hresult.entered, hmodules, and_iff_left hsilent]
      show m.toNat < 1 ↔ m = 0
      rw [Nat.lt_one_iff]
      exact BitVec.toNat_eq (y := 0).symm
    exact ⟨rfl, report, s', hends, hmodules, hresult.limit_eq.trans hlimit, hundescribed,
      hresult.unknown 0 ((hundescribed 0).mpr rfl)⟩

end Session

end ProbeNet
