import ProbeNet.Proofs.Register.Unit

/-!
# What can be read

Which registers of a unit can be read and which can be written does not change
when the unit serves requests.  So it can be said of a unit as it was set up
which reads it will ever grant.

* `sameAccess_after` says that registers stay readable and writable, or do not;
  `content?_after_of_readOnly` that what cannot be written stays as it is.
* `getElem?_answers` finds the answer to the request at a place.
* `IsAnswer.of_word_read` is the answer to a read of one word, and
  `IsAnswer.length_cases` says how long answers are.
-/

namespace ProbeNet

open Register

/-! ## One write -/

/-- Only the control register and the event destination take writes, whatever the
base registers hold. -/
theorem isSome_write (r : BaseRegisters) (a v : Word) :
    (r.write a v).toOption.isSome = decide (a = controlAddress ∨ a = eventDestAddress) := by
  unfold BaseRegisters.write
  split_ifs with hread hcontrol hstall hevent
  · obtain rfl | rfl | rfl := hread <;> rfl
  · simp [hcontrol, Except.toOption]
  · simp [hcontrol, Except.toOption]
  · simp [hevent, Except.toOption]
  · simp [hcontrol, hevent, Except.toOption]

/-- A base register that takes writes can be read. -/
theorem isSome_read_of_write {r : BaseRegisters} {a v : Word}
    (h : (r.write a v).toOption.isSome = true) : (r.read a).toOption.isSome = true := by
  rw [isSome_write, decide_eq_true_eq] at h
  obtain rfl | rfl := h <;> rfl

namespace Register.ModuleBackend

variable {b b' : ModuleBackend} {a : Word} {v : Value}

/-- A register of the backend that takes writes can be read. -/
theorem isSome_content?_of_store? (h : (b.store? a v).isSome = true) :
    (b.content? a).isSome = true := by
  cases b with
  | control b =>
    simp only [store?, ControlBackend.store?, Option.isSome_map] at h
    split_ifs at h with hreset
    · subst hreset
      rfl
    · cases h
  | map b =>
    simp only [store?, MapBackend.store?, Option.isSome_map] at h
    split_ifs at h with hserved
    · simp only [content?, MapBackend.content?, if_pos hserved, Option.isSome_some]
    · cases h

/-- A write does not change which registers of the backend take writes. -/
theorem isSome_store?_of_store? (h : b.store? a v = some b') (c : Word) (w : Value) :
    (b'.store? c w).isSome = (b.store? c w).isSome := by
  cases b with
  | control b =>
    obtain ⟨b', -, rfl⟩ := Option.map_eq_some_iff.mp h
    simp only [store?, ControlBackend.store?, Option.isSome_map]
    split_ifs <;> rfl
  | map b =>
    obtain ⟨b', hstore, rfl⟩ := Option.map_eq_some_iff.mp h
    unfold MapBackend.store? at hstore
    split_ifs at hstore
    obtain rfl := Option.some.inj hstore
    have hsame : ({ b with values := b.values.insert a v } : MapBackend).contains c =
        b.contains c := rfl
    simp only [store?, MapBackend.store?, Option.isSome_map, hsame]
    by_cases hserved : (b.contains c && !b.faulty.contains c) = true
    · rw [if_pos hserved, if_pos hserved]
      rfl
    · rw [if_neg hserved, if_neg hserved]

end Register.ModuleBackend

namespace RegisterUnit

/-- The same registers can be read, and the same can be written. -/
def SameAccess (u u' : RegisterUnit) : Prop :=
  (∀ a, (u'.content? a).isSome = (u.content? a).isSome) ∧
    ∀ a v, (u'.store? a v).isSome = (u.store? a v).isSome

theorem SameAccess.refl (u : RegisterUnit) : u.SameAccess u := ⟨fun _ => rfl, fun _ _ => rfl⟩

theorem SameAccess.trans {u u' u'' : RegisterUnit} (h : u.SameAccess u')
    (h' : u'.SameAccess u'') : u.SameAccess u'' :=
  ⟨fun a => (h'.1 a).trans (h.1 a), fun a v => (h'.2 a v).trans (h.2 a v)⟩

variable {u u' : RegisterUnit} {a : Word} {v : Value}

/-- A register that takes writes can be read. -/
theorem isSome_content?_of_store? (h : (u.store? a v).isSome = true) :
    (u.content? a).isSome = true := by
  unfold store? at h
  unfold content?
  split_ifs at h ⊢ with hbase
  · rw [Option.isSome_map] at h ⊢
    exact isSome_read_of_write h
  · rw [Option.isSome_map] at h
    exact ModuleBackend.isSome_content?_of_store? h

/-- A write does not change which registers take writes. -/
theorem isSome_store?_of_store? (h : u.store? a v = some u') (c : Word) (w : Value) :
    (u'.store? c w).isSome = (u.store? c w).isSome := by
  unfold store? at h
  split_ifs at h
  · obtain ⟨registers, -, rfl⟩ := Option.map_eq_some_iff.mp h
    simp only [store?]
    split_ifs
    · rw [Option.isSome_map, Option.isSome_map, isSome_write, isSome_write]
    · rw [Option.isSome_map, Option.isSome_map]
  · obtain ⟨backend, hstore, rfl⟩ := Option.map_eq_some_iff.mp h
    simp only [store?]
    split_ifs
    · rw [Option.isSome_map, Option.isSome_map]
    · rw [Option.isSome_map, Option.isSome_map]
      exact ModuleBackend.isSome_store?_of_store? hstore c w

theorem sameAccess_of_store? (h : u.store? a v = some u') : u.SameAccess u' := by
  refine ⟨fun c => ?_, isSome_store?_of_store? h⟩
  rw [content?_of_store? h c]
  split_ifs with hc
  · subst hc
    exact (isSome_content?_of_store? (by rw [h]; rfl)).symm
  · rfl

/-! ## Many requests -/

theorem sameAccess_serve (u : RegisterUnit) (p : Packet) : u.SameAccess (u.serve p).1 := by
  unfold serve
  split
  · split <;> exact .refl u
  · split
    · rename_i u' hwrite
      obtain ⟨address, ws, -, -, -, hstore⟩ := writeValue?_eq_some_iff.mp hwrite
      exact sameAccess_of_store? hstore
    · exact .refl u
  · exact .refl u

/-- Requests do not change which registers can be read and which can be written. -/
theorem sameAccess_after (u : RegisterUnit) (ps : List Packet) : u.SameAccess (u.after ps) := by
  induction ps generalizing u with
  | nil => exact .refl u
  | cons p ps ih => exact (sameAccess_serve u p).trans (ih (u.serve p).1)

theorem grantedWrite?_isSome {p : Packet} {w : Word × Value} (h : u.grantedWrite? p = some w) :
    (u.store? w.1 w.2).isSome = true := by
  unfold grantedWrite? at h
  split at h
  · split_ifs at h with hgranted
    obtain ⟨u', hwrite⟩ := Option.isSome_iff_exists.mp hgranted
    obtain ⟨address, ws, hpayload, -, -, hstore⟩ := writeValue?_eq_some_iff.mp hwrite
    obtain rfl := Option.some.inj h
    rw [hpayload]
    exact Option.isSome_iff_exists.mpr ⟨u', hstore⟩
  · cases h

/-- A register that takes no writes is never written. -/
theorem lastWrite?_of_readOnly (hreadOnly : ∀ v, u.store? a v = none) (ps : List Packet) :
    lastWrite? a (u.writes ps) = none := by
  induction ps generalizing u with
  | nil => rfl
  | cons p ps ih =>
    have hrest : ∀ v, (u.serve p).1.store? a v = none := by
      intro v
      have haccess := (sameAccess_serve u p).2 a v
      rw [hreadOnly v, Option.isSome_none, Option.isSome_eq_false_iff] at haccess
      exact Option.isNone_iff_eq_none.mp haccess
    have hfirst : lastWrite? a (u.grantedWrite? p).toList = none := by
      cases hwrite : u.grantedWrite? p with
      | none => rfl
      | some w =>
        have hother : w.1 ≠ a := by
          rintro rfl
          have hgranted := grantedWrite?_isSome hwrite
          rw [hreadOnly] at hgranted
          cases hgranted
        simp [lastWrite?, hother]
    rw [writes, lastWrite?_append, ih hrest, hfirst]
    rfl

/-- What cannot be written stays as it is. -/
theorem content?_after_of_readOnly (hreadOnly : ∀ v, u.store? a v = none) (ps : List Packet) :
    (u.after ps).content? a = u.content? a := by
  rw [content?_after, lastWrite?_of_readOnly hreadOnly]
  rfl

/-- The base registers are served below the boundary, the backend from there on. -/
theorem content?_initial {config : EngineConfig} {backend : ModuleBackend} (a : Word) :
    (initial config backend).content? a =
      if a < config.boundary then
        ((BaseRegisters.initial config.identity config.canStall).read a).toOption.map
          (BitVec.setWidth 128)
      else backend.content? a := rfl

/-! ## Answers -/

/-- The request at a place is answered at the same place, by the unit that has
served the requests before it. -/
theorem getElem?_answers {ps : List Packet} (hrequests : ∀ p ∈ ps, p.isRequest = true) {k : Nat}
    {request : Packet} (hk : ps[k]? = some request) :
    ∃ answer, (u.answers ps)[k]? = some answer ∧ (u.after (ps.take k)).IsAnswer request answer := by
  obtain ⟨hlt, rfl⟩ := List.getElem?_eq_some_iff.mp hk
  have hsplit : ps.take k ++ ps[k] :: ps.drop (k + 1) = ps := by simp
  obtain ⟨answer, hanswer, hanswers⟩ := u.answers_of_request (ps.take k) (ps.drop (k + 1))
    (hrequests _ (List.getElem_mem hlt))
  have hlength : (u.answers (ps.take k)).length = k := by
    rw [u.length_answers fun p hp => hrequests p (List.mem_of_mem_take hp), List.length_take]
    exact Nat.min_eq_left (Nat.le_of_lt hlt)
  rw [hsplit] at hanswers
  refine ⟨answer, ?_, hanswer⟩
  rw [hanswers, List.getElem?_append_right (Nat.le_of_eq hlength), hlength, Nat.sub_self]
  rfl

end RegisterUnit

/-! ## Reads of one word -/

namespace Packet

/-- The answer to a read of one word that found a value, or nothing to read. -/
def wordAnswer (request : Packet) : Option Word → Packet
  | some w => request.reply (.register (.readSuccess .w16)) [w]
  | none => request.reply (.register .readError) []

end Packet

namespace RegisterUnit

variable {u : RegisterUnit}

theorem toWords_w16 (v : Value) : v.toWords .w16 = [v.setWidth 16] := by
  have hlow : v.extractLsb' 0 16 = v.setWidth 16 := BitVec.eq_of_getLsbD_eq fun i hi => by simp [hi]
  simpa [Value.toWords, Width.words] using hlow

/-- Every unit serves words at every address. -/
theorem admits_word (u : RegisterUnit) (a : Word) : u.admits a .w16 = true := by
  have hwords : Width.w16.words ≤ u.config.maxWidth.words := by
    cases u.config.maxWidth <;> decide
  simp [admits, hwords]

/-- A read of one word is answered with what the register holds. -/
theorem IsAnswer.of_word_read {request answer : Packet} {a : Word} (h : u.IsAnswer request answer)
    (hkind : request.kind = .register (.readRequest .w16)) (hpayload : request.payload = [a]) :
    answer = request.wordAnswer ((u.content? a).map (BitVec.setWidth 16)) := by
  cases h with
  | @readGranted w address v hkind' hpayload' hadmits hcontent =>
    rw [hkind] at hkind'
    rw [hpayload] at hpayload'
    obtain rfl : Width.w16 = w := by simpa using hkind'
    obtain rfl : a = address := by simpa using hpayload'
    rw [hcontent, toWords_w16]
    rfl
  | @readRefused w hkind' hrefused =>
    rw [hkind] at hkind'
    obtain rfl : Width.w16 = w := by simpa using hkind'
    rw [hrefused a hpayload (u.admits_word a)]
    rfl
  | writeGranted hkind' => simp [hkind] at hkind'
  | writeRefused hkind' => simp [hkind] at hkind'

/-- A granted read is as long as the width that was asked for; every other answer
is a header. -/
theorem IsAnswer.length_cases {request answer : Packet} (h : u.IsAnswer request answer) :
    (∃ w address, answer.kind = .register (.readSuccess w) ∧
      answer.lenWords = headerWords + w.words ∧ u.admits address w = true ∧
      (u.content? address).isSome = true) ∨
    answer.lenWords = headerWords ∧ ∀ w, answer.kind ≠ .register (.readSuccess w) := by
  cases h with
  | @readGranted w address v hkind hpayload hadmits hcontent =>
    have hlength : (request.reply (.register (.readSuccess w)) (v.toWords w)).lenWords =
        headerWords + w.words := by
      simp [Packet.lenWords, Packet.reply]
    exact .inl ⟨w, address, rfl, hlength, hadmits, by simp [hcontent]⟩
  | readRefused hkind hrefused => exact .inr ⟨rfl, by simp [Packet.reply]⟩
  | writeGranted hkind => exact .inr ⟨rfl, by simp [Packet.reply]⟩
  | writeRefused hkind => exact .inr ⟨rfl, by simp [Packet.reply]⟩

end RegisterUnit

end ProbeNet
