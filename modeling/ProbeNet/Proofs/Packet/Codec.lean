import ProbeNet.Packet.Flit
import Mathlib.Tactic.IntervalCases

/-!
# Reading packets back

What `Packet.encode` lays out, `Packet.decode` reads back, and so does the
form in flits.  `Packet.cons_of_ofFlits` says what a run of flits that is a
packet looks like: its first three words are the header.

In the other direction `Packet.map_encode_decode` lays out again what was read:
the words come back with the reserved bits of the header cleared, unless the
flags word is one of the register subclass that stands for no kind.
`Packet.codec_inverts` puts the two directions together.
-/

namespace ProbeNet

/-- A flags word gives class and subclass back. -/
theorem extractLsb'_flags (c : BitVec 2) (s : Subclass) :
    (c ++ s ++ 0#10).extractLsb' 14 2 = c ∧ (c ++ s ++ 0#10).extractLsb' 10 4 = s := by
  revert c s
  decide

@[simp] theorem ofFlags_flags (k : PacketKind) : PacketKind.ofFlags k.flags = .ok k := by
  have hclass : PacketKind.classOfFlags k.flags = k.packetClass := by
    rw [PacketKind.classOfFlags, PacketKind.flags, (extractLsb'_flags _ _).1,
      PacketClass.ofBits_bits]
  rw [PacketKind.ofFlags, hclass, PacketKind.flags, (extractLsb'_flags _ _).2]
  cases k with
  | register kind =>
    simp [PacketKind.packetClass, PacketKind.subclass, PacketKind.ofSubclass, Except.map]
  | plain s => rfl
  | event s => rfl
  | reserved s => rfl

/-- The class of a kind is the one that its flags word names. -/
theorem packetClass_of_ofFlags {w : Word} {k : PacketKind} (h : PacketKind.ofFlags w = .ok k) :
    k.packetClass = PacketKind.classOfFlags w := by
  unfold PacketKind.ofFlags at h
  cases hclass : PacketKind.classOfFlags w with
  | register =>
    rw [hclass, PacketKind.ofSubclass] at h
    cases hsub : RegisterKind.ofSubclass (w.extractLsb' 10 4) with
    | error e => simp [hsub, Except.map] at h
    | ok kind =>
      rw [hsub] at h
      rw [← Except.ok.inj h]
      rfl
  | _ =>
    rw [hclass, PacketKind.ofSubclass] at h
    rw [← Except.ok.inj h]
    rfl

/-- Of the sixteen register subclasses only 13 stands for no kind; any other is
the subclass of the kind it stands for. -/
theorem RegisterKind.map_subclass_ofSubclass (s : Subclass) :
    (RegisterKind.ofSubclass s).map RegisterKind.subclass =
      if s = 13 then .error (.undefinedSubclass 13) else .ok s := by
  obtain ⟨⟨s, hs⟩⟩ := s
  interval_cases s <;>
    simp [RegisterKind.ofSubclass, RegisterKind.subclass, Except.map]

/-- Class and subclass of a flags word, put together again, are the word without
its reserved bits. -/
theorem flags_of_extractLsb' (w : Word) :
    w.extractLsb' 14 2 ++ w.extractLsb' 10 4 ++ 0#10 = w &&& 0xfc00#16 := by
  apply BitVec.eq_of_getLsbD_eq
  intro i hi
  simp only [BitVec.getLsbD_append, BitVec.getLsbD_extractLsb', BitVec.getLsbD_and]
  interval_cases i <;> simp

namespace PacketKind

/-- The flags word of the kind that a class and a subclass name holds both and
nothing else. -/
theorem map_flags_ofSubclass (c : PacketClass) (s : Subclass) :
    (ofSubclass c s).map flags =
      if c = .register ∧ s = 13 then .error (.undefinedSubclass 13)
      else .ok (c.bits ++ s ++ 0#10) := by
  cases c with
  | register =>
    have hmap : (ofSubclass .register s).map flags =
        ((RegisterKind.ofSubclass s).map RegisterKind.subclass).map
          (PacketClass.register.bits ++ · ++ 0#10) := by
      rw [ofSubclass]
      cases RegisterKind.ofSubclass s <;> rfl
    rw [hmap, RegisterKind.map_subclass_ofSubclass]
    split <;> simp_all [Except.map]
  | plain => simp [ofSubclass, Except.map, flags, packetClass, subclass]
  | event => simp [ofSubclass, Except.map, flags, packetClass, subclass]
  | reserved => simp [ofSubclass, Except.map, flags, packetClass, subclass]

theorem classOfFlags_eq_register_iff (w : Word) :
    classOfFlags w = .register ↔ w.extractLsb' 14 2 = 0 := by
  have hbits : (classOfFlags w).bits = w.extractLsb' 14 2 := PacketClass.bits_ofBits _
  rw [← hbits]
  cases classOfFlags w <;> simp [PacketClass.bits]

/-- The flags word of the kind that a flags word names is that word without its
reserved bits.  A word names no kind just if it is one of a register packet with
subclass 13. -/
theorem map_flags_ofFlags (w : Word) :
    (ofFlags w).map flags =
      if w.extractLsb' 14 2 = 0 ∧ w.extractLsb' 10 4 = 13 then .error (.undefinedSubclass 13)
      else .ok (w &&& 0xfc00#16) := by
  have hbits : (classOfFlags w).bits = w.extractLsb' 14 2 := PacketClass.bits_ofBits _
  rw [ofFlags, map_flags_ofSubclass, hbits, flags_of_extractLsb']
  simp only [classOfFlags_eq_register_iff]

end PacketKind

namespace Packet

/-- Whether a packet asks for a register access. -/
def isRequest (p : Packet) : Bool :=
  match p.kind with
  | .register kind => kind.isRequest
  | _ => false

theorem packetClass_of_isRequest {p : Packet} (h : p.isRequest = true) :
    p.packetClass = .register := by
  unfold isRequest at h
  split at h
  · rename_i kind hkind
    rw [packetClass, hkind]
    rfl
  · cases h

/-- A run that is a packet begins with the words of its header, and is as long
as the packet. -/
theorem cons_of_ofFlits {r : List Flit} {p : Packet} (h : ofFlits r = .ok p) :
    ∃ dest src flags rest, r = dest :: src :: flags :: rest ∧ p.dest = .ofWord dest.word ∧
      p.packetClass = PacketKind.classOfFlags flags.word ∧ p.lenWords = r.length := by
  rcases r with _ | ⟨dest, _ | ⟨src, _ | ⟨flags, rest⟩⟩⟩
  · cases h
  · cases h
  · cases h
  · refine ⟨dest, src, flags, rest, rfl, ?_⟩
    simp only [ofFlits, List.map_cons, decode, bind, Except.bind] at h
    cases hkind : PacketKind.ofFlags flags.word with
    | error e => simp [hkind] at h
    | ok kind =>
      rw [hkind] at h
      rw [← Except.ok.inj h]
      refine ⟨rfl, packetClass_of_ofFlags hkind, ?_⟩
      simp only [lenWords, headerWords, List.length_map, List.length_cons]
      omega

theorem decode_encode (p : Packet) : decode p.encode = .ok p := by
  simp [decode, encode, bind, Except.bind]

@[simp] theorem ofFlits_toFlits (p : Packet) : ofFlits p.toFlits = .ok p := by
  rw [ofFlits_toFlits_eq_decode, decode_encode]

/-- Words that are read as a packet and laid out again come back with the
reserved bits of the header cleared. -/
theorem map_encode_decode (dest src flags : Word) (payload : List Word) :
    (decode (dest :: src :: flags :: payload)).map encode =
      if flags.extractLsb' 14 2 = 0 ∧ flags.extractLsb' 10 4 = 13 then
        .error (.undefinedSubclass 13)
      else
        .ok ((dest &&& 0x3ff#16) :: (src &&& 0x3ff#16) :: (flags &&& 0xfc00#16) :: payload) := by
  have hmap : (decode (dest :: src :: flags :: payload)).map encode =
      ((PacketKind.ofFlags flags).map PacketKind.flags).map
        ((dest &&& 0x3ff#16) :: (src &&& 0x3ff#16) :: · :: payload) := by
    simp only [decode, bind, Except.bind]
    cases PacketKind.ofFlags flags <;> simp [Except.map, encode, Address.word_ofWord]
  rw [hmap, PacketKind.map_flags_ofFlags]
  split <;> rfl

theorem packetClass_of_decode {dest src flags : Word} {payload : List Word} {p : Packet}
    (h : decode (dest :: src :: flags :: payload) = .ok p) :
    p.packetClass = PacketKind.classOfFlags flags := by
  simp only [decode, bind, Except.bind] at h
  cases hkind : PacketKind.ofFlags flags with
  | error e => simp [hkind] at h
  | ok kind =>
    rw [hkind] at h
    rw [← Except.ok.inj h]
    exact packetClass_of_ofFlags hkind

/-- Reading words with a header fails just on the undefined register subclass. -/
theorem decode_cases (dest src flags : Word) (payload : List Word) :
    (flags.extractLsb' 14 2 = 0 ∧ flags.extractLsb' 10 4 = 13 ∧
        decode (dest :: src :: flags :: payload) = .error (.undefinedSubclass 13)) ∨
      ¬(flags.extractLsb' 14 2 = 0 ∧ flags.extractLsb' 10 4 = 13) ∧
        ∃ p, decode (dest :: src :: flags :: payload) = .ok p ∧ p.encode =
          (dest &&& 0x3ff#16) :: (src &&& 0x3ff#16) :: (flags &&& 0xfc00#16) :: payload := by
  have hwords := map_encode_decode dest src flags payload
  cases hdecode : decode (dest :: src :: flags :: payload) with
  | error e =>
    rw [hdecode] at hwords
    split at hwords
    · rename_i hflags
      exact .inl ⟨hflags.1, hflags.2, congrArg Except.error (Except.error.inj hwords)⟩
    · cases hwords
  | ok p =>
    rw [hdecode] at hwords
    split at hwords
    · cases hwords
    · rename_i hflags
      exact .inr ⟨hflags, p, rfl, Except.ok.inj hwords⟩

theorem decode_eq_tooShort_iff (ws : List Word) (n : Nat) :
    decode ws = .error (.tooShort n) ↔ ws.length < headerWords ∧ n = ws.length := by
  rcases ws with _ | ⟨dest, _ | ⟨src, _ | ⟨flags, payload⟩⟩⟩
  · simp [decode, headerWords, eq_comm]
  · simp [decode, headerWords, eq_comm]
  · simp [decode, headerWords, eq_comm]
  · have hlong : ¬(dest :: src :: flags :: payload).length < headerWords := by
      simp only [List.length_cons, headerWords]
      omega
    obtain ⟨-, -, hdecode⟩ | ⟨-, p, hdecode, -⟩ := decode_cases dest src flags payload
    · exact iff_of_false (by simp [hdecode]) (hlong ·.1)
    · exact iff_of_false (by simp [hdecode]) (hlong ·.1)

/-- The codec is a bijection up to the reserved bits of the header: `decode`
inverts `encode`, what it reads is laid out again as the same words with these
bits cleared, it fails just on words without a header and on the undefined
register subclass, and the class it reads is the one the flags word names by
itself. -/
theorem codec_inverts :
    (∀ p : Packet, decode p.encode = .ok p) ∧
    (∀ (ws : List Word) (n : Nat),
      decode ws = .error (.tooShort n) ↔ ws.length < headerWords ∧ n = ws.length) ∧
    ∀ (dest src flags : Word) (payload : List Word),
      (decode (dest :: src :: flags :: payload) = .error (.undefinedSubclass 13) ↔
        flags.extractLsb' 14 2 = 0 ∧ flags.extractLsb' 10 4 = 13) ∧
      (¬(flags.extractLsb' 14 2 = 0 ∧ flags.extractLsb' 10 4 = 13) →
        ∃ p, decode (dest :: src :: flags :: payload) = .ok p ∧ p.encode =
          (dest &&& 0x3ff#16) :: (src &&& 0x3ff#16) :: (flags &&& 0xfc00#16) :: payload) ∧
      ∀ p, decode (dest :: src :: flags :: payload) = .ok p →
        PacketKind.classOfFlags flags = p.packetClass := by
  refine ⟨decode_encode, decode_eq_tooShort_iff, fun dest src flags payload => ?_⟩
  refine ⟨?undefined, ?laidOut, fun p hp => (packetClass_of_decode hp).symm⟩
  case undefined =>
    obtain ⟨hclass, hsub, hdecode⟩ | ⟨hflags, p, hdecode, -⟩ := decode_cases dest src flags payload
    · exact iff_of_true hdecode ⟨hclass, hsub⟩
    · exact iff_of_false (by simp [hdecode]) hflags
  case laidOut =>
    intro hflags
    obtain ⟨hclass, hsub, -⟩ | ⟨-, hp⟩ := decode_cases dest src flags payload
    · exact absurd ⟨hclass, hsub⟩ hflags
    · exact hp

end Packet

end ProbeNet
