import ProbeNet.Packet.Datagram
import ProbeNet.Proofs.Packet.Codec

/-!
# Datagrams and words

A datagram is written and read byte by byte, a packet on a link word by word.
`BigEndian` is the format that connects them: two bytes for each word, the more
significant one first.  `bigEndian_iff` says that it is what the library writes for
words.  The two codecs for datagrams are then the ones for words behind the format
(`ofBytes_bytesOfWords`, `toBytes_eq_bytesOfWords`), and `datagram_agrees` puts
both directions together.
-/

namespace ProbeNet

/-- The bytes are those of the words, the more significant byte of each first. -/
def BigEndian (ws : List Word) (bytes : List Byte) : Prop :=
  bytes.length = 2 * ws.length ∧ ∀ i w, ws[i]? = some w → ∃ high low : Byte,
    bytes[2 * i]? = some high ∧ bytes[2 * i + 1]? = some low ∧
      w.toNat = 256 * high.toNat + low.toNat

/-! ## Words as bytes -/

namespace Word

theorem toNat_ofBytes (high low : Byte) :
    (ofBytes high low).toNat = 256 * high.toNat + low.toNat := by
  rw [ofBytes, BitVec.toNat_append, ← Nat.shiftLeft_add_eq_or_of_lt low.isLt, Nat.shiftLeft_eq,
    Nat.mul_comm]

theorem bytes_ofBytes (high low : Byte) : (ofBytes high low).bytes = [high, low] := by
  rw [bytes, ofBytes, BitVec.extractLsb'_append_eq_left, BitVec.extractLsb'_append_eq_right]

theorem ofBytes_bytes (w : Word) : ofBytes (w.extractLsb' 8 8) (w.extractLsb' 0 8) = w := by
  have hjoin : w.extractLsb' 8 8 ++ w.extractLsb' 0 8 = w.extractLsb' 0 16 :=
    BitVec.extractLsb'_append_extractLsb'_eq_extractLsb' rfl
  exact hjoin.trans (BitVec.extractLsb'_eq_self ..)

/-- A word is written as two bytes just if it is read from them. -/
theorem bytes_eq_iff (w : Word) (high low : Byte) :
    w.bytes = [high, low] ↔ w = ofBytes high low := by
  constructor
  · intro h
    obtain ⟨rfl, hlow⟩ := List.cons.inj h
    obtain ⟨rfl, -⟩ := List.cons.inj hlow
    exact w.ofBytes_bytes.symm
  · rintro rfl
    exact bytes_ofBytes high low

/-- Clearing bits of a word clears them in its bytes. -/
theorem bytes_and (w mask : Word) :
    (w &&& mask).bytes =
      [w.extractLsb' 8 8 &&& mask.extractLsb' 8 8, w.extractLsb' 0 8 &&& mask.extractLsb' 0 8] := by
  rw [bytes, BitVec.extractLsb'_and, BitVec.extractLsb'_and]

end Word

theorem bytesOfWords_cons (w : Word) (ws : List Word) :
    bytesOfWords (w :: ws) = w.bytes ++ bytesOfWords ws := rfl

theorem bigEndian_nil_iff (bytes : List Byte) : BigEndian [] bytes ↔ bytes = [] := by
  simp [BigEndian]

/-- The first word is in the first two bytes, and the others are behind them. -/
theorem bigEndian_cons_iff (w : Word) (ws : List Word) (bytes : List Byte) :
    BigEndian (w :: ws) bytes ↔
      ∃ high low rest, bytes = high :: low :: rest ∧ w = .ofBytes high low ∧ BigEndian ws rest := by
  constructor
  · rintro ⟨hlength, hwords⟩
    obtain ⟨high, low, hhigh, hlow, hw⟩ := hwords 0 w rfl
    match bytes, hhigh, hlow with
    | _ :: _ :: rest, rfl, rfl =>
      refine ⟨high, low, rest, rfl, ?_, ?_, fun i v hv => ?_⟩
      · exact BitVec.eq_of_toNat_eq (hw.trans (Word.toNat_ofBytes high low).symm)
      · simpa [Nat.mul_add] using hlength
      · exact hwords (i + 1) v hv
  · rintro ⟨high, low, rest, rfl, rfl, hlength, hwords⟩
    refine ⟨by simp [hlength, Nat.mul_add], fun i v hv => ?_⟩
    cases i with
    | zero =>
      obtain rfl : Word.ofBytes high low = v := Option.some.inj hv
      exact ⟨high, low, rfl, rfl, Word.toNat_ofBytes high low⟩
    | succ i => exact hwords i v hv

/-- The format is what words are written as. -/
theorem bigEndian_iff (ws : List Word) (bytes : List Byte) :
    BigEndian ws bytes ↔ bytesOfWords ws = bytes := by
  induction ws generalizing bytes with
  | nil => exact (bigEndian_nil_iff bytes).trans eq_comm
  | cons w ws ih =>
    rw [bigEndian_cons_iff, bytesOfWords_cons]
    constructor
    · rintro ⟨high, low, rest, rfl, hw, hrest⟩
      rw [(w.bytes_eq_iff high low).mpr hw, (ih rest).mp hrest]
      rfl
    · rintro rfl
      exact ⟨_, _, _, rfl, w.ofBytes_bytes.symm, (ih _).mpr rfl⟩

theorem wordsOfBytes?_bytesOfWords (ws : List Word) : wordsOfBytes? (bytesOfWords ws) = some ws := by
  induction ws with
  | nil => rfl
  | cons w ws ih =>
    show (wordsOfBytes? (bytesOfWords ws)).map (Word.ofBytes _ _ :: ·) = _
    rw [ih, w.ofBytes_bytes]
    rfl

/-- Bytes without one left over are words. -/
theorem exists_bytesOfWords {bytes : List Byte} (h : bytes.length % 2 = 0) :
    ∃ ws, bytesOfWords ws = bytes := by
  fun_induction wordsOfBytes? bytes with
  | case1 => exact ⟨[], rfl⟩
  | case2 b => cases h
  | case3 high low rest ih =>
    obtain ⟨ws, rfl⟩ := ih (by simp only [List.length_cons] at h; omega)
    exact ⟨.ofBytes high low :: ws, by rw [bytesOfWords_cons, Word.bytes_ofBytes]; rfl⟩

/-! ## The two codecs -/

namespace Packet

theorem toBytes_eq_bytesOfWords (p : Packet) : p.toBytes = bytesOfWords p.encode := rfl

/-- A datagram that holds words is read as the words are. -/
theorem ofBytes_bytesOfWords (ws : List Word) : ofBytes (bytesOfWords ws) = decode ws := by
  have hlength : (bytesOfWords ws).length = 2 * ws.length :=
    ((bigEndian_iff ws _).mpr rfl).1
  have heven : ¬ (bytesOfWords ws).length % 2 ≠ 0 := by omega
  rw [ofBytes, if_neg heven, hlength, Nat.mul_div_cancel_left _ Nat.two_pos]
  match ws with
  | [] => rfl
  | [_] => rfl
  | [_, _] => rfl
  | dest :: src :: flags :: payload =>
    have hheader : DatagramHeader.ofPrefix? (bytesOfWords (dest :: src :: flags :: payload)) =
        some { dest, src, flags } := by
      show some (DatagramHeader.mk (.ofBytes _ _) (.ofBytes _ _) (.ofBytes _ _)) = _
      rw [dest.ofBytes_bytes, src.ofBytes_bytes, flags.ofBytes_bytes]
    have hpayload : wordsOfBytes? ((bytesOfWords (dest :: src :: flags :: payload)).drop
        DatagramHeader.size) = some payload := wordsOfBytes?_bytesOfWords payload
    rw [hheader]
    dsimp only
    rw [hpayload]
    rfl

theorem ofBytes_of_odd {bytes : List Byte} (h : bytes.length % 2 ≠ 0) :
    ofBytes bytes = .error (.oddLength bytes.length) := by
  rw [ofBytes, if_pos h]

/-- Words are never found to be an odd number of bytes. -/
theorem decode_ne_oddLength (ws : List Word) (n : Nat) : decode ws ≠ .error (.oddLength n) := by
  match ws with
  | [] => simp [decode]
  | [_] => simp [decode]
  | [_, _] => simp [decode]
  | dest :: src :: flags :: payload =>
    obtain ⟨-, -, hdecode⟩ | ⟨-, p, hdecode, -⟩ := decode_cases dest src flags payload
    · simp [hdecode]
    · simp [hdecode]

theorem ofBytes_eq_oddLength_iff (bytes : List Byte) (n : Nat) :
    ofBytes bytes = .error (.oddLength n) ↔ bytes.length % 2 = 1 ∧ n = bytes.length := by
  by_cases hodd : bytes.length % 2 = 0
  · obtain ⟨ws, rfl⟩ := exists_bytesOfWords hodd
    rw [ofBytes_bytesOfWords]
    exact iff_of_false (decode_ne_oddLength ws n) (by omega)
  · rw [ofBytes_of_odd hodd]
    simp only [Except.error.injEq, PacketError.oddLength.injEq]
    omega

theorem ofBytes_toBytes (p : Packet) : ofBytes p.toBytes = .ok p := by
  rw [toBytes_eq_bytesOfWords, ofBytes_bytesOfWords, decode_encode]

/-- What is read from words and written as a datagram is these words with the reserved
bits of the header cleared. -/
theorem toBytes_of_decode {ws : List Word} {p : Packet} (h : decode ws = .ok p) :
    ∃ d₁ d₀ s₁ s₀ f₁ f₀ payload,
      bytesOfWords ws = d₁ :: d₀ :: s₁ :: s₀ :: f₁ :: f₀ :: payload ∧
        p.toBytes = (d₁ &&& 0x03#8) :: d₀ :: (s₁ &&& 0x03#8) :: s₀ ::
          (f₁ &&& 0xfc#8) :: 0 :: payload := by
  match ws, h with
  | dest :: src :: flags :: payload, h =>
    obtain ⟨-, -, hdecode⟩ | ⟨-, q, hdecode, hwords⟩ := decode_cases dest src flags payload
    · rw [hdecode] at h
      cases h
    · obtain rfl : q = p := Except.ok.inj (hdecode.symm.trans h)
      refine ⟨_, _, _, _, _, _, _, rfl, ?_⟩
      have haddress : ∀ w : Word, (w &&& 0x3ff#16).bytes =
          [w.extractLsb' 8 8 &&& 0x03#8, w.extractLsb' 0 8] := by
        intro w
        have hlow : w.extractLsb' 0 8 &&& 0xff#8 = w.extractLsb' 0 8 := BitVec.and_allOnes
        rw [Word.bytes_and]
        exact congrArg ([_, ·]) hlow
      have hflags : (flags &&& 0xfc00#16).bytes = [flags.extractLsb' 8 8 &&& 0xfc#8, 0] := by
        rw [Word.bytes_and]
        exact congrArg ([_, ·]) BitVec.and_zero
      rw [toBytes_eq_bytesOfWords, hwords]
      simp only [bytesOfWords_cons, haddress, hflags]
      rfl

/-- Datagrams and words are two forms of one format.  A datagram is refused as odd just
if a byte is left over, and is otherwise read as its words are, errors included.  A packet
is written as the bytes of its words, and is read back from them.  A datagram that is read
as a packet is what the packet is written as, up to the reserved bits of its header. -/
theorem datagram_agrees :
    (∀ (bytes : List Byte) (n : Nat),
      ofBytes bytes = .error (.oddLength n) ↔ bytes.length % 2 = 1 ∧ n = bytes.length) ∧
    (∀ bytes : List Byte, bytes.length % 2 = 1 ∨
      ∃ ws, BigEndian ws bytes ∧ ofBytes bytes = decode ws) ∧
    (∀ p : Packet, BigEndian p.encode p.toBytes ∧ ofBytes p.toBytes = .ok p) ∧
    ∀ bytes : List Byte, (∃ e, ofBytes bytes = .error e) ∨
      ∃ d₁ d₀ s₁ s₀ f₁ f₀ payload p,
        bytes = d₁ :: d₀ :: s₁ :: s₀ :: f₁ :: f₀ :: payload ∧ ofBytes bytes = .ok p ∧
          p.toBytes = (d₁ &&& 0x03#8) :: d₀ :: (s₁ &&& 0x03#8) :: s₀ ::
            (f₁ &&& 0xfc#8) :: 0 :: payload := by
  refine ⟨ofBytes_eq_oddLength_iff, fun bytes => ?words, fun p => ?written, fun bytes => ?again⟩
  case words =>
    rcases Nat.mod_two_eq_zero_or_one bytes.length with heven | hodd
    · obtain ⟨ws, hws⟩ := exists_bytesOfWords heven
      exact Or.inr ⟨ws, (bigEndian_iff ws bytes).mpr hws, hws ▸ ofBytes_bytesOfWords ws⟩
    · exact Or.inl hodd
  case written =>
    exact ⟨(bigEndian_iff _ _).mpr p.toBytes_eq_bytesOfWords.symm, p.ofBytes_toBytes⟩
  case again =>
    cases hread : ofBytes bytes with
    | error e => exact Or.inl ⟨e, rfl⟩
    | ok p =>
      have heven : bytes.length % 2 = 0 := by
        by_contra hodd
        rw [ofBytes_of_odd hodd] at hread
        cases hread
      obtain ⟨ws, rfl⟩ := exists_bytesOfWords heven
      rw [ofBytes_bytesOfWords] at hread
      obtain ⟨d₁, d₀, s₁, s₀, f₁, f₀, payload, hbytes, hwritten⟩ := toBytes_of_decode hread
      exact Or.inr ⟨d₁, d₀, s₁, s₀, f₁, f₀, payload, p, hbytes, rfl, hwritten⟩

end Packet

end ProbeNet
