/-
  `message::Codec`: THE FRAMES of the binary protocol.

    totalSize (u32) | commandSize (u32) | command
    totalSize (u32) | commandSize (u32) | command | 0x0e01 | checksum (u32) | metadataSize (u32)
                                                  | metadata | data

  `totalSize` counts what follows it.  The checksum is the CRC-32C of everything from `metadataSize` to
  the end of the frame.

  * `encode` writes a frame.  `decode` is called on a buffer that grows: it answers a message and cuts
    its frame off, or asks for more, or fails, and then the buffer stays as it was.

  * Protobuf and the CRC are third-party code: parameters (`Wire`).

  1. `stream_round_trip` — whatever a list of messages is encoded to, cut anywhere, decodes to the list.

  2. `decode_accepts_frames` — what is accepted is exactly a frame as above, EXCEPT that the two bytes
     of the magic number may be anything: `payload_frame` reads the number, and nobody looks at it
     (`wrong_magic_is_accepted`).
-/
import PulsarClient.Consumer.Payload
import PulsarClient.Lib.Framing

namespace PulsarClient

open Proto

/-! ## Numbers -/

/-- `BufMut::put_u16`, of `n as u16`. -/
def putU16 (n : Nat) : Bytes := [UInt8.ofNat (n / 2 ^ 8), UInt8.ofNat n]

/-- `BufMut::put_u32`, of `n as u32`. -/
def putU32 (n : Nat) : Bytes :=
  [UInt8.ofNat (n / 2 ^ 24), UInt8.ofNat (n / 2 ^ 16), UInt8.ofNat (n / 2 ^ 8), UInt8.ofNat n]

/-- `be_u16` -/
def beU16 : Bytes → Option (Nat × Bytes)
  | a :: b :: rest => some (a.toNat * 256 + b.toNat, rest)
  | _ => none

@[simp] theorem length_putU16 (n : Nat) : (putU16 n).length = 2 := rfl

@[simp] theorem length_putU32 (n : Nat) : (putU32 n).length = 4 := rfl

theorem beU32_putU32 {n : Nat} (h : n < 2 ^ 32) (rest : Bytes) :
    beU32 (putU32 n ++ rest) = some (n, rest) := by
  simp only [putU32, List.cons_append, List.nil_append, beU32, UInt8.toNat_ofNat', Option.some.injEq,
    Prod.mk.injEq, and_true]
  omega

/-- What `be_u32` reads is what `put_u32` writes. -/
theorem beU32_eq_some_iff {i rest : Bytes} {n : Nat} :
    beU32 i = some (n, rest) ↔ n < 2 ^ 32 ∧ i = putU32 n ++ rest := by
  constructor
  · intro h
    rcases i with _ | ⟨a, _ | ⟨b, _ | ⟨c, _ | ⟨d, tail⟩⟩⟩⟩
    · cases h
    · cases h
    · cases h
    · cases h
    · simp only [beU32, Option.some.injEq, Prod.mk.injEq] at h
      obtain ⟨hn, rfl⟩ := h
      have ha := a.toNat_lt
      have hb := b.toNat_lt
      have hc := c.toNat_lt
      have hd := d.toNat_lt
      have hbyte : ∀ (x : UInt8) (k : Nat), k % 256 = x.toNat → UInt8.ofNat k = x := by
        intro x k hk
        apply UInt8.toNat_inj.mp
        rw [UInt8.toNat_ofNat']
        exact hk
      refine ⟨by omega, ?_⟩
      rw [putU32, hbyte a _ (by omega), hbyte b _ (by omega), hbyte c _ (by omega),
        hbyte d _ (by omega)]
      rfl
  · rintro ⟨hn, rfl⟩
    exact beU32_putU32 hn rest

theorem beU32_eq_none_iff {i : Bytes} : beU32 i = none ↔ i.length < 4 := by
  rcases i with _ | ⟨a, _ | ⟨b, _ | ⟨c, _ | ⟨d, rest⟩⟩⟩⟩
  · simp [beU32]
  · simp [beU32]
  · simp [beU32]
  · simp [beU32]
  · simp [beU32]

theorem beU16_eq_some_iff {i rest : Bytes} {n : Nat} :
    beU16 i = some (n, rest) ↔ ∃ a b, i = a :: b :: rest ∧ n = a.toNat * 256 + b.toNat := by
  rcases i with _ | ⟨a, _ | ⟨b, tail⟩⟩
  · simp [beU16]
  · simp [beU16]
  · simp only [beU16, Option.some.injEq, Prod.mk.injEq, List.cons.injEq]
    constructor
    · rintro ⟨rfl, rfl⟩
      exact ⟨a, b, ⟨rfl, rfl, rfl⟩, rfl⟩
    · rintro ⟨a', b', ⟨rfl, rfl, rfl⟩, rfl⟩
      exact ⟨rfl, rfl⟩

theorem takeBytes_eq_some_iff {n : Nat} {i bytes rest : Bytes} :
    takeBytes n i = some (bytes, rest) ↔ bytes.length = n ∧ i = bytes ++ rest := by
  unfold takeBytes
  constructor
  · intro h
    split at h
    · rename_i hle
      simp only [Option.some.injEq, Prod.mk.injEq] at h
      obtain ⟨rfl, rfl⟩ := h
      exact ⟨List.length_take_of_le hle, (List.take_append_drop n i).symm⟩
    · exact absurd h (Option.some_ne_none _).symm
  · rintro ⟨rfl, rfl⟩
    rw [if_pos (by rw [List.length_append]; omega), List.take_left, List.drop_left]

/-! ## The codec -/

/-- Third-party code: `prost` and `crc`. -/
structure Wire where
  encodeCommand : BaseCommand → Bytes
  decodeCommand : Bytes → Except String BaseCommand
  encodeMetadata : MessageMetadata → Bytes
  decodeMetadata : Bytes → Except String MessageMetadata
  /-- `CRC_CASTAGNOLI.checksum` -/
  checksum : Bytes → UInt32

/-- `CommandFrame` -/
structure CommandFrame where
  totalSize : Nat
  commandSize : Nat
  command : Bytes

/-- `PayloadFrame` -/
structure PayloadFrame where
  magicNumber : Nat
  checksum : Nat
  metadataSize : Nat
  metadata : Bytes

/-- `command_frame` -/
def commandFrame (i : Bytes) : Option (CommandFrame × Bytes) := do
  let (totalSize, i) ← beU32 i
  let (commandSize, i) ← beU32 i
  let (command, i) ← takeBytes commandSize i
  some ({ totalSize, commandSize, command }, i)

/-- `payload_frame` -/
def payloadFrame (i : Bytes) : Option (PayloadFrame × Bytes) := do
  let (magicNumber, i) ← beU16 i
  let (checksum, i) ← beU32 i
  let (metadataSize, i) ← beU32 i
  let (metadata, i) ← takeBytes metadataSize i
  some ({ magicNumber, checksum, metadataSize, metadata }, i)

namespace Wire

variable (w : Wire)

/-- From `metadataSize` to the end of the frame: what the checksum is over. -/
def checked (payload : Payload) : Bytes :=
  putU32 (w.encodeMetadata payload.metadata).length ++ w.encodeMetadata payload.metadata ++
    payload.data

/-- What follows the command. -/
def payloadSection : Option Payload → Bytes
  | none => []
  | some payload =>
    putU16 0x0e01 ++ putU32 (w.checksum (w.checked payload)).toNat ++ w.checked payload

/-- `Codec::encode`.  The sizes go out as `u32`. -/
def encode (item : Message) : Bytes :=
  let commandSize := (w.encodeCommand item.command).length
  let metadataSize := (item.payload.map fun p => (w.encodeMetadata p.metadata).length).getD 0
  let payloadSize := (item.payload.map fun p => p.data.length).getD 0
  let headerSize := if item.payload.isSome then 18 else 8
  let totalSize := commandSize + metadataSize + payloadSize + headerSize - 4
  putU32 totalSize ++ putU32 commandSize ++ w.encodeCommand item.command ++
    w.payloadSection item.payload

/-- What is left of a frame after its command: nothing, or a payload.  (The texts are followed by
    `nom`'s own.) -/
def decodePayload (buf : Bytes) : Except ConnectionError (Option Payload) :=
  if buf.isEmpty then .ok none
  else
    match payloadFrame buf with
    | none => .error (.Decoding "Error decoding payload frame")
    | some (frame, data) =>
      match w.decodeMetadata frame.metadata with
      | .error text => .error (.Decoding text)
      | .ok metadata =>
        if frame.checksum =
            (w.checksum (putU32 frame.metadataSize ++ frame.metadata ++ data)).toNat then
          .ok (some { metadata, data })
        else .error (.Decoding "Checksum mismatch, invalid payload")

/-- The message of a whole frame. -/
def decodeFrame (frame : Bytes) : Except ConnectionError Message :=
  match commandFrame frame with
  | none => .error (.Decoding "Error decoding command frame")
  | some (commandFrame, buf) =>
    match w.decodeCommand commandFrame.command with
    | .error text => .error (.Decoding text)
    | .ok command =>
      match w.decodePayload buf with
      | .error e => .error e
      | .ok payload => .ok { command, payload }

/-- `Codec::decode`: the answer, and the buffer afterwards. -/
def decode (src : Bytes) : Except ConnectionError (Option Message) × Bytes :=
  match beU32 src with
  | none => (.ok none, src)
  | some (size, _) =>
    let messageSize := size + 4
    if messageSize ≤ src.length then
      match w.decodeFrame (src.take messageSize) with
      | .ok msg => (.ok (some msg), src.drop messageSize)
      | .error e => (.error e, src)
    else (.ok none, src)

end Wire

/-- The length of the frame at the head of the buffer, once its first field is there. -/
def frameLength (src : Bytes) : Option Nat := (beU32 src).map fun s => s.1 + 4

/-- The frame at the head of the buffer is not there whole. -/
def Incomplete (src : Bytes) : Prop := ∀ n, frameLength src = some n → src.length < n

instance (src : Bytes) : Decidable (Incomplete src) :=
  match h : frameLength src with
  | none => isTrue fun n hn => by rw [h] at hn; exact absurd hn (Option.some_ne_none n).symm
  | some n =>
    if hlt : src.length < n then
      isTrue fun n' hn => by
        rw [h] at hn
        exact Option.some.inj hn ▸ hlt
    else isFalse fun hinc => hlt (hinc n h)

/-! ## The grammar -/

/-- What may follow the command of a frame: nothing, or a payload whose checksum is right.  The grammar
    leaves the magic number to `Magic`. -/
inductive Section (w : Wire) (Magic : Bytes → Prop) : Bytes → Option Payload → Prop where
  | none : Section w Magic [] none
  | some {magic bytes metadata data} (hmagic : Magic magic) (htwo : magic.length = 2)
    (hsize : bytes.length < 2 ^ 32) (hmetadata : w.decodeMetadata bytes = .ok metadata) :
    Section w Magic
      (magic ++ (putU32 (w.checksum (putU32 bytes.length ++ bytes ++ data)).toNat ++
        (putU32 bytes.length ++ bytes ++ data)))
      (some { metadata, data })

/-- A frame, and its message. -/
inductive Frame (w : Wire) (Magic : Bytes → Prop) : Bytes → Message → Prop where
  | mk {bytes command after payload} (hsize : 4 + bytes.length + after.length < 2 ^ 32)
    (hcommand : w.decodeCommand bytes = .ok command) (hafter : Section w Magic after payload) :
    Frame w Magic
      (putU32 (4 + bytes.length + after.length) ++ (putU32 bytes.length ++ (bytes ++ after)))
      { command, payload }

/-- What `Codec::encode` writes. -/
def writtenMagic (magic : Bytes) : Prop := magic = putU16 0x0e01

/-- Whatever stands there. -/
def anyMagic (_ : Bytes) : Prop := True

section

variable {w : Wire} {Magic : Bytes → Prop}

theorem payloadFrame_eq_some_iff {i data : Bytes} {frame : PayloadFrame} :
    payloadFrame i = some (frame, data) ↔ ∃ a b checksum bytes, checksum < 2 ^ 32 ∧
      bytes.length < 2 ^ 32 ∧
      i = a :: b :: (putU32 checksum ++ (putU32 bytes.length ++ (bytes ++ data))) ∧
      frame =
        { magicNumber := a.toNat * 256 + b.toNat
          checksum
          metadataSize := bytes.length
          metadata := bytes } := by
  simp only [payloadFrame, Option.bind_eq_bind, Option.bind_eq_some_iff, Prod.exists,
    Option.some.injEq, Prod.mk.injEq]
  constructor
  · rintro ⟨magic, i₁, h₁, checksum, i₂, h₂, size, i₃, h₃, bytes, i₄, h₄, rfl, rfl⟩
    obtain ⟨a, b, rfl, rfl⟩ := beU16_eq_some_iff.mp h₁
    obtain ⟨hchecksum, rfl⟩ := beU32_eq_some_iff.mp h₂
    obtain ⟨hsize, rfl⟩ := beU32_eq_some_iff.mp h₃
    obtain ⟨rfl, rfl⟩ := takeBytes_eq_some_iff.mp h₄
    exact ⟨a, b, checksum, bytes, hchecksum, hsize, rfl, rfl⟩
  · rintro ⟨a, b, checksum, bytes, hchecksum, hsize, rfl, rfl⟩
    exact ⟨_, _, rfl, checksum, _, beU32_putU32 hchecksum _, bytes.length, _,
      beU32_putU32 hsize _, bytes, data, takeBytes_eq_some_iff.mpr ⟨rfl, rfl⟩, rfl, rfl⟩

theorem commandFrame_eq_some_iff {i after : Bytes} {frame : CommandFrame} :
    commandFrame i = some (frame, after) ↔ ∃ size bytes, size < 2 ^ 32 ∧ bytes.length < 2 ^ 32 ∧
      i = putU32 size ++ (putU32 bytes.length ++ (bytes ++ after)) ∧
      frame = { totalSize := size, commandSize := bytes.length, command := bytes } := by
  simp only [commandFrame, Option.bind_eq_bind, Option.bind_eq_some_iff, Prod.exists,
    Option.some.injEq, Prod.mk.injEq]
  constructor
  · rintro ⟨size, i₁, h₁, length, i₂, h₂, bytes, i₃, h₃, rfl, rfl⟩
    obtain ⟨hsize, rfl⟩ := beU32_eq_some_iff.mp h₁
    obtain ⟨hlength, rfl⟩ := beU32_eq_some_iff.mp h₂
    obtain ⟨rfl, rfl⟩ := takeBytes_eq_some_iff.mp h₃
    exact ⟨size, bytes, hsize, hlength, rfl, rfl⟩
  · rintro ⟨size, bytes, hsize, hlength, rfl, rfl⟩
    exact ⟨size, _, beU32_putU32 hsize _, bytes.length, _, beU32_putU32 hlength _, bytes, after,
      takeBytes_eq_some_iff.mpr ⟨rfl, rfl⟩, rfl, rfl⟩

/-- `payload_frame` and the checksum test accept what the grammar says, with any magic number. -/
theorem decodePayload_ok_iff {buf : Bytes} {payload : Option Payload} :
    w.decodePayload buf = .ok payload ↔ Section w anyMagic buf payload := by
  constructor
  · intro h
    unfold Wire.decodePayload at h
    split at h
    · rename_i hempty
      obtain rfl := List.isEmpty_iff.mp hempty
      obtain rfl : none = payload := by simpa using h
      exact .none
    · split at h
      · simp at h
      · rename_i frame data hframe
        obtain ⟨a, b, checksum, bytes, hchecksum, hsize, rfl, rfl⟩ :=
          payloadFrame_eq_some_iff.mp hframe
        split at h
        · simp at h
        · rename_i metadata hmetadata
          split at h
          · rename_i hsum
            obtain rfl : some { metadata, data } = payload := by simpa using h
            have hsum' : checksum =
              (w.checksum (putU32 bytes.length ++ bytes ++ data)).toNat := hsum
            rw [hsum', ← List.append_assoc (putU32 bytes.length)]
            exact @Section.some w anyMagic [a, b] bytes metadata data trivial rfl hsize hmetadata
          · simp at h
  · intro h
    cases h with
    | none => rfl
    | some hmagic htwo hsize hmetadata =>
      rename_i magic bytes metadata data
      -- any two bytes are a magic number here
      obtain ⟨a, b, rfl⟩ := List.length_eq_two.mp htwo
      have hframe : payloadFrame
          (a :: b :: (putU32 (w.checksum (putU32 bytes.length ++ bytes ++ data)).toNat ++
            (putU32 bytes.length ++ (bytes ++ data)))) = some
          ({ magicNumber := a.toNat * 256 + b.toNat
             checksum := (w.checksum (putU32 bytes.length ++ bytes ++ data)).toNat
             metadataSize := bytes.length
             metadata := bytes }, data) :=
        payloadFrame_eq_some_iff.mpr ⟨a, b, _, bytes, UInt32.toNat_lt _, hsize, rfl, rfl⟩
      simp only [List.cons_append, List.nil_append, List.append_assoc] at hframe ⊢
      simp only [Wire.decodePayload, List.isEmpty_cons, Bool.false_eq_true, if_false, hframe,
        hmetadata, List.append_assoc, if_true]

/-- A whole frame, given that its first field counts the rest of it. -/
theorem decodeFrame_ok_iff {size : Nat} {rest : Bytes} {m : Message} (hsize : size < 2 ^ 32)
    (hlen : rest.length = size) :
    w.decodeFrame (putU32 size ++ rest) = .ok m ↔ Frame w anyMagic (putU32 size ++ rest) m := by
  constructor
  · intro h
    unfold Wire.decodeFrame at h
    split at h
    · simp at h
    · rename_i frame after hframe
      obtain ⟨size', bytes, hsize', hbytes, heq, rfl⟩ := commandFrame_eq_some_iff.mp hframe
      -- the first field is read again, and not looked at
      obtain ⟨-, rfl⟩ := List.append_inj heq rfl
      split at h
      · simp at h
      · rename_i command hcommand
        split at h
        · simp at h
        · rename_i payload hpayload
          obtain rfl : { command, payload } = m := by simpa using h
          rw [List.length_append, List.length_append, length_putU32] at hlen
          have hcount : size = 4 + bytes.length + after.length := by omega
          subst hcount
          exact .mk hsize hcommand (decodePayload_ok_iff.mp hpayload)
  · intro h
    generalize hframe : putU32 size ++ rest = frame at h
    cases h with
    | mk hsize' hcommand hafter =>
      rename_i bytes command after payload
      have hc : commandFrame (putU32 (4 + bytes.length + after.length) ++
          (putU32 bytes.length ++ (bytes ++ after))) = some
          ({ totalSize := 4 + bytes.length + after.length
             commandSize := bytes.length
             command := bytes }, after) :=
        commandFrame_eq_some_iff.mpr ⟨_, bytes, hsize', by omega, rfl, rfl⟩
      simp only [Wire.decodeFrame, hc, hcommand, decodePayload_ok_iff.mpr hafter]

theorem frameLength_eq_some_iff {src : Bytes} {n : Nat} :
    frameLength src = some n ↔ ∃ size rest, size < 2 ^ 32 ∧ src = putU32 size ++ rest ∧
      n = size + 4 := by
  simp only [frameLength, Option.map_eq_some_iff, Prod.exists]
  constructor
  · rintro ⟨size, rest, h, rfl⟩
    obtain ⟨hsize, rfl⟩ := beU32_eq_some_iff.mp h
    exact ⟨size, rest, hsize, rfl, rfl⟩
  · rintro ⟨size, rest, hsize, rfl, rfl⟩
    exact ⟨size, rest, beU32_putU32 hsize rest, rfl⟩

/-- **The three answers** of a call: a message with its frame cut off, or nothing because the frame is
    not whole yet, or an error; the buffer stays as it is in the last two. -/
theorem decode_cases (src : Bytes) :
    (∃ m n, frameLength src = some n ∧ n ≤ src.length ∧ w.decodeFrame (src.take n) = .ok m ∧
      w.decode src = (.ok (some m), src.drop n)) ∨
    (Incomplete src ∧ w.decode src = (.ok none, src)) ∨
    (∃ e, ¬ Incomplete src ∧ w.decode src = (.error e, src)) := by
  unfold Wire.decode
  cases hsize : beU32 src with
  | none =>
    refine Or.inr (Or.inl ⟨fun n hn => ?_, rfl⟩)
    rw [frameLength, hsize] at hn
    exact absurd hn (Option.some_ne_none n).symm
  | some s =>
    obtain ⟨size, tail⟩ := s
    have hlength : frameLength src = some (size + 4) := by rw [frameLength, hsize]; rfl
    by_cases hle : size + 4 ≤ src.length
    · have hcomplete : ¬ Incomplete src := fun hinc => by
        have := hinc (size + 4) hlength
        omega
      simp only [if_pos hle]
      cases hframe : w.decodeFrame (src.take (size + 4)) with
      | ok m => exact Or.inl ⟨m, size + 4, hlength, hle, hframe, rfl⟩
      | error e => exact Or.inr (Or.inr ⟨e, hcomplete, rfl⟩)
    · simp only [if_neg hle]
      refine Or.inr (Or.inl ⟨fun n hn => ?_, trivial⟩)
      rw [hlength] at hn
      obtain rfl := Option.some.inj hn
      omega

/-- An accepted message is the message of a frame at the head of the buffer. -/
theorem decode_some_iff {src rest : Bytes} {m : Message} :
    w.decode src = (.ok (some m), rest) ↔ ∃ frame, src = frame ++ rest ∧ Frame w anyMagic frame m := by
  constructor
  · intro h
    rcases decode_cases (w := w) src with ⟨m', n, hlength, hle, hframe, hdec⟩ | ⟨-, hdec⟩ | ⟨e, -, hdec⟩
    · rw [hdec] at h
      obtain ⟨rfl, rfl⟩ : m' = m ∧ src.drop n = rest := by simpa using h
      refine ⟨src.take n, (List.take_append_drop n src).symm, ?_⟩
      obtain ⟨size, tail, hsize, rfl, rfl⟩ := frameLength_eq_some_iff.mp hlength
      -- what is cut off is the first field and as many bytes as it counts
      have htake : (putU32 size ++ tail).take (size + 4) = putU32 size ++ tail.take size := by
        rw [List.take_append, List.take_of_length_le (by rw [length_putU32]; omega), length_putU32,
          Nat.add_sub_cancel]
      have htail : (tail.take size).length = size := by
        rw [List.length_append, length_putU32] at hle
        exact List.length_take_of_le (by omega)
      rw [htake] at hframe ⊢
      exact (decodeFrame_ok_iff hsize htail).mp hframe
    · rw [hdec] at h
      simp at h
    · rw [hdec] at h
      simp at h
  · rintro ⟨frame, rfl, hframe⟩
    have hshape : ∃ size tail, size < 2 ^ 32 ∧ frame = putU32 size ++ tail ∧ tail.length = size := by
      cases hframe with
      | mk hsize _ _ =>
        refine ⟨_, _, hsize, rfl, ?_⟩
        rw [List.length_append, List.length_append, length_putU32, Nat.add_assoc]
    obtain ⟨size, tail, hsize, rfl, htail⟩ := hshape
    have hlen : (putU32 size ++ tail).length = size + 4 := by
      rw [List.length_append, length_putU32, htail, Nat.add_comm]
    have hdec := (decodeFrame_ok_iff hsize htail).mpr hframe
    have hle : size + 4 ≤ (putU32 size ++ tail ++ rest).length := by
      rw [List.length_append, hlen]
      omega
    unfold Wire.decode
    rw [List.append_assoc, beU32_putU32 hsize, ← List.append_assoc]
    simp only [if_pos hle]
    rw [← hlen, List.take_left, List.drop_left, hdec]

/-- `totalSize` is the length of what follows it. -/
theorem encode_eq (m : Message) :
    w.encode m = putU32 (4 + (w.encodeCommand m.command).length +
        (w.payloadSection m.payload).length) ++
      (putU32 (w.encodeCommand m.command).length ++
        (w.encodeCommand m.command ++ w.payloadSection m.payload)) := by
  obtain ⟨command, payload⟩ := m
  have hcount : ∀ size size' : Nat, size = size' →
      putU32 size ++ putU32 (w.encodeCommand command).length ++ w.encodeCommand command ++
        w.payloadSection payload =
      putU32 size' ++ (putU32 (w.encodeCommand command).length ++
        (w.encodeCommand command ++ w.payloadSection payload)) := by
    rintro size size' rfl
    rw [List.append_assoc, List.append_assoc]
  cases payload with
  | none =>
    apply hcount
    show (w.encodeCommand command).length + 0 + 0 + 8 - 4 = 4 + (w.encodeCommand command).length + 0
    omega
  | some p =>
    apply hcount
    show (w.encodeCommand command).length + (w.encodeMetadata p.metadata).length + p.data.length +
      18 - 4 = _
    simp only [Wire.payloadSection, Wire.checked, List.length_append, length_putU16, length_putU32]
    omega

end

/-- `prost` decodes what it has encoded, here: the parts of this message. -/
structure Wire.Inverts (w : Wire) (m : Message) : Prop where
  command : w.decodeCommand (w.encodeCommand m.command) = .ok m.command
  metadata : ∀ p, m.payload = some p →
    w.decodeMetadata (w.encodeMetadata p.metadata) = .ok p.metadata

section

variable {w : Wire} {m : Message}

/-- What `encode` writes is a frame of the grammar. -/
theorem frame_encode (hw : w.Inverts m) (hsize : (w.encode m).length < 2 ^ 32) :
    Frame w writtenMagic (w.encode m) m := by
  have hafter : Section w writtenMagic (w.payloadSection m.payload) m.payload := by
    cases hp : m.payload with
    | none => exact .none
    | some p =>
      -- of a frame that fits its first field, the metadata fits its own
      have hmeta : (w.encodeMetadata p.metadata).length < 2 ^ 32 := by
        rw [encode_eq, hp] at hsize
        simp only [Wire.payloadSection, Wire.checked, List.length_append, length_putU32] at hsize
        omega
      have hsection : Section w writtenMagic _ (some { metadata := p.metadata, data := p.data }) :=
        .some (rfl : writtenMagic (putU16 0x0e01)) rfl hmeta (hw.metadata p hp)
      simpa only [Wire.payloadSection, Wire.checked, List.append_assoc] using hsection
  have hcount : 4 + (w.encodeCommand m.command).length + (w.payloadSection m.payload).length <
      2 ^ 32 := by
    rw [encode_eq] at hsize
    simp only [List.length_append, length_putU32] at hsize
    omega
  rw [encode_eq]
  exact .mk hcount hw.command hafter

theorem Section.mono {Magic Magic' : Bytes → Prop} (hle : ∀ b, Magic b → Magic' b) {bytes : Bytes}
    {payload : Option Payload} (h : Section w Magic bytes payload) :
    Section w Magic' bytes payload := by
  cases h with
  | none => exact .none
  | some hmagic htwo hsize hmetadata => exact .some (hle _ hmagic) htwo hsize hmetadata

theorem Frame.mono {Magic Magic' : Bytes → Prop} (hle : ∀ b, Magic b → Magic' b) {bytes : Bytes}
    (h : Frame w Magic bytes m) : Frame w Magic' bytes m := by
  cases h with
  | mk hsize hcommand hafter => exact .mk hsize hcommand (hafter.mono hle)

/-- A frame is as long as its first field says. -/
theorem frameLength_frame {Magic : Bytes → Prop} {frame : Bytes} (h : Frame w Magic frame m) :
    ∃ size tail, size < 2 ^ 32 ∧ frame = putU32 size ++ tail ∧ frame.length = size + 4 := by
  cases h with
  | mk hsize _ _ =>
    refine ⟨_, _, hsize, rfl, ?_⟩
    simp only [List.length_append, length_putU32]
    omega

/-- The start of a frame asks for more. -/
theorem decode_of_incomplete {src : Bytes} (h : Incomplete src) : w.decode src = (.ok none, src) := by
  rcases decode_cases (w := w) src with ⟨_, n, hlength, hle, -, -⟩ | ⟨-, hdec⟩ | ⟨_, hnot, -⟩
  · have := h n hlength
    omega
  · exact hdec
  · exact absurd h hnot

theorem incomplete_of_cut {Magic : Bytes → Prop} {p q : Bytes} (h : Frame w Magic (p ++ q) m)
    (hq : q ≠ []) : Incomplete p := by
  intro n hlength
  obtain ⟨size, rest, hsize, rfl, rfl⟩ := frameLength_eq_some_iff.mp hlength
  obtain ⟨size', tail, hsize', heq, hlen⟩ := frameLength_frame h
  -- the first field is there whole, and it counts more than there is
  have hsame : size = size' := by
    have hread := beU32_putU32 hsize' tail
    rw [← heq, List.append_assoc, beU32_putU32 hsize] at hread
    exact (Prod.mk.inj (Option.some.inj hread)).1
  have hpos := List.length_pos_iff.mpr hq
  rw [List.length_append] at hlen
  omega

end

/-- `Codec` as a decoder of a stream. -/
def Wire.codec (w : Wire) : Framing.Decoder Message UInt8 ConnectionError where
  decode := w.decode
  shrinks := by
    intro buf m rest h
    obtain ⟨frame, rfl, hframe⟩ := decode_some_iff.mp h
    obtain ⟨size, tail, -, -, hlen⟩ := frameLength_frame hframe
    rw [List.length_append]
    omega

theorem framed_encode {w : Wire} {m : Message} (hw : w.Inverts m)
    (hsize : (w.encode m).length < 2 ^ 32) : Framing.Framed w.codec w.encode m where
  whole rest := by
    refine decode_some_iff.mpr ⟨w.encode m, rfl, ?_⟩
    exact (frame_encode hw hsize).mono fun _ _ => trivial
  cut p q heq hq := by
    have hframe := frame_encode hw hsize
    rw [heq] at hframe
    exact decode_of_incomplete (incomplete_of_cut hframe hq)

/-! ## The main results -/

/-- **Round trip over streams.**  Messages that are encoded one after another, cut anywhere and fed to
    the decoder piece by piece come out as they were, and nothing is left over.  And whatever stands in
    the buffer, a call either answers a message and cuts off exactly its frame, or leaves the buffer
    alone — without an error exactly when the frame is not whole. -/
theorem stream_round_trip (w : Wire) (ms : List Message) (chunks : List Bytes)
    (hw : ∀ m ∈ ms, w.Inverts m) (hsize : ∀ m ∈ ms, (w.encode m).length < 2 ^ 32)
    (hcut : chunks.flatten = ms.flatMap w.encode) :
    w.codec.feed [] chunks = (ms, [], none) ∧
    ∀ src : Bytes,
      (∃ m n, frameLength src = some n ∧ n ≤ src.length ∧
        w.decode src = (.ok (some m), src.drop n)) ∨
      (Incomplete src ∧ w.decode src = (.ok none, src)) ∨
      (∃ e, ¬ Incomplete src ∧ w.decode src = (.error e, src)) := by
  constructor
  · have hframed : ∀ m ∈ ms, Framing.Framed w.codec w.encode m :=
      fun m hm => framed_encode (hw m hm) (hsize m hm)
    exact Framing.feed_flatten rfl hframed hcut
  · intro src
    rcases decode_cases (w := w) src with ⟨m, n, hlength, hle, -, hdec⟩ | hrest
    · exact Or.inl ⟨m, n, hlength, hle, hdec⟩
    · exact Or.inr hrest

/-- **The grammar of what is accepted**: the frames, with any magic number; every other whole frame is
    an error. -/
theorem decode_accepts_frames (w : Wire) (src : Bytes) :
    (∀ m rest, w.decode src = (.ok (some m), rest) ↔
      ∃ frame, src = frame ++ rest ∧ Frame w anyMagic frame m) ∧
    (¬ Incomplete src → (¬ ∃ frame rest m, src = frame ++ rest ∧ Frame w anyMagic frame m) →
      ∃ e, w.decode src = (.error e, src)) := by
  refine ⟨fun m rest => decode_some_iff, fun hcomplete hnone => ?_⟩
  rcases decode_cases (w := w) src with ⟨m, n, -, -, -, hdec⟩ | ⟨hinc, -⟩ | ⟨e, -, hdec⟩
  · obtain ⟨frame, heq, hframe⟩ := decode_some_iff.mp hdec
    exact absurd ⟨frame, _, m, heq, hframe⟩ hnone
  · exact absurd hinc hcomplete
  · exact ⟨e, hdec⟩

/-! ## A frame of the protocol -/

/-- CRC-32C, bit by bit. -/
def crc32c (bytes : Bytes) : UInt32 :=
  bytes.foldl (fun crc b => shift8 8 (crc ^^^ b.toUInt32)) 0xffffffff ^^^ 0xffffffff
where
  shift8 : Nat → UInt32 → UInt32
    | 0, crc => crc
    | n + 1, crc => shift8 n (if crc &&& 1 = 1 then (crc >>> 1) ^^^ 0x82f63b78 else crc >>> 1)

/-- A `Send` of producer 0. -/
def sampleCommand : BaseCommand := { send := some { producerId := 0, sequenceId := 8 } }

def sampleMetadata : MessageMetadata :=
  { producerName := "standalone-0-3", sequenceId := 8, publishTime := 1533850624062 }

/-- "hello-pulsar-8" -/
def sampleData : Bytes :=
  [0x68, 0x65, 0x6C, 0x6C, 0x6F, 0x2D, 0x70, 0x75, 0x6C, 0x73, 0x61, 0x72, 0x2D, 0x38]

def sampleMessage : Message :=
  { command := sampleCommand, payload := some { metadata := sampleMetadata, data := sampleData } }

def sampleCommandBytes : Bytes := [0x08, 0x06, 0x32, 0x04, 0x08, 0x00, 0x10, 0x08]

def sampleMetadataBytes : Bytes :=
  [0x0A, 0x0E, 0x73, 0x74, 0x61, 0x6E, 0x64, 0x61, 0x6C, 0x6F, 0x6E, 0x65, 0x2D, 0x30, 0x2D, 0x33,
    0x10, 0x08, 0x18, 0xBE, 0xC0, 0xFC, 0x84, 0xD2, 0x2C]

/-- `prost` on the sample, and the CRC. -/
def sampleWire : Wire where
  encodeCommand c := if c = sampleCommand then sampleCommandBytes else []
  decodeCommand b := if b = sampleCommandBytes then .ok sampleCommand else .error "unexpected bytes"
  encodeMetadata m := if m = sampleMetadata then sampleMetadataBytes else []
  decodeMetadata b := if b = sampleMetadataBytes then .ok sampleMetadata else .error "unexpected bytes"
  checksum := crc32c

/-- The sample, with the magic number and the checksum given. -/
def sampleFrame (magic : Bytes) : Bytes :=
  [0x00, 0x00, 0x00, 0x3D, 0x00, 0x00, 0x00, 0x08] ++ sampleCommandBytes ++ magic ++
    [0x42, 0x83, 0x54, 0xB5, 0x00, 0x00, 0x00, 0x19] ++ sampleMetadataBytes ++ sampleData

example : sampleWire.encode sampleMessage = sampleFrame [0x0E, 0x01] := by decide +kernel

theorem sample_inverts : sampleWire.Inverts sampleMessage where
  command := rfl
  metadata := by
    intro p hp
    obtain rfl := Option.some.inj hp
    rfl

/-- Two frames, cut inside the size of the first and inside the data of the second. -/
theorem stream_round_trip_two : ∃ chunks : List Bytes, chunks.length = 3 ∧
    sampleWire.codec.feed [] chunks = ([sampleMessage, sampleMessage], [], none) := by
  have hall : ∀ m ∈ [sampleMessage, sampleMessage], m = sampleMessage := by simp
  refine ⟨[(sampleFrame [0x0E, 0x01]).take 3,
    (sampleFrame [0x0E, 0x01]).drop 3 ++ (sampleFrame [0x0E, 0x01]).take 60,
    (sampleFrame [0x0E, 0x01]).drop 60], rfl, ?_⟩
  refine (stream_round_trip sampleWire [sampleMessage, sampleMessage] _ ?_ ?_ ?_).1
  · intro m hm
    rw [hall m hm]
    exact sample_inverts
  · intro m hm
    rw [hall m hm]
    decide +kernel
  · decide +kernel

/-- The sample with zeros for the magic number is accepted, and it is no frame that `encode` could have
    written. -/
theorem wrong_magic_is_accepted :
    ¬ ∀ (w : Wire) (src rest : Bytes) (m : Message), w.decode src = (.ok (some m), rest) ↔
      ∃ frame, src = frame ++ rest ∧ Frame w writtenMagic frame m := by
  intro hall
  have hdec : sampleWire.decode (sampleFrame [0x00, 0x00]) = (.ok (some sampleMessage), []) := by
    decide +kernel
  obtain ⟨frame, heq, hframe⟩ :=
    (hall sampleWire (sampleFrame [0x00, 0x00]) [] sampleMessage).mp hdec
  rw [List.append_nil] at heq
  generalize hm : sampleMessage = m at hframe
  cases hframe with
  | mk hsize hcommand hafter =>
    rename_i bytes command after payload
    have hread : commandFrame (sampleFrame [0x00, 0x00]) = some (_, after) :=
      commandFrame_eq_some_iff.mpr ⟨_, bytes, hsize, by omega, heq, rfl⟩
    -- the magic number is what follows the command
    have hzeros : after.head? = some 0x00 := by
      have hhead : (commandFrame (sampleFrame [0x00, 0x00])).map (fun f => f.2.head?) =
        some (some 0x00) := by decide +kernel
      rw [hread] at hhead
      exact Option.some.inj hhead
    cases hafter with
    | none => exact absurd hzeros (by decide)
    | some hmagic _ _ _ =>
      rw [hmagic] at hzeros
      have hfirst : UInt8.ofNat (0x0e01 / 2 ^ 8) = 0x00 := Option.some.inj hzeros
      exact absurd hfirst (by decide)

end PulsarClient
