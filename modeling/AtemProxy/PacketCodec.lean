import AtemProxy.BigEndian

/-!
# The twelve-byte datagram header and its codec

Five flag bits share the first word with an eleven-bit length. Encoding
recomputes the length from the payload and cuts a payload that does not
fit into eleven bits; the debug assertion in front of that cut is not
executed in a release build. Decoding rejects short buffers and declared
lengths outside the buffer. Round trips are proved for every header and
every payload, cut payloads included.
-/

namespace AtemProxy.PacketCodec

open BigEndian

/-- Failures of the wire decoders; offsets and lengths are those reported. -/
inductive ProtocolError where
  /-- Fewer bytes than a header. -/
  | tooShort (actual : ℕ)
  /-- Declared packet length below a header or beyond the buffer. -/
  | lengthMismatch (declared actual : ℕ)
  /-- Malformed command framing at this payload offset. -/
  | badCommand (offset : ℕ)
  /-- Command name shorter than four bytes or not valid text. -/
  | badCommandName
  deriving DecidableEq

/-- Header bytes in front of every payload. -/
def headerLen : ℕ := 12

/-- Packing limit for a whole datagram. -/
def maxPacketLen : ℕ := 1400

/-- Largest value of the eleven-bit length field. -/
def lengthMask : ℕ := 2047

/-- The five header flags; unset by default. -/
structure PacketFlags where
  /-- The packet is reliable and asks for an acknowledgement. -/
  ackRequest : Bool := false
  /-- HELLO and HELLO reply. -/
  handshake : Bool := false
  /-- Repetition of an earlier reliable packet. -/
  isRetransmit : Bool := false
  /-- Request for a missing packet. -/
  retransmitRequest : Bool := false
  /-- The acknowledgement field is meaningful. -/
  ackReply : Bool := false
  deriving DecidableEq

/-- Weight of one flag bit. -/
def flagBit (flag : Bool) (weight : ℕ) : ℕ := if flag=true then weight else 0

/-- Numeric flag value, at most thirty-one. -/
def PacketFlags.bits (flags : PacketFlags) : ℕ :=
  flagBit flags.ackRequest 1+flagBit flags.handshake 2+flagBit flags.isRetransmit 4+
    flagBit flags.retransmitRequest 8+flagBit flags.ackReply 16

/-- Read the five known bits and ignore all others. -/
def PacketFlags.fromBitsTruncate (bits : ℕ) : PacketFlags :=
  ⟨bits.testBit 0,bits.testBit 1,bits.testBit 2,bits.testBit 3,bits.testBit 4⟩

/-- The flags take five bits. -/
theorem PacketFlags.bits_lt (flags : PacketFlags) : flags.bits<32 := by
  rcases flags with ⟨a,b,c,d,e⟩
  cases a <;> cases b <;> cases c <;> cases d <;> cases e <;> decide

/-- Every flag survives its numeric form. -/
theorem PacketFlags.fromBitsTruncate_bits (flags : PacketFlags) :
    fromBitsTruncate flags.bits=flags := by
  rcases flags with ⟨a,b,c,d,e⟩
  cases a <;> cases b <;> cases c <;> cases d <;> cases e <;> rfl

/-- Numeric header fields in wire order. -/
structure PacketHeader where
  /-- The five flags of the first word. -/
  flags : PacketFlags
  /-- Declared length; only eleven bits are sent. -/
  length : UInt16
  /-- Session of the datagram. -/
  sessionId : UInt16
  /-- Acknowledged packet, zero when absent. -/
  ackId : UInt16
  /-- Missing packet asked for. -/
  retransmitRequest : UInt16
  /-- Miscellaneous field used by HELLO and the init acknowledgement. -/
  unknown : UInt16
  /-- Identifier of a reliable packet. -/
  packetId : UInt16
  deriving DecidableEq

/-- A header whose optional fields are zero. -/
def PacketHeader.new (flags : PacketFlags) (sessionId length : UInt16) : PacketHeader :=
  ⟨flags,length,sessionId,0,0,0,0⟩

/-- First header word: flags above the low eleven length bits. -/
def flagsLen (flags length : ℕ) : UInt16 := UInt16.ofNat (2048*flags+length%2048)

/-- Twelve header bytes in wire order. -/
def PacketHeader.encode (h : PacketHeader) : Bytes :=
  let word := flagsLen h.flags.bits h.length.toNat
  [highByte word,lowByte word,highByte h.sessionId,lowByte h.sessionId,
    highByte h.ackId,lowByte h.ackId,highByte h.retransmitRequest,lowByte h.retransmitRequest,
    highByte h.unknown,lowByte h.unknown,highByte h.packetId,lowByte h.packetId]

/-- Read a header from the first twelve bytes of a buffer. -/
def PacketHeader.decode (buf : Bytes) : Except ProtocolError PacketHeader :=
  match buf with
  | f0::f1::s0::s1::a0::a1::r0::r1::u0::u1::p0::p1::_ =>
    let word := (beWord f0 f1).toNat
    .ok ⟨.fromBitsTruncate (word/2048),UInt16.ofNat (word%2048),beWord s0 s1,beWord a0 a1,
      beWord r0 r1,beWord u0 u1,beWord p0 p1⟩
  | _ => .error (.tooShort buf.length)

/-- Split a datagram into header and declared payload. Bytes beyond the
declared length are ignored. -/
def decodePacket (buf : Bytes) : Except ProtocolError (PacketHeader×Bytes) :=
  match PacketHeader.decode buf with
  | .error e => .error e
  | .ok header =>
    let declared := header.length.toNat
    if declared<headerLen then .error (.lengthMismatch declared buf.length)
    else if buf.length<declared then .error (.lengthMismatch declared buf.length)
    else .ok (header,(buf.take declared).drop headerLen)

/-- Total datagram length after the eleven-bit clamp. -/
def clampedTotal (payload : Bytes) : ℕ := min (headerLen+payload.length) lengthMask

/-- Build a datagram, overwriting the header's length. -/
def encodePacket (header : PacketHeader) (payload : Bytes) : Bytes :=
  let total := clampedTotal payload
  {header with length := UInt16.ofNat total}.encode++payload.take (total-headerLen)

/-- Payload bytes a datagram can carry. -/
def wirePayload (payload : Bytes) : Bytes := payload.take 2035

/-- A payload that fits is sent whole. -/
theorem wirePayload_of_le {payload : Bytes} (h : payload.length≤2035) :
    wirePayload payload=payload := List.take_of_length_le h

/-- What is sent of a payload are the bytes that the length counts. -/
theorem clampedTotal_sub (payload : Bytes) :
    payload.take (clampedTotal payload-headerLen)=wirePayload payload := by
  unfold clampedTotal headerLen lengthMask wirePayload
  by_cases h : payload.length≤2035
  · rw [List.take_of_length_le (by omega),List.take_of_length_le h]
  · congr 1
    omega

/-- The flag word keeps flags and length apart. -/
theorem flagsLen_parts {flags : ℕ} (hf : flags<32) (length : ℕ) :
    (flagsLen flags length).toNat/2048=flags ∧
      (flagsLen flags length).toNat%2048=length%2048 := by
  unfold flagsLen
  rw [UInt16.toNat_ofNat']
  omega

/-- Reading twelve encoded bytes restores every field, the length modulo
its eleven wire bits. -/
theorem PacketHeader.decode_encode_append (h : PacketHeader) (tail : Bytes) :
    PacketHeader.decode (h.encode++tail)=
      .ok {h with length := UInt16.ofNat (h.length.toNat%2048)} := by
  obtain ⟨hf,hl⟩ := flagsLen_parts h.flags.bits_lt h.length.toNat
  simp only [encode,List.cons_append,List.nil_append,decode,beWord_split,hf,hl,
    PacketFlags.fromBitsTruncate_bits]

/-- A header has twelve bytes. -/
theorem PacketHeader.encode_length (h : PacketHeader) : h.encode.length=headerLen := rfl

/-- A datagram is as long as its header says. -/
theorem encodePacket_length (header : PacketHeader) (payload : Bytes) :
    (encodePacket header payload).length=clampedTotal payload := by
  unfold encodePacket
  dsimp only
  rw [List.length_append,PacketHeader.encode_length,List.length_take]
  unfold clampedTotal headerLen lengthMask
  omega

/-- A length counts the header and fits into eleven bits. -/
theorem clampedTotal_bounds (payload : Bytes) :
    headerLen ≤ clampedTotal payload ∧ clampedTotal payload≤lengthMask := by
  unfold clampedTotal headerLen lengthMask
  omega

/-- Every encoded datagram decodes to its header, with the recomputed
length, and to the payload bytes that fit. -/
theorem decodePacket_encodePacket (header : PacketHeader) (payload : Bytes) :
    decodePacket (encodePacket header payload)=
      .ok ({header with length := UInt16.ofNat (clampedTotal payload)},wirePayload payload) := by
  obtain ⟨hlow,hhigh⟩ := clampedTotal_bounds payload
  unfold headerLen at hlow
  unfold lengthMask at hhigh
  have hlen := encodePacket_length header payload
  have hround : (UInt16.ofNat (clampedTotal payload)).toNat=clampedTotal payload := by
    rw [UInt16.toNat_ofNat']
    omega
  have hdec : PacketHeader.decode (encodePacket header payload)=
      .ok {header with length := UInt16.ofNat (clampedTotal payload)} := by
    unfold encodePacket
    dsimp only
    rw [PacketHeader.decode_encode_append]
    dsimp only
    rw [hround,Nat.mod_eq_of_lt (by omega)]
  have hdrop : ((encodePacket header payload).take (clampedTotal payload)).drop headerLen=
      wirePayload payload := by
    rw [List.take_of_length_le (by omega)]
    unfold encodePacket
    dsimp only
    rw [clampedTotal_sub,List.drop_left' (PacketHeader.encode_length _)]
  unfold decodePacket
  rw [hdec]
  dsimp only
  rw [hround,if_neg (by unfold headerLen; omega),if_neg (by omega),hdrop]

/-- Set the retransmit flag inside already encoded bytes; shorter byte
strings are left alone. -/
def patchRetransmit (bytes : Bytes) : Bytes :=
  match bytes with
  | b0::b1::tail =>
    let word := (beWord b0 b1).toNat
    let patched := flagsLen (word/2048 ||| 4) (word%2048)
    highByte patched::lowByte patched::tail
  | _ => bytes

/-- Patching an encoded datagram is encoding it with the flag set. -/
theorem patchRetransmit_encodePacket (header : PacketHeader) (payload : Bytes) :
    patchRetransmit (encodePacket header payload)=
      encodePacket {header with flags := {header.flags with isRetransmit := true}} payload := by
  obtain ⟨hf,hl⟩ := flagsLen_parts header.flags.bits_lt
    (UInt16.ofNat (clampedTotal payload)).toNat
  have hb : ({header.flags with isRetransmit := true} : PacketFlags).bits=
      header.flags.bits ||| 4 := by
    rcases header.flags with ⟨a,b,c,d,e⟩
    cases a <;> cases b <;> cases c <;> cases d <;> cases e <;> rfl
  simp only [encodePacket,PacketHeader.encode,List.cons_append,patchRetransmit,beWord_split,
    hf,hl,hb]
  simp only [flagsLen,Nat.mod_mod]

/-- Total decoding succeeds only inside the buffer. -/
theorem decodePacket_ok {buf : Bytes} {header : PacketHeader} {payload : Bytes}
    (h : decodePacket buf=.ok (header,payload)) :
    headerLen≤header.length.toNat ∧ header.length.toNat≤buf.length ∧
      payload=(buf.take header.length.toNat).drop headerLen := by
  unfold decodePacket at h
  cases hd : PacketHeader.decode buf with
  | error e => rw [hd] at h; cases h
  | ok hdr =>
    rw [hd] at h
    dsimp only at h
    split_ifs at h with h1 h2
    cases h
    exact ⟨by omega,by omega,rfl⟩

/-- Length field announced by the first two bytes: the low eleven bits of
the first big-endian word. -/
def declaredLength (buf : Bytes) : ℕ :=
  match buf with
  | b0::b1::_ => (beWord b0 b1).toNat%2048
  | _ => 0

/-- Five flag bits survive being read as flags. -/
theorem PacketFlags.bits_fromBitsTruncate {n : ℕ} (h : n<32) :
    (PacketFlags.fromBitsTruncate n).bits=n := by
  have hall : ∀ k<32, (PacketFlags.fromBitsTruncate k).bits=k := by decide
  exact hall n h

/-- The flag word is recovered from its flags and its length part. -/
theorem flagsLen_split (word : UInt16) :
    flagsLen (word.toNat/2048) (word.toNat%2048)=word := by
  have hw := word.toNat_lt
  apply UInt16.toNat_inj.mp
  unfold flagsLen
  rw [UInt16.toNat_ofNat']
  omega

/-- A header is read from the first twelve bytes and writes them back. -/
theorem PacketHeader.decode_ok {buf : Bytes} {header : PacketHeader}
    (h : PacketHeader.decode buf=.ok header) :
    headerLen≤buf.length ∧ header.length.toNat=declaredLength buf ∧
      header.encode=buf.take headerLen := by
  unfold PacketHeader.decode at h
  split at h
  · rename_i f0 f1 s0 s1 a0 a1 r0 r1 u0 u1 p0 p1 rest
    cases h
    have hw := (beWord f0 f1).toNat_lt
    have hlen : (UInt16.ofNat ((beWord f0 f1).toNat%2048)).toNat=(beWord f0 f1).toNat%2048 := by
      rw [UInt16.toNat_ofNat']
      omega
    refine ⟨by simp only [headerLen,List.length_cons]; omega,hlen,?_⟩
    simp only [PacketHeader.encode,hlen,PacketFlags.bits_fromBitsTruncate
      (Nat.div_lt_of_lt_mul hw : (beWord f0 f1).toNat/2048<32),flagsLen_split,highByte_beWord,
      lowByte_beWord]
    rfl
  · cases h

/-- Only a buffer shorter than a header has no header. -/
theorem PacketHeader.decode_error_iff (buf : Bytes) :
    (∃ e, PacketHeader.decode buf=.error e) ↔ buf.length<headerLen := by
  constructor
  · rintro ⟨e,he⟩
    by_contra hn
    obtain ⟨tail,ht⟩ : ∃ tail, buf=buf.take headerLen++tail :=
      ⟨buf.drop headerLen,(List.take_append_drop _ _).symm⟩
    have hl : (buf.take headerLen).length=12 := by
      rw [List.length_take]
      unfold headerLen at *
      omega
    match hb : buf.take headerLen,hl with
    | [f0,f1,s0,s1,a0,a1,r0,r1,u0,u1,p0,p1],_ =>
      rw [ht,hb] at he
      cases he
  · intro hl
    cases hd : PacketHeader.decode buf with
    | error e => exact ⟨e,rfl⟩
    | ok header =>
      have h := (PacketHeader.decode_ok hd).1
      omega

/-- The header of a decoded datagram is the one read from its front. -/
theorem decode_of_decodePacket {buf : Bytes} {header : PacketHeader} {payload : Bytes}
    (h : decodePacket buf=.ok (header,payload)) : PacketHeader.decode buf=.ok header := by
  unfold decodePacket at h
  cases hd : PacketHeader.decode buf with
  | error e => rw [hd] at h; cases h
  | ok hdr =>
    rw [hd] at h
    dsimp only at h
    split_ifs at h
    cases h
    rfl

/-- The length field has eleven bits. -/
theorem declaredLength_lt (buf : Bytes) : declaredLength buf<2048 := by
  unfold declaredLength
  split <;> omega

/-- A decoded payload fills the declared length behind its header. -/
theorem decodePacket_length {buf : Bytes} {header : PacketHeader} {payload : Bytes}
    (h : decodePacket buf=.ok (header,payload)) :
    payload.length=header.length.toNat-headerLen := by
  obtain ⟨hlow,hhigh,hp⟩ := decodePacket_ok h
  rw [hp,List.length_drop,List.length_take]
  omega

/-- Eleven length bits bound every decoded payload, however long the buffer is. -/
theorem decodePacket_length_le {buf : Bytes} {header : PacketHeader} {payload : Bytes}
    (h : decodePacket buf=.ok (header,payload)) : payload.length≤2035 := by
  have hlen := decodePacket_length h
  obtain ⟨_,hdecl,_⟩ := PacketHeader.decode_ok (decode_of_decodePacket h)
  have hbound := declaredLength_lt buf
  unfold headerLen at hlen
  omega

/-- A datagram that decodes is written back byte for byte, up to its
declared length. -/
theorem encodePacket_of_decodePacket {buf : Bytes} {header : PacketHeader} {payload : Bytes}
    (h : decodePacket buf=.ok (header,payload)) :
    encodePacket header payload=buf.take header.length.toNat := by
  obtain ⟨hlow,hhigh,hp⟩ := decodePacket_ok h
  obtain ⟨_,hdecl,henc⟩ := PacketHeader.decode_ok (decode_of_decodePacket h)
  have hbound := declaredLength_lt buf
  have hlen := decodePacket_length h
  have htotal : clampedTotal payload=header.length.toNat := by
    unfold clampedTotal headerLen lengthMask at *
    omega
  have hsame : ({header with length := UInt16.ofNat (clampedTotal payload)} : PacketHeader)=
      header := by
    rw [htotal,UInt16.ofNat_toNat]
  have hfull : payload.take (clampedTotal payload-headerLen)=payload :=
    List.take_of_length_le (by omega)
  have htake : (buf.take header.length.toNat).take headerLen=buf.take headerLen := by
    rw [List.take_take,Nat.min_eq_left hlow]
  unfold encodePacket
  dsimp only
  rw [hsame,hfull,henc,hp,←htake,List.take_append_drop]

/-- Decoding fails on a short buffer and on a declared length outside the
header and the buffer, and on nothing else. -/
theorem decodePacket_error_iff (buf : Bytes) :
    (∃ e, decodePacket buf=.error e) ↔
      buf.length<headerLen ∨ declaredLength buf<headerLen ∨ buf.length<declaredLength buf := by
  unfold decodePacket
  cases hd : PacketHeader.decode buf with
  | error e =>
    have hshort := (PacketHeader.decode_error_iff buf).mp ⟨e,hd⟩
    simp only [Except.error.injEq,exists_eq',hshort,true_or]
  | ok header =>
    obtain ⟨hlong,hdecl,_⟩ := PacketHeader.decode_ok hd
    dsimp only
    rw [hdecl]
    split_ifs with h1 h2
    · simp only [Except.error.injEq,exists_eq',h1,true_or,or_true]
    · simp only [Except.error.injEq,exists_eq',h2,or_true]
    · simp only [exists_false,false_iff]
      omega

/-- Packet codec in both directions: every header and every payload that
fits decode to themselves with the recomputed length, every accepted
datagram is written back up to its declared length, and the rejected
datagrams are exactly those whose length is wrong. -/
theorem packet_codec_round_trips :
    (∀ (header : PacketHeader) (payload : Bytes), payload.length≤2035 →
      decodePacket (encodePacket header payload)=
        .ok ({header with length := UInt16.ofNat (headerLen+payload.length)},payload) ∧
      (UInt16.ofNat (headerLen+payload.length)).toNat=headerLen+payload.length) ∧
    (∀ (buf : Bytes) (header : PacketHeader) (payload : Bytes),
      decodePacket buf=.ok (header,payload) →
        headerLen≤header.length.toNat ∧ header.length.toNat≤buf.length ∧
        encodePacket header payload=buf.take header.length.toNat) ∧
    (∀ buf : Bytes, (∃ e, decodePacket buf=.error e) ↔
      buf.length<headerLen ∨ declaredLength buf<headerLen ∨ buf.length<declaredLength buf) := by
  refine ⟨fun header payload hfit => ⟨?_,?_⟩,fun buf header payload h => ?_,
    decodePacket_error_iff⟩
  · have hc : clampedTotal payload=headerLen+payload.length := by
      unfold clampedTotal headerLen lengthMask
      omega
    rw [decodePacket_encodePacket,hc,wirePayload_of_le hfit]
  · rw [UInt16.toNat_ofNat']
    unfold headerLen
    omega
  · obtain ⟨hlow,hhigh,_⟩ := decodePacket_ok h
    exact ⟨hlow,hhigh,encodePacket_of_decodePacket h⟩

/-- A ping with one payload byte, and the same datagram with a byte behind
its declared length. -/
theorem packet_codec_one_byte :
    decodePacket (encodePacket (.new {ackRequest := true} 0x1234 0) [7])=
      .ok (.new {ackRequest := true} 0x1234 13,[7]) ∧
    encodePacket (.new {ackRequest := true} 0x1234 13) [7]=
      (encodePacket (.new {ackRequest := true} 0x1234 0) [7]++[9]).take 13 :=
  ⟨(packet_codec_round_trips.1 (.new {ackRequest := true} 0x1234 0) [7] (by decide)).1,
    (packet_codec_round_trips.2.1 (encodePacket (.new {ackRequest := true} 0x1234 0) [7]++[9])
      (.new {ackRequest := true} 0x1234 13) [7] (by decide +kernel)).2.2⟩

end AtemProxy.PacketCodec
