import AtemProxy.PacketCodec
import AtemProxy.FrameWalk
import Mathlib.Data.List.DropRight

/-!
# Framed commands, their parser and their classification

A payload is a sequence of frames: a big-endian length that counts the
whole frame, two reserved bytes, a four-byte name and a body. Parsing
stops with an error at the first position that is not a frame. The name
predicates read the literal name, or its text when it is valid UTF-8.
-/

namespace AtemProxy.CommandFrames

open BigEndian PacketCodec FrameWalk

/-- Continuation byte of a multi-byte character. -/
def isContinuation (b : UInt8) : Bool := 0x80≤b && b≤0xBF

/-- Second byte allowed after the lead byte of a three-byte character. -/
def secondOfThree (b0 b1 : UInt8) : Bool :=
  if b0=0xE0 then 0xA0≤b1 && b1≤0xBF
  else if b0=0xED then 0x80≤b1 && b1≤0x9F
  else isContinuation b1

/-- Second byte allowed after the lead byte of a four-byte character. -/
def secondOfFour (b0 b1 : UInt8) : Bool :=
  if b0=0xF0 then 0x90≤b1 && b1≤0xBF
  else if b0=0xF4 then 0x80≤b1 && b1≤0x8F
  else isContinuation b1

/-- Code points of valid UTF-8; overlong forms, surrogates and values
beyond the Unicode range are rejected. -/
def fromUtf8 : Bytes → Option (List ℕ)
  | [] => some []
  | [b0] => if b0<0x80 then some [b0.toNat] else none
  | b0::b1::rest =>
    if b0<0x80 then (fromUtf8 (b1::rest)).map (b0.toNat::·)
    else if 0xC2≤b0 && b0≤0xDF then
      if isContinuation b1 then
        (fromUtf8 rest).map ((b0.toNat%32*64+b1.toNat%64)::·)
      else none
    else match rest with
      | [] => none
      | b2::rest =>
        if 0xE0≤b0 && b0≤0xEF then
          if secondOfThree b0 b1 && isContinuation b2 then
            (fromUtf8 rest).map ((b0.toNat%16*4096+b1.toNat%64*64+b2.toNat%64)::·)
          else none
        else match rest with
          | [] => none
          | b3::rest =>
            if 0xF0≤b0 && b0≤0xF4 && secondOfFour b0 b1 && isContinuation b2 &&
                isContinuation b3 then
              (fromUtf8 rest).map
                ((b0.toNat%8*262144+b1.toNat%64*4096+b2.toNat%64*64+b3.toNat%64)::·)
            else none

/-- Code points of literal characters. -/
def codes (text : List Char) : List ℕ := text.map Char.toNat

/-- Occurrence of one text inside another. -/
def containsText (needle : List ℕ) : List ℕ → Bool
  | [] => needle.isPrefixOf []
  | c::text => needle.isPrefixOf (c::text) || containsText needle text

/-- Four-byte command name. -/
structure CommandName where
  /-- First byte of the name. -/
  b0 : UInt8
  /-- Second byte of the name. -/
  b1 : UInt8
  /-- Third byte of the name. -/
  b2 : UInt8
  /-- Fourth byte of the name. -/
  b3 : UInt8
  deriving DecidableEq

/-- Name spelled with ASCII characters. -/
def tag (a b c d : Char) : CommandName :=
  ⟨UInt8.ofNat a.toNat,UInt8.ofNat b.toNat,UInt8.ofNat c.toNat,UInt8.ofNat d.toNat⟩

/-- Text of the name when its bytes are valid UTF-8. -/
def CommandName.asStr (name : CommandName) : Option (List ℕ) :=
  fromUtf8 [name.b0,name.b1,name.b2,name.b3]

/-- The name has a text with the given property. -/
def CommandName.textHas (name : CommandName) (test : List ℕ → Bool) : Bool :=
  match name.asStr with
  | some text => test text
  | none => false

/-- Initialization-complete command name. -/
def initComplete : CommandName := tag 'I' 'n' 'C' 'm'

/-- Wire bytes of a frame with given reserved bytes. The length word holds
the low sixteen bits of the frame length. -/
def frameBytes (r0 r1 : UInt8) (name : CommandName) (body : Bytes) : Bytes :=
  let len := UInt16.ofNat (8+body.length)
  highByte len::lowByte len::r0::r1::name.b0::name.b1::name.b2::name.b3::body

/-- Serialize a command; the reserved bytes are zero. -/
def serializeCommand (name : CommandName) (body : Bytes) : Bytes := frameBytes 0 0 name body

/-- The three slices belong to one well-formed frame. -/
def Framed (name : CommandName) (raw body : Bytes) : Prop :=
  8+body.length<65536 ∧ ∃ r0 r1, raw=frameBytes r0 r1 name body

/-- A single framed command. Its slices cannot disagree with each other. -/
structure CommandRef where
  /-- Four-byte name. -/
  name : CommandName
  /-- Full frame, header included. -/
  raw : Bytes
  /-- Bytes behind the eight header bytes. -/
  body : Bytes
  /-- The slices come from one well-formed frame. -/
  framed : Framed name raw body
  deriving DecidableEq

/-- A frame has eight bytes more than its body. -/
theorem CommandRef.raw_length (c : CommandRef) : c.raw.length=8+c.body.length := by
  obtain ⟨_,r0,r1,hr⟩ := c.framed
  rw [hr]
  simp only [frameBytes,List.length_cons]
  omega

/-- A frame has at least its header. -/
theorem CommandRef.raw_ne_nil (c : CommandRef) : c.raw≠[] := by
  intro hnil
  have hlen := c.raw_length
  rw [hnil,List.length_nil] at hlen
  omega

/-- A frame length word read from the wire is the length of the frame. -/
theorem framed_of_header {l0 l1 r0 r1 n0 n1 n2 n3 : UInt8} {tail : Bytes}
    (h : 8≤(beWord l0 l1).toNat ∧ (beWord l0 l1).toNat-8≤tail.length) :
    Framed ⟨n0,n1,n2,n3⟩
      (l0::l1::r0::r1::n0::n1::n2::n3::tail.take ((beWord l0 l1).toNat-8))
      (tail.take ((beWord l0 l1).toNat-8)) := by
  have hw := (beWord l0 l1).toNat_lt
  have hlen : (tail.take ((beWord l0 l1).toNat-8)).length=(beWord l0 l1).toNat-8 := by
    rw [List.length_take]
    omega
  refine ⟨by rw [hlen]; omega,r0,r1,?_⟩
  have hword : UInt16.ofNat (8+(tail.take ((beWord l0 l1).toNat-8)).length)=beWord l0 l1 := by
    apply UInt16.toNat_inj.mp
    rw [hlen,UInt16.toNat_ofNat']
    omega
  simp only [frameBytes,hword,highByte_beWord,lowByte_beWord]

/-- Well-formed frame at the front of the unread payload. -/
def headFrame (rest : Bytes) : Option CommandRef :=
  match rest with
  | l0::l1::r0::r1::n0::n1::n2::n3::tail =>
    if h : 8≤(beWord l0 l1).toNat ∧ (beWord l0 l1).toNat-8≤tail.length then
      some ⟨⟨n0,n1,n2,n3⟩,
        l0::l1::r0::r1::n0::n1::n2::n3::tail.take ((beWord l0 l1).toNat-8),
        tail.take ((beWord l0 l1).toNat-8),framed_of_header h⟩
    else none
  | _ => none

/-- The bytes of a frame determine the command. -/
theorem CommandRef.ext_of_raw {c d : CommandRef} (h : c.raw=d.raw) : c=d := by
  obtain ⟨cn,cr,cb,hcl,c0,c1,hc⟩ := c
  obtain ⟨dn,dr,db,hdl,d0,d1,hd⟩ := d
  dsimp only at h
  subst h
  rw [hc] at hd
  simp only [frameBytes,List.cons.injEq] at hd
  obtain ⟨_,_,_,_,h0,h1,h2,h3,hb⟩ := hd
  have hn : cn=dn := by
    cases cn
    cases dn
    simp_all
  subst hn
  subst hb
  rfl

/-- The length word of a frame reads back as its length. -/
theorem CommandRef.length_word (c : CommandRef) :
    (beWord (highByte (UInt16.ofNat (8+c.body.length)))
      (lowByte (UInt16.ofNat (8+c.body.length)))).toNat=8+c.body.length := by
  have hlen := c.framed.1
  rw [beWord_split,UInt16.toNat_ofNat']
  omega

/-- A literal frame is recognized before any continuation. -/
theorem headFrame_raw_append (c : CommandRef) (rest : Bytes) :
    headFrame (c.raw++rest)=some c := by
  obtain ⟨hl,r0,r1,hr⟩ := c.framed
  have hw := c.length_word
  have hd : ∃ d, headFrame (c.raw++rest)=some d ∧ d.raw=c.raw := by
    rw [hr]
    simp only [frameBytes,List.cons_append,headFrame,hw,Nat.add_sub_cancel_left]
    rw [dif_pos ⟨by omega,by rw [List.length_append]; omega⟩]
    refine ⟨_,rfl,?_⟩
    simp only [List.take_left]
  obtain ⟨d,hd,he⟩ := hd
  rw [hd,CommandRef.ext_of_raw he]

/-- A recognized frame is a literal front part of the payload. -/
theorem headFrame_split {rest : Bytes} {c : CommandRef} (h : headFrame rest=some c) :
    ∃ tail, rest=c.raw++tail := by
  unfold headFrame at h
  split at h
  · rename_i l0 l1 r0 r1 n0 n1 n2 n3 tail
    split at h
    · cases h
      refine ⟨tail.drop ((beWord l0 l1).toNat-8),?_⟩
      simp only [List.cons_append,List.take_append_drop]
    · cases h
  · cases h

/-- Command framing as a self-delimiting frame reader. -/
def commandReader : FrameReader UInt8 CommandRef where
  head := headFrame
  extent := CommandRef.raw
  extent_ne_nil c := by
    have h := c.raw_length
    intro he
    rw [he,List.length_nil] at h
    omega
  head_extent := headFrame_raw_append
  head_split := headFrame_split

/-- Parsing loop at an offset with the payload bytes from there on. The
bound counts remaining iterations; a payload's length always suffices. -/
def parseLoop : ℕ → ℕ → Bytes → Except ProtocolError (List CommandRef)
  | 0,offset,rest => if rest=[] then .ok [] else .error (.badCommand offset)
  | fuel+1,offset,rest =>
    match headFrame rest with
    | none => if rest=[] then .ok [] else .error (.badCommand offset)
    | some c => (parseLoop fuel (offset+c.raw.length) (rest.drop c.raw.length)).map (c::·)

/-- Parse zero or more commands from a packet payload. -/
def parseCommands (payload : Bytes) : Except ProtocolError (List CommandRef) :=
  parseLoop payload.length 0 payload

/-- Frames met from offset zero for as long as they are well formed. -/
def walkFrames (payload : Bytes) : List CommandRef := commandReader.frames payload

/-- The parser accepts the payload as a whole. -/
def Parses (payload : Bytes) : Prop := commandReader.Accepts payload

instance : DecidablePred Parses := fun payload =>
  inferInstanceAs (Decidable (commandReader.rest payload=[]))

/-- The loop returns the walked frames, or fails where the walk stopped. -/
theorem parseLoop_eq {fuel : ℕ} {rest : Bytes} (offset : ℕ) (h : rest.length≤fuel) :
    parseLoop fuel offset rest=
      if commandReader.rest rest=[] then .ok (walkFrames rest)
      else .error (.badCommand (offset+(rest.length-(commandReader.rest rest).length))) := by
  unfold walkFrames
  induction rest using commandReader.walk_cases generalizing fuel offset with
  | stop rest hn =>
    have hh : headFrame rest=none := hn
    rw [commandReader.rest_of_head_none hn,commandReader.frames_of_head_none hn]
    cases fuel <;> simp only [parseLoop,hh,Nat.sub_self,Nat.add_zero]
  | step c rest ih =>
    have hp := commandReader.extent_length_pos c
    have hx : commandReader.extent c=c.raw := rfl
    rw [commandReader.rest_extent_append,commandReader.frames_extent_append,hx] at *
    rw [List.length_append] at h ⊢
    obtain ⟨fuel,rfl⟩ : ∃ n, fuel=n+1 := ⟨fuel-1,by omega⟩
    rw [parseLoop,headFrame_raw_append]
    dsimp only
    rw [List.drop_left,ih (offset+c.raw.length) (by omega)]
    split
    · rfl
    · have he := congrArg List.length (commandReader.extents_append_rest rest)
      rw [List.length_append] at he
      have ho : offset+c.raw.length+(rest.length-(commandReader.rest rest).length)=
          offset+(c.raw.length+rest.length-(commandReader.rest rest).length) := by omega
      rw [ho]
      rfl

/-- Success is exactly acceptance; failure reports the first malformed offset. -/
theorem parseCommands_eq (payload : Bytes) :
    parseCommands payload=
      if commandReader.rest payload=[] then .ok (walkFrames payload)
      else .error (.badCommand (payload.length-(commandReader.rest payload).length)) := by
  unfold parseCommands
  rw [parseLoop_eq 0 (Nat.le_refl _),Nat.zero_add]

/-- A payload parses exactly if it consists of frames, and then into these. -/
theorem parseCommands_ok_iff {payload : Bytes} {cmds : List CommandRef} :
    parseCommands payload=.ok cmds ↔ Parses payload ∧ walkFrames payload=cmds := by
  rw [parseCommands_eq]
  unfold Parses FrameReader.Accepts
  split <;> simp_all

/-- A rejected payload is one the walk does not consume. -/
theorem parseCommands_error_iff {payload : Bytes} :
    (∃ e, parseCommands payload=.error e) ↔ ¬Parses payload := by
  rw [parseCommands_eq]
  unfold Parses FrameReader.Accepts
  split <;> simp_all

/-- One framed command parses to itself. -/
theorem parseCommands_raw (c : CommandRef) : parseCommands c.raw=.ok [c] :=
  parseCommands_ok_iff.mpr ⟨commandReader.accepts_extent c,commandReader.frames_extent c⟩

/-- One frame is one command. -/
theorem walkFrames_raw (c : CommandRef) : walkFrames c.raw=[c] := commandReader.frames_extent c

/-- Parsed frames reassemble their payload. -/
theorem parseCommands_flatten {payload : Bytes} {cmds : List CommandRef}
    (h : parseCommands payload=.ok cmds) : (cmds.map CommandRef.raw).flatten=payload := by
  obtain ⟨ha,rfl⟩ := parseCommands_ok_iff.mp h
  have he := commandReader.extents_append_rest payload
  unfold Parses FrameReader.Accepts at ha
  rw [ha,List.append_nil] at he
  exact he

/-- Concatenated frames parse to exactly those frames. -/
theorem parseCommands_frames (cmds : List CommandRef) :
    parseCommands (cmds.map CommandRef.raw).flatten=.ok cmds := by
  obtain ⟨hf,_⟩ := commandReader.walk_extents_append cmds []
  rw [List.append_nil,commandReader.frames_nil,List.append_nil] at hf
  exact parseCommands_ok_iff.mpr ⟨(commandReader.accepts_iff _).mpr ⟨cmds,rfl⟩,hf⟩

/-- Commands of a payload that parses as a whole; none otherwise. -/
def parsedCommands (payload : Bytes) : List CommandRef :=
  match parseCommands payload with
  | .ok cmds => cmds
  | .error _ => []

/-- The commands of a payload that parses. -/
theorem parsedCommands_of_ok {payload : Bytes} {cmds : List CommandRef}
    (h : parseCommands payload=.ok cmds) : parsedCommands payload=cmds := by
  unfold parsedCommands
  rw [h]

/-- A frame parses into its command. -/
theorem parsedCommands_raw (c : CommandRef) : parsedCommands c.raw=[c] :=
  parsedCommands_of_ok (parseCommands_raw c)

/-- A serialized command within the length field, as a frame. -/
def serializedRef (name : CommandName) (body : Bytes) (h : 8+body.length<65536) : CommandRef :=
  ⟨name,serializeCommand name body,body,h,0,0,rfl⟩

/-- Wire bytes of a name. -/
def CommandName.bytes (name : CommandName) : Bytes := [name.b0,name.b1,name.b2,name.b3]

/-- Grammar of one frame: at least eight bytes, the first two of which are
the big-endian length of the whole. -/
def IsFrame (frame : Bytes) : Prop :=
  8≤frame.length ∧ ∃ l0 l1 rest, frame=l0::l1::rest ∧ (beWord l0 l1).toNat=frame.length

/-- The slices of a command are cut out of its frame at fixed places. -/
theorem CommandRef.slices (c : CommandRef) :
    IsFrame c.raw ∧ c.name.bytes=(c.raw.drop 4).take 4 ∧ c.body=c.raw.drop 8 := by
  have hlen := c.raw_length
  obtain ⟨hl,r0,r1,hr⟩ := c.framed
  have hw := c.length_word
  refine ⟨⟨by omega,_,_,_,hr,by rw [hw,hlen]⟩,?_,?_⟩
  · rw [hr]
    rfl
  · rw [hr]
    rfl

/-- The grammar describes exactly the frames of commands. -/
theorem isFrame_iff (frame : Bytes) : IsFrame frame ↔ ∃ c : CommandRef, c.raw=frame := by
  constructor
  · rintro ⟨hlen,l0,l1,rest,rfl,hw⟩
    match rest,hlen with
    | r0::r1::n0::n1::n2::n3::body,_ =>
      simp only [List.length_cons] at hw
      have hall : body.take ((beWord l0 l1).toNat-8)=body := List.take_of_length_le (by omega)
      have hframed : Framed ⟨n0,n1,n2,n3⟩ (l0::l1::r0::r1::n0::n1::n2::n3::body) body := by
        have h := @framed_of_header l0 l1 r0 r1 n0 n1 n2 n3 body ⟨by omega,by omega⟩
        rwa [hall] at h
      exact ⟨⟨_,_,_,hframed⟩,rfl⟩
  · rintro ⟨c,rfl⟩
    exact c.slices.1

/-- Concatenations in the grammar are concatenations of command frames. -/
theorem frames_of_grammar {frames : List Bytes} (h : ∀ f ∈ frames, IsFrame f) :
    ∃ cmds : List CommandRef, cmds.map CommandRef.raw=frames := by
  induction frames with
  | nil => exact ⟨[],rfl⟩
  | cons frame frames ih =>
    obtain ⟨c,hc⟩ := (isFrame_iff frame).mp (h frame List.mem_cons_self)
    obtain ⟨cmds,hcs⟩ := ih (fun f hf => h f (List.mem_cons_of_mem _ hf))
    exact ⟨c::cmds,by rw [List.map_cons,hc,hcs]⟩

/-- The parser stops at a position exactly when no frame starts there. -/
theorem headFrame_eq_none_iff (rest : Bytes) :
    headFrame rest=none ↔ ∀ f, IsFrame f → ¬f<+:rest := by
  constructor
  · rintro hn f hf ⟨tail,rfl⟩
    obtain ⟨c,rfl⟩ := (isFrame_iff f).mp hf
    rw [headFrame_raw_append] at hn
    cases hn
  · intro h
    cases hc : headFrame rest with
    | none => rfl
    | some c =>
      obtain ⟨tail,ht⟩ := headFrame_split hc
      exact absurd ⟨tail,ht.symm⟩ (h c.raw c.slices.1)

/-- Acceptance is the grammar. -/
theorem parseCommands_ok_iff_grammar (payload : Bytes) :
    (∃ cmds, parseCommands payload=.ok cmds) ↔
      ∃ frames : List Bytes, (∀ f ∈ frames, IsFrame f) ∧ payload=frames.flatten := by
  constructor
  · rintro ⟨cmds,h⟩
    refine ⟨cmds.map CommandRef.raw,?_,(parseCommands_flatten h).symm⟩
    intro f hf
    obtain ⟨c,_,rfl⟩ := List.mem_map.mp hf
    exact c.slices.1
  · rintro ⟨frames,hf,rfl⟩
    obtain ⟨cmds,rfl⟩ := frames_of_grammar hf
    exact ⟨cmds,parseCommands_frames cmds⟩

/-- An error is reported at the end of the whole frames in front of it,
where the remaining bytes are not empty and start with no frame. -/
theorem parseCommands_error_iff_grammar (payload : Bytes) (e : ProtocolError) :
    parseCommands payload=.error e ↔
      ∃ (frames : List Bytes) (rest : Bytes), (∀ f ∈ frames, IsFrame f) ∧
        payload=frames.flatten++rest ∧ rest≠[] ∧ (∀ f, IsFrame f → ¬f<+:rest) ∧
        e=.badCommand frames.flatten.length := by
  constructor
  · intro h
    have hsplit := commandReader.extents_append_rest payload
    have hlen := congrArg List.length hsplit
    rw [List.length_append] at hlen
    rw [parseCommands_eq] at h
    split at h
    · cases h
    · rename_i hrest
      cases h
      refine ⟨(walkFrames payload).map CommandRef.raw,commandReader.rest payload,?_,
        hsplit.symm,hrest,(headFrame_eq_none_iff _).mp (commandReader.head_rest payload),?_⟩
      · intro f hf
        obtain ⟨c,_,rfl⟩ := List.mem_map.mp hf
        exact c.slices.1
      · congr 1
        exact (Nat.eq_sub_of_add_eq hlen).symm
  · rintro ⟨frames,rest,hf,rfl,hne,hstop,rfl⟩
    obtain ⟨cmds,rfl⟩ := frames_of_grammar hf
    have hrest : commandReader.rest ((cmds.map CommandRef.raw).flatten++rest)=rest :=
      commandReader.rest_extents_append ((headFrame_eq_none_iff rest).mpr hstop)
    rw [parseCommands_eq,hrest,if_neg hne,List.length_append,Nat.add_sub_cancel]

/-- Serialized commands parse to themselves. -/
theorem parseCommands_serialized {items : List (CommandName×Bytes)}
    (h : ∀ item ∈ items, item.2.length≤65527) :
    ∃ cmds, parseCommands (items.map (fun item => serializeCommand item.1 item.2)).flatten=
      .ok cmds ∧ cmds.map (fun c => (c.name,c.body))=items := by
  have hrefs : ∃ cmds : List CommandRef,
      cmds.map CommandRef.raw=items.map (fun item => serializeCommand item.1 item.2) ∧
      cmds.map (fun c => (c.name,c.body))=items := by
    induction items with
    | nil => exact ⟨[],rfl,rfl⟩
    | cons item items ih =>
      have hitem := h item List.mem_cons_self
      obtain ⟨cmds,hraw,hpairs⟩ := ih (fun i hi => h i (List.mem_cons_of_mem _ hi))
      refine ⟨serializedRef item.1 item.2 (by omega)::cmds,?_,?_⟩
      · rw [List.map_cons,List.map_cons,hraw]
        rfl
      · rw [List.map_cons,hpairs]
        rfl
  obtain ⟨cmds,hraw,hpairs⟩ := hrefs
  exact ⟨cmds,by rw [←hraw,parseCommands_frames],hpairs⟩

/-- The parser accepts exactly the concatenations of frames, returns their
slices, reports the start of the first malformed frame otherwise, and
inverts the serializer on every list of commands it can express. -/
theorem command_framing_exact :
    (∀ payload : Bytes, (∃ cmds, parseCommands payload=.ok cmds) ↔
      ∃ frames : List Bytes, (∀ f ∈ frames, IsFrame f) ∧ payload=frames.flatten) ∧
    (∀ (payload : Bytes) (cmds : List CommandRef), parseCommands payload=.ok cmds →
      (cmds.map CommandRef.raw).flatten=payload ∧
      ∀ c ∈ cmds, IsFrame c.raw ∧ c.name.bytes=(c.raw.drop 4).take 4 ∧ c.body=c.raw.drop 8) ∧
    (∀ (payload : Bytes) (e : ProtocolError), parseCommands payload=.error e ↔
      ∃ (frames : List Bytes) (rest : Bytes), (∀ f ∈ frames, IsFrame f) ∧
        payload=frames.flatten++rest ∧ rest≠[] ∧ (∀ f, IsFrame f → ¬f<+:rest) ∧
        e=.badCommand frames.flatten.length) ∧
    (∀ items : List (CommandName×Bytes), (∀ item ∈ items, item.2.length≤65527) →
      ∃ cmds, parseCommands (items.map (fun item => serializeCommand item.1 item.2)).flatten=
        .ok cmds ∧ cmds.map (fun c => (c.name,c.body))=items) :=
  ⟨parseCommands_ok_iff_grammar,
    fun _ _ h => ⟨parseCommands_flatten h,fun c _ => c.slices⟩,
    parseCommands_error_iff_grammar,fun _ h => parseCommands_serialized h⟩

/-- Two serialized commands of different lengths come back as they were. -/
theorem command_framing_two_commands :
    ∃ cmds, parseCommands (serializeCommand initComplete [1,0,0,0]++
      (serializeCommand (tag 'T' 'i' 'm' 'e') []++[]))=.ok cmds ∧
      cmds.map (fun c => (c.name,c.body))=[(initComplete,[1,0,0,0]),(tag 'T' 'i' 'm' 'e',[])] :=
  command_framing_exact.2.2.2 [(initComplete,[1,0,0,0]),(tag 'T' 'i' 'm' 'e',[])] (by decide)

/-- Major and minor protocol version of a version body. -/
def parseVersion (body : Bytes) : Option (UInt16×UInt16) :=
  match body with
  | b0::b1::b2::b3::_ => some (beWord b0 b1,beWord b2 b3)
  | _ => none

/-- Unicode control characters. -/
def isControl (c : ℕ) : Bool := c<0x20 || (0x7F ≤ c && c<0xA0)

/-- Unicode white space. -/
def isWhitespace (c : ℕ) : Bool :=
  (0x09 ≤ c && c≤0x0D) || c==0x20 || c==0x85 || c==0xA0 || c==0x1680 ||
    (0x2000 ≤ c && c≤0x200A) || c==0x2028 || c==0x2029 || c==0x202F || c==0x205F || c==0x3000

/-- Product name up to the first NUL, without trailing control characters
and white space; absent when nothing is left or the text is invalid. -/
def parseProductName (body : Bytes) : Option (List ℕ) :=
  match fromUtf8 (body.takeWhile (fun b => b≠0)) with
  | none => none
  | some text =>
    let trimmed := text.rdropWhile (fun c => isControl c || isWhitespace c)
    if trimmed=[] then none else some trimmed

/-- Twelve-byte initialization-complete command appended to dumps. -/
def syntheticInitComplete : Bytes := serializeCommand initComplete [0x01,0x00,0x00,0x00]

/-- Names coalesced without looking at their body. -/
def nameOnlyNames : List CommandName :=
  [tag '_' 'v' 'e' 'r',tag 'I' 'n' 'C' 'm',tag '_' 'p' 'i' 'n',tag '_' 't' 'o' 'p',
    tag 'p' 'o' 'w' 'r']

/-- Names coalesced by the mixer index in the first body byte. -/
def mixerNames : List CommandName :=
  [tag 'P' 'r' 'g' 'I',tag 'P' 'r' 'v' 'I',tag 'T' 'r' 'S' 'S',tag 'T' 'r' 'P' 's',
    tag 'T' 'r' 'P' 'r',tag 'F' 't' 'b' 'S',tag 'F' 't' 'b' 'P']

/-- Names coalesced by the first four body bytes. -/
def indexedNames : List CommandName :=
  [tag 'K' 'e' 'O' 'n',tag 'K' 'e' 'B' 'P',tag 'D' 's' 'k' 'B',tag 'D' 's' 'k' 'S',
    tag 'D' 's' 'k' 'P',tag 'C' 'o' 'l' 'V',tag 'A' 'u' 'x' 'S',tag 'M' 'P' 'C' 'E',
    tag 'M' 'P' 'r' 'p',tag 'C' 'v' 'l' 'I',tag 'I' 'n' 'P' 'r',tag 'I' 'n' 'P' 'X']

/-- Identity bytes used for state-cache coalescing. Unlisted names have an
empty identity, so their latest command wins. -/
def commandIdentity (name : CommandName) (body : Bytes) : Bytes :=
  if name ∈ nameOnlyNames then []
  else if name ∈ mixerNames then body.head?.toList
  else if name ∈ indexedNames then body.take 4
  else []

/-- High-rate commands that never enter the late-join cache. -/
def isEphemeralCommand (name : CommandName) : Bool :=
  decide (name ∈ [tag 'A' 'M' 'L' 'v',tag 'A' 'M' 'm' 'O',tag 'F' 'A' 'S' 'P',
    tag 'F' 'M' 'L' 'v',tag 'F' 'A' 't' 'l',tag 'F' 'A' 's' 'p',tag 'T' 'i' 'm' 'e',
    tag 'T' 'i' 'm' 'C',tag 'T' 'C' 'C' 'c'])

/-- Any command of the lock family. -/
def isLockCommand (name : CommandName) : Bool :=
  decide (name ∈ [tag 'L' 'O' 'C' 'K',tag 'P' 'L' 'C' 'K',tag 'L' 'K' 'S' 'T',
    tag 'L' 'K' 'O' 'B']) ||
  name.textHas (fun text => (codes ['L','o','c','k']).isPrefixOf text)

/-- Client-originated lock request. -/
def isLockRequest (name : CommandName) : Bool :=
  decide (name ∈ [tag 'L' 'O' 'C' 'K',tag 'P' 'L' 'C' 'K'])

/-- Upstream lock status or obtainment notification. -/
def isLockStatus (name : CommandName) : Bool :=
  decide (name ∈ [tag 'L' 'K' 'S' 'T',tag 'L' 'K' 'O' 'B'])

/-- Store id at the start of a lock or transfer body. -/
def lockStoreId (body : Bytes) : Option UInt16 :=
  match body with
  | b0::b1::_ => some (beWord b0 b1)
  | _ => none

/-- Requested or reported lock state: the third byte, or the last one of a
shorter body. -/
def lockRequestEnabled (body : Bytes) : Bool :=
  match body with
  | _::_::b2::_ => b2≠0
  | _ => body.getLast?.getD 0≠0

/-- Client unlock request for a store. -/
def synthesizeUnlock (store : UInt16) : Bytes :=
  serializeCommand (tag 'L' 'O' 'C' 'K') [highByte store,lowByte store,0,0]

/-- Media-transfer command. -/
def isTransferCommand (name : CommandName) : Bool :=
  decide (name ∈ [tag 'F' 'T' 'S' 'D',tag 'F' 'T' 'S' 'U',tag 'F' 'T' 'C' 'D',
    tag 'F' 'T' 'D' 'a',tag 'F' 'T' 'U' 'A',tag 'F' 'T' 'F' 'D',tag 'F' 'T' 'D' 'C',
    tag 'F' 'T' 'D' 'E',tag 'F' 'T' 'E' 'S']) ||
  name.textHas (fun text => (codes ['F','T']).isPrefixOf text ||
    (codes ['D','a','t','a']).isPrefixOf text)

/-- Audio level subscription command of a client. -/
def isAudioLevelsSubscribe (name : CommandName) : Bool :=
  decide (name ∈ [tag 'S' 'A' 'L' 'N',tag 'F' 'A' 'S' 'P',tag 'S' 'A' 'f' 'f']) ||
  name.textHas (fun text =>
    containsText (codes ['S','e','n','d','L','e','v','e','l','s']) text ||
    (containsText (codes ['L','e','v','e','l','s']) text &&
      containsText (codes ['E','n','a','b','l','e']) text))

end AtemProxy.CommandFrames
