import EvoCore.Bytes
import EvoCore.SelfDelimiting

namespace EvoCore.FrameCodec
open Bytes SelfDelimiting

-- The framing of crates/evo-plugin-sdk/src/codec.rs over byte streams. What a frame holds is serde's
-- business: serde_json and ciborium stay parameters and the frames a type.
def maxFrameSize : Nat := 64*1024*1024

inductive Codec where
  | json
  | cbor
deriving DecidableEq,Repr

-- A stream that ends gives UnexpectedEof where more is asked of it.
inductive IoError where
  | unexpectedEof
  | other (text : String)
deriving DecidableEq,Repr

inductive WireError where
  | io (e : IoError)
  | json (text : String)
  | cborEncode (text : String)
  | cborDecode (text : String)
  | frameTooLarge (size limit : Nat)
  | peerClosed
deriving DecidableEq,Repr

structure Serde (φ : Type) where
  toVec : φ → Except String (List UInt8)
  fromSlice : List UInt8 → Except String φ
  intoWriter : φ → Except String (List UInt8)
  fromReader : List UInt8 → Except String φ

section
variable {φ : Type} (serde : Serde φ) (codec : Codec)

def encode (frame : φ) : Except WireError (List UInt8) :=
  match codec with
  | .json => (serde.toVec frame).mapError .json
  | .cbor => (serde.intoWriter frame).mapError .cborEncode

def decode (bytes : List UInt8) : Except WireError φ :=
  match codec with
  | .json => (serde.fromSlice bytes).mapError .json
  | .cbor => (serde.fromReader bytes).mapError .cborDecode

-- A writer takes so many bytes more and then fails; none is one that never does.
structure Writer where
  written : List UInt8
  room : Option Nat
  failure : IoError
deriving DecidableEq,Repr

def Writer.writeAll (writer : Writer) (bytes : List UInt8) : Writer × Except IoError Unit :=
  match writer.room with
  | none => ({writer with written := writer.written++bytes},.ok ())
  | some room =>
    if bytes.length ≤ room then ({writer with written := writer.written++bytes,room := some (room-bytes.length)},.ok ())
    else ({writer with written := writer.written++bytes.take room,room := some 0},.error writer.failure)

-- What is left to read, and what the reader says to one who asks for more.
structure Reader where
  bytes : List UInt8
  final : IoError
deriving DecidableEq,Repr

def Reader.readExact (reader : Reader) (n : Nat) : Reader × Except IoError (List UInt8) :=
  if n ≤ reader.bytes.length then ({reader with bytes := reader.bytes.drop n},.ok (reader.bytes.take n))
  else ({reader with bytes := []},.error reader.final)

def fromBeBytes (bytes : List UInt8) : Nat := bytes.foldl (fun n byte => n*256+byte.toNat) 0

def writeFrame (writer : Writer) (frame : φ) : Writer × Except WireError Unit :=
  match encode serde codec frame with
  | .error e => (writer,.error e)
  | .ok payload =>
    if maxFrameSize < payload.length then (writer,.error (.frameTooLarge payload.length maxFrameSize))
    else
      match writer.writeAll (beBytes32 (UInt32.ofNat payload.length)) with
      | (writer,.error e) => (writer,.error (.io e))
      | (writer,.ok ()) =>
        match writer.writeAll payload with
        | (writer,.error e) => (writer,.error (.io e))
        | (writer,.ok ()) => (writer,.ok ())

def readFrame (reader : Reader) : Reader × Except WireError φ :=
  match reader.readExact 4 with
  | (reader,.error .unexpectedEof) => (reader,.error .peerClosed)
  | (reader,.error e) => (reader,.error (.io e))
  | (reader,.ok lenBytes) =>
    let size := fromBeBytes lenBytes
    if maxFrameSize < size then (reader,.error (.frameTooLarge size maxFrameSize))
    else
      match reader.readExact size with
      | (reader,.error e) => (reader,.error (.io e))
      | (reader,.ok buf) => (reader,decode serde codec buf)

def writeFrames (writer : Writer) (frames : List φ) : Writer := frames.foldl (fun writer frame => (writeFrame serde codec writer frame).1) writer

def readFrames : Nat → Reader → List (Except WireError φ)
  | 0,_ => []
  | n+1,reader => (readFrame serde codec reader).2::readFrames n (readFrame serde codec reader).1

def framed (frame : φ) : List UInt8 :=
  match encode serde codec frame with
  | .error _ => []
  | .ok payload => beBytes32 (UInt32.ofNat payload.length)++payload

def Encodes (frame : φ) : Prop := ∃ payload,encode serde codec frame = .ok payload ∧ payload.length ≤ maxFrameSize

def Late (e : WireError) : Prop := e = .peerClosed ∨ ∃ cause,e = .io cause

end

section
variable {φ : Type} {serde : Serde φ} {codec : Codec} {frame : φ} {frames : List φ} {payload rest : List UInt8}

theorem fromBeBytes_beBytes32 {n : Nat} (small : n < 2^32) : fromBeBytes (beBytes32 (UInt32.ofNat n)) = n := by
  have kept : (UInt32.ofNat n).toNat = n := (UInt32.toNat_ofNat' ..).trans (Nat.mod_eq_of_lt small)
  simp only [fromBeBytes,beBytes32,kept,List.map_cons,List.map_nil,List.foldl_cons,List.foldl_nil,UInt8.toNat_ofNat']
  omega

theorem framed_eq (encoded : encode serde codec frame = .ok payload) :
    framed serde codec frame = beBytes32 (UInt32.ofNat payload.length)++payload := by
  simp only [framed,encoded]

theorem readExact_final (reader : Reader) (n : Nat) : (reader.readExact n).1.final = reader.final := by
  unfold Reader.readExact
  split <;> rfl

theorem readFrame_final (reader : Reader) : (readFrame serde codec reader).1.final = reader.final := by
  unfold readFrame
  split
  · rename_i read
    rw [← readExact_final reader 4,read]
  · rename_i read
    rw [← readExact_final reader 4,read]
  · rename_i after lenBytes read
    have first : after.final = reader.final := by rw [← readExact_final reader 4,read]
    simp only
    split
    · exact first
    · split
      · rename_i read_
        rw [← first,← readExact_final after (fromBeBytes lenBytes),read_]
      · rename_i read_
        rw [← first,← readExact_final after (fromBeBytes lenBytes),read_]

-- A reader over a fixed ending, as a function of its bytes.
def readBytes (serde : Serde φ) (codec : Codec) (final : IoError) (bytes : List UInt8) : Except WireError φ × List UInt8 :=
  ((readFrame serde codec ⟨bytes,final⟩).2,(readFrame serde codec ⟨bytes,final⟩).1.bytes)

theorem readFrames_reads (final : IoError) (n : Nat) (bytes : List UInt8) :
    readFrames serde codec n ⟨bytes,final⟩ = reads (readBytes serde codec final) n bytes := by
  induction n generalizing bytes with
  | zero => rfl
  | succ n ih =>
    have shape : (readFrame serde codec ⟨bytes,final⟩).1 = ⟨(readFrame serde codec ⟨bytes,final⟩).1.bytes,final⟩ := by
      have same := @readFrame_final _ serde codec ⟨bytes,final⟩
      cases read : (readFrame serde codec ⟨bytes,final⟩).1 with
      | mk left ending =>
        rw [read] at same
        exact congrArg (Reader.mk left) same
    rw [readFrames,reads,shape,ih]
    rfl

theorem readFrame_whole (encoded : encode serde codec frame = .ok payload) (fits : payload.length ≤ maxFrameSize) (final : IoError) :
    readFrame serde codec ⟨framed serde codec frame++rest,final⟩ = (⟨rest,final⟩,decode serde codec payload) := by
  have size : fromBeBytes (beBytes32 (UInt32.ofNat payload.length)) = payload.length :=
    fromBeBytes_beBytes32 (lt_of_le_of_lt fits (by decide))
  have header : Reader.readExact ⟨framed serde codec frame++rest,final⟩ 4 =
      (⟨payload++rest,final⟩,.ok (beBytes32 (UInt32.ofNat payload.length))) := by
    rw [framed_eq encoded,List.append_assoc]
    simp [Reader.readExact,List.take_append,List.drop_append]
  have body : Reader.readExact ⟨payload++rest,final⟩ payload.length = (⟨rest,final⟩,.ok payload) := by
    simp [Reader.readExact]
  simp only [readFrame,header,size,if_neg (Nat.not_lt.mpr fits),body]

theorem readFrame_short {part : List UInt8} (encoded : encode serde codec frame = .ok payload) (fits : payload.length ≤ maxFrameSize)
    (begins : part <+: framed serde codec frame) (short : part.length < (framed serde codec frame).length) (final : IoError) :
    ∃ e,readFrame serde codec ⟨part,final⟩ = (⟨[],final⟩,.error e) ∧ Late e := by
  have size : fromBeBytes (beBytes32 (UInt32.ofNat payload.length)) = payload.length :=
    fromBeBytes_beBytes32 (lt_of_le_of_lt fits (by decide))
  rw [framed_eq encoded] at begins short
  by_cases header : 4 ≤ part.length
  · obtain ⟨body,rfl⟩ := List.prefix_of_prefix_length_le (List.prefix_append _ payload) begins header
    have first : Reader.readExact ⟨beBytes32 (UInt32.ofNat payload.length)++body,final⟩ 4 =
        (⟨body,final⟩,.ok (beBytes32 (UInt32.ofNat payload.length))) := by
      simp [Reader.readExact,List.take_append,List.drop_append]
    have less : ¬ payload.length ≤ body.length := by
      simp only [List.length_append] at short
      omega
    refine ⟨.io final,?_,.inr ⟨final,rfl⟩⟩
    simp only [readFrame,first,size,if_neg (Nat.not_lt.mpr fits)]
    simp only [Reader.readExact,if_neg less]
  · have none_ : Reader.readExact ⟨part,final⟩ 4 = (⟨[],final⟩,.error final) := by simp only [Reader.readExact,if_neg header]
    cases final with
    | unexpectedEof => exact ⟨.peerClosed,by simp only [readFrame,none_],.inl rfl⟩
    | other text => exact ⟨.io (.other text),by simp only [readFrame,none_],.inr ⟨_,rfl⟩⟩

theorem readBytes_delimits (trips : ∀ frame payload,encode serde codec frame = .ok payload → decode serde codec payload = .ok frame)
    (final : IoError) : Delimits (readBytes serde codec final) (framed serde codec) Late (Encodes serde codec) := by
  refine ⟨?_,?_,?_⟩
  · rintro frame rest ⟨payload,encoded,fits⟩
    rw [readBytes,readFrame_whole encoded fits final,trips frame payload encoded]
  · rintro frame part ⟨payload,encoded,fits⟩ begins short
    obtain ⟨e,failed,late⟩ := readFrame_short encoded fits begins short final
    exact ⟨e,by rw [readBytes,failed],late⟩
  · cases final with
    | unexpectedEof => exact ⟨.peerClosed,rfl,.inl rfl⟩
    | other text => exact ⟨.io (.other text),rfl,.inr ⟨_,rfl⟩⟩

theorem writeFrames_written (all : ∀ frame ∈ frames,Encodes serde codec frame) (written : List UInt8) (failure : IoError) :
    (writeFrames serde codec ⟨written,none,failure⟩ frames).written = written++frames.flatMap (framed serde codec) := by
  induction frames generalizing written with
  | nil => simp [writeFrames]
  | cons frame rest ih =>
    obtain ⟨payload,encoded,fits⟩ := all frame List.mem_cons_self
    have wrote : (writeFrame serde codec ⟨written,none,failure⟩ frame).1 = ⟨written++framed serde codec frame,none,failure⟩ := by
      simp only [writeFrame,encoded,if_neg (Nat.not_lt.mpr fits),Writer.writeAll,framed_eq encoded,List.append_assoc]
    have later := ih (fun other member => all other (List.mem_cons_of_mem frame member)) (written++framed serde codec frame)
    rw [writeFrames,List.foldl_cons,wrote]
    rw [writeFrames] at later
    rw [later,List.flatMap_cons,List.append_assoc]

-- Reading a cut stream gives the frames that are whole and then nothing but ends of the stream; a frame
-- that is too large leaves the writer as it was.
theorem stream_prefix_safe (trips : ∀ frame payload,encode serde codec frame = .ok payload → decode serde codec payload = .ok frame)
    (all : ∀ frame ∈ frames,Encodes serde codec frame) (failure final : IoError) (cut n : Nat) :
    (∃ failures,readFrames serde codec n ⟨(writeFrames serde codec ⟨[],none,failure⟩ frames).written.take cut,final⟩ =
        ((within (framed serde codec) cut frames).map .ok).take n++failures ∧
      failures.length = n-(within (framed serde codec) cut frames).length ∧ ∀ answer ∈ failures,∃ e,answer = .error e ∧ Late e) ∧
    ∀ (writer : Writer) (frame : φ) (payload : List UInt8),encode serde codec frame = .ok payload → maxFrameSize < payload.length →
      writeFrame serde codec writer frame = (writer,.error (.frameTooLarge payload.length maxFrameSize)) := by
  constructor
  · rw [readFrames_reads,writeFrames_written all,List.nil_append]
    obtain ⟨failures,same,late⟩ := reads_cut (readBytes_delimits trips final) all cut n
    have total := congrArg List.length same
    rw [reads_length,List.length_append,List.length_take,List.length_map] at total
    exact ⟨failures,same,by omega,late⟩
  · intro writer frame payload encoded large
    simp only [writeFrame,encoded,if_pos large]

end

-- The JSON text of an unload frame, and a serializer that knows no other.
def unload : String := "\x7b\"op\":\"unload\",\"v\":1,\"cid\":2,\"plugin\":\"org.test.a\"\x7d"

def unloadJson : Serde String where
  toVec frame := if frame = unload then .ok (utf8 unload) else .error "unknown frame"
  fromSlice bytes := if bytes = utf8 unload then .ok unload else .error "expected value"
  intoWriter _ := .error "unknown frame"
  fromReader _ := .error "expected value"

theorem unload_encoded {payload : List UInt8} (encoded : encode unloadJson .json frame = .ok payload) : frame = unload ∧ payload = utf8 unload := by
  unfold encode unloadJson at encoded
  simp only at encoded
  split at encoded
  · rename_i same
    cases Except.ok.inj encoded
    exact ⟨same,rfl⟩
  · cases encoded

-- Two frames, the second cut off after its length and one byte.
theorem second_unload_cut : ∃ failures,
    readFrames unloadJson .json 2 ⟨(writeFrames unloadJson .json ⟨[],none,.other "broken pipe"⟩ [unload,unload]).written.take 60,.unexpectedEof⟩ =
      .ok unload::failures ∧ failures.length = 1 ∧ ∀ answer ∈ failures,∃ e,answer = .error e ∧ Late e := by
  have whole : within (framed unloadJson .json) 60 [unload,unload] = [unload] := by decide
  have trips : ∀ frame payload,encode unloadJson .json frame = .ok payload → decode unloadJson .json payload = .ok frame := by
    intro frame payload encoded
    obtain ⟨rfl,rfl⟩ := unload_encoded encoded
    simp [decode,unloadJson,Except.mapError]
  have all : ∀ frame ∈ [unload,unload],Encodes unloadJson .json frame := by
    intro frame member
    have same : frame = unload := by simpa using member
    exact ⟨utf8 unload,by rw [same]; simp [encode,unloadJson,Except.mapError],by decide⟩
  have safe := (stream_prefix_safe trips all (.other "broken pipe") .unexpectedEof 60 2).1
  rw [whole] at safe
  exact safe

end EvoCore.FrameCodec
