import Apos.ByteLayout
import Apos.DevmonMonitor
import Apos.FixedFrames

/-!
# The pipe between the device monitor and the agent

`write_buffer` copies the type, the size and the `DRBD_InfoT` of a message behind each
other and writes these 313 bytes to a pipe.  The agent is dispatched as long as the
pipe holds bytes; every dispatch reads once into a zeroed buffer of 1024 bytes and
takes one message from its beginning, whatever number of bytes it has read.
-/

namespace Apos.Devmon

/-- `HA_DEVMON_MsgT` as `readMsg` fills it, with the bytes of `DRBD_InfoT`. -/
structure RawMsg where
  type : UInt32
  size : UInt32
  data : List UInt8
  deriving DecidableEq, Repr

def RawMsg.bytes (msg : RawMsg) : List UInt8 :=
  wordBytes msg.type ++ wordBytes msg.size ++ msg.data

def RawMsg.ofBuffer (buffer : List UInt8) : RawMsg where
  type := wordOfBytes (buffer.take 4)
  size := wordOfBytes ((buffer.drop 4).take 4)
  data := (buffer.drop 8).take 305

/-- A message of the device monitor: its type is one of the four, its data fill a
`DRBD_InfoT`. -/
structure SentMsg where
  type : MsgType
  size : UInt32
  data : List UInt8
  fills : data.length = 305

def SentMsg.raw (msg : SentMsg) : RawMsg :=
  ⟨msg.type.code, msg.size, msg.data⟩

def fieldBytes (size : Nat) (text : String) : List UInt8 :=
  (text.toList.map byteOfChar ++ List.replicate size 0).take size

theorem length_fieldBytes (size : Nat) (text : String) :
    (fieldBytes size text).length = size := by
  rw [fieldBytes, List.length_take, List.length_append, List.length_replicate]
  omega

def InfoT.bytes (info : InfoT) : List UInt8 :=
  [if info.isConfigured then 1 else 0] ++ fieldBytes 16 info.cstate ++
    fieldBytes 16 info.role ++ fieldBytes 16 info.dstate ++ fieldBytes 256 info.diskinfo

def Msg.sent (msg : Msg) : SentMsg where
  type := msg.type
  size := msg.size
  data := msg.data.bytes
  fills := by simp [InfoT.bytes, length_fieldBytes]

/-- The buffer of `readMsg` after `read` has returned some bytes. -/
def readBuffer (chunk : List UInt8) : List UInt8 :=
  (chunk ++ List.replicate 1024 0).take 1024

structure Pipe where
  queue : List UInt8
  processed : List RawMsg
  deriving DecidableEq, Repr

/-- A write of the device monitor, or a dispatch of the agent whose read returns some
bytes. -/
inductive PipeEvent where
  | write (msg : SentMsg)
  | dispatch (count : Nat)

def Pipe.step (pipe : Pipe) : PipeEvent → Option Pipe
  | .write msg => some { pipe with queue := pipe.queue ++ msg.raw.bytes }
  | .dispatch count =>
    if 1 ≤ count ∧ count ≤ 1024 ∧ count ≤ pipe.queue.length then
      some
        { queue := pipe.queue.drop count
          processed := pipe.processed ++ [.ofBuffer (readBuffer (pipe.queue.take count))] }
    else none

def Pipe.run (pipe : Pipe) : List PipeEvent → Option Pipe
  | [] => some pipe
  | event :: events => (pipe.step event).bind fun next => next.run events

def Pipe.empty : Pipe :=
  ⟨[], []⟩

def written : List PipeEvent → List SentMsg
  | [] => []
  | .write msg :: events => msg :: written events
  | .dispatch _ :: events => written events

def readCounts : List PipeEvent → List Nat
  | [] => []
  | .write _ :: events => readCounts events
  | .dispatch count :: events => count :: readCounts events

/-! ## Bytes of a message -/

theorem SentMsg.length_bytes (msg : SentMsg) : msg.raw.bytes.length = 313 := by
  simp [SentMsg.raw, RawMsg.bytes, msg.fills]

theorem SentMsg.isFrame (msg : SentMsg) : IsFrame 0 313 msg.raw.bytes where
  length_eq := msg.length_bytes
  leads := by
    refine ⟨UInt8.ofNat msg.type.code.toNat, rfl, ?_⟩
    cases msg.type <;> decide

theorem ofBuffer_append {type size data : List UInt8} (isType : type.length = 4)
    (isSize : size.length = 4) (isData : data.length = 305) :
    RawMsg.ofBuffer (type ++ size ++ data) = ⟨wordOfBytes type, wordOfBytes size, data⟩ := by
  have afterType : (type ++ size ++ data).drop 4 = size ++ data := by
    rw [List.append_assoc, List.drop_append_of_le_length (by omega),
      List.drop_of_length_le (by omega), List.nil_append]
  have afterSize : (type ++ size ++ data).drop 8 = data := by
    rw [List.drop_append_of_le_length (by rw [List.length_append]; omega),
      List.drop_of_length_le (by rw [List.length_append]; omega), List.nil_append]
  rw [RawMsg.ofBuffer, afterType, afterSize, List.append_assoc,
    List.take_append_of_le_length (by omega), List.take_of_length_le (by omega),
    List.take_append_of_le_length (by omega), List.take_of_length_le (by omega),
    List.take_of_length_le (by omega)]

theorem ofBuffer_eq_iff {frame : List UInt8} (isFrame : frame.length = 313) (msg : SentMsg) :
    RawMsg.ofBuffer frame = msg.raw ↔ frame = msg.raw.bytes := by
  constructor
  · intro same
    have isType : (frame.take 4).length = 4 := by
      rw [List.length_take]
      omega
    have isSize : ((frame.drop 4).take 4).length = 4 := by
      rw [List.length_take, List.length_drop]
      omega
    have isData : (frame.drop 8).take 305 = (frame.drop 4).drop 4 := by
      rw [List.take_of_length_le (by rw [List.length_drop]; omega), List.drop_drop]
    have parts : (RawMsg.ofBuffer frame).bytes = frame := by
      simp only [RawMsg.bytes, RawMsg.ofBuffer, wordBytes_wordOfBytes isType,
        wordBytes_wordOfBytes isSize, isData, List.append_assoc, List.take_append_drop]
    rw [← parts, same]
  · rintro rfl
    have read := ofBuffer_append (length_wordBytes msg.raw.type) (length_wordBytes msg.raw.size)
      msg.fills
    rwa [wordOfBytes_wordBytes, wordOfBytes_wordBytes] at read

theorem ofBuffer_readBuffer (chunk : List UInt8) :
    RawMsg.ofBuffer (readBuffer chunk) = RawMsg.ofBuffer (received 0 313 chunk) := by
  have firstBytes : (readBuffer chunk).take 313 = received 0 313 chunk := by
    rw [readBuffer, received, List.take_take, List.take_append, List.take_append,
      List.take_replicate, List.take_replicate]
    congr 2
    omega
  have onlyFirst : ∀ buffer : List UInt8,
      RawMsg.ofBuffer buffer = RawMsg.ofBuffer (buffer.take 313) := by
    intro buffer
    simp only [RawMsg.ofBuffer, List.take_take, List.drop_take]
    rfl
  rw [onlyFirst, firstBytes]

/-! ## Runs -/

theorem Pipe.run_chunks {events : List PipeEvent} {pipe final : Pipe}
    (runs : pipe.run events = some final) :
    ∃ chunks : List (List UInt8),
      final.processed = pipe.processed ++
        chunks.map (fun chunk => RawMsg.ofBuffer (received 0 313 chunk)) ∧
      chunks.flatten ++ final.queue =
        pipe.queue ++ ((written events).map fun msg => msg.raw.bytes).flatten ∧
      chunks.map List.length = readCounts events ∧ ∀ chunk ∈ chunks, chunk ≠ [] := by
  induction events generalizing pipe with
  | nil =>
    obtain rfl := Option.some.inj runs
    exact ⟨[], by simp, by simp [written], rfl, by simp⟩
  | cons event events ih =>
    obtain ⟨next, steps, continues⟩ := Option.bind_eq_some_iff.mp runs
    obtain ⟨chunks, processed, stream, counts, nonempty⟩ := ih continues
    cases event with
    | write msg =>
      obtain rfl := Option.some.inj steps
      exact ⟨chunks, processed, by simpa [written] using stream, counts, nonempty⟩
    | dispatch count =>
      simp only [Pipe.step] at steps
      split at steps
      · next possible =>
          obtain rfl := Option.some.inj steps
          have isCount : (pipe.queue.take count).length = count := by
            rw [List.length_take]
            omega
          refine ⟨pipe.queue.take count :: chunks, ?_, ?_, ?_, ?_⟩
          · rw [processed, ofBuffer_readBuffer, List.append_assoc]
            rfl
          · rw [List.flatten_cons, List.append_assoc, stream, ← List.append_assoc,
              List.take_append_drop]
            rfl
          · rw [List.map_cons, isCount, counts]
            rfl
          · rw [List.forall_mem_cons]
            refine ⟨fun isNil => ?_, nonempty⟩
            rw [isNil, List.length_nil] at isCount
            omega
      · cases steps

/-- When the pipe has been drained, the agent has processed exactly the messages that were
written, exactly if every read has returned the 313 bytes of one message. -/
theorem processed_eq_written_iff (events : List PipeEvent) (final : Pipe)
    (runs : Pipe.empty.run events = some final) (drained : final.queue = []) :
    final.processed = (written events).map SentMsg.raw ↔
      ∀ count ∈ readCounts events, count = 313 := by
  obtain ⟨chunks, processed, stream, counts, nonempty⟩ := Pipe.run_chunks runs
  rw [drained, List.append_nil, Pipe.empty, List.nil_append] at stream
  rw [Pipe.empty, List.nil_append] at processed
  have areFrames : ∀ frame ∈ (written events).map (fun msg => msg.raw.bytes),
      IsFrame 0 313 frame := by
    intro frame member
    obtain ⟨msg, -, rfl⟩ := List.mem_map.mp member
    exact msg.isFrame
  have sameFrames : final.processed = (written events).map SentMsg.raw ↔
      chunks.map (received 0 313) = (written events).map fun msg => msg.raw.bytes := by
    rw [processed]
    generalize written events = msgs
    clear * -
    induction chunks generalizing msgs with
    | nil => cases msgs <;> simp
    | cons chunk chunks ih =>
      cases msgs with
      | nil => simp
      | cons msg msgs =>
        have isFrame : (received 0 313 chunk : List UInt8).length = 313 := by
          rw [received, List.length_take, List.length_append, List.length_replicate]
          omega
        simp only [List.map_cons, List.cons.injEq]
        rw [ofBuffer_eq_iff isFrame, ih]
  rw [sameFrames, map_received_eq_iff areFrames nonempty stream, ← counts]
  simp

def faultAndRecovery : List Msg :=
  (reports .new [⟨⟨some "Connected", some "Primary", some "Diskless", some "UpToDate"⟩, true, true⟩,
    ⟨⟨some "Connected", some "Primary", some "UpToDate", some "UpToDate"⟩, true, true⟩]).flatten

def writesOf (msgs : List Msg) : List PipeEvent :=
  msgs.map fun msg => .write msg.sent

def pipeAfter (events : List PipeEvent) : Pipe :=
  (Pipe.empty.run events).getD .empty

/-- One read for each message passes both on. -/
theorem both_processed :
    let events := writesOf faultAndRecovery ++ [.dispatch 313, .dispatch 313]
    Pipe.empty.run events = some (pipeAfter events) ∧ (pipeAfter events).queue = [] ∧
      (pipeAfter events).processed = (written events).map SentMsg.raw := by
  intro events
  have runs : Pipe.empty.run events = some (pipeAfter events) := by decide +kernel
  have drained : (pipeAfter events).queue = [] := by decide +kernel
  refine ⟨runs, drained, ?_⟩
  apply (processed_eq_written_iff events (pipeAfter events) runs drained).mpr
  decide +kernel

/-- One read that returns both messages passes only the first one on, and a message read in
two parts is passed on as two messages. -/
theorem coalesced_or_split :
    (let events := writesOf faultAndRecovery ++ [.dispatch 626]
    Pipe.empty.run events = some (pipeAfter events) ∧ (pipeAfter events).queue = [] ∧
      (pipeAfter events).processed = ((written events).map SentMsg.raw).take 1 ∧
      (written events).length = 2) ∧
    (let events := writesOf (faultAndRecovery.take 1) ++ [.dispatch 8, .dispatch 305]
    Pipe.empty.run events = some (pipeAfter events) ∧ (pipeAfter events).queue = [] ∧
      (pipeAfter events).processed.length = 2 ∧ (written events).length = 1) := by
  refine ⟨⟨?_, ?_, ?_, ?_⟩, ⟨?_, ?_, ?_, ?_⟩⟩ <;> decide +kernel

end Apos.Devmon
