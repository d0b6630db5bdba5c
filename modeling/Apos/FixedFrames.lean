import Mathlib.Data.List.Basic

/-!
# Frames of fixed size in a stream

A sender writes frames of one fixed size into a stream.  A receiver reads the
stream in chunks, and from every chunk it takes one frame: the beginning of the
chunk, filled up with zeros if the chunk is too short.  If no frame begins with a
zero, the receiver gets exactly the frames that were sent only by reading every one
of them as a chunk of its own.
-/

namespace Apos

variable {α : Type} (zero : α) (size : Nat)

def received (chunk : List α) : List α :=
  (chunk ++ List.replicate size zero).take size

structure IsFrame (frame : List α) : Prop where
  length_eq : frame.length = size
  leads : ∃ first, frame[0]? = some first ∧ first ≠ zero

variable {zero size}

variable {chunk : List α}

theorem received_of_length_eq (whole : chunk.length = size) : received zero size chunk = chunk := by
  rw [received, List.take_append_of_le_length (Nat.le_of_eq whole.symm),
    List.take_of_length_le (Nat.le_of_eq whole)]

theorem received_getElem? {index : Nat} (inside : index < chunk.length) (within : index < size) :
    (received zero size chunk)[index]? = chunk[index]? := by
  rw [received, List.getElem?_take_of_lt within, List.getElem?_append_left inside]

theorem received_getElem?_zero {index : Nat} (behind : chunk.length ≤ index)
    (within : index < size) : (received zero size chunk)[index]? = some zero := by
  rw [received, List.getElem?_take_of_lt within, List.getElem?_append_right behind,
    List.getElem?_replicate_of_lt]
  omega

/-- A frame cannot be received from a chunk that begins later and ends no later than the
frame itself: the frame would repeat itself up to the zeros at its end. -/
theorem received_ne_of_ahead {frame rest : List α} {ahead : Nat} (positive : 0 < ahead)
    (isFrame : IsFrame zero size frame) (short : ahead + chunk.length ≤ size)
    (isPart : chunk = ((frame ++ rest).drop ahead).take chunk.length) :
    received zero size chunk ≠ frame := by
  intro same
  have zeros : ∀ distance index, size - index = distance → index < size →
      frame[index]? = some zero := by
    intro distance
    induction distance using Nat.strongRecOn with
    | _ distance ih =>
      intro index isDistance within
      rw [← same]
      rcases Nat.lt_or_ge index chunk.length with inside | behind
      · have shifted : chunk[index]? = frame[ahead + index]? := by
          rw [isPart, List.getElem?_take_of_lt inside, List.getElem?_drop,
            List.getElem?_append_left (by rw [isFrame.length_eq]; omega)]
        rw [received_getElem? inside within, shifted]
        exact ih (size - (ahead + index)) (by omega) (ahead + index) rfl (by omega)
      · exact received_getElem?_zero behind within
  obtain ⟨first, isFirst, notZero⟩ := isFrame.leads
  have leading : frame[0]? = some zero := zeros size 0 rfl (by omega)
  rw [isFirst] at leading
  exact notZero (Option.some.inj leading)

variable {chunks frames : List (List α)}

theorem map_received_ne_of_ahead {ahead : Nat} (positive : 0 < ahead) (pending : frames ≠ [])
    (areFrames : ∀ frame ∈ frames, IsFrame zero size frame)
    (nonempty : ∀ chunk ∈ chunks, chunk ≠ [])
    (stream : chunks.flatten = frames.flatten.drop ahead) :
    chunks.map (received zero size) ≠ frames := by
  induction chunks generalizing frames ahead with
  | nil => exact fun same => pending same.symm
  | cons chunk chunks ih =>
    intro same
    cases frames with
    | nil => exact pending rfl
    | cons frame frames =>
      obtain ⟨first, others⟩ := List.cons.inj same
      have isFrame := areFrames frame (List.mem_cons_self ..)
      have isPart : chunk = ((frame ++ frames.flatten).drop ahead).take chunk.length := by
        rw [← List.flatten_cons, ← stream, List.flatten_cons,
          List.take_append_of_le_length (Nat.le_refl _), List.take_length]
      rcases Nat.lt_or_ge size (ahead + chunk.length) with beyond | short
      · have remaining : chunks.flatten =
            frames.flatten.drop (ahead + chunk.length - size) := by
          calc
            chunks.flatten = ((chunk :: chunks).flatten).drop chunk.length := by
              rw [List.flatten_cons, List.drop_append_of_le_length (Nat.le_refl _),
                List.drop_length, List.nil_append]
            _ = (frame ++ frames.flatten).drop (ahead + chunk.length) := by
              rw [stream, List.flatten_cons, List.drop_drop]
            _ = frames.flatten.drop (ahead + chunk.length - size) := by
              rw [List.drop_append, isFrame.length_eq,
                List.drop_of_length_le (by rw [isFrame.length_eq]; omega),
                List.nil_append]
        have more : frames ≠ [] := by
          intro none
          have lengths := congrArg List.length isPart
          have isSize := isFrame.length_eq
          have someRead : 0 < chunk.length :=
            List.length_pos_iff.mpr (nonempty chunk (List.mem_cons_self ..))
          simp only [none, List.flatten_nil, List.append_nil, List.length_take,
            List.length_drop] at lengths
          omega
        refine ih (by omega) more ?_ ?_ remaining others
        · exact fun other member => areFrames other (List.mem_cons_of_mem _ member)
        · exact fun other member => nonempty other (List.mem_cons_of_mem _ member)
      · exact received_ne_of_ahead positive isFrame short isPart first

theorem IsFrame.ne_nil {frame : List α} (isFrame : IsFrame zero size frame) : frame ≠ [] := by
  rintro rfl
  obtain ⟨first, isFirst, _⟩ := isFrame.leads
  simp at isFirst

theorem map_received_ne_of_short {frame : List α} (isFrame : IsFrame zero size frame)
    (areFrames : ∀ other ∈ frames, IsFrame zero size other)
    (nonempty : ∀ other ∈ chunks, other ≠ []) (short : chunk.length < size)
    (stream : chunk ++ chunks.flatten = frame ++ frames.flatten)
    (first : received zero size chunk = frame) : chunks.map (received zero size) ≠ frames := by
  intro others
  have isNext : chunks.flatten[0]? = some zero := by
    have shifted := congrArg (fun list => list[chunk.length]?) stream
    simp only [List.getElem?_append_right (Nat.le_refl _), Nat.sub_self] at shifted
    rw [shifted, List.getElem?_append_left (by rw [isFrame.length_eq]; exact short), ← first]
    exact received_getElem?_zero (Nat.le_refl _) short
  cases chunks with
  | nil => simp at isNext
  | cons next chunks =>
    cases frames with
    | nil => simp at others
    | cons following frames =>
      obtain ⟨isFollowing, _⟩ := List.cons.inj others
      have someRead : 0 < next.length :=
        List.length_pos_iff.mpr (nonempty next (List.mem_cons_self ..))
      obtain ⟨leader, isLeader, notZero⟩ :=
        (areFrames following (List.mem_cons_self ..)).leads
      have leading : following[0]? = some zero := by
        rw [← isFollowing, received_getElem? someRead (by omega)]
        simpa [List.getElem?_append_left someRead] using isNext
      rw [isLeader] at leading
      exact notZero (Option.some.inj leading)

theorem map_received_eq_iff (areFrames : ∀ frame ∈ frames, IsFrame zero size frame)
    (nonempty : ∀ chunk ∈ chunks, chunk ≠ []) (stream : chunks.flatten = frames.flatten) :
    chunks.map (received zero size) = frames ↔ ∀ chunk ∈ chunks, chunk.length = size := by
  induction chunks generalizing frames with
  | nil =>
    have noFrames : frames = [] := by
      cases frames with
      | nil => rfl
      | cons frame frames =>
        have isEmpty := (List.append_eq_nil_iff.mp stream.symm).1
        exact ((areFrames frame (List.mem_cons_self ..)).ne_nil isEmpty).elim
    simp [noFrames]
  | cons chunk chunks ih =>
    have someRead : 0 < chunk.length :=
      List.length_pos_iff.mpr (nonempty chunk (List.mem_cons_self ..))
    cases frames with
    | nil =>
      have isEmpty := (List.append_eq_nil_iff.mp stream).1
      simp [isEmpty] at someRead
    | cons frame frames =>
      have isFrame := areFrames frame (List.mem_cons_self ..)
      have isSize := isFrame.length_eq
      have areOthers : ∀ other ∈ frames, IsFrame zero size other :=
        fun other member => areFrames other (List.mem_cons_of_mem _ member)
      have someOthers : ∀ other ∈ chunks, other ≠ [] :=
        fun other member => nonempty other (List.mem_cons_of_mem _ member)
      rw [List.flatten_cons, List.flatten_cons] at stream
      rw [List.map_cons, List.cons.injEq, List.forall_mem_cons]
      rcases Nat.lt_trichotomy chunk.length size with short | whole | long
      · refine iff_of_false ?_ fun every => Nat.ne_of_lt short every.1
        rintro ⟨first, others⟩
        exact map_received_ne_of_short isFrame areOthers someOthers short stream first
          others
      · obtain ⟨same, rest⟩ := List.append_inj stream (whole.trans isSize.symm)
        rw [received_of_length_eq whole, ih areOthers someOthers rest]
        exact ⟨fun every => ⟨whole, every.2⟩, fun every => ⟨same, every.2⟩⟩
      · refine iff_of_false ?_ fun every => Nat.ne_of_gt long every.1
        rintro ⟨-, others⟩
        have rest : chunks.flatten = frames.flatten.drop (chunk.length - size) := by
          have dropped := congrArg (List.drop chunk.length) stream
          rwa [List.drop_append_of_le_length (Nat.le_refl _), List.drop_length,
            List.nil_append, List.drop_append, isSize,
            List.drop_of_length_le (by omega), List.nil_append] at dropped
        have more : frames ≠ [] := by
          rintro rfl
          have lengths := congrArg List.length stream
          simp only [List.length_append, List.flatten_nil, List.length_nil] at lengths
          omega
        exact map_received_ne_of_ahead (by omega) more areOthers someOthers rest others

end Apos
