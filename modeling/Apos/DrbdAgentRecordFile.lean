import Apos.ByteLayout
import Apos.DrbdAgentRoleMgr
import Mathlib.Data.List.Induction

/-!
# The bytes of the persistent record

`HA_AGENT_PWROff` keeps the persistent record in a file of 20 bytes that it maps
into memory: 16 bytes for the connection state and four for the reboot count.  A
write is a sequence of stores to the mapping, and a node can stop after any of
them.  When the file is opened again, `init` writes a zero byte at its last offset,
which is the most significant byte of the reboot count.
-/

namespace Apos.DrbdAgent

/-- A record that fits into `HA_AGENT_PersistantInfoT`. -/
structure StorableInfo extends PersistantInfo where
  fits : cstate.toList.length < 16
  isText : ∀ char ∈ cstate.toList, TextChar char

inductive RecordStore where
  | clear
  | cstateByte (offset : Nat) (byte : UInt8)
  | rebootCount (count : UInt32)
  deriving DecidableEq, Repr

def RecordStore.apply (file : List UInt8) : RecordStore → List UInt8
  | .clear => file.map fun _ => 0
  | .cstateByte offset byte => file.set offset byte
  | .rebootCount count => file.take 16 ++ wordBytes count

/-- `strcpy` copies the text and its terminator one byte after the other. -/
def copyStores (bytes : List UInt8) : List RecordStore :=
  bytes.mapIdx .cstateByte

def recordStores (info : PersistantInfo) : List RecordStore :=
  .clear :: copyStores (info.cstate.toList.map byteOfChar ++ [0]) ++
    [.rebootCount info.rebootCount]

def applyStores (stores : List RecordStore) (file : List UInt8) : List UInt8 :=
  stores.foldl RecordStore.apply file

/-- The part of `PWROff::init` that changes an existing file: `lseek` to the last
offset of the record and `write` of one zero byte. -/
def initFile (file : List UInt8) : List UInt8 :=
  file.set 19 0

def getPersisBytes (file : List UInt8) : PersistantInfo where
  cstate := cString (file.take 16)
  rebootCount := wordOfBytes (file.drop 16)

/-- A text in the field of the connection state, and the bytes of the reboot count. -/
def recordBytes (text : List Char) (count : List UInt8) : List UInt8 :=
  text.map byteOfChar ++ List.replicate (16 - text.length) 0 ++ count

def fileOf (info : PersistantInfo) : List UInt8 :=
  recordBytes info.cstate.toList (wordBytes info.rebootCount)

/-- What a restarted agent reads when the node stopped after `point` stores of a write. -/
def readBack (old new : PersistantInfo) (point : Nat) : PersistantInfo :=
  getPersisBytes (initFile (applyStores ((recordStores new).take point) (fileOf old)))

/-! ## The stores one by one -/

theorem applyStores_append (first second : List RecordStore) (file : List UInt8) :
    applyStores (first ++ second) file = applyStores second (applyStores first file) :=
  List.foldl_append

variable (bytes : List UInt8)

theorem length_copyStores : (copyStores bytes).length = bytes.length :=
  List.length_mapIdx

theorem applyStores_copyStores (size : Nat) (small : bytes.length ≤ size) :
    applyStores (copyStores bytes) (List.replicate size 0) =
      bytes ++ List.replicate (size - bytes.length) 0 := by
  induction bytes using List.reverseRecOn with
  | nil => simp [copyStores, applyStores]
  | append_singleton front last ih =>
    rw [List.length_append, List.length_singleton] at small
    have room : size - front.length = (size - (front.length + 1)) + 1 := by omega
    have copied : copyStores (front ++ [last]) =
        copyStores front ++ [.cstateByte front.length last] := by
      simp [copyStores, List.mapIdx_append]
    rw [copied, applyStores_append, ih (by omega), room, List.replicate_succ]
    simp [applyStores, RecordStore.apply, List.set_append_right]

theorem take_copyStores (count : Nat) :
    (copyStores bytes).take count = copyStores (bytes.take count) := by
  apply List.ext_getElem?
  intro index
  simp only [copyStores, List.getElem?_take, List.getElem?_mapIdx]
  split <;> rfl

theorem length_fileOf (info : StorableInfo) : (fileOf info.toPersistantInfo).length = 20 := by
  have fits := info.fits
  simp only [fileOf, recordBytes, List.length_append, List.length_map, List.length_replicate,
    length_wordBytes]
  omega

variable (old new : StorableInfo)

theorem applyStores_copying {copied : Nat} (bound : copied ≤ new.cstate.toList.length + 1) :
    applyStores ((recordStores new.toPersistantInfo).take (copied + 1))
        (fileOf old.toPersistantInfo) =
      recordBytes (new.cstate.toList.take copied) (List.replicate 4 0) := by
  have fits := new.fits
  have cleared : RecordStore.apply (fileOf old.toPersistantInfo) .clear =
      List.replicate 20 0 := by
    simp [RecordStore.apply, List.map_const', length_fileOf]
  have copies : (copyStores (new.cstate.toList.map byteOfChar ++ [0]) ++
      [RecordStore.rebootCount new.rebootCount]).take copied =
        copyStores ((new.cstate.toList.map byteOfChar ++ [0]).take copied) := by
    rw [List.take_append_of_le_length, take_copyStores]
    simpa [length_copyStores] using bound
  rw [recordStores, List.cons_append, List.take_succ_cons, copies, applyStores,
    List.foldl_cons, cleared]
  change applyStores _ _ = _
  rw [applyStores_copyStores _ _ (by simp; omega), recordBytes]
  rcases Nat.lt_or_ge new.cstate.toList.length copied with beyond | within
  · have all : copied = new.cstate.toList.length + 1 := by omega
    have zeros : 20 - (new.cstate.toList.length + 1) + 1 =
        16 - new.cstate.toList.length + 4 := by omega
    subst all
    rw [List.take_of_length_le (by simp), List.take_of_length_le (by simp), List.append_assoc,
      List.append_assoc, List.replicate_append_replicate, ← zeros, List.replicate_succ]
    simp
  · have zeros : 20 - copied = 16 - copied + 4 := by omega
    rw [List.take_append_of_le_length (by simpa using within), List.append_assoc,
      List.replicate_append_replicate]
    simp [List.map_take, Nat.min_eq_left within, zeros]

theorem applyStores_all {point : Nat} (all : new.cstate.toList.length + 3 ≤ point) :
    applyStores ((recordStores new.toPersistantInfo).take point)
        (fileOf old.toPersistantInfo) = fileOf new.toPersistantInfo := by
  have fits := new.fits
  have every : (recordStores new.toPersistantInfo).take point =
      (recordStores new.toPersistantInfo).take (new.cstate.toList.length + 1 + 1) ++
        [.rebootCount new.rebootCount] := by
    have covers : (recordStores new.toPersistantInfo).length ≤ point := by
      simp only [recordStores, length_copyStores, List.length_append, List.length_cons,
        List.length_map, List.length_nil]
      omega
    rw [List.take_of_length_le covers, recordStores, List.cons_append, List.take_succ_cons,
      List.take_append_of_le_length (by simp [length_copyStores]),
      List.take_of_length_le (by simp [length_copyStores]), List.cons_append]
  rw [every, applyStores_append, applyStores_copying old new (Nat.le_refl _),
    List.take_of_length_le (Nat.le_succ _)]
  simp only [applyStores, List.foldl_cons, List.foldl_nil, RecordStore.apply, fileOf]
  have front : (List.map byteOfChar new.cstate.toList ++
      List.replicate (16 - new.cstate.toList.length) 0).length = 16 := by
    simp only [List.length_append, List.length_map, List.length_replicate]
    omega
  rw [recordBytes, List.take_append_of_le_length (by omega),
    List.take_of_length_le (by omega), recordBytes]

/-! ## Opening the file again -/

theorem getPersisBytes_initFile {text : List Char} (fits : text.length ≤ 16)
    (isText : ∀ char ∈ text, TextChar char) (count : List UInt8) :
    getPersisBytes (initFile (recordBytes text count)) =
      ⟨String.ofList text, wordOfBytes (count.set 3 0)⟩ := by
  have front : (text.map byteOfChar ++ List.replicate (16 - text.length) 0).length = 16 := by
    simp only [List.length_append, List.length_map, List.length_replicate]
    omega
  have opened : initFile (recordBytes text count) =
      (text.map byteOfChar ++ List.replicate (16 - text.length) 0) ++ count.set 3 0 := by
    rw [initFile, recordBytes, List.set_append_right _ _ (by omega), front]
  rw [opened, getPersisBytes, List.take_append_of_le_length (by omega),
    List.take_of_length_le (by omega), List.drop_append_of_le_length (by omega),
    List.drop_of_length_le (by omega), List.nil_append, cString_text isText]

theorem readBack_before (new : PersistantInfo) :
    readBack old.toPersistantInfo new 0 =
      ⟨old.cstate, UInt32.ofNat (old.rebootCount.toNat % 16777216)⟩ := by
  have opened :=
    getPersisBytes_initFile (Nat.le_of_lt old.fits) old.isText (wordBytes old.rebootCount)
  rwa [wordOfBytes_set_last, String.ofList_toList] at opened

theorem readBack_during {copied : Nat} (bound : copied ≤ new.cstate.toList.length + 1) :
    readBack old.toPersistantInfo new.toPersistantInfo (copied + 1) =
      ⟨String.ofList (new.cstate.toList.take copied), 0⟩ := by
  have fits := new.fits
  rw [readBack, applyStores_copying old new bound, getPersisBytes_initFile]
  · rfl
  · rw [List.length_take]
    omega
  · exact fun char member => new.isText char (List.mem_of_mem_take member)

theorem readBack_after {point : Nat} (all : new.cstate.toList.length + 3 ≤ point) :
    readBack old.toPersistantInfo new.toPersistantInfo point =
      ⟨new.cstate, UInt32.ofNat (new.rebootCount.toNat % 16777216)⟩ := by
  rw [readBack, applyStores_all old new all]
  exact readBack_before new new.toPersistantInfo

/-! ## When a record survives -/

/-- The record read back after a stop is the old or the new one, a synchronisation that
was recorded is not replaced by a state that was never written, and opening the file
alone changes nothing. -/
def CrashSafe (old new : PersistantInfo) (point : Nat) : Prop :=
  (readBack old new point = old ∨ readBack old new point = new) ∧
  (inconsistentState old.cstate = true →
    inconsistentState (readBack old new point).cstate = false →
      (readBack old new point).cstate = old.cstate ∨
        (readBack old new point).cstate = new.cstate) ∧
  getPersisBytes (initFile (fileOf old)) = old

instance (old new : PersistantInfo) (point : Nat) : Decidable (CrashSafe old new point) :=
  inferInstanceAs (Decidable (_ ∧ _ ∧ _))

/-- The old reboot count fits into three bytes, and the node stops before the first
store; or while the record is being built up, when what is there already is the old
record with a cleared count or all of a new record with a cleared count; or after the
last store of a record whose reboot count fits into three bytes as well. -/
def SurvivesStop (old new : PersistantInfo) (point : Nat) : Prop :=
  old.rebootCount.toNat < 16777216 ∧
  (point = 0 ∨
    (0 < point ∧ point ≤ new.cstate.toList.length + 2 ∧
      ((old.cstate = String.ofList (new.cstate.toList.take (point - 1)) ∧
          old.rebootCount = 0) ∨
        (new.cstate.toList.length < point ∧ new.rebootCount = 0))) ∨
    (new.cstate.toList.length + 3 ≤ point ∧
      (new.rebootCount.toNat < 16777216 ∨
        (old.cstate = new.cstate ∧
          old.rebootCount.toNat = new.rebootCount.toNat % 16777216))))

theorem mk_eq_iff (cstate : String) (rebootCount : UInt32) (info : PersistantInfo) :
    ⟨cstate, rebootCount⟩ = info ↔
      cstate = info.cstate ∧ rebootCount = info.rebootCount := by
  cases info
  exact PersistantInfo.mk.injEq .. ▸ Iff.rfl

theorem lowBytes_eq_iff (count other : UInt32) :
    UInt32.ofNat (count.toNat % 16777216) = other ↔
      count.toNat % 16777216 = other.toNat := by
  rw [← UInt32.toNat_inj, UInt32.toNat_ofNat']
  have small : count.toNat % 16777216 % 2 ^ 32 = count.toNat % 16777216 := by omega
  rw [small]

theorem initFile_keeps_iff (info : StorableInfo) :
    getPersisBytes (initFile (fileOf info.toPersistantInfo)) = info.toPersistantInfo ↔
      info.rebootCount.toNat < 16777216 := by
  have opened := readBack_before info info.toPersistantInfo
  change getPersisBytes (initFile (fileOf info.toPersistantInfo)) = _ at opened
  rw [opened, mk_eq_iff, lowBytes_eq_iff]
  constructor
  · rintro ⟨-, count⟩
    omega
  · intro small
    exact ⟨rfl, by omega⟩

theorem readBack_kept_iff (point : Nat) (opens : old.rebootCount.toNat < 16777216) :
    (readBack old.toPersistantInfo new.toPersistantInfo point = old.toPersistantInfo ∨
        readBack old.toPersistantInfo new.toPersistantInfo point = new.toPersistantInfo) ↔
      SurvivesStop old.toPersistantInfo new.toPersistantInfo point := by
  rcases Nat.eq_zero_or_pos point with rfl | positive
  · have kept : readBack old.toPersistantInfo new.toPersistantInfo 0 = old.toPersistantInfo :=
      (initFile_keeps_iff old).mpr opens
    simp [kept, SurvivesStop, opens]
  obtain ⟨copied, rfl⟩ : ∃ copied, point = copied + 1 := ⟨point - 1, by omega⟩
  rcases Nat.lt_or_ge (new.cstate.toList.length + 2) (copied + 1) with finished | building
  · have late : ¬copied + 1 ≤ new.cstate.toList.length + 2 := by omega
    rw [readBack_after old new (by omega)]
    simp only [mk_eq_iff, lowBytes_eq_iff, true_and, SurvivesStop, opens, late,
      false_and, and_false, false_or, Nat.succ_ne_zero]
    constructor
    · rintro (⟨same, count⟩ | count)
      · exact ⟨by omega, .inr ⟨same.symm, count.symm⟩⟩
      · exact ⟨by omega, .inl (by omega)⟩
    · rintro ⟨-, small | ⟨same, count⟩⟩
      · exact .inr (by omega)
      · exact .inl ⟨same.symm, count.symm⟩
  · have early : ¬new.cstate.toList.length + 3 ≤ copied + 1 := by omega
    have whole : String.ofList (new.cstate.toList.take copied) = new.cstate ↔
        new.cstate.toList.length < copied + 1 := by
      rw [← String.toList_inj, String.toList_ofList]
      constructor
      · intro same
        have lengths := congrArg List.length same
        rw [List.length_take] at lengths
        omega
      · intro short
        exact List.take_of_length_le (by omega)
    rw [readBack_during old new (by omega)]
    simp only [mk_eq_iff, whole, SurvivesStop, opens, building, early, true_and, false_and,
      or_false, Nat.succ_ne_zero, false_or, Nat.succ_pos, Nat.add_sub_cancel]
    rw [eq_comm, @eq_comm _ 0, @eq_comm _ 0]

/-- A stop leaves the old or the new record exactly in the cases of `SurvivesStop`. -/
theorem record_survives_iff (old new : StorableInfo) (point : Nat) :
    CrashSafe old.toPersistantInfo new.toPersistantInfo point ↔
      SurvivesStop old.toPersistantInfo new.toPersistantInfo point := by
  constructor
  · rintro ⟨kept, -, opened⟩
    exact (readBack_kept_iff old new point ((initFile_keeps_iff old).mp opened)).mp kept
  · intro survives
    have kept := (readBack_kept_iff old new point survives.1).mpr survives
    refine ⟨kept, fun _ _ => ?_, (initFile_keeps_iff old).mpr survives.1⟩
    rcases kept with isOld | isNew
    · exact .inl (congrArg PersistantInfo.cstate isOld)
    · exact .inr (congrArg PersistantInfo.cstate isNew)

theorem textChar_of_all {text : String}
    (all : (text.toList.all fun char => decide (TextChar char)) = true) :
    ∀ char ∈ text.toList, TextChar char :=
  fun char member => of_decide_eq_true (List.all_eq_true.mp all char member)

/-- A synchronisation target that is rebooted for the second time, and a count that
needs its fourth byte. -/
def rebootedOnce : StorableInfo :=
  ⟨⟨"SyncTarget", 1⟩, by decide, textChar_of_all (by decide)⟩

def rebootedTwice : StorableInfo :=
  ⟨⟨"SyncTarget", 2⟩, by decide, textChar_of_all (by decide)⟩

def largeCount : StorableInfo :=
  ⟨⟨"Connected", 16777216⟩, by decide, textChar_of_all (by decide)⟩

/-- A stop right after the record has been cleared forgets the synchronisation, a stop
after four copied bytes leaves a state that was never written, and opening the file
clears a large reboot count. -/
theorem record_lost_by_stop :
    ¬CrashSafe rebootedOnce.toPersistantInfo rebootedTwice.toPersistantInfo 1 ∧
    readBack rebootedOnce.toPersistantInfo rebootedTwice.toPersistantInfo 1 = ⟨"", 0⟩ ∧
    readBack rebootedOnce.toPersistantInfo rebootedTwice.toPersistantInfo 5 = ⟨"Sync", 0⟩ ∧
    getPersisBytes (initFile (fileOf largeCount.toPersistantInfo)) = ⟨"Connected", 0⟩ := by
  decide +kernel

end Apos.DrbdAgent
