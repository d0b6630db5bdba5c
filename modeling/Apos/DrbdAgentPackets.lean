import Apos.DrbdAgentProbes
import Apos.EndAroundCarry

/-!
# Requests and advertisements of the probes

`ping` sends echo requests, each with a checksum, until two of them have been answered or the last
one has.  `parseadv` looks for the link-layer address in the options of a neighbour advertisement.
It prints an address of any length into a buffer of 256 bytes.
-/

namespace Apos.DrbdAgent

/-! ## The checksum of a request -/

/-- The 16-bit words of a buffer as the host reads them; an odd last byte is the low byte of a
word. -/
def hostWords : List UInt8 → List Nat
  | first :: second :: rest => (first.toNat + second.toNat * 256) :: hostWords rest
  | [last] => [last.toNat]
  | [] => []

/-- The loop of `checksum` and the addition of an odd last byte. -/
def addWords : List UInt8 → UInt32 → UInt32
  | first :: second :: rest, sum => addWords rest (sum + (first.toUInt32 + second.toUInt32 * 256))
  | [last], sum => sum + last.toUInt32
  | [], sum => sum

def foldHigh (sum : UInt32) : UInt32 :=
  (sum >>> 16) + (sum &&& 0xffff)

def checksum (buffer : List UInt8) : UInt16 :=
  if buffer = [] then 0
  else
    let sum := foldHigh (addWords buffer 0)
    let sum := sum + (sum >>> 16)
    (~~~sum).toUInt16

/-- A buffer with a field that begins behind `front`. -/
def withField (front rest : List UInt8) (field : UInt16) : List UInt8 :=
  front ++ field.toUInt8 :: (field >>> 8).toUInt8 :: rest

theorem hostWords_lt {buffer : List UInt8} : ∀ word ∈ hostWords buffer, word < 65536 := by
  induction buffer using hostWords.induct with
  | case1 first second rest ih =>
    have low := first.toNat_lt
    have high := second.toNat_lt
    rw [hostWords, List.forall_mem_cons]
    exact ⟨by omega, ih⟩
  | case2 last =>
    have low := last.toNat_lt
    simp only [hostWords, List.forall_mem_singleton]
    omega
  | case3 => simp [hostWords]

theorem sum_hostWords_append {front : List UInt8} (even : front.length % 2 = 0)
    (rest : List UInt8) :
    (hostWords (front ++ rest)).sum = (hostWords front).sum + (hostWords rest).sum := by
  induction front using hostWords.induct with
  | case1 first second front ih =>
    have shorter : front.length % 2 = 0 := by
      simp only [List.length_cons] at even
      omega
    simp only [List.cons_append, hostWords, List.sum_cons, ih shorter, Nat.add_assoc]
  | case2 last => simp at even
  | case3 => simp [hostWords]

theorem sum_hostWords_le (buffer : List UInt8) :
    (hostWords buffer).sum ≤ 65535 * ((buffer.length + 1) / 2) := by
  induction buffer using hostWords.induct with
  | case1 first second rest ih =>
    have low := first.toNat_lt
    have high := second.toNat_lt
    simp only [hostWords, List.sum_cons, List.length_cons]
    omega
  | case2 last =>
    have low := last.toNat_lt
    simp only [hostWords, List.sum_singleton, List.length_singleton]
    omega
  | case3 => simp [hostWords]

theorem toNat_addWords (buffer : List UInt8) (sum : UInt32)
    (fits : sum.toNat + (hostWords buffer).sum < 2 ^ 32) :
    (addWords buffer sum).toNat = sum.toNat + (hostWords buffer).sum := by
  induction buffer, sum using addWords.induct with
  | case1 first second rest sum ih =>
    have low := first.toNat_lt
    have high := second.toNat_lt
    simp only [hostWords, List.sum_cons] at fits ⊢
    have added : (sum + (first.toUInt32 + second.toUInt32 * 256)).toNat =
        sum.toNat + (first.toNat + second.toNat * 256) := by
      simp only [UInt32.toNat_add, UInt32.toNat_mul, UInt8.toNat_toUInt32, UInt32.toNat_ofNat]
      omega
    rw [addWords, ih (by omega), added, Nat.add_assoc]
  | case2 last sum =>
    simp only [hostWords, List.sum_singleton] at fits ⊢
    rw [addWords, UInt32.toNat_add, UInt8.toNat_toUInt32, Nat.mod_eq_of_lt fits]
  | case3 sum => simp [addWords, hostWords]

theorem toNat_foldHigh (sum : UInt32) :
    (foldHigh sum).toNat = sum.toNat / 65536 + sum.toNat % 65536 := by
  have bound := sum.toNat_lt
  have mask : sum.toNat &&& 65535 = sum.toNat % 65536 := Nat.and_two_pow_sub_one_eq_mod _ 16
  simp only [foldHigh, UInt32.toNat_add, UInt32.toNat_shiftRight, UInt32.toNat_and,
    UInt32.toNat_ofNat, Nat.shiftRight_eq_div_pow, Nat.reduceMod, Nat.reducePow, mask] at bound ⊢
  omega

/-- Two foldings of a 32-bit sum and the complement complete it to a multiple of 65535. -/
theorem completed_sum {sum folded : Nat} (fits : sum < 2 ^ 32)
    (isFolded : folded = sum / 65536 + sum % 65536) :
    0 < sum + (2 ^ 32 - 1 - (folded + folded / 65536)) % 65536 ∧
      (sum + (2 ^ 32 - 1 - (folded + folded / 65536)) % 65536) % 65535 = 0 := by
  have parts := Nat.div_add_mod sum 65536
  by_cases carry : folded < 65536
  · have low : (2 ^ 32 - 1 - (folded + folded / 65536)) % 65536 = 65535 - folded := by omega
    rw [low]
    omega
  · have low : (2 ^ 32 - 1 - (folded + folded / 65536)) % 65536 = 131070 - folded := by omega
    rw [low]
    omega

theorem toNat_checksum {buffer : List UInt8} (nonempty : buffer ≠ [])
    (fits : (hostWords buffer).sum < 2 ^ 32) :
    0 < (hostWords buffer).sum + (checksum buffer).toNat ∧
      ((hostWords buffer).sum + (checksum buffer).toNat) % 65535 = 0 := by
  have added := toNat_addWords buffer 0 (by simpa using fits)
  have folded := toNat_foldHigh (addWords buffer 0)
  rw [UInt32.toNat_zero, Nat.zero_add] at added
  rw [added] at folded
  have value : (checksum buffer).toNat = (2 ^ 32 - 1 - ((foldHigh (addWords buffer 0)).toNat +
      (foldHigh (addWords buffer 0)).toNat / 65536)) % 65536 := by
    simp only [checksum, if_neg nonempty, UInt32.toNat_toUInt16, UInt32.toNat_not,
      UInt32.toNat_add, UInt32.toNat_shiftRight, UInt32.toNat_ofNat, Nat.shiftRight_eq_div_pow,
      Nat.reduceMod, Nat.reducePow, UInt32.size]
    omega
  rw [value]
  exact completed_sum fits folded

theorem sum_withField {front : List UInt8} (even : front.length % 2 = 0) (rest : List UInt8)
    (field : UInt16) :
    (hostWords (withField front rest field)).sum =
      (hostWords front).sum + field.toNat + (hostWords rest).sum := by
  have bound := field.toNat_lt
  have word : field.toUInt8.toNat + (field >>> 8).toUInt8.toNat * 256 = field.toNat := by
    simp only [UInt16.toNat_toUInt8, UInt16.toNat_shiftRight, UInt16.toNat_ofNat,
      Nat.shiftRight_eq_div_pow, Nat.reduceMod, Nat.reducePow] at bound ⊢
    omega
  rw [withField, sum_hostWords_append even, hostWords, List.sum_cons, word, Nat.add_assoc]

/-- With the checksum in its field, which was zero before, the words of a buffer of at most 2^17
bytes have the one's-complement sum 0xFFFF, and no addition has gone beyond 32 bits. -/
theorem checksum_completes {front rest : List UInt8} (even : front.length % 2 = 0)
    (short : (withField front rest 0).length ≤ 2 ^ 17) :
    onesSum (hostWords (withField front rest (checksum (withField front rest 0)))) = 0xFFFF ∧
      ∀ part, part <+: withField front rest 0 →
        (addWords part 0).toNat = (hostWords part).sum := by
  have fits {part : List UInt8} (isPart : part <+: withField front rest 0) :
      (hostWords part).sum < 2 ^ 32 := by
    have shorter := isPart.length_le
    have bound := sum_hostWords_le part
    omega
  have nonempty : withField front rest 0 ≠ [] := by simp [withField]
  obtain ⟨positive, divides⟩ := toNat_checksum nonempty (fits List.prefix_rfl)
  constructor
  · apply onesSum_eq hostWords_lt
    all_goals
      rw [sum_withField even, UInt16.toNat_zero] at positive divides
      rw [sum_withField even]
      omega
  · intro part isPart
    rw [toNat_addWords part 0 (by simpa using fits isPart), UInt32.toNat_zero, Nat.zero_add]

theorem checksum_completes_echo :
    onesSum (hostWords (withField [8, 0] [112, 17, 1]
        (checksum (withField [8, 0] [112, 17, 1] 0)))) = 0xFFFF ∧
      ∀ part, part <+: withField [8, 0] [112, 17, 1] 0 →
        (addWords part 0).toNat = (hostWords part).sum :=
  checksum_completes (by decide) (by decide)

/-- A change of one word shows in the checksum, unless it is one between 0 and 0xFFFF. -/
theorem checksum_detects_word {front rest : List UInt8} {word changed : UInt16}
    (even : front.length % 2 = 0) (short : (withField front rest word).length ≤ 2 ^ 17)
    (differ : word.toNat % 65535 ≠ changed.toNat % 65535) :
    checksum (withField front rest word) ≠ checksum (withField front rest changed) := by
  have completed (field : UInt16) : ((hostWords front).sum + field.toNat + (hostWords rest).sum +
      (checksum (withField front rest field)).toNat) % 65535 = 0 := by
    have bound := sum_hostWords_le (withField front rest field)
    have length : (withField front rest field).length = (withField front rest word).length := by
      simp [withField]
    rw [← sum_withField even]
    exact (toNat_checksum (by simp [withField]) (by omega)).2
  intro same
  have sent := completed word
  have received := completed changed
  rw [← same] at received
  omega

theorem checksum_detects_word_echo :
    checksum (withField [8, 0] [112, 17, 1] 5) ≠ checksum (withField [8, 0] [112, 17, 1] 261) :=
  checksum_detects_word (by decide) (by decide) (by decide)

/-! ## Attempts -/

/-- The loop of `ping` on the results of the attempts still to come: whether the address is
reachable, and the number of attempts made. -/
def pingLoop (xtimes : UInt32) : List Int → UInt32 → Nat → Bool × Nat
  | [], _, _ => (false, 0)
  | result :: results, counter, pingSuccessCount =>
    let goOn (pingSuccessCount : Nat) :=
      let later := pingLoop xtimes results (counter + 1) pingSuccessCount
      (later.1, later.2 + 1)
    if counter < xtimes then
      if result = 0 then
        if 1 < pingSuccessCount + 1 ∨ pingSuccessCount + 1 = 1 ∧ counter = xtimes - 1 then (true, 1)
        else goOn (pingSuccessCount + 1)
      else goOn pingSuccessCount
    else (false, 0)

def ping (init : Int) (xtimes : UInt32) (results : List Int) : Bool × Nat :=
  if init = 0 then pingLoop xtimes results 0 0 else (false, 0)

/-- The outcome of a loop that begins with some successes: what it returns follows from all of the
attempts, and no attempt is made once two have succeeded. -/
def Decides (successes : Nat) (results : List Int) (outcome : Bool × Nat) : Prop :=
  (outcome.1 = true ↔ 2 ≤ successes + results.count 0 ∨ results.getLast? = some 0) ∧
    ∀ made < outcome.2, made < results.length ∧ successes + (results.take made).count 0 < 2

theorem Decides.cons {successes before : Nat} {result : Int} {results : List Int}
    {outcome : Bool × Nat} (later : Decides successes results outcome) (undecided : before < 2)
    (count : successes = before + [result].count 0) (ends : results = [] → result ≠ 0) :
    Decides before (result :: results) (outcome.1, outcome.2 + 1) := by
  have total (list : List Int) : before + (result :: list).count 0 = successes + list.count 0 := by
    rw [List.count_cons, count, List.count_singleton]
    omega
  constructor
  · rw [later.1, total]
    cases results with
    | nil => simp [ends rfl]
    | cons second results => rw [List.getLast?_cons_cons]
  · intro made fewer
    cases made with
    | zero => simpa using undecided
    | succ made =>
      rw [List.take_succ_cons, total, List.length_cons]
      obtain ⟨within, few⟩ := later.2 made (Nat.lt_of_succ_lt_succ fewer)
      exact ⟨Nat.succ_lt_succ within, few⟩

theorem pingLoop_decides {xtimes counter : UInt32} {results : List Int} {successes : Nat}
    (all : counter.toNat + results.length = xtimes.toNat) (undecided : successes < 2) :
    Decides successes results (pingLoop xtimes results counter successes) := by
  induction results generalizing counter successes with
  | nil => simpa [Decides, pingLoop] using undecided
  | cons result results ih =>
    have bound := xtimes.toNat_lt
    rw [List.length_cons] at all
    have within : counter < xtimes := UInt32.lt_iff_toNat_lt.mpr (by omega)
    have next : (counter + 1).toNat + results.length = xtimes.toNat := by
      rw [UInt32.toNat_add, UInt32.toNat_one]
      omega
    have positive : 1 ≤ xtimes := UInt32.le_iff_toNat_le.mpr (by rw [UInt32.toNat_one]; omega)
    have isLast : counter = xtimes - 1 ↔ results = [] := by
      rw [← UInt32.toNat_inj, UInt32.toNat_sub_of_le _ _ positive, UInt32.toNat_one,
        ← List.length_eq_zero_iff]
      omega
    simp only [pingLoop, if_pos within, isLast]
    by_cases succeeds : result = 0
    · subst succeeds
      rw [if_pos rfl]
      split
      · next decided =>
          refine ⟨iff_of_true rfl ?_, fun made few => ?_⟩
          · rcases decided with second | ⟨-, rfl⟩
            · left
              rw [List.count_cons_self]
              omega
            · exact .inr rfl
          · obtain rfl : made = 0 := Nat.lt_one_iff.mp few
            simpa using undecided
      · next goesOn =>
          rw [not_or, not_and] at goesOn
          apply (ih next (Nat.lt_of_not_le fun two => goesOn.1 two)).cons undecided (by simp)
          intro none
          exact absurd none (goesOn.2 (by omega))
    · rw [if_neg succeeds]
      exact (ih next undecided).cons undecided (by simp [succeeds]) fun _ => succeeds

/-- After a successful `init` the address is reachable if and only if two attempts succeed or the
last one does, and no attempt is made after the one that decides. -/
theorem ping_decides {xtimes : UInt32} {results : List Int}
    (all : results.length = xtimes.toNat) : Decides 0 results (ping 0 xtimes results) := by
  rw [ping, if_pos rfl]
  exact pingLoop_decides (by simpa using all) (by decide)

theorem ping_decides_second : Decides 0 [-1, 0, 0, 0] (ping 0 4 [-1, 0, 0, 0]) :=
  ping_decides (by decide)

/-! ## Neighbour advertisements -/

/-- `ND_OPT_TARGET_LINKADDR` -/
def targetLinkaddr : UInt8 := 2

def hexDigits (byte : UInt8) : List Char :=
  [byte.toNat / 16, byte.toNat % 16].map fun digit => "0123456789ABCDEF".toList.getD digit '0'

/-- `printmacaddress` with the text that is in `buff` already.  There is none if it writes behind
the 256 bytes of `buff`: each call of `sprintf` and the last zero reach three bytes further. -/
def printmacaddress (buff : List Char) : List UInt8 → Option (List Char)
  | [] => some buff
  | [last] => if buff.length + 3 < 256 then some (buff ++ hexDigits last) else none
  | byte :: more :: rest =>
    if buff.length + 3 < 256 then printmacaddress (buff ++ hexDigits byte ++ [':']) (more :: rest)
    else none

/-- The loop of `parseadv` over the options.  There is no result if `printmacaddress` writes
outside of its buffer. -/
def parseOptions (options : List UInt8) : Option Int :=
  if _short : options.length < 8 then some (-1)
  else
    let optlen := byteAt options 1 * 8
    if _invalid : optlen = 0 then some (-1)
    else if options.length < optlen then some (-1)
    else if options.getD 0 0 ≠ targetLinkaddr then parseOptions (options.drop optlen)
    else (printmacaddress [] ((options.take optlen).drop 2)).map fun _ => 0
termination_by options.length
decreasing_by
  rw [List.length_drop]
  omega

/-- A neighbour advertisement for the address that is probed: `ND_NEIGHBOR_ADVERT`, code 0 and the
target. -/
def isAdvert (target buf : List UInt8) : Bool :=
  24 ≤ buf.length && byteAt buf 0 = 136 && byteAt buf 1 = 0 && (buf.drop 8).take 16 = target

def parseadv (target buf : List UInt8) : Option Int :=
  if isAdvert target buf then parseOptions (buf.drop 24) else some (-1)

/-- Options of other types, and then one with a target link-layer address and this length byte. -/
inductive LeadsTo (units : UInt8) : List UInt8 → Prop where
  | here (address rest : List UInt8) (size : address.length + 2 = units.toNat * 8) :
      LeadsTo units (targetLinkaddr :: units :: address ++ rest)
  | skip {kind count : UInt8} {body rest : List UInt8} (other : kind ≠ targetLinkaddr)
      (size : body.length + 2 = count.toNat * 8) (later : LeadsTo units rest) :
      LeadsTo units (kind :: count :: body ++ rest)

theorem printmacaddress_isSome_iff (buff : List Char) {address : List UInt8}
    (nonempty : address ≠ []) :
    (printmacaddress buff address).isSome = true ↔ buff.length + 3 * address.length < 256 := by
  induction address generalizing buff with
  | nil => exact absurd rfl nonempty
  | cons byte rest ih =>
    cases rest with
    | nil => by_cases room : buff.length + 3 < 256 <;> simp [printmacaddress, room]
    | cons more rest =>
      simp only [printmacaddress, List.length_cons] at ih ⊢
      split
      · rw [ih _ (List.cons_ne_nil _ _)]
        simp only [List.length_append, hexDigits, List.length_map, List.length_cons,
          List.length_nil]
        omega
      · simp only [Option.isSome_none, Bool.false_eq_true, false_iff]
        omega

theorem parseOptions_cons {kind count : UInt8} {body : List UInt8}
    (size : body.length + 2 = count.toNat * 8) (rest : List UInt8) :
    parseOptions (kind :: count :: body ++ rest) =
      if kind ≠ targetLinkaddr then parseOptions rest
      else (printmacaddress [] body).map fun _ => 0 := by
  have optlen : byteAt (kind :: count :: body ++ rest) 1 * 8 = (kind :: count :: body).length := by
    simpa [byteAt] using size.symm
  have long : 8 ≤ (kind :: count :: body).length := by
    simp only [List.length_cons]
    omega
  rw [parseOptions]
  simp only [optlen, List.length_append, List.drop_left, List.take_left]
  rw [dif_neg (by omega), dif_neg (by omega), if_neg (by omega)]
  rfl

theorem LeadsTo.parseOptions_eq {units : UInt8} {options : List UInt8}
    (leads : LeadsTo units options) :
    parseOptions options = if units.toNat ≤ 10 then some 0 else none := by
  induction leads with
  | here address rest size =>
    have nonempty : address ≠ [] := by
      rintro rfl
      simp only [List.length_nil] at size
      omega
    have printed := printmacaddress_isSome_iff [] nonempty
    rw [parseOptions_cons size, if_neg (by simp)]
    split
    · next short =>
        obtain ⟨buff, isPrinted⟩ := Option.isSome_iff_exists.mp (printed.mpr (by simp; omega))
        rw [isPrinted, Option.map_some]
    · next long =>
        rw [Option.map_eq_none_iff, ← Option.not_isSome_iff_eq_none, printed]
        simp only [List.length_nil]
        omega
  | skip other size _ ih => rw [parseOptions_cons size, if_pos other, ih]

theorem parseOptions_cases (options : List UInt8) :
    parseOptions options = some (-1) ∨ ∃ kind count body rest,
      body.length + 2 = UInt8.toNat count * 8 ∧ options = kind :: count :: body ++ rest := by
  match options with
  | [] | [_] =>
    left
    simp [parseOptions]
  | kind :: count :: tail =>
    by_cases fits : 0 < count.toNat ∧ count.toNat * 8 ≤ tail.length + 2
    · right
      refine ⟨kind, count, tail.take (count.toNat * 8 - 2), tail.drop (count.toNat * 8 - 2), ?_, ?_⟩
      · rw [List.length_take]
        omega
      · rw [List.cons_append, List.cons_append, List.take_append_drop]
    · left
      have optlen : byteAt (kind :: count :: tail) 1 = count.toNat := rfl
      rw [parseOptions]
      simp only [optlen, List.length_cons]
      split
      · rfl
      split
      · rfl
      rw [if_pos (by omega)]

theorem parseOptions_of_not_leadsTo {options : List UInt8}
    (missing : ∀ units, ¬LeadsTo units options) : parseOptions options = some (-1) := by
  induction length : options.length using Nat.strongRecOn generalizing options with
  | ind length ih =>
    obtain ends | ⟨kind, count, body, rest, size, rfl⟩ := parseOptions_cases options
    · exact ends
    have other : kind ≠ targetLinkaddr := by
      rintro rfl
      exact missing count (.here body rest size)
    rw [parseOptions_cons size, if_pos other]
    apply ih rest.length _ _ rfl
    · simp only [List.length_append, List.length_cons] at length
      omega
    · exact fun units later => missing units (.skip other size later)

/-- `parseadv` returns 0 on the advertisements that lead to a link-layer address, and -1 on
everything else. -/
structure ParsesAdvert (target buf : List UInt8) : Prop where
  found : parseadv target buf = some 0 ↔
    isAdvert target buf = true ∧ ∃ units, LeadsTo units (buf.drop 24)
  refused : ¬(isAdvert target buf = true ∧ ∃ units, LeadsTo units (buf.drop 24)) →
    parseadv target buf = some (-1)

/-- It does so if and only if an address to which the options of an advertisement lead has a length
byte of at most 10. -/
theorem parsesAdvert_iff_short (target buf : List UInt8) :
    ParsesAdvert target buf ↔
      ∀ units, isAdvert target buf = true → LeadsTo units (buf.drop 24) → units.toNat ≤ 10 := by
  constructor
  · rintro ⟨found, -⟩ units advert leads
    have isFound := found.mpr ⟨advert, units, leads⟩
    rw [parseadv, if_pos advert, leads.parseOptions_eq] at isFound
    by_contra long
    rw [if_neg long] at isFound
    cases isFound
  · intro short
    have refused (missing : ¬(isAdvert target buf = true ∧ ∃ units, LeadsTo units (buf.drop 24))) :
        parseadv target buf = some (-1) := by
      rw [parseadv]
      split
      · next advert =>
          exact parseOptions_of_not_leadsTo fun units leads => missing ⟨advert, units, leads⟩
      · rfl
    refine ⟨⟨fun isFound => ?_, ?_⟩, refused⟩
    · by_contra missing
      rw [refused missing] at isFound
      cases isFound
    · rintro ⟨advert, units, leads⟩
      rw [parseadv, if_pos advert, leads.parseOptions_eq, if_pos (short units advert leads)]

def sampleTarget : List UInt8 :=
  [255, 2, 0, 0, 0, 0, 0, 0, 0, 0, 0, 0, 0, 0, 0, 1]

/-- Its advertisement with a link-layer address of 254 bytes. -/
def sampleAdvert : List UInt8 :=
  [136, 0, 0, 0, 96, 0, 0, 0] ++ sampleTarget ++ targetLinkaddr :: 32 :: List.replicate 254 0

/-- An address of 254 bytes is printed with 762 bytes into the buffer of 256. -/
theorem parseadv_overflows :
    isAdvert sampleTarget sampleAdvert = true ∧ LeadsTo 32 (sampleAdvert.drop 24) ∧
      parseadv sampleTarget sampleAdvert = none ∧ ¬ParsesAdvert sampleTarget sampleAdvert := by
  have advert : isAdvert sampleTarget sampleAdvert = true := by decide +kernel
  have leads : LeadsTo 32 (sampleAdvert.drop 24) := by
    rw [← List.append_nil (sampleAdvert.drop 24)]
    exact .here (List.replicate 254 0) [] (by rw [List.length_replicate]; rfl)
  have faults : parseadv sampleTarget sampleAdvert = none := by
    rw [parseadv, if_pos advert, leads.parseOptions_eq, if_neg (by decide)]
  refine ⟨advert, leads, faults, fun parses => ?_⟩
  have isFound := parses.found.mpr ⟨advert, 32, leads⟩
  rw [faults] at isFound
  cases isFound

end Apos.DrbdAgent
