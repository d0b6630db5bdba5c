import Mathlib.Data.List.Basic
import Mathlib.Data.List.TakeDrop
import Apos.PaddedTexts

/-!
# Text files read line by line

A file is its content and a position.  Reading takes symbols from the position on, writing
replaces the symbols there, and the position moves along.  The lines of a content keep the
symbol that ends them, so the content is the concatenation of its lines and only the last
line may lack its end.  A reader with a buffer of limited size that asks for one line after
the other receives exactly those lines when each of them fits.  Within a line, fields are
cut off one by one, each at the first separator.
-/

namespace Apos

variable {α : Type}

/-! ## Files -/

structure TextFile (α : Type) where
  content : List α
  position : Nat
  deriving DecidableEq

namespace TextFile

def rest (file : TextFile α) : List α :=
  file.content.drop file.position

def rewind (file : TextFile α) : TextFile α :=
  { file with position := 0 }

def advance (file : TextFile α) (count : Nat) : TextFile α :=
  { file with position := file.position + count }

/-- Cut the file to nothing.  The position stays. -/
def truncate (file : TextFile α) : TextFile α :=
  { file with content := [] }

/-- Write at the position.  A gap between the end of the file and the position is filled
with `hole`. -/
def write (hole : α) (file : TextFile α) (text : List α) : TextFile α where
  content := file.content.take file.position ++
    List.replicate (file.position - file.content.length) hole ++ text ++
    file.content.drop (file.position + text.length)
  position := file.position + text.length

theorem rest_advance (file : TextFile α) (count : Nat) :
    (file.advance count).rest = file.rest.drop count := by
  rw [rest, rest, List.drop_drop]
  rfl

/-- The file in which `text` has been written over the beginning of `old`. -/
def overlay (old text : List α) : TextFile α where
  content := text ++ old.drop text.length
  position := text.length

@[simp]
theorem write_overlay (hole : α) (old before text : List α) :
    (overlay old before).write hole text = overlay old (before ++ text) := by
  simp only [overlay, write, List.length_append, TextFile.mk.injEq, and_true]
  rw [List.take_left, Nat.sub_eq_zero_of_le (Nat.le_add_right _ _), List.drop_append,
    List.drop_eq_nil_of_le (Nat.le_add_right _ _), Nat.add_sub_cancel_left, List.drop_drop]
  simp

theorem length_overlay (old text : List α) :
    (overlay old text).content.length = max old.length text.length := by
  simp only [overlay, List.length_append, List.length_drop]
  omega

theorem overlay_content_eq_iff (old text : List α) :
    (overlay old text).content = text ↔ old.length ≤ text.length := by
  simp [overlay, List.drop_eq_nil_iff]

end TextFile

/-! ## Lines -/

section Lines

variable {stop : α}

abbrev Ended (stop : α) (line : List α) : Prop :=
  line.getLast? = some stop

/-- A line holds at least one symbol, and the end of a line only in last place. -/
structure IsLine (stop : α) (line : List α) : Prop where
  nonempty : line ≠ []
  inside : stop ∉ line.dropLast

/-- Consecutive lines: only the last one may lack its end. -/
def Lined (stop : α) : List (List α) → Prop
  | [] => True
  | line :: lines => IsLine stop line ∧ (lines ≠ [] → Ended stop line) ∧ Lined stop lines

theorem isLine_snoc {body : List α} (absent : stop ∉ body) : IsLine stop (body ++ [stop]) :=
  ⟨by simp, by simpa using absent⟩

theorem ended_snoc (body : List α) : Ended stop (body ++ [stop]) := by
  simp [Ended]

variable {line : List α}

theorem IsLine.ended_or_not_mem (isLine : IsLine stop line) :
    (∃ body, line = body ++ [stop] ∧ stop ∉ body) ∨ (¬Ended stop line ∧ stop ∉ line) := by
  have whole := List.dropLast_append_getLast isLine.nonempty
  by_cases same : line.getLast isLine.nonempty = stop
  · rw [same] at whole
    exact .inl ⟨line.dropLast, whole.symm, isLine.inside⟩
  · refine .inr ⟨?_, ?_⟩
    · rw [Ended, List.getLast?_eq_some_getLast isLine.nonempty]
      simpa using same
    · rw [← whole, List.mem_append, List.mem_singleton, not_or]
      exact ⟨isLine.inside, fun equal => same equal.symm⟩

theorem IsLine.drop (isLine : IsLine stop line) {count : Nat} (shorter : count < line.length) :
    IsLine stop (line.drop count) where
  nonempty := by simpa using shorter
  inside := by
    intro member
    rw [List.dropLast_drop_eq_drop_dropLast] at member
    exact isLine.inside (List.mem_of_mem_drop member)

theorem Lined.sublist {lines fewer : List (List α)} (lined : Lined stop lines)
    (sublist : fewer.Sublist lines) : Lined stop fewer := by
  induction sublist with
  | slnil => trivial
  | cons line _ ih => exact ih lined.2.2
  | cons_cons line sublist ih =>
    refine ⟨lined.1, fun more => lined.2.1 fun none => ?_, ih lined.2.2⟩
    subst none
    exact more (List.sublist_nil.mp sublist)

variable {lines : List (List α)}

theorem Lined.concat {last : List α} (lined : Lined stop lines)
    (ended : ∀ line ∈ lines, Ended stop line) (isLine : IsLine stop last) :
    Lined stop (lines ++ [last]) := by
  induction lines with
  | nil => exact ⟨isLine, fun many => absurd rfl many, trivial⟩
  | cons line lines ih =>
    refine ⟨lined.1, fun _ => ended line List.mem_cons_self, ?_⟩
    exact ih lined.2.2 fun other member => ended other (List.mem_cons_of_mem _ member)

theorem Lined.ended (lined : Lined stop (line :: lines)) (more : lines.flatten ≠ []) :
    Ended stop line := by
  apply lined.2.1
  rintro rfl
  exact more rfl

theorem Lined.isLine (lined : Lined stop lines) (member : line ∈ lines) : IsLine stop line := by
  induction lines with
  | nil => cases member
  | cons first lines ih =>
    rcases List.mem_cons.mp member with rfl | later
    · exact lined.1
    · exact ih lined.2.2 later

variable [DecidableEq α]

/-! ## Reading lines -/

/-- At most `limit` symbols, up to the first `stop` and with it. -/
def takeLine (stop : α) : Nat → List α → List α
  | 0, _ => []
  | _ + 1, [] => []
  | limit + 1, symbol :: rest =>
    if symbol = stop then [symbol] else symbol :: takeLine stop limit rest

variable {limit : Nat}

theorem takeLine_of_not_mem {body : List α} (absent : stop ∉ body) (short : body.length ≤ limit) :
    takeLine stop limit body = body := by
  induction body generalizing limit with
  | nil => cases limit <;> rfl
  | cons symbol body ih =>
    obtain ⟨limit, rfl⟩ := Nat.exists_eq_add_of_le' (Nat.lt_of_lt_of_le (Nat.succ_pos _) short)
    rw [List.mem_cons, not_or] at absent
    rw [takeLine, if_neg fun same => absent.1 same.symm,
      ih absent.2 (Nat.le_of_succ_le_succ short)]

theorem takeLine_ended {body rest : List α} (absent : stop ∉ body) (short : body.length < limit) :
    takeLine stop limit (body ++ stop :: rest) = body ++ [stop] := by
  induction body generalizing limit with
  | nil =>
    obtain ⟨limit, rfl⟩ := Nat.exists_eq_add_of_le' short
    simp [takeLine]
  | cons symbol body ih =>
    obtain ⟨limit, rfl⟩ := Nat.exists_eq_add_of_le' (Nat.lt_of_le_of_lt (Nat.zero_le _) short)
    rw [List.mem_cons, not_or] at absent
    rw [List.cons_append, takeLine, if_neg fun same => absent.1 same.symm,
      ih absent.2 (Nat.lt_of_succ_lt_succ short), List.cons_append]

theorem takeLine_line {rest : List α} (isLine : IsLine stop line)
    (ended : rest ≠ [] → Ended stop line) (short : line.length ≤ limit) :
    takeLine stop limit (line ++ rest) = line := by
  obtain ⟨body, rfl, absent⟩ | ⟨notEnded, absent⟩ := isLine.ended_or_not_mem
  · rw [List.append_assoc, List.singleton_append]
    apply takeLine_ended absent
    simpa [Nat.succ_le_iff] using short
  · have atEnd : rest = [] := by
      by_contra more
      exact notEnded (ended more)
    rw [atEnd, List.append_nil]
    exact takeLine_of_not_mem absent short

theorem stop_not_mem_dropLast_takeLine (limit : Nat) (text : List α) :
    stop ∉ (takeLine stop limit text).dropLast := by
  induction text generalizing limit with
  | nil => cases limit <;> simp [takeLine]
  | cons symbol rest ih =>
    cases limit with
    | zero => simp [takeLine]
    | succ limit =>
      rw [takeLine]
      split
      · simp
      · next different =>
          have later := ih limit
          cases tail : takeLine stop limit rest with
          | nil => simp
          | cons next more =>
            rw [tail] at later
            rw [List.dropLast_cons_of_ne_nil (List.cons_ne_nil _ _), List.mem_cons, not_or]
            exact ⟨fun same => different same.symm, later⟩

theorem length_takeLine_le (limit : Nat) (text : List α) :
    (takeLine stop limit text).length ≤ limit := by
  induction text generalizing limit with
  | nil => cases limit <;> simp [takeLine]
  | cons symbol rest ih =>
    cases limit with
    | zero => simp [takeLine]
    | succ limit =>
      rw [takeLine]
      split
      · simp
      · exact Nat.succ_le_succ (ih limit)

theorem takeLine_prefix (limit : Nat) (text : List α) : takeLine stop limit text <+: text := by
  induction text generalizing limit with
  | nil => cases limit <;> exact List.prefix_rfl
  | cons symbol rest ih =>
    cases limit with
    | zero => exact List.nil_prefix
    | succ limit =>
      rw [takeLine]
      split
      · exact List.prefix_append [symbol] rest
      · exact List.prefix_cons_inj symbol |>.mpr (ih limit)

theorem takeLine_long {rest : List α} (inside : stop ∉ line.take limit)
    (long : limit ≤ line.length) : takeLine stop limit (line ++ rest) = line.take limit := by
  induction limit generalizing line with
  | zero => rw [takeLine, List.take_zero]
  | succ limit ih =>
    cases line with
    | nil => cases long
    | cons symbol line =>
      rw [List.take_succ_cons, List.mem_cons, not_or] at inside
      rw [List.cons_append, takeLine, if_neg fun same => inside.1 same.symm,
        ih inside.2 (Nat.le_of_succ_le_succ long), List.take_succ_cons]

def readings (stop : α) (limit : Nat) : Nat → List α → List (List α)
  | 0, _ => []
  | rounds + 1, text =>
    let line := takeLine stop limit text
    if line = [] then [] else line :: readings stop limit rounds (text.drop line.length)

/-- The pieces of a text that a reader with a buffer for `limit` symbols receives. -/
def bufferedLines (stop : α) (limit : Nat) (text : List α) : List (List α) :=
  readings stop limit text.length text

theorem exists_takeLine_of_mem_bufferedLines {text piece : List α}
    (member : piece ∈ bufferedLines stop limit text) :
    ∃ unread, piece = takeLine stop limit unread := by
  unfold bufferedLines at member
  generalize text.length = rounds at member
  induction rounds generalizing text with
  | zero => cases member
  | succ rounds ih =>
    simp only [readings] at member
    split at member
    · cases member
    · rcases List.mem_cons.mp member with rfl | later
      · exact ⟨text, rfl⟩
      · exact ih later

theorem readings_of_le {rounds : Nat} {text : List α} (enough : text.length ≤ rounds) :
    readings stop limit rounds text = bufferedLines stop limit text := by
  unfold bufferedLines
  induction rounds using Nat.strongRecOn generalizing text with
  | ind rounds ih =>
    cases rounds with
    | zero => rw [Nat.le_zero.mp enough]
    | succ rounds =>
      cases text with
      | nil => cases limit <;> rfl
      | cons symbol text =>
        simp only [List.length_cons, readings]
        split
        · rfl
        · next some =>
            have shorter : ((symbol :: text).drop
                (takeLine stop limit (symbol :: text)).length).length ≤ text.length := by
              have positive := List.length_pos_iff.mpr some
              rw [List.length_drop, List.length_cons]
              omega
            have fewer : text.length ≤ rounds := Nat.le_of_succ_le_succ enough
            rw [ih rounds (Nat.lt_succ_self _) (Nat.le_trans shorter fewer)]
            rw [ih text.length (Nat.lt_succ_of_le fewer) shorter]

theorem bufferedLines_of_eq_nil {text : List α} (ends : takeLine stop limit text = []) :
    bufferedLines stop limit text = [] := by
  unfold bufferedLines
  cases text with
  | nil => rfl
  | cons symbol text => simp [readings, ends]

theorem bufferedLines_of_ne_nil {text : List α} (more : takeLine stop limit text ≠ []) :
    bufferedLines stop limit text = takeLine stop limit text ::
      bufferedLines stop limit (text.drop (takeLine stop limit text).length) := by
  rw [← readings_of_le (Nat.le_succ _), readings]
  simp only [if_neg more]
  rw [readings_of_le (by simp)]

theorem takeLine_eq_nil_iff (room : 0 < limit) {text : List α} :
    takeLine stop limit text = [] ↔ text = [] := by
  obtain ⟨limit, rfl⟩ := Nat.exists_eq_add_of_le' room
  cases text with
  | nil => exact iff_of_true rfl rfl
  | cons symbol rest =>
    apply iff_of_false _ (List.cons_ne_nil _ _)
    rw [takeLine]
    split <;> exact List.cons_ne_nil _ _

theorem flatten_bufferedLines (room : 0 < limit) (text : List α) :
    (bufferedLines stop limit text).flatten = text := by
  induction length : text.length using Nat.strongRecOn generalizing text with
  | ind count ih =>
    by_cases ends : takeLine stop limit text = []
    · rw [bufferedLines_of_eq_nil ends, (takeLine_eq_nil_iff room).mp ends]
      rfl
    · have part : takeLine stop limit text <+: text := takeLine_prefix limit text
      have fewer : (text.drop (takeLine stop limit text).length).length < count := by
        have positive := List.length_pos_iff.mpr ends
        have short := part.length_le
        rw [List.length_drop]
        omega
      rw [bufferedLines_of_ne_nil ends, List.flatten_cons, ih _ fewer _ rfl]
      nth_rewrite 1 [List.prefix_iff_eq_take.mp part]
      exact List.take_append_drop _ _

theorem bufferedLines_line (isLine : IsLine stop line) (short : line.length ≤ limit) :
    bufferedLines stop limit line = [line] := by
  have whole : takeLine stop limit (line ++ []) = line :=
    takeLine_line isLine (fun more => absurd rfl more) short
  rw [List.append_nil] at whole
  have more : takeLine stop limit line ≠ [] := by
    rw [whole]
    exact isLine.nonempty
  rw [bufferedLines_of_ne_nil more, whole, List.drop_length]
  rfl

theorem bufferedLines_append (room : 0 < limit) {rest : List α} (isLine : IsLine stop line)
    (ended : rest ≠ [] → Ended stop line) :
    bufferedLines stop limit (line ++ rest) =
      bufferedLines stop limit line ++ bufferedLines stop limit rest := by
  induction length : line.length using Nat.strongRecOn generalizing line with
  | ind count ih =>
    by_cases short : line.length ≤ limit
    · have whole := takeLine_line isLine ended short
      have more : takeLine stop limit (line ++ rest) ≠ [] := by
        rw [whole]
        exact isLine.nonempty
      rw [bufferedLines_of_ne_nil more, whole, List.drop_left, bufferedLines_line isLine short]
      rfl
    · have long := Nat.not_le.mp short
      have inside : stop ∉ line.take limit := by
        intro member
        apply isLine.inside
        rw [List.dropLast_eq_take]
        exact (List.take_subset_take_left line (Nat.le_sub_one_of_lt long)) member
      have piece : ∀ rest, takeLine stop limit (line ++ rest) = line.take limit :=
        fun rest => takeLine_long inside (Nat.le_of_lt long)
      have pieceLength : (line.take limit).length = limit := by
        rw [List.length_take, Nat.min_eq_left (Nat.le_of_lt long)]
      have nonempty : line.take limit ≠ [] := by
        rw [← List.length_pos_iff, pieceLength]
        exact room
      have split : ∀ rest, bufferedLines stop limit (line ++ rest) =
          line.take limit :: bufferedLines stop limit (line.drop limit ++ rest) := by
        intro rest
        have more : takeLine stop limit (line ++ rest) ≠ [] := by rwa [piece]
        rw [bufferedLines_of_ne_nil more, piece, pieceLength,
          List.drop_append_of_le_length (Nat.le_of_lt long)]
      have endedRest : rest ≠ [] → Ended stop (line.drop limit) := by
        intro more
        rw [Ended, List.getLast?_drop, if_neg (Nat.not_le.mpr long)]
        exact ended more
      have fewer : (line.drop limit).length < count := by
        rw [List.length_drop]
        omega
      have alone := split []
      rw [List.append_nil, List.append_nil] at alone
      rw [split rest, alone, ih _ fewer (isLine.drop long) endedRest rfl]
      rfl

/-! ## The lines of a text -/

def rawLines (stop : α) : List α → List (List α)
  | [] => []
  | symbol :: rest =>
    if symbol = stop then [symbol] :: rawLines stop rest
    else
      match rawLines stop rest with
      | [] => [[symbol]]
      | line :: lines => (symbol :: line) :: lines

variable (text : List α)

@[simp]
theorem flatten_rawLines : (rawLines stop text).flatten = text := by
  induction text with
  | nil => rfl
  | cons symbol rest ih =>
    rw [rawLines]
    split
    · simp [ih]
    · split
      · next empty =>
          rw [empty] at ih
          simp [← ih]
      · next line lines split =>
          rw [split] at ih
          simp [← ih]

theorem lined_rawLines : Lined stop (rawLines stop text) := by
  induction text with
  | nil => trivial
  | cons symbol rest ih =>
    rw [rawLines]
    split
    · next same =>
        subst same
        exact ⟨isLine_snoc (List.not_mem_nil), fun _ => ended_snoc [], ih⟩
    · next different =>
        split
        · exact ⟨⟨by simp, by simp⟩, fun many => absurd rfl many, trivial⟩
        · next line lines split =>
            rw [split] at ih
            obtain ⟨isLine, ended, lined⟩ := ih
            refine ⟨⟨by simp, ?_⟩, fun many => ?_, lined⟩
            · rw [List.dropLast_cons_of_ne_nil isLine.nonempty, List.mem_cons, not_or]
              exact ⟨fun same => different same.symm, isLine.inside⟩
            · rw [Ended, List.getLast?_cons, ended many]
              rfl

theorem rawLines_append {rest : List α} (isLine : IsLine stop line)
    (ended : rest ≠ [] → Ended stop line) :
    rawLines stop (line ++ rest) = line :: rawLines stop rest := by
  induction line with
  | nil => exact absurd rfl isLine.nonempty
  | cons symbol line ih =>
    cases line with
    | nil =>
      rw [List.cons_append, List.nil_append, rawLines]
      split
      · rfl
      · next different =>
          have atEnd : rest = [] := by
            by_contra more
            exact different (by simpa [Ended] using ended more)
          rw [atEnd]
          rfl
    | cons next line =>
      have inside := isLine.inside
      rw [List.dropLast_cons_of_ne_nil (List.cons_ne_nil _ _), List.mem_cons, not_or] at inside
      have different : symbol ≠ stop := fun same => inside.1 same.symm
      have endedTail : rest ≠ [] → Ended stop (next :: line) := by
        intro more
        simpa [Ended] using ended more
      rw [List.cons_append, rawLines, if_neg different,
        ih ⟨List.cons_ne_nil _ _, inside.2⟩ endedTail]

theorem rawLines_flatten (lined : Lined stop lines) : rawLines stop lines.flatten = lines := by
  induction lines with
  | nil => rfl
  | cons line lines ih =>
    rw [List.flatten_cons, rawLines_append lined.1 lined.ended, ih lined.2.2]

theorem bufferedLines_flatten (room : 0 < limit) (lined : Lined stop lines) :
    bufferedLines stop limit lines.flatten = lines.flatMap (bufferedLines stop limit) := by
  induction lines with
  | nil => rfl
  | cons line lines ih =>
    rw [List.flatten_cons, bufferedLines_append room lined.1 lined.ended, ih lined.2.2,
      List.flatMap_cons]

theorem bufferedLines_eq_flatMap (room : 0 < limit) (text : List α) :
    bufferedLines stop limit text = (rawLines stop text).flatMap (bufferedLines stop limit) := by
  have whole : bufferedLines stop limit (rawLines stop text).flatten =
      (rawLines stop text).flatMap (bufferedLines stop limit) :=
    bufferedLines_flatten room (lined_rawLines text)
  rwa [flatten_rawLines] at whole

theorem bufferedLines_eq_rawLines (room : 0 < limit) {text : List α}
    (short : ∀ line ∈ rawLines stop text, line.length ≤ limit) :
    bufferedLines stop limit text = rawLines stop text := by
  have single : ∀ line ∈ rawLines stop text, bufferedLines stop limit line = [line] :=
    fun line member => bufferedLines_line ((lined_rawLines text).isLine member) (short line member)
  rw [bufferedLines_eq_flatMap room, List.flatMap_congr single, List.flatMap_singleton']

theorem bufferedLines_cut (room : 0 < limit) (isLine : IsLine stop line) :
    bufferedLines stop limit line =
      line.take limit :: bufferedLines stop limit (line.drop limit) := by
  have first : takeLine stop limit line = line.take limit := by
    by_cases short : line.length ≤ limit
    · have whole : takeLine stop limit (line ++ []) = line :=
        takeLine_line isLine (fun more => absurd rfl more) short
      rw [List.append_nil] at whole
      rw [whole, List.take_of_length_le short]
    · have long := Nat.not_le.mp short
      have inside : stop ∉ line.take limit := by
        intro member
        apply isLine.inside
        rw [List.dropLast_eq_take]
        exact (List.take_subset_take_left line (Nat.le_sub_one_of_lt long)) member
      have piece : takeLine stop limit (line ++ []) = line.take limit :=
        takeLine_long inside (Nat.le_of_lt long)
      rwa [List.append_nil] at piece
  have more : takeLine stop limit line ≠ [] := by
    rw [ne_eq, takeLine_eq_nil_iff room]
    exact isLine.nonempty
  have rest : line.drop (line.take limit).length = line.drop limit := by
    rw [List.length_take]
    by_cases short : line.length ≤ limit
    · rw [Nat.min_eq_right short, List.drop_length, List.drop_of_length_le short]
    · rw [Nat.min_eq_left (Nat.le_of_lt (Nat.not_le.mp short))]
  rw [bufferedLines_of_ne_nil more, first, rest]

/-! ## Closing lines -/

def close (stop : α) (line : List α) : List α :=
  if Ended stop line then line else line ++ [stop]

def lastEnded (stop : α) (lines : List (List α)) : Bool :=
  lines.getLast?.all fun line => decide (Ended stop line)

@[simp]
theorem lastEnded_concat (lines : List (List α)) (line : List α) :
    lastEnded stop (lines ++ [line]) = decide (Ended stop line) := by
  simp [lastEnded]

theorem ended_close (line : List α) : Ended stop (close stop line) := by
  unfold close
  split
  · assumption
  · exact ended_snoc line

@[simp]
theorem close_close (line : List α) : close stop (close stop line) = close stop line :=
  if_pos (ended_close line)

theorem IsLine.close {line : List α} (isLine : IsLine stop line) :
    IsLine stop (close stop line) := by
  obtain ⟨body, rfl, absent⟩ | ⟨notEnded, absent⟩ := isLine.ended_or_not_mem
  · rwa [Apos.close, if_pos (ended_snoc body)]
  · rw [Apos.close, if_neg notEnded]
    exact isLine_snoc absent

theorem Lined.close {lines : List (List α)} (lined : Lined stop lines) :
    Lined stop (lines.map (close stop)) := by
  induction lines with
  | nil => trivial
  | cons line lines ih => exact ⟨lined.1.close, fun _ => ended_close line, ih lined.2.2⟩

theorem Lined.flatten_close (lined : Lined stop lines) :
    (lines.map (Apos.close stop)).flatten =
      lines.flatten ++ if lastEnded stop lines then [] else [stop] := by
  induction lines with
  | nil => rfl
  | cons line lines ih =>
    cases lines with
    | nil =>
      simp only [List.map_cons, List.map_nil, List.flatten_cons, List.flatten_nil,
        List.append_nil, Apos.close, lastEnded, List.getLast?_singleton, Option.all_some,
        decide_eq_true_eq]
      split <;> simp
    | cons next lines =>
      have ended : Ended stop line := lined.2.1 (List.cons_ne_nil _ _)
      rw [List.map_cons, List.flatten_cons, ih lined.2.2, Apos.close, if_pos ended,
        ← List.append_assoc]
      rfl

theorem Lined.lastEnded_iff (lined : Lined stop lines) :
    lastEnded stop lines = true ↔ lines.flatten = [] ∨ Ended stop lines.flatten := by
  rcases List.eq_nil_or_concat' lines with rfl | ⟨front, last, rfl⟩
  · exact ⟨fun _ => .inl rfl, fun _ => rfl⟩
  · have nonempty : last ≠ [] :=
      (lined.sublist (List.sublist_append_right front [last])).1.nonempty
    rw [lastEnded_concat, decide_eq_true_eq, List.flatten_concat, Ended, Ended,
      List.getLast?_append_of_ne_nil _ nonempty]
    simp [nonempty]

/-! ## Fields -/

/-- Cut a text into fields, one for each separator, each field ending at the first
occurrence of its separator. -/
def splitFields : List α → List α → Option (List (List α))
  | [], _ => some []
  | separator :: separators, text =>
    match text.dropWhile fun symbol => decide (symbol ≠ separator) with
    | [] => none
    | _ :: rest =>
      (splitFields separators rest).map
        ((text.takeWhile fun symbol => decide (symbol ≠ separator)) :: ·)

def joinFields (fields : List (List α × α)) : List α :=
  fields.flatMap fun field => field.1 ++ [field.2]

omit [DecidableEq α] in
theorem joinFields_cons (separator : α) (fields : List (List α × α)) :
    joinFields ((text, separator) :: fields) = text ++ separator :: joinFields fields := by
  simp [joinFields]

theorem splitFields_joinFields {fields : List (List α × α)}
    (clean : ∀ field ∈ fields, field.2 ∉ field.1) :
    splitFields (fields.map Prod.snd) (joinFields fields) = some (fields.map Prod.fst) := by
  induction fields with
  | nil => rfl
  | cons field fields ih =>
    obtain ⟨text, separator⟩ := field
    have other : ∀ symbol ∈ text, decide (symbol ≠ separator) = true :=
      decide_ne_of_not_mem (clean (text, separator) List.mem_cons_self)
    rw [joinFields_cons, List.map_cons, splitFields, List.dropWhile_append_of_pos other,
      List.takeWhile_append_of_pos other]
    simp [ih fun field member => clean field (List.mem_cons_of_mem _ member)]

theorem eq_joinFields_of_splitFields {separators text : List α} {fields : List (List α)}
    (split : splitFields separators text = some fields) :
    ∃ rest, text = joinFields (fields.zip separators) ++ rest ∧
      ∀ field ∈ fields.zip separators, field.2 ∉ field.1 := by
  induction separators generalizing text fields with
  | nil => exact ⟨text, by simp [joinFields], by simp⟩
  | cons separator separators ih =>
    rw [splitFields] at split
    split at split
    · cases split
    · next found rest shape =>
        obtain ⟨others, isOthers, rfl⟩ := Option.map_eq_some_iff.mp split
        obtain ⟨behind, rfl, own⟩ := ih isOthers
        have front : separator ∉ text.takeWhile fun symbol => decide (symbol ≠ separator) := by
          intro member
          simpa using List.mem_takeWhile_imp member
        have isFound : found = separator := by
          have same : decide (found ≠ separator) = false :=
            head_dropWhile text found (by rw [shape]; rfl)
          simpa using same
        have whole := List.takeWhile_append_dropWhile
          (p := fun symbol => decide (symbol ≠ separator)) (l := text)
        rw [shape, isFound] at whole
        refine ⟨behind, ?_, ?_⟩
        · rw [List.zip_cons_cons, joinFields_cons, List.append_assoc, List.cons_append, whole]
        · rw [List.zip_cons_cons, List.forall_mem_cons]
          exact ⟨front, own⟩

end Lines

end Apos
