import Apos.BufferedPieces
import Apos.UserDbFaults

/-!
# Reading the user database after an insertion

Every change of the database goes through its lines with `fgets` and `ParsingLine`, and fails at a
line that does not parse.  This file says for which records an insertion leaves a database all of
whose lines parse and whose last line is the record.
-/

namespace Apos.UserDb

abbrev dbPieces (content : Text) : List Text :=
  bufferedLines '\n' (maxFileBuffer - 1) content

def Readable (content : Text) : Prop :=
  ∀ piece ∈ dbPieces content, Parses piece

structure Shows (content : Text) (pwd : TsPassword) : Prop where
  readable : Readable content
  last : ∃ piece, (dbPieces content).getLast? = some piece ∧ parseLine piece = .success pwd

/-! ## What a parsed line holds -/

theorem newLine_not_mem_trim {line : Text} (inside : '\n' ∉ line.dropLast) :
    '\n' ∉ trim (CText.cString line) := by
  have start : CText.cString line <+: line := List.takeWhile_prefix _
  obtain ⟨rest, whole⟩ := start
  rcases List.eq_nil_or_concat' rest with rfl | ⟨front, last, rfl⟩
  · rw [List.append_nil] at whole
    rw [whole]
    rcases List.eq_nil_or_concat' line with rfl | ⟨body, final, rfl⟩
    · exact List.not_mem_nil
    · rw [List.dropLast_concat] at inside
      by_cases ended : final = '\n'
      · rw [ended, trim_concat_newLine]
        exact fun member => inside (mem_of_mem_strip member)
      · intro member
        rcases List.mem_append.mp (mem_of_mem_strip member) with inBody | isFinal
        · exact inside inBody
        · exact ended (List.mem_singleton.mp isFinal).symm
  · intro member
    apply inside
    rw [← whole, ← List.append_assoc, List.dropLast_concat]
    exact List.mem_append_left _ (mem_of_mem_strip member)

theorem null_not_mem_trim (line : Text) : '\x00' ∉ trim (CText.cString line) := by
  intro member
  have inString : '\x00' ∈ CText.cString line := mem_of_mem_strip member
  simpa using List.mem_takeWhile_imp inString

theorem cleanField_trim {segment : Text} (noColon : ':' ∉ segment) (noNewLine : '\n' ∉ segment) :
    CleanField (trim segment) where
  noColon := fun member => noColon (mem_of_mem_strip member)
  noNewLine := fun member => noNewLine (mem_of_mem_strip member)
  noLeading := (bare_strip segment).head
  noTrailing := (bare_strip segment).last

structure Segments (line : Text) (pwd : TsPassword) (name passwd uid gid gecos dir shell : Text) :
    Prop where
  joined : trim (CText.cString line) = name ++ ':' :: (passwd ++ ':' :: (uid ++ ':' ::
    (gid ++ ':' :: (gecos ++ ':' :: (dir ++ ':' :: shell)))))
  noColon : ∀ segment ∈ [name, passwd, uid, gid, gecos, dir, shell], ':' ∉ segment
  texts : pwd.textFields = [name, passwd, gecos, dir, shell].map trim

variable {pwd : TsPassword}

theorem segments_of_parseLine {line : Text} (inside : '\n' ∉ line.dropLast)
    (parsed : parseLine line = .success pwd) :
    ∃ name passwd uid gid gecos dir shell,
      Segments line pwd name passwd uid gid gecos dir shell := by
  rw [parseLine] at parsed
  split at parsed
  · cases parsed
  · split at parsed
    · next name passwd uid gid gecos dir shell split =>
        split at parsed
        · cases parsed
        · next noColon =>
            obtain rfl := ParsedLine.success.inj parsed
            obtain ⟨rest, whole, own⟩ := eq_joinFields_of_splitFields split
            have isJoined : joinFields ([name, passwd, uid, gid, gecos, dir, shell].zip
                fieldSeparators) = (name ++ ':' :: (passwd ++ ':' :: (uid ++ ':' ::
                  (gid ++ ':' :: (gecos ++ ':' :: (dir ++ ':' :: shell)))))) ++ ['\n'] := by
              simp [joinFields, fieldSeparators]
            rw [isJoined] at whole
            refine ⟨name, passwd, uid, gid, gecos, dir, shell, ?_, ?_, rfl⟩
            · rcases List.eq_nil_or_concat' rest with rfl | ⟨front, last, rfl⟩
              · rw [List.append_nil] at whole
                exact (List.append_singleton_inj.mp whole).1
              · rw [← List.append_assoc] at whole
                have early := (List.append_singleton_inj.mp whole).1
                refine absurd ?_ (newLine_not_mem_trim inside)
                rw [early]
                simp
            · simp [fieldSeparators] at own
              simp [own, noColon]
    · cases parsed

section Inversion

variable {line : Text} {pwd : TsPassword} {name passwd uid gid gecos dir shell : Text}

theorem Segments.subset (segments : Segments line pwd name passwd uid gid gecos dir shell) :
    ∀ segment ∈ [name, passwd, uid, gid, gecos, dir, shell],
      segment ⊆ trim (CText.cString line) := by
  intro segment member symbol inSegment
  rw [segments.joined]
  simp only [List.mem_cons, List.not_mem_nil, or_false] at member
  rcases member with rfl | rfl | rfl | rfl | rfl | rfl | rfl <;> simp [inSegment]

theorem clean_of_parseLine (inside : '\n' ∉ line.dropLast)
    (parsed : parseLine line = .success pwd) :
    ∀ field ∈ pwd.textFields, CleanField field ∧ '\x00' ∉ field := by
  obtain ⟨name, passwd, uid, gid, gecos, dir, shell, segments⟩ :=
    segments_of_parseLine inside parsed
  intro field member
  rw [segments.texts, List.mem_map] at member
  obtain ⟨segment, member, rfl⟩ := member
  have inAll : segment ∈ [name, passwd, uid, gid, gecos, dir, shell] := by
    simp only [List.mem_cons, List.not_mem_nil, or_false] at member ⊢
    tauto
  have inLine := segments.subset segment inAll
  refine ⟨cleanField_trim (segments.noColon segment inAll) ?_, ?_⟩
  · exact fun symbol => newLine_not_mem_trim inside (inLine symbol)
  · exact fun symbol => null_not_mem_trim line (inLine (mem_of_mem_strip symbol))

theorem Segments.count_colon (segments : Segments line pwd name passwd uid gid gecos dir shell) :
    (trim (CText.cString line)).count ':' = 6 := by
  have none := fun segment member => List.count_eq_zero.mpr (segments.noColon segment member)
  simp only [List.mem_cons, List.not_mem_nil, or_false, forall_eq_or_imp, forall_eq] at none
  rw [segments.joined]
  simp [List.count_append, none]

theorem count_colon_tuple (clean : ∀ field ∈ pwd.textFields, CleanField field) :
    (tuple pwd).count ':' = 6 := by
  have none := fun field member =>
    List.count_eq_zero.mpr (cleanField_fields clean field member).noColon
  simp only [TsPassword.fields, List.mem_cons, List.not_mem_nil, or_false, forall_eq_or_imp,
    forall_eq] at none
  simp [tuple, List.count_append, none]

theorem parseLine_suffix_ne {front : Text} (nonempty : front ≠ [])
    (whole : front ++ line = tuple pwd) (inside : '\n' ∉ line.dropLast)
    (clean : ∀ field ∈ pwd.textFields, CleanField field) : parseLine line ≠ .success pwd := by
  intro parsed
  obtain ⟨name, passwd, uid, gid, gecos, dir, shell, segments⟩ :=
    segments_of_parseLine inside parsed
  have total := count_colon_tuple clean
  rw [← whole, List.count_append] at total
  have inString : trim (CText.cString line) <:+: line := by
    obtain ⟨lead, tail, -, -, padded⟩ := @exists_padded Char isTrimCharacter (CText.cString line)
    have part : trim (CText.cString line) <:+: CText.cString line := ⟨lead, tail, padded.symm⟩
    exact part.trans (List.takeWhile_prefix _).isInfix
  obtain ⟨before, behind, split⟩ := inString
  have lineCount := congrArg (List.count ':') split
  rw [List.count_append, List.count_append, segments.count_colon] at lineCount
  have noneInFront : ':' ∉ front := List.count_eq_zero.mp (by omega)
  have noneBefore : ':' ∉ before := List.count_eq_zero.mp (by omega)
  obtain ⟨rest, isTuple⟩ : ∃ rest, tuple pwd = pwd.strName ++ ':' :: rest :=
    ⟨_, by simp [tuple]; rfl⟩
  have noneInName : ':' ∉ name := segments.noColon name (by simp)
  have noneInStrName : ':' ∉ pwd.strName := (clean _ (by simp [TsPassword.textFields])).noColon
  rw [isTuple, ← split, segments.joined] at whole
  have sameStart : front ++ (before ++ name) = pwd.strName := by
    have whole' : (front ++ (before ++ name)) ++ ':' :: (passwd ++ ':' :: (uid ++ ':' ::
        (gid ++ ':' :: (gecos ++ ':' :: (dir ++ ':' :: shell)))) ++ behind) =
        pwd.strName ++ ':' :: rest := by
      rw [← whole]
      simp
    have noneInStart : ':' ∉ front ++ (before ++ name) := by
      simp [noneInFront, noneBefore, noneInName]
    exact (cut_unique whole' noneInStart noneInStrName).1
  have isName : pwd.strName = trim name := (List.cons.inj segments.texts).1
  have shorter : (trim name).length ≤ name.length := by
    obtain ⟨lead, tail, -, -, padded⟩ := @exists_padded Char isTrimCharacter name
    have sizes := congrArg List.length padded
    rw [List.length_append, List.length_append] at sizes
    rw [trim_eq_strip]
    omega
  have sizes := congrArg List.length sameStart
  rw [List.length_append, List.length_append, isName] at sizes
  have positive := List.length_pos_of_ne_nil nonempty
  omega

end Inversion

/-! ## The line of a record -/

variable {content : Text}

theorem newLine_inside_piece {piece : Text} (member : piece ∈ dbPieces content) :
    '\n' ∉ piece.dropLast := by
  obtain ⟨unread, rfl⟩ := exists_takeLine_of_mem_bufferedLines member
  exact stop_not_mem_dropLast_takeLine _ _

theorem null_not_mem_tuple (noNull : ∀ field ∈ pwd.textFields, '\x00' ∉ field) :
    '\x00' ∉ tuple pwd := by
  have digits (number : Nat) : '\x00' ∉ Nat.toDigits 10 number := not_mem_toDigits (by decide)
  simp only [TsPassword.textFields, List.mem_cons, List.not_mem_nil, or_false, forall_eq_or_imp,
    forall_eq] at noNull
  simp [tuple, noNull, digits]

theorem close_tuple (pwd : TsPassword) : close '\n' (tuple pwd) = tuple pwd := by
  rw [tuple_eq_body]
  exact if_pos (ended_snoc _)

structure Insertable (pwd : TsPassword) : Prop where
  clean : ∀ field ∈ pwd.textFields, CleanField field
  fits : FitsBuffer (tuple pwd)

theorem Insertable.dbPieces_tuple (insertable : Insertable pwd) :
    dbPieces (tuple pwd) = [tuple pwd] := by
  have short := insertable.fits.short
  rw [close_tuple] at short
  apply bufferedLines_line _ (Nat.le_sub_one_of_lt short)
  rw [tuple_eq_body]
  exact isLine_snoc (newLine_not_mem_body insertable.clean)

theorem last_tuple_iff (pwd : TsPassword) :
    (∃ piece, (dbPieces (tuple pwd)).getLast? = some piece ∧ parseLine piece = .success pwd) ↔
      Insertable pwd := by
  constructor
  · rintro ⟨piece, isLast, parsed⟩
    have member := List.mem_of_getLast? isLast
    have inside := newLine_inside_piece member
    have fields := clean_of_parseLine inside parsed
    have clean := fun field member => (fields field member).1
    refine ⟨clean, ?_, null_not_mem_tuple fun field member => (fields field member).2⟩
    rw [close_tuple]
    by_contra long
    obtain ⟨front, split⟩ := List.getLast?_eq_some_iff.mp isLast
    have whole : (dbPieces (tuple pwd)).flatten = tuple pwd := flatten_bufferedLines (by decide) _
    rw [split, List.flatten_concat] at whole
    refine parseLine_suffix_ne ?_ whole inside clean parsed
    intro none
    rw [none, List.nil_append] at whole
    obtain ⟨unread, isTaken⟩ := exists_takeLine_of_mem_bufferedLines member
    have short : piece.length ≤ maxFileBuffer - 1 := by
      rw [isTaken]
      exact length_takeLine_le _ _
    have positive : 0 < maxFileBuffer := by decide
    rw [← whole] at long
    omega
  · intro insertable
    refine ⟨tuple pwd, ?_, parseLine_tuple insertable.clean insertable.fits.noNull⟩
    rw [insertable.dbPieces_tuple]
    rfl

/-! ## The database after an insertion -/

variable (text : Text)

theorem endsLine_lineEnded : EndsLine (lineEnded text) := by
  rw [lineEnded]
  split
  · next ends => rwa [List.append_nil]
  · exact .inr (ended_snoc text)

theorem dbPieces_inserted (pwd : TsPassword) :
    dbPieces (lineEnded text ++ tuple pwd) = dbPieces (lineEnded text) ++ dbPieces (tuple pwd) :=
  bufferedLines_append_ended (by decide) (endsLine_lineEnded text) (tuple pwd)

theorem shows_inserted_iff (pwd : TsPassword) :
    Shows (lineEnded text ++ tuple pwd) pwd ↔ Insertable pwd ∧ Readable (lineEnded text) := by
  have some : dbPieces (tuple pwd) ≠ [] := by
    intro none
    have whole : (dbPieces (tuple pwd)).flatten = tuple pwd := flatten_bufferedLines (by decide) _
    rw [none, tuple_eq_body] at whole
    simp at whole
  have sameLast : (dbPieces (lineEnded text ++ tuple pwd)).getLast? =
      (dbPieces (tuple pwd)).getLast? := by
    rw [dbPieces_inserted, List.getLast?_append_of_ne_nil _ some]
  constructor
  · rintro ⟨readable, last⟩
    rw [sameLast] at last
    refine ⟨(last_tuple_iff pwd).mp last, fun piece member => readable piece ?_⟩
    rw [dbPieces_inserted]
    exact List.mem_append_left _ member
  · rintro ⟨insertable, readable⟩
    refine ⟨?_, ?_⟩
    · intro piece member
      rw [dbPieces_inserted, insertable.dbPieces_tuple, List.mem_append] at member
      rcases member with before | isTuple
      · exact readable piece before
      · obtain rfl := List.mem_singleton.mp isTuple
        rw [parses_iff]
        exact .inr ⟨pwd, parseLine_tuple insertable.clean insertable.fits.noNull⟩
    · rw [sameLast]
      exact (last_tuple_iff pwd).mpr insertable

theorem null_not_mem_piece (noNull : '\x00' ∉ content) :
    ∀ piece ∈ dbPieces content, '\x00' ∉ piece := by
  intro piece member inPiece
  have whole : (dbPieces content).flatten = content := flatten_bufferedLines (by decide) content
  apply noNull
  rw [← whole]
  exact List.mem_flatten.mpr ⟨piece, member, inPiece⟩

theorem flatMap_keptPart {pieces : List Text} (noNull : ∀ piece ∈ pieces, '\x00' ∉ piece)
    (uid : UInt32) :
    pieces.flatMap (keptPart uid) =
      (pieces.filter fun piece => (parseLine piece).uid ≠ some uid).flatten := by
  induction pieces with
  | nil => rfl
  | cons piece pieces ih =>
    rw [List.forall_mem_cons] at noNull
    rw [List.flatMap_cons, ih noNull.2, keptPart, CText.cString_eq_self noNull.1]
    by_cases found : (parseLine piece).uid = some uid <;> simp [found]

theorem readable_flatten {pieces : List Text} (isPieces : Pieces '\n' (maxFileBuffer - 1) pieces)
    (parses : ∀ piece ∈ pieces, Parses piece) (noNull : ∀ piece ∈ pieces, '\x00' ∉ piece) :
    Readable (lineEnded pieces.flatten) := by
  rw [lineEnded]
  split
  · rwa [List.append_nil, Readable, dbPieces, bufferedLines_flatten_pieces isPieces]
  · next notEnds =>
      rcases List.eq_nil_or_concat' pieces with rfl | ⟨front, last, rfl⟩
      · exact absurd (.inl rfl) notEnds
      · have nonempty : last ≠ [] :=
          (isPieces.sublist (List.sublist_append_right front [last])).1.1.nonempty
        have notEnded : ¬ Ended '\n' last := by
          intro ended
          apply notEnds
          right
          rw [Ended, List.flatten_concat, List.getLast?_append_of_ne_nil _ nonempty]
          exact ended
        have isLast : last ∈ front ++ [last] := by simp
        have closed : Parses (last ++ ['\n']) := by
          have same := parseLine_close (noNull last isLast)
          rw [close, if_neg notEnded] at same
          rw [Parses, same]
          exact parses last isLast
        rw [Readable, dbPieces, bufferedLines_snoc (by decide) isPieces notEnded]
        intro piece member
        rw [List.mem_append] at member
        rcases member with inFront | isEnd
        · exact parses piece (List.mem_append_left _ inFront)
        · split at isEnd
          · rwa [List.mem_singleton.mp isEnd]
          · rw [List.mem_cons, List.mem_singleton] at isEnd
            obtain rfl | rfl := isEnd
            · exact parses piece isLast
            · decide

theorem readable_lineEnded_keptText (readable : Readable content) (noNull : '\x00' ∉ content)
    (uid : UInt32) : Readable (lineEnded (keptText uid content)) := by
  have parts := null_not_mem_piece noNull
  rw [keptText, flatMap_keptPart parts]
  apply readable_flatten
  · exact (pieces_bufferedLines content).sublist List.filter_sublist
  · exact fun piece member => readable piece (List.mem_of_mem_filter member)
  · exact fun piece member => parts piece (List.mem_of_mem_filter member)

section Insertion

variable {handler : TDbHandler} {streams : DbFile → OpenStream}

/-- An insertion that returns true leaves a database that shows the record exactly when the texts of
the record have no colon, new line or null and no white space at their ends, its line fits the line
buffer, and the lines that stay parse when they are written again up to their nulls.  Without nulls
in the old database they do. -/
theorem insertItemInDb_stays_readable_iff (rounds : Nat) (pwd : TsPassword)
    (opened : handler.Opened) (empty : (streams .tmp).file.content = [])
    (noError : (streams .tmp).error = false) (readable : Readable (streams .work).file.content) :
    Stateful.Ensures streamsModel (insertItemInDb rounds pwd) handler streams
        (fun _ changed _ reached => changed = true →
          (Shows (reached .work).file.content pwd ↔
            Insertable pwd ∧
              Readable (lineEnded (keptText pwd.uId (streams .work).file.content)))) ∧
      ('\x00' ∉ (streams .work).file.content →
        Readable (lineEnded (keptText pwd.uId (streams .work).file.content))) := by
  constructor
  · apply (insertItemInDb_faulty rounds opened empty noError pwd).mono
    rintro exchanges changed after reached ⟨-, flushed⟩ isChanged
    have truncated : Truncated .work exchanges := by
      by_contra untouched
      have unchanged := (flushed.untouched untouched).1
      rw [isChanged] at unchanged
      cases unchanged
    rw [flushed.refilled truncated, flushed.whole isChanged, List.take_length]
    exact shows_inserted_iff _ pwd
  · intro noNull
    exact readable_lineEnded_keptText readable noNull pwd.uId

end Insertion

def freshStreams : DbFile → OpenStream
  | .work => ⟨⟨twoUsers, 0⟩, false⟩
  | .tmp => ⟨⟨[], 0⟩, false⟩

theorem readable_twoUsers : Readable twoUsers := by
  unfold Readable
  decide +kernel

theorem insertItemInDb_shows_cleo :
    Insertable cleo ∧
      Stateful.Ensures streamsModel (insertItemInDb 5 cleo) openHandler freshStreams
        fun _ changed _ reached => changed = true → Shows (reached .work).file.content cleo := by
  have insertable : Insertable cleo := ⟨by decide +kernel, by decide +kernel⟩
  have noNull : '\x00' ∉ twoUsers := by decide +kernel
  obtain ⟨ensures, staysReadable⟩ := @insertItemInDb_stays_readable_iff openHandler freshStreams 5
    cleo ⟨rfl, rfl⟩ rfl rfl readable_twoUsers
  refine ⟨insertable, ensures.mono ?_⟩
  intro exchanges changed after reached shows isChanged
  exact (shows isChanged).mpr ⟨insertable, staysReadable noNull⟩

def colonInComment : TsPassword :=
  { cleo with strGecos := "a:b".toList }

/-- The insertion returns true, and the next look for a user fails at the new line. -/
theorem insertItemInDb_leaves_unreadable_line :
    Readable twoUsers ∧ openHandler.Opened ∧
      ∃ handler files,
        Gives (insertItemInDb 5 colonInComment) openHandler ⟨⟨twoUsers, 0⟩, ⟨[], 0⟩⟩ true handler
          files ∧
        ¬ Readable files.work.content ∧ ¬ Shows files.work.content colonInComment := by
  have unreadable : ¬ Readable (twoUsers ++ tuple colonInComment) := by
    unfold Readable
    decide +kernel
  refine ⟨readable_twoUsers, ⟨rfl, rfl⟩, ⟨true, true, .errDbOk, "Success"⟩,
    ⟨⟨twoUsers ++ tuple colonInComment, 43⟩, ⟨[], 0⟩⟩, ?_, unreadable,
    fun shows => unreadable shows.readable⟩
  unfold Gives Stateful.Returns
  decide +kernel

end Apos.UserDb
