import Apos.CNumerals
import Apos.UserDbReaders

/-!
# The command line of the user database

`nss_ufbs` takes an option and, for inserting and removing, a user identifier.  The two functions
that handle these options take the argument as an identifier when it has only digits, and convert
it with `atoi`.  Inserting asks LDAP for the record of the identifier.  This file follows the
functions up to the call that they make on the database.
-/

namespace Apos.UserDb

open CText (atoi)

def retAbort : Int := 1

def retSyntax : Int := 2

/-- What LDAP answers.  A record has the identifier that was asked for. -/
structure Ldap where
  initialized : Bool
  getPwUid : UInt32 → Option TsPassword
  asked : ∀ uid pwd, getPwUid uid = some pwd → pwd.uId = uid

def Ldap.silent : Ldap where
  initialized := false
  getPwUid := fun _ => none
  asked := fun _ _ answer => absurd answer.symm (Option.some_ne_none _)

/-- `strspn` finds as many digits as the argument is long, and `atoi` converts it to an `int`, which
is then taken as a `uid_t`. -/
def uidArgument (pArg : Text) : Option UInt32 :=
  if (pArg.takeWhile Char.isDigit).length = pArg.length then some (UInt32.ofInt (atoi pArg))
  else none

def nssInsertItem (ldap : Ldap) (pArg : Text) : Except Int Call :=
  match uidArgument pArg with
  | none => .error retAbort
  | some iUid =>
    if ldap.initialized then
      match ldap.getPwUid iUid with
      | none => .error retAbort
      | some pwd => .ok (.insert pwd)
    else
      .error retAbort

def nssRemoveItem (pArg : Text) : Except Int Call :=
  match uidArgument pArg with
  | none => .error retAbort
  | some iUid => .ok (.remove iUid)

def nssUnknowCmd : Char := '\x01'

def nssMissingArg : Char := '\x02'

def parseOption (argv : List Text) : Char × Option Text :=
  match argv with
  | _ :: option :: rest =>
    match option with
    | ['-', letter] => (letter, rest.head?)
    | _ => (nssUnknowCmd, none)
  | _ => (nssMissingArg, none)

def nssExecuteCommand (ldap : Ldap) (argv : List Text) : Except Int Call :=
  match parseOption argv with
  | ('i', some pszArgument) =>
    if argv.length = 3 then nssInsertItem ldap pszArgument else .error retSyntax
  | ('r', some pszArgument) =>
    if argv.length = 3 then nssRemoveItem pszArgument else .error retSyntax
  | ('d', _) => if argv.length = 2 then .ok .clear else .error retSyntax
  | _ => .error retSyntax

def Call.uid : Call → Option UInt32
  | .insert pwd => some pwd.uId
  | .remove uiUid => some uiUid
  | .clear => none

theorem uidArgument_eq {pArg : Text} (isDigit : ∀ symbol ∈ pArg, symbol.isDigit = true) :
    uidArgument pArg = some (UInt32.ofInt (atoi pArg)) := by
  rw [uidArgument, List.takeWhile_eq_self_iff.mpr isDigit, if_pos rfl]

theorem isDigit_of_uidArgument {pArg : Text} {iUid : UInt32}
    (accepted : uidArgument pArg = some iUid) :
    (∀ symbol ∈ pArg, symbol.isDigit = true) ∧ iUid = UInt32.ofInt (atoi pArg) := by
  rw [uidArgument] at accepted
  split at accepted
  · next whole =>
      have same := List.IsPrefix.eq_of_length (List.takeWhile_prefix _) whole
      exact ⟨List.takeWhile_eq_self_iff.mp same, (Option.some.inj accepted).symm⟩
  · cases accepted

theorem Decimal.isInteger {text : Text} (decimal : Decimal text) :
    CText.IsInteger text (Nat.ofDigitChars 10 text 0) :=
  ⟨none, text, rfl, decimal.nonempty, decimal.digits, rfl⟩

theorem Decimal.ofInt_atoi {text : Text} (decimal : Decimal text) :
    UInt32.ofInt (atoi text) = UInt32.ofNat (Nat.ofDigitChars 10 text 0) :=
  decimal.isInteger.ofInt_atoi decimal.bound

/-! ## Calls on the typed identifier -/

theorem nssExecuteCommand_insert (ldap : Ldap) (program pArg : Text) :
    nssExecuteCommand ldap [program, "-i".toList, pArg] = nssInsertItem ldap pArg :=
  rfl

theorem nssExecuteCommand_remove (ldap : Ldap) (program pArg : Text) :
    nssExecuteCommand ldap [program, "-r".toList, pArg] = nssRemoveItem pArg :=
  rfl

theorem uid_of_nssInsertItem {ldap : Ldap} {pArg : Text} {call : Call}
    (called : nssInsertItem ldap pArg = .ok call) :
    ∃ iUid, uidArgument pArg = some iUid ∧ call.uid = some iUid := by
  rw [nssInsertItem] at called
  split at called
  · cases called
  · next iUid accepted =>
      split at called
      · split at called
        · cases called
        · next pwd found =>
            obtain rfl := Except.ok.inj called
            exact ⟨iUid, accepted, congrArg some (ldap.asked iUid pwd found)⟩
      · cases called

theorem uid_of_nssRemoveItem {pArg : Text} {call : Call}
    (called : nssRemoveItem pArg = .ok call) :
    ∃ iUid, uidArgument pArg = some iUid ∧ call.uid = some iUid := by
  rw [nssRemoveItem] at called
  split at called
  · cases called
  · next iUid accepted =>
      obtain rfl := Except.ok.inj called
      exact ⟨iUid, accepted, rfl⟩

theorem uid_of_nssExecuteCommand {ldap : Ldap} {program option pArg : Text} {call : Call}
    (isCommand : option ∈ ["-i".toList, "-r".toList])
    (called : nssExecuteCommand ldap [program, option, pArg] = .ok call) :
    ∃ iUid, uidArgument pArg = some iUid ∧ call.uid = some iUid := by
  rw [List.mem_cons, List.mem_singleton] at isCommand
  obtain rfl | rfl := isCommand
  · rw [nssExecuteCommand_insert] at called
    exact uid_of_nssInsertItem called
  · rw [nssExecuteCommand_remove] at called
    exact uid_of_nssRemoveItem called

/-- Every call of the two commands is on the identifier that the argument denotes in decimal. -/
def ActsOnTyped (pArg : Text) : Prop :=
  ∀ ldap program, ∀ option ∈ ["-i".toList, "-r".toList], ∀ call,
    nssExecuteCommand ldap [program, option, pArg] = .ok call →
      Decimal pArg ∧ call.uid = some (UInt32.ofNat (Nat.ofDigitChars 10 pArg 0))

/-- The commands act on the typed identifier exactly when the argument is refused for a character
that is no digit, or is not empty and below `2 ^ 32`. -/
theorem nssExecuteCommand_acts_on_typed_iff (pArg : Text) :
    ActsOnTyped pArg ↔
      (∃ symbol ∈ pArg, symbol.isDigit = false) ∨
        (pArg ≠ [] ∧ Nat.ofDigitChars 10 pArg 0 < 2 ^ 32) := by
  constructor
  · intro acts
    by_cases refused : ∃ symbol ∈ pArg, symbol.isDigit = false
    · exact .inl refused
    · have isDigit : ∀ symbol ∈ pArg, symbol.isDigit = true := by
        simpa using refused
      have called : nssRemoveItem pArg = .ok (.remove (UInt32.ofInt (atoi pArg))) := by
        rw [nssRemoveItem, uidArgument_eq isDigit]
      obtain ⟨decimal, -⟩ := acts .silent [] "-r".toList (by simp) _ called
      exact .inr ⟨decimal.nonempty, decimal.bound⟩
  · intro condition ldap program option isCommand call called
    obtain ⟨iUid, accepted, isUid⟩ := uid_of_nssExecuteCommand isCommand called
    obtain ⟨isDigit, rfl⟩ := isDigit_of_uidArgument accepted
    rcases condition with ⟨symbol, member, notDigit⟩ | ⟨nonempty, bound⟩
    · rw [isDigit symbol member] at notDigit
      cases notDigit
    · have decimal : Decimal pArg := ⟨nonempty, isDigit, bound⟩
      exact ⟨decimal, isUid.trans (congrArg some decimal.ofInt_atoi)⟩

/-- The identifier after the greatest one is taken for that of the superuser. -/
theorem nssExecuteCommand_wraps_uid : ¬ ActsOnTyped "4294967296".toList := by
  intro acts
  have called : nssExecuteCommand .silent ["nss_ufbs".toList, "-r".toList, "4294967296".toList] =
      .ok (.remove 0) := by
    decide +kernel
  obtain ⟨decimal, -⟩ := acts .silent _ "-r".toList (by simp) _ called
  exact absurd decimal.bound (by decide +kernel)

end Apos.UserDb
