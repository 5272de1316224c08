import RootPermit.Foundation.Outcome
import RootPermit.Protocol.Schema

/-!
# Arguments of the requester's command

`rp-cli/src/lib.rs` admits one form of arguments, `package install <name>
--operation-key <key>` with an optional note behind it.
-/

namespace RootPermit
namespace Cli

open Foundation Protocol

structure PackageInstallRequest where
  packageName : String
  operationKey : String
  note : Option String
  deriving DecidableEq, Repr

/-- Failures of `parse_package_install`. -/
inductive ParseError where
  | invalidCommand
  | invalidPackageName
  | invalidOperationKey
  | invalidNote
  | missingValue
  | unexpectedArgument
  deriving DecidableEq, Repr

/-- `u8::is_ascii`. -/
def isAscii (byte : UInt8) : Bool :=
  decide (byte < 0x80)

def isBinaryPackageName (value : String) : Bool :=
  let bytes := utf8 value
  decide (2 ≤ bytes.length ∧ bytes.length ≤ 64) &&
    (bytes.head?.any fun first => isAsciiLowercase first || isAsciiDigit first) &&
    bytes.all isAscii &&
    bytes.all fun byte => isAsciiLowercase byte || isAsciiDigit byte ||
      (byte == 0x2b || byte == 0x2d || byte == 0x2e)

/-- `u8::is_ascii_alphanumeric`. -/
def isAsciiAlphanumeric (byte : UInt8) : Bool :=
  isAsciiLowercase byte || isAsciiDigit byte || decide (0x41 ≤ byte ∧ byte ≤ 0x5a)

def isOperationKey (value : String) : Bool :=
  let bytes := utf8 value
  decide (16 ≤ bytes.length ∧ bytes.length ≤ 128) &&
    bytes.all fun byte => isAsciiAlphanumeric byte || (byte == 0x2d || byte == 0x5f)

/-- `char::is_control`: the general category `Cc`. -/
def isControl (char : Char) : Bool :=
  decide (char.toNat ≤ 0x1f ∨ (0x7f ≤ char.toNat ∧ char.toNat ≤ 0x9f))

def isSafeNote (value : String) : Bool :=
  decide ((utf8 value).length ≤ 512) && !value.toList.any isControl

/-- The note behind the operation key: the argument that announces it and its text. -/
def parseNote : Option String → Option String → Except ParseError (Option String)
  | none, _ => .ok none
  | some flag, text =>
      if flag = "--note" then do
        let value ← orFault .missingValue text
        rejectIf (!isSafeNote value) .invalidNote
        return some value
      else .error .unexpectedArgument

def parsePackageInstall (arguments : List String) :
    Except ParseError PackageInstallRequest := do
  rejectIf (arguments[0]? ≠ some "package" ∨ arguments[1]? ≠ some "install")
    .invalidCommand
  let packageName ← orFault .missingValue arguments[2]?
  rejectIf (!isBinaryPackageName packageName) .invalidPackageName
  rejectIf (arguments[3]? ≠ some "--operation-key")
    (if arguments[3]?.isSome then .unexpectedArgument else .missingValue)
  let operationKey ← orFault .missingValue arguments[4]?
  rejectIf (!isOperationKey operationKey) .invalidOperationKey
  let note ← parseNote arguments[5]? arguments[6]?
  rejectIf (arguments.length ≠ if note.isSome then 7 else 5) .unexpectedArgument
  return { packageName, operationKey, note }

/-- The arguments of a request, as they are typed. -/
def PackageInstallRequest.arguments (request : PackageInstallRequest) : List String :=
  ["package", "install", request.packageName, "--operation-key",
    request.operationKey] ++
  match request.note with
  | none => []
  | some note => ["--note", note]

theorem parseNote_eq_ok_iff {flag text note : Option String} :
    parseNote flag text = .ok note ↔
      (flag = none ∧ note = none) ∨
        (flag = some "--note" ∧ text = note ∧ ∃ value, note = some value ∧
          isSafeNote value = true) := by
  cases flag with
  | none =>
      simp only [parseNote, Except.ok.injEq, true_and, reduceCtorEq, false_and,
        or_false]
      exact eq_comm
  | some flag =>
      by_cases hFlag : flag = "--note"
      · rw [parseNote, if_pos hFlag, hFlag]
        simp only [bind_eq_ok_iff, orFault_eq_ok_iff, rejectIf_eq_ok_iff, pure_eq_ok,
          Except.ok.injEq, Bool.not_eq_true', Bool.not_eq_false, reduceCtorEq,
          false_and, false_or, true_and]
        constructor
        · intro h
          obtain ⟨value, rfl, _, hSafe, rfl⟩ := h
          exact ⟨rfl, value, rfl, hSafe⟩
        · intro h
          obtain ⟨rfl, value, rfl, hSafe⟩ := h
          exact ⟨value, rfl, (), hSafe, rfl⟩
      · simp [parseNote, hFlag]

/-- Only the arguments of a request with a package name, a key and a note of the
right form are parsed, and they are parsed as that request. -/
theorem parsePackageInstall_eq_ok_iff {arguments : List String}
    {request : PackageInstallRequest} :
    parsePackageInstall arguments = .ok request ↔
      arguments = request.arguments ∧
        isBinaryPackageName request.packageName = true ∧
        isOperationKey request.operationKey = true ∧
        ∀ note ∈ request.note, isSafeNote note = true := by
  simp only [parsePackageInstall, bind_eq_ok_iff, orFault_eq_ok_iff,
    rejectIf_eq_ok_iff, pure_eq_ok, Except.ok.injEq, Bool.not_eq_true',
    Bool.not_eq_false, not_or, not_not, parseNote_eq_ok_iff]
  constructor
  · intro h
    obtain ⟨_, ⟨hFirst, hSecond⟩, name, hThird, _, hName, _, hFourth, key, hFifth, _,
      hKey, note, hNote, _, hLength, rfl⟩ := h
    refine ⟨?_, hName, hKey, ?_⟩
    · rcases hNote with ⟨hEnd, rfl⟩ | ⟨hFlag, hText, value, rfl, -⟩
      -- The arguments agree one by one, and there are no more of them.
      · have hFive : arguments.length = 5 := hLength
        refine List.ext_getElem? fun index => ?_
        rcases index with _ | _ | _ | _ | _ | index
        · exact hFirst
        · exact hSecond
        · exact hThird
        · exact hFourth
        · exact hFifth
        · rw [List.getElem?_eq_none (by omega)]
          rfl
      · have hSeven : arguments.length = 7 := hLength
        refine List.ext_getElem? fun index => ?_
        rcases index with _ | _ | _ | _ | _ | _ | _ | index
        · exact hFirst
        · exact hSecond
        · exact hThird
        · exact hFourth
        · exact hFifth
        · exact hFlag
        · exact hText
        · rw [List.getElem?_eq_none (by omega)]
          rfl
    · rcases hNote with ⟨-, rfl⟩ | ⟨-, -, value, rfl, hSafe⟩
      · exact fun _ hMem => absurd hMem (Option.not_mem_none _)
      · intro found hMem
        rw [Option.mem_def, Option.some.injEq] at hMem
        exact hMem ▸ hSafe
  · intro h
    obtain ⟨rfl, hName, hKey, hNote⟩ := h
    obtain ⟨name, key, note⟩ := request
    refine ⟨(), ⟨rfl, rfl⟩, name, rfl, (), hName, (), rfl, key, rfl, (), hKey, note, ?_,
      (), ?_, rfl⟩
    · cases note with
      | none => exact Or.inl ⟨rfl, rfl⟩
      | some text => exact Or.inr ⟨rfl, rfl, text, rfl, hNote text rfl⟩
    · cases note <;> rfl

end Cli
end RootPermit
