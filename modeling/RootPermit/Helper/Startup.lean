import RootPermit.Foundation.Outcome
import RootPermit.Protocol.Cbor

/-!
# The start of the privileged helper

`main.cpp` and the contracts of `startup_contract.cpp` that it asks for before anything
else: no arguments, the two entries of the environment, and exactly four inherited
descriptors.  The kernel's listing of the open descriptors is an input, with what
`fcntl`, `fstat` and `getsockopt` answer about each of them.

* `handoff_contract` — the descriptors that the contract accepts, in any order of the
  listing;
* `main_fails_closed` — the program ends at the handoff, whatever it inherits.
-/

namespace RootPermit
namespace Helper

open Foundation

/-! ### Arguments and environment -/

def kAllowedEnvironment : List Bytes :=
  [utf8 "LANG=C", utf8 "PATH=/usr/sbin:/usr/bin:/sbin:/bin"]

/-- The errors of `StartupContractError`; success is a value. -/
inductive StartupContractError where
  | argumentsPresent
  | environmentInvalid
  deriving DecidableEq, Repr

def startupContractErrorName : StartupContractError → String
  | .argumentsPresent => "arguments_present"
  | .environmentInvalid => "environment_invalid"

/-- An array of C strings that ends with a null pointer; the array itself may be null. -/
abbrev CStrings := Option (List Bytes)

def environmentMatches (envp : CStrings) : Bool :=
  match envp with
  | none => false
  | some entries =>
      ((List.range kAllowedEnvironment.length).all fun index =>
        entries[index]?.isSome && kAllowedEnvironment[index]? == entries[index]?) &&
      entries[kAllowedEnvironment.length]?.isNone

def validateStartupContract (argc : Int) (argv envp : CStrings) :
    Except StartupContractError Unit := do
  match argv with
  | none => .error .argumentsPresent
  | some arguments =>
      rejectIf (argc ≠ 1 ∨ arguments[0]?.isNone = true ∨ arguments[1]?.isSome = true)
        .argumentsPresent
  rejectIf (environmentMatches envp = false) .environmentInvalid

/-! ### Inherited descriptors -/

def kControlFd : Int := 3
def kPlanRootFd : Int := 4
def kJournalRootFd : Int := 5
def kContentStoreFd : Int := 6

def kRequiredInheritedFds : List Int :=
  [kControlFd, kPlanRootFd, kJournalRootFd, kContentStoreFd]

def isRequiredFd (fd : Int) : Bool :=
  kRequiredInheritedFds.contains fd

/-- The errors of `HandoffContractError`; success is a value. -/
inductive HandoffContractError where
  | missingRequiredFd
  | unexpectedFd
  | controlNotSeqpacket
  | planRootNotDirectory
  | planRootNotReadOnly
  | journalRootNotDirectory
  | contentStoreNotDirectory
  | contentStoreNotReadOnly
  | peerIdentityUnverified
  deriving DecidableEq, Repr

def handoffContractErrorName : HandoffContractError → String
  | .missingRequiredFd => "missing_required_fd"
  | .unexpectedFd => "unexpected_fd"
  | .controlNotSeqpacket => "control_not_seqpacket"
  | .planRootNotDirectory => "plan_root_not_directory"
  | .planRootNotReadOnly => "plan_root_not_read_only"
  | .journalRootNotDirectory => "journal_root_not_directory"
  | .contentStoreNotDirectory => "content_store_not_directory"
  | .contentStoreNotReadOnly => "content_store_not_read_only"
  | .peerIdentityUnverified => "peer_identity_unverified"

structure DescriptorObservation where
  fd : Int
  isDirectory : Bool
  isReadOnly : Bool
  isSeqpacketSocket : Bool
  peerIdentityMatches : Bool
  deriving DecidableEq, Repr

/-- The first observation of a descriptor. -/
def observationOf (descriptors : List DescriptorObservation) (fd : Int) :
    Option DescriptorObservation :=
  descriptors.find? fun item => item.fd = fd

/-- One turn of the loop over the required descriptors. -/
def checkRequiredFd (descriptors : List DescriptorObservation) (fd : Int) :
    Except HandoffContractError Unit :=
  match observationOf descriptors fd with
  | none => .error .missingRequiredFd
  | some item => do
      rejectIf (fd = kControlFd ∧ item.isSeqpacketSocket = false) .controlNotSeqpacket
      rejectIf (fd = kControlFd ∧ item.peerIdentityMatches = false)
        .peerIdentityUnverified
      rejectIf (fd = kPlanRootFd ∧ (item.isDirectory = false ∨ item.isReadOnly = false))
        (if item.isDirectory = false then .planRootNotDirectory
          else .planRootNotReadOnly)
      rejectIf (fd = kJournalRootFd ∧ item.isDirectory = false) .journalRootNotDirectory
      rejectIf
        (fd = kContentStoreFd ∧ (item.isDirectory = false ∨ item.isReadOnly = false))
        (if item.isDirectory = false then .contentStoreNotDirectory
          else .contentStoreNotReadOnly)

def validateHandoffContract (descriptors : List DescriptorObservation) :
    Except HandoffContractError Unit := do
  kRequiredInheritedFds.forM (checkRequiredFd descriptors)
  rejectIf (∃ item ∈ descriptors, kControlFd ≤ item.fd ∧ isRequiredFd item.fd = false)
    .unexpectedFd

/-! ### The listing of the kernel -/

/-- What the kernel answers about a descriptor; `none` is a call that fails. -/
structure KernelDescriptor where
  /-- `fcntl` with `F_GETFL`. -/
  flags : Option Nat
  /-- `st_mode` of `fstat`. -/
  stMode : Option Nat
  /-- `getsockopt` with `SO_TYPE`. -/
  socketType : Option Int
  deriving DecidableEq, Repr

/-- `/proc/self/fd` as it is read: the descriptor of the open directory, the names of
the entries, and the descriptors behind them. -/
structure ProcSelfFd where
  dirfd : Int
  names : List Bytes
  descriptor : Int → KernelDescriptor

/-- `isspace` in the C locale. -/
def isSpace (byte : UInt8) : Bool :=
  byte == 0x20 || decide (0x09 ≤ byte ∧ byte ≤ 0x0d)

def isDigit (byte : UInt8) : Bool :=
  decide (0x30 ≤ byte ∧ byte ≤ 0x39)

/-- The sign in front of a number, and what comes after it. -/
def takeSign : Bytes → Int × Bytes
  | 0x2b :: rest => (1, rest)
  | 0x2d :: rest => (-1, rest)
  | text => (1, text)

def LONG_MAX : Int := 2 ^ 63 - 1
def INT_MAX : Int := 2 ^ 31 - 1

/-- `std::strtol` in base 10: the number and what is left of the text; `none` where
there is no number, or none in the range of a `long`. -/
def strtol (text : Bytes) : Option (Int × Bytes) :=
  let (sign, body) := takeSign (text.dropWhile isSpace)
  let digits := body.takeWhile isDigit
  let value := sign * (digits.foldl
    (fun (value : Nat) (digit : UInt8) => value * 10 + (digit.toNat - 0x30)) 0 : Nat)
  if digits = [] ∨ value < -LONG_MAX - 1 ∨ LONG_MAX < value then none
  else some (value, body.dropWhile isDigit)

/-- The descriptor that an entry of the listing stands for. -/
def listedFd (listing : ProcSelfFd) (name : Bytes) : Option Int :=
  match strtol name with
  | some (fd, []) =>
      if fd < kControlFd ∨ INT_MAX < fd ∨ fd = listing.dirfd then none else some fd
  | _ => none

/-- `S_ISDIR`. -/
def sIsDir (mode : Nat) : Bool :=
  mode &&& 0o170000 == 0o040000

/-- `O_ACCMODE`. -/
def O_ACCMODE : Nat := 3

/-- `O_RDONLY`. -/
def O_RDONLY : Nat := 0

/-- `SOCK_SEQPACKET` on Linux. -/
def SOCK_SEQPACKET : Int := 5

/-- The `item` that the loop fills for a descriptor. -/
def observation (fd : Int) (flags stMode : Nat) (socketType : Option Int) :
    DescriptorObservation where
  fd := fd
  isDirectory := sIsDir stMode
  isReadOnly := flags &&& O_ACCMODE == O_RDONLY
  isSeqpacketSocket := decide (fd = kControlFd) && socketType == some SOCK_SEQPACKET
  -- no packet has come that could bind the peer
  peerIdentityMatches := false

/-- One turn of the loop over the entries. -/
def observeEntry (listing : ProcSelfFd) (observed : List DescriptorObservation)
    (name : Bytes) : Except HandoffContractError (List DescriptorObservation) :=
  match listedFd listing name with
  | none => .ok observed
  | some fd =>
      let kernel := listing.descriptor fd
      match kernel.flags, kernel.stMode with
      | some flags, some stMode =>
          .ok (observed ++ [observation fd flags stMode kernel.socketType])
      | _, _ => .error .unexpectedFd

/-- The listing is `none` where the directory does not open. -/
def validateRuntimeHandoff (listing : Option ProcSelfFd) :
    Except HandoffContractError Unit :=
  match listing with
  | none => .error .missingRequiredFd
  | some listing => do
      let observed ← listing.names.foldlM (observeEntry listing) []
      validateHandoffContract observed

/-! ### The program -/

/-- What the program is started with. -/
structure ProcessStart where
  argc : Int
  argv : CStrings
  environ : CStrings
  procSelfFd : Option ProcSelfFd

/-- How the program ends. -/
structure Exit where
  status : Nat
  cerr : String
  deriving DecidableEq, Repr

def EXIT_FAILURE : Nat := 1

/-- `main`, built with or without the headers of `libapt-pkg`. -/
def main (libaptPkgHeadersAvailable : Bool) (start : ProcessStart) : Exit :=
  match validateStartupContract start.argc start.argv start.environ with
  | .error error =>
      ⟨EXIT_FAILURE, "rootpermit-apt-helper: startup contract rejected: " ++
        startupContractErrorName error ++ "\n"⟩
  | .ok _ =>
      match validateRuntimeHandoff start.procSelfFd with
      | .error error =>
          ⟨EXIT_FAILURE, "rootpermit-apt-helper: inherited FD contract rejected: " ++
            handoffContractErrorName error ++ "\n"⟩
      | .ok _ =>
          ⟨77, "rootpermit-apt-helper: execution unavailable (M4 evidence gate; " ++
            "libapt headers " ++
            (if libaptPkgHeadersAvailable then "present" else "absent") ++ ")\n"⟩

/-! ### What the contract accepts -/

/-- The descriptors of a handoff that is sealed: each of the four is there and is what
it has to be, and none but those four is inherited. -/
structure SealedHandoff (descriptors : List DescriptorObservation) : Prop where
  control : ∃ item ∈ descriptors, item.fd = kControlFd ∧
    item.isSeqpacketSocket = true ∧ item.peerIdentityMatches = true
  planRoot : ∃ item ∈ descriptors, item.fd = kPlanRootFd ∧
    item.isDirectory = true ∧ item.isReadOnly = true
  journalRoot : ∃ item ∈ descriptors, item.fd = kJournalRootFd ∧ item.isDirectory = true
  contentStore : ∃ item ∈ descriptors, item.fd = kContentStoreFd ∧
    item.isDirectory = true ∧ item.isReadOnly = true
  noOther : ∀ item ∈ descriptors, kControlFd ≤ item.fd → isRequiredFd item.fd = true

/-- A listing names each descriptor once. -/
def DistinctFds (descriptors : List DescriptorObservation) : Prop :=
  (descriptors.map DescriptorObservation.fd).Nodup

theorem fd_of_observationOf {descriptors : List DescriptorObservation} {fd : Int}
    {item : DescriptorObservation} (h : observationOf descriptors fd = some item) :
    item.fd = fd := by
  simpa using List.find?_some h

theorem observationOf_eq_some_iff {descriptors : List DescriptorObservation}
    (h : DistinctFds descriptors) {fd : Int} {item : DescriptorObservation} :
    observationOf descriptors fd = some item ↔ item ∈ descriptors ∧ item.fd = fd := by
  constructor
  · intro hFound
    exact ⟨List.mem_of_find?_eq_some hFound, fd_of_observationOf hFound⟩
  · rintro ⟨hMem, hFd⟩
    have hSome : (observationOf descriptors fd).isSome = true :=
      List.find?_isSome.mpr ⟨item, hMem, decide_eq_true hFd⟩
    obtain ⟨found, hFound⟩ := Option.isSome_iff_exists.mp hSome
    have hSame : found = item :=
      List.inj_on_of_nodup_map h (List.mem_of_find?_eq_some hFound) hMem
        ((fd_of_observationOf hFound).trans hFd.symm)
    rw [hFound, hSame]

/-- Which observation is found does not depend on the order of the listing. -/
theorem observationOf_perm {descriptors others : List DescriptorObservation}
    (h : DistinctFds descriptors) (hPerm : others.Perm descriptors) (fd : Int) :
    observationOf others fd = observationOf descriptors fd := by
  have hOthers : DistinctFds others := (hPerm.map _).nodup_iff.mpr h
  apply Option.ext
  intro item
  rw [observationOf_eq_some_iff hOthers, observationOf_eq_some_iff h, hPerm.mem_iff]

theorem validateHandoffContract_perm {descriptors others : List DescriptorObservation}
    (h : DistinctFds descriptors) (hPerm : others.Perm descriptors) :
    validateHandoffContract others = validateHandoffContract descriptors := by
  have hCheck : checkRequiredFd others = checkRequiredFd descriptors := by
    funext fd
    rw [checkRequiredFd, checkRequiredFd, observationOf_perm h hPerm]
  simp only [validateHandoffContract, hCheck, hPerm.mem_iff]

/-- What the turn of a required descriptor asks of its observation. -/
theorem checkRequiredFd_eq_ok_iff {descriptors : List DescriptorObservation}
    (h : DistinctFds descriptors) {fd : Int} :
    checkRequiredFd descriptors fd = .ok () ↔
      ∃ item ∈ descriptors, item.fd = fd ∧
        (fd = kControlFd →
          item.isSeqpacketSocket = true ∧ item.peerIdentityMatches = true) ∧
        (fd = kPlanRootFd → item.isDirectory = true ∧ item.isReadOnly = true) ∧
        (fd = kJournalRootFd → item.isDirectory = true) ∧
        (fd = kContentStoreFd → item.isDirectory = true ∧ item.isReadOnly = true) := by
  cases hFound : observationOf descriptors fd with
  | none =>
      have hAbsent : ∀ item ∈ descriptors, item.fd ≠ fd := by
        intro item hMem hFd
        rw [(observationOf_eq_some_iff h).mpr ⟨hMem, hFd⟩] at hFound
        cases hFound
      simp only [checkRequiredFd, hFound, reduceCtorEq, false_iff]
      rintro ⟨item, hMem, hFd, -⟩
      exact hAbsent item hMem hFd
  | some item =>
      obtain ⟨hMem, hFd⟩ := (observationOf_eq_some_iff h).mp hFound
      have hOnly : ∀ other ∈ descriptors, other.fd = fd → other = item := by
        intro other hOther hOtherFd
        have hSame := (observationOf_eq_some_iff h).mpr ⟨hOther, hOtherFd⟩
        exact (Option.some.inj (hSame.symm.trans hFound))
      simp only [checkRequiredFd, hFound, bind_eq_ok_iff, rejectIf_eq_ok_iff,
        exists_const]
      constructor
      · rintro ⟨hSeqpacket, hPeer, hPlan, hJournal, hContent⟩
        exact ⟨item, hMem, hFd, by grind, by grind, by grind, by grind⟩
      · rintro ⟨other, hOther, hOtherFd, hControl, hPlan, hJournal, hContent⟩
        rw [hOnly other hOther hOtherFd] at hControl hPlan hJournal hContent
        grind

/-- The contract accepts exactly the sealed handoffs, and its answer does not depend on
the order in which the descriptors are listed. -/
theorem handoff_contract {descriptors : List DescriptorObservation}
    (h : DistinctFds descriptors) :
    (validateHandoffContract descriptors = .ok () ↔ SealedHandoff descriptors) ∧
    ∀ others : List DescriptorObservation, others.Perm descriptors →
      validateHandoffContract others = validateHandoffContract descriptors := by
  refine ⟨?_, fun others hPerm => validateHandoffContract_perm h hPerm⟩
  simp only [validateHandoffContract, kRequiredInheritedFds, List.forM_eq_forM,
    List.forM_cons, List.forM_nil, bind_eq_ok_iff, rejectIf_eq_ok_iff, pure_eq_ok,
    exists_const, checkRequiredFd_eq_ok_iff h]
  constructor
  · rintro ⟨⟨⟨control, hControl, hControlFd, hIsControl, -⟩,
      ⟨plan, hPlan, hPlanFd, -, hIsPlan, -⟩,
      ⟨journal, hJournal, hJournalFd, -, -, hIsJournal, -⟩,
      ⟨content, hContent, hContentFd, -, -, -, hIsContent⟩, -⟩, hOther⟩
    exact
      { control := ⟨control, hControl, hControlFd, hIsControl trivial⟩
        planRoot := ⟨plan, hPlan, hPlanFd, hIsPlan trivial⟩
        journalRoot := ⟨journal, hJournal, hJournalFd, hIsJournal trivial⟩
        contentStore := ⟨content, hContent, hContentFd, hIsContent trivial⟩
        noOther := by
          intro item hItem hFd
          by_contra hRequired
          exact hOther ⟨item, hItem, hFd, Bool.eq_false_iff.mpr hRequired⟩ }
  · intro hSealed
    obtain ⟨control, hControl, hControlFd, hIsControl⟩ := hSealed.control
    obtain ⟨plan, hPlan, hPlanFd, hIsPlan⟩ := hSealed.planRoot
    obtain ⟨journal, hJournal, hJournalFd, hIsJournal⟩ := hSealed.journalRoot
    obtain ⟨content, hContent, hContentFd, hIsContent⟩ := hSealed.contentStore
    refine ⟨⟨⟨control, hControl, hControlFd, fun _ => hIsControl, ?_, ?_, ?_⟩,
      ⟨plan, hPlan, hPlanFd, ?_, fun _ => hIsPlan, ?_, ?_⟩,
      ⟨journal, hJournal, hJournalFd, ?_, ?_, fun _ => hIsJournal, ?_⟩,
      ⟨content, hContent, hContentFd, ?_, ?_, ?_, fun _ => hIsContent⟩, trivial⟩, ?_⟩
    case refine_13 =>
      rintro ⟨item, hItem, hFd, hRequired⟩
      rw [hSealed.noOther item hItem hFd] at hRequired
      cases hRequired
    -- the other rules are about other descriptors
    all_goals exact fun hSame => absurd hSame (by decide)

/-- The descriptors of the listing in the test of the source. -/
theorem handoff_contract_sample :
    validateHandoffContract
        [⟨6, true, true, false, false⟩, ⟨3, false, false, true, true⟩,
          ⟨5, true, false, false, false⟩, ⟨4, true, true, false, false⟩] =
      validateHandoffContract
        [⟨3, false, false, true, true⟩, ⟨4, true, true, false, false⟩,
          ⟨5, true, false, false, false⟩, ⟨6, true, true, false, false⟩] :=
  (handoff_contract (by rw [DistinctFds]; decide)).2 _ (by decide)

/-! ### What the program inherits -/

/-- The descriptors of a listing, in its order. -/
def listedFds (listing : ProcSelfFd) : List Int :=
  listing.names.filterMap (listedFd listing)

/-- The kernel tells the flags and the mode of a descriptor. -/
def answersFor (listing : ProcSelfFd) (fd : Int) : Bool :=
  (listing.descriptor fd).flags.isSome && (listing.descriptor fd).stMode.isSome

/-- Why the handoff is refused. -/
def handoffRefusal (listing : ProcSelfFd) : HandoffContractError :=
  if ∃ fd ∈ listedFds listing, answersFor listing fd = false then .unexpectedFd
  else if kControlFd ∉ listedFds listing then .missingRequiredFd
  else if (listing.descriptor kControlFd).socketType ≠ some SOCK_SEQPACKET then
    .controlNotSeqpacket
  else .peerIdentityUnverified

/-- What is observed about a descriptor, as far as the control descriptor depends on
it. -/
structure Observes (listing : ProcSelfFd) (fd : Int) (item : DescriptorObservation) :
    Prop where
  fd_eq : item.fd = fd
  seqpacket : fd = kControlFd → item.isSeqpacketSocket =
    ((listing.descriptor kControlFd).socketType == some SOCK_SEQPACKET)
  peer : item.peerIdentityMatches = false

/-- An entry adds the observation of its descriptor, or is passed over. -/
theorem observeEntry_cases (listing : ProcSelfFd) (observed : List DescriptorObservation)
    (name : Bytes) :
    (listedFd listing name = none ∧ observeEntry listing observed name = .ok observed) ∨
    (∃ fd item, listedFd listing name = some fd ∧ answersFor listing fd = true ∧
      Observes listing fd item ∧
      observeEntry listing observed name = .ok (observed ++ [item])) ∨
    (∃ fd, listedFd listing name = some fd ∧ answersFor listing fd = false ∧
      observeEntry listing observed name = .error .unexpectedFd) := by
  cases hListed : listedFd listing name with
  | none => exact .inl ⟨rfl, by rw [observeEntry, hListed]⟩
  | some fd =>
      right
      cases hFlags : (listing.descriptor fd).flags with
      | none =>
          exact .inr ⟨fd, rfl, by rw [answersFor, hFlags]; rfl,
            by simp only [observeEntry, hListed, hFlags]⟩
      | some flags =>
          cases hMode : (listing.descriptor fd).stMode with
          | none =>
              exact .inr ⟨fd, rfl, by rw [answersFor, hMode, Bool.and_comm]; rfl,
                by simp only [observeEntry, hListed, hFlags, hMode]⟩
          | some stMode =>
              have hAnswers : answersFor listing fd = true := by
                rw [answersFor, hFlags, hMode]
                rfl
              refine .inl ⟨fd, observation fd flags stMode
                (listing.descriptor fd).socketType, rfl, hAnswers, ?_,
                by simp only [observeEntry, hListed, hFlags, hMode]⟩
              refine ⟨rfl, fun hControl => ?_, rfl⟩
              rw [observation, hControl, decide_eq_true rfl, Bool.true_and]

/-- The loop over the entries observes every descriptor that is listed, or stops at one
that the kernel does not answer for. -/
theorem foldlM_observeEntry (listing : ProcSelfFd) (names : List Bytes)
    (observed : List DescriptorObservation) :
    (∃ seen, List.Forall₂ (Observes listing) (names.filterMap (listedFd listing)) seen ∧
      (∀ fd ∈ names.filterMap (listedFd listing), answersFor listing fd = true) ∧
      names.foldlM (observeEntry listing) observed = .ok (observed ++ seen)) ∨
    ((∃ fd ∈ names.filterMap (listedFd listing), answersFor listing fd = false) ∧
      names.foldlM (observeEntry listing) observed = .error .unexpectedFd) := by
  induction names generalizing observed with
  | nil => exact .inl ⟨[], .nil, by simp, by simp⟩
  | cons name names ih =>
      rw [List.foldlM_cons]
      rcases observeEntry_cases listing observed name with
        ⟨hListed, hStep⟩ | ⟨fd, item, hListed, hAnswers, hItem, hStep⟩ |
          ⟨fd, hListed, hAnswers, hStep⟩
      · rw [hStep, ok_bind, List.filterMap_cons_none hListed]
        exact ih observed
      · rw [hStep, ok_bind, List.filterMap_cons_some hListed]
        rcases ih (observed ++ [item]) with ⟨seen, hSeen, hAll, hRun⟩ | ⟨hSome, hRun⟩
        · refine .inl ⟨item :: seen, .cons hItem hSeen,
            List.forall_mem_cons.mpr ⟨hAnswers, hAll⟩, ?_⟩
          rw [hRun, List.append_assoc, List.singleton_append]
        · obtain ⟨other, hOther, hNone⟩ := hSome
          exact .inr ⟨⟨other, List.mem_cons_of_mem _ hOther, hNone⟩, hRun⟩
      · rw [hStep, error_bind, List.filterMap_cons_some hListed]
        exact .inr ⟨⟨fd, List.mem_cons_self, hAnswers⟩, rfl⟩

/-- The first observation of the control descriptor is that of its socket. -/
theorem observationOf_control {listing : ProcSelfFd} {fds : List Int}
    {seen : List DescriptorObservation} (h : List.Forall₂ (Observes listing) fds seen) :
    (kControlFd ∉ fds ∧ observationOf seen kControlFd = none) ∨
    (kControlFd ∈ fds ∧ ∃ item, observationOf seen kControlFd = some item ∧
      Observes listing kControlFd item) := by
  induction h with
  | nil => exact .inl ⟨List.not_mem_nil, rfl⟩
  | @cons fd item fds seen hItem hSeen ih =>
      by_cases hControl : fd = kControlFd
      · subst hControl
        refine .inr ⟨List.mem_cons_self, item, ?_, hItem⟩
        exact List.find?_cons_of_pos (decide_eq_true hItem.fd_eq)
      · have hSkip : observationOf (item :: seen) kControlFd =
            observationOf seen kControlFd := by
          refine List.find?_cons_of_neg ?_
          rw [decide_eq_true_iff, hItem.fd_eq]
          exact hControl
        rw [hSkip, List.mem_cons]
        rcases ih with ⟨hAbsent, hNone⟩ | ⟨hPresent, hFound⟩
        · refine .inl ⟨fun hMem => ?_, hNone⟩
          rcases hMem with hHead | hTail
          · exact hControl hHead.symm
          · exact hAbsent hTail
        · exact .inr ⟨.inr hPresent, hFound⟩

/-- The handoff of a process is never accepted: the loop over the required descriptors
starts with the control descriptor, and nothing has verified its peer. -/
theorem validateRuntimeHandoff_eq (listing : ProcSelfFd) :
    validateRuntimeHandoff (some listing) = .error (handoffRefusal listing) := by
  rw [validateRuntimeHandoff]
  rcases foldlM_observeEntry listing listing.names [] with
    ⟨seen, hSeen, hAll, hRun⟩ | ⟨hSome, hRun⟩
  · change List.Forall₂ _ (listedFds listing) seen at hSeen
    have hAnswers : ¬ ∃ fd ∈ listedFds listing, answersFor listing fd = false := by
      rintro ⟨fd, hFd, hNone⟩
      rw [hAll fd hFd] at hNone
      cases hNone
    rw [hRun, ok_bind, List.nil_append, handoffRefusal, if_neg hAnswers,
      validateHandoffContract, kRequiredInheritedFds, List.forM_eq_forM, List.forM_cons,
      checkRequiredFd]
    rcases observationOf_control hSeen with
      ⟨hAbsent, hNone⟩ | ⟨hPresent, item, hFound, hItem⟩
    · rw [hNone, if_pos hAbsent]
      rfl
    · rw [hFound, if_neg (not_not_intro hPresent)]
      by_cases hType : (listing.descriptor kControlFd).socketType = some SOCK_SEQPACKET
      · have hSeqpacket : item.isSeqpacketSocket = true := by
          rw [hItem.seqpacket rfl, hType]
          rfl
        simp [rejectIf, hSeqpacket, hItem.peer, hType]
      · have hSeqpacket : item.isSeqpacketSocket = false := by
          rw [hItem.seqpacket rfl]
          exact beq_false_of_ne hType
        simp [rejectIf, hSeqpacket, hType]
  · change ∃ fd ∈ listedFds listing, answersFor listing fd = false at hSome
    rw [hRun, error_bind, handoffRefusal, if_pos hSome]

/-- Whatever the program is started with, it ends with a failure: it asks for the
arguments, the environment and the handoff, and a handoff is refused for one of four
reasons, of which an unverified peer is left when there is no other. -/
theorem main_fails_closed (libaptPkgHeadersAvailable : Bool) (start : ProcessStart) :
    (main libaptPkgHeadersAvailable start).status = EXIT_FAILURE ∧
    validateRuntimeHandoff start.procSelfFd =
      .error (start.procSelfFd.elim .missingRequiredFd handoffRefusal) := by
  have hRefused : validateRuntimeHandoff start.procSelfFd =
      .error (start.procSelfFd.elim .missingRequiredFd handoffRefusal) := by
    cases start.procSelfFd with
    | none => rfl
    | some listing => exact validateRuntimeHandoff_eq listing
  refine ⟨?_, hRefused⟩
  rw [main, hRefused]
  cases validateStartupContract start.argc start.argv start.environ with
  | error error => rfl
  | ok _ => rfl

end Helper
end RootPermit
