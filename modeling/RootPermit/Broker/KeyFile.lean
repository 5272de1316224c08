import RootPermit.Broker.Soundness

/-!
# The key file

`BrokerSigningKey::load_or_create` over the path of the key file, one system call at a
time.  A launch of the broker can be killed between any two of them, and any of them can
fail; the next launch finds the file as the one before left it.

* `Host` — the path, the running process and the database;
* `Host.Consistent` — what the path holds at each point of a launch;
* `one_identity` — all launches sign with one key, and the database accepts it.
-/

namespace RootPermit
namespace Broker

open Foundation Protocol

/-! ### Files -/

/-- What `open` and `fstat` tell apart. -/
inductive FileKind where
  | regular
  | directory
  | special
  deriving DecidableEq, Repr

structure KeyFile where
  kind : FileKind
  mode : UInt32
  uid : UInt32
  nlink : UInt64
  bytes : Bytes
  deriving DecidableEq, Repr

/-- What the path of the key file leads to. -/
inductive KeyPath where
  | absent
  | symlink (resolves : Bool)
  | entry (file : KeyFile)
  deriving DecidableEq, Repr

namespace KeyFile

/-- The metadata with which a key is refused. -/
def Unsafe (file : KeyFile) : Prop :=
  file.kind ≠ .regular ∨ file.mode &&& 0o077 ≠ 0 ∨ file.uid ≠ 0 ∨ file.nlink ≠ 1

instance (file : KeyFile) : Decidable file.Unsafe := by
  unfold Unsafe
  infer_instance

/-- A write at an offset; what the file has beyond it stays. -/
def write (offset : Nat) (bytes : Bytes) (file : KeyFile) : KeyFile :=
  { file with
    bytes := file.bytes.take offset ++ bytes ++ file.bytes.drop (offset + bytes.length) }

end KeyFile

namespace KeyPath

/-- `Path::exists` follows symbolic links. -/
def resolves : KeyPath → Bool
  | .absent => false
  | .symlink resolves => resolves
  | .entry _ => true

/-- The file that an open descriptor refers to; nothing unlinks it. -/
def file? : KeyPath → Option KeyFile
  | .entry file => some file
  | _ => none

end KeyPath

/-! ### Launches -/

/-- A process that runs the broker. -/
structure Process where
  uid : UInt32
  umask : UInt32

/-- The file that `open` creates. -/
def Process.create (process : Process) : KeyFile where
  kind := .regular
  mode := 0o100600 &&& ~~~ process.umask
  uid := process.uid
  nlink := 1
  bytes := []

/-- Opens for reading and writing, creating a missing file and following no symbolic
link. -/
def Process.openKey (process : Process) : KeyPath → Except BrokerError KeyFile
  | .absent => .ok process.create
  | .symlink _ => .error .io
  | .entry file => do
      rejectIf (file.kind = .directory) .io
      return file

/-- The points of `load_or_create` between its system calls. -/
inductive Loading where
  | starting
  | looked (present : Bool)
  | opened (present : Bool)
  | trusted (present : Bool)
  | read (seed : ByteArr 32)
  | seeded (seed : ByteArr 32) (written : Nat)
  deriving DecidableEq, Repr

/-- What the running process is doing. -/
inductive Progress where
  | idle
  | loading (process : Process) (point : Loading)
  | serving (signer : BrokerSigningKey)
  | failed (fault : BrokerError)

/-- A host of the broker, with the keys that `load_or_create` has returned. -/
structure Host where
  path : KeyPath
  progress : Progress
  issued : List BrokerSigningKey
  store : BrokerStore

/-- What can happen on a host.  A system call that proceeds is answered with random bytes
and with a number of bytes, for those calls that ask for one. -/
inductive HostEvent where
  | launch (process : Process)
  | proceeds (random : ByteArr 32) (count : Nat)
  | fails
  | call (call : Call)

namespace Host

/-- A host on which no broker has run. -/
def start (path : KeyPath) : Host where
  path := path
  progress := .idle
  issued := []
  store := BrokerStore.empty

def reach (host : Host) (process : Process) (point : Loading) : Host :=
  { host with progress := .loading process point }

def fail (host : Host) (fault : BrokerError) : Host :=
  { host with progress := .failed fault }

def finish (host : Host) (signer : BrokerSigningKey) : Host :=
  { host with progress := .serving signer, issued := host.issued ++ [signer] }

/-- The next system call of `load_or_create`. -/
def proceed (host : Host) (process : Process) (random : ByteArr 32) (count : Nat) :
    Loading → Host
  | .starting => host.reach process (.looked host.path.resolves)
  | .looked present =>
      match process.openKey host.path with
      | .ok file => { host with path := .entry file }.reach process (.opened present)
      | .error fault => host.fail fault
  | .opened present =>
      match host.path.file? with
      | some file =>
          if file.Unsafe then host.fail .unsafeKey
          else host.reach process (.trusted present)
      | none => host.fail .io
  | .trusted true =>
      match host.path.file? with
      | some file =>
          -- A file that ends within the seed is an unexpected end.
          match ByteArr.ofBytes? 32 (file.bytes.take 32) with
          | some seed => host.reach process (.read seed)
          | none => host.fail .io
      | none => host.fail .io
  | .trusted false => host.reach process (.seeded random 0)
  | .read seed =>
      match host.path.file? with
      | some file =>
          -- One more byte after the seed makes the file unsafe.
          if file.bytes.length ≤ 32 then host.finish { key := seed }
          else host.fail .unsafeKey
      | none => host.fail .io
  | .seeded seed written =>
      if written < 32 then
        match host.path.file? with
        | some file =>
            -- A write takes part of the rest, and one that takes nothing is an error.
            if count = 0 then host.fail .io
            else
              let taken := (seed.val.drop written).take count
              { host with path := .entry (file.write written taken) }.reach process
                (.seeded seed (written + taken.length))
        | none => host.fail .io
      else host.finish { key := seed }

end Host

/-- The key with which a call signs. -/
def Call.signer? : Call → Option BrokerSigningKey
  | .initializeIdentity signer _ => some signer
  | .startBoot _ signer _ _ => some signer
  | .prepareForDecision _ _ _ signer => some signer
  | .applyWebauthnSubmission _ signer _ => some signer
  | .transitionTerminal _ _ _ signer _ _ => some signer
  | .reconcileRecovery _ _ _ signer _ _ => some signer
  | _ => none

namespace Host

section Step

variable [Cryptography]

/-- A launch replaces the process that ran before it and opens the database again; the
calls of a process sign with the key that it has loaded. -/
def step (host : Host) : HostEvent → Host
  | .launch process =>
      { host with
        progress := .loading process .starting
        store := host.store.step .reopen }
  | .proceeds random count =>
      match host.progress with
      | .loading process point => host.proceed process random count point
      | _ => host
  | .fails =>
      match host.progress with
      -- `Path::exists` answers that there is nothing where it cannot look.
      | .loading process .starting => host.reach process (.looked false)
      | .loading _ _ => host.fail .io
      | _ => host
  | .call call =>
      match host.progress with
      | .serving signer =>
          if ∀ used ∈ call.signer?, used = signer then
            { host with store := host.store.step call }
          else host
      | _ => host

end Step

/-- The look at the path fails, so that it seems to lead to nothing. -/
def LookupFails (host : Host) : HostEvent → Prop
  | .fails => ∃ process, host.progress = .loading process .starting
  | _ => False

end Host

/-! ### The row of the identity -/

/-- The row can be replaced by any row that passes its checks. -/
theorem execute_identity (write : Tables → Option IdentityRow) {database : Database}
    (h : ∀ row ∈ write database.toTables, row.Checked) :
    ∃ after, execute (fun tables => { tables with brokerIdentity := write tables })
      database = .ok ((), after) := by
  have hConstraints : Constraints
      { database.toTables with brokerIdentity := write database.toTables } :=
    { database.constraints with identityChecks := h }
  exact ⟨⟨_, hConstraints⟩, execute_eq_ok_iff.mpr rfl⟩

/-! ### What the path holds -/

/-- The path holds this seed and nothing else, in a file that is not refused. -/
def KeyPath.Stored (path : KeyPath) (seed : ByteArr 32) : Prop :=
  ∃ file, path = .entry file ∧ ¬ file.Unsafe ∧ file.bytes = seed.val

theorem KeyPath.Stored.unique {path : KeyPath} {first second : ByteArr 32}
    (hFirst : path.Stored first) (hSecond : path.Stored second) : first = second := by
  obtain ⟨file, rfl, -, hBytes⟩ := hFirst
  obtain ⟨_, hSame, -, hOther⟩ := hSecond
  cases hSame
  exact Subtype.ext (hBytes.symm.trans hOther)

/-- What the path holds when a launch is at this point. -/
def Loading.Consistent (path : KeyPath) : Loading → Prop
  | .starting => True
  | .looked present => path.resolves = present
  | .opened present => ∃ file, path = .entry file ∧ (present = false → file.bytes = [])
  | .trusted present =>
      ∃ file, path = .entry file ∧ ¬ file.Unsafe ∧ (present = false → file.bytes = [])
  | .read seed =>
      ∃ file, path = .entry file ∧ ¬ file.Unsafe ∧ file.bytes.take 32 = seed.val
  | .seeded seed written =>
      ∃ file, path = .entry file ∧ ¬ file.Unsafe ∧ written ≤ 32 ∧
        file.bytes = seed.val.take written

/-- Where nothing was found, `open` has created an empty file. -/
theorem Process.openKey_eq_ok {process : Process} {path : KeyPath} {file : KeyFile}
    (h : process.openKey path = .ok file) :
    path = .entry file ∨ path = .absent ∧ file.bytes = [] := by
  cases path with
  | absent =>
      cases h
      exact .inr ⟨rfl, rfl⟩
  | symlink resolves => cases h
  | entry old =>
      obtain ⟨_, -, hSame⟩ := bind_eq_ok_iff.mp h
      cases hSame
      exact .inl rfl

/-- A write at the end of a file appends. -/
theorem KeyFile.write_end {file : KeyFile} {bytes : Bytes} {offset : Nat}
    (h : file.bytes.length = offset) :
    (file.write offset bytes).bytes = file.bytes ++ bytes := by
  rw [write, List.take_of_length_le h.le, List.drop_eq_nil_of_le (by omega),
    List.append_nil]

/-- The part of a seed that is written grows by what a write takes. -/
theorem take_append_taken {bytes : Bytes} {written count : Nat} :
    bytes.take written ++ (bytes.drop written).take count =
      bytes.take (written + ((bytes.drop written).take count).length) := by
  rw [List.take_add, List.length_take, ← List.take_eq_take_min]

namespace Host

variable [Cryptography]

/-- The path holds every key that was returned, and the database names one of them. -/
structure Consistent (host : Host) : Prop where
  stored : ∀ signer ∈ host.issued, host.path.Stored signer.key
  loading : ∀ process point, host.progress = .loading process point →
    point.Consistent host.path
  serving : ∀ signer, host.progress = .serving signer → signer ∈ host.issued
  pinned : ∀ row, host.store.database.brokerIdentity = some row →
    ∃ signer ∈ host.issued, row.Names signer

namespace Consistent

variable {host : Host} {process : Process}

theorem reach {point : Loading} (h : host.Consistent)
    (hPoint : point.Consistent host.path) : (host.reach process point).Consistent where
  stored := h.stored
  loading := by
    intro other found hProgress
    cases hProgress
    exact hPoint
  serving := by
    intro signer hProgress
    cases hProgress
  pinned := h.pinned

theorem fail {fault : BrokerError} (h : host.Consistent) :
    (host.fail fault).Consistent where
  stored := h.stored
  loading := by
    intro other found hProgress
    cases hProgress
  serving := by
    intro signer hProgress
    cases hProgress
  pinned := h.pinned

theorem finish {signer : BrokerSigningKey} (h : host.Consistent)
    (hStored : host.path.Stored signer.key) : (host.finish signer).Consistent where
  stored := by
    intro issued hIssued
    rcases List.mem_append.mp hIssued with hOld | hNew
    · exact h.stored issued hOld
    · rw [List.mem_singleton.mp hNew]
      exact hStored
  loading := by
    intro other found hProgress
    cases hProgress
  serving := by
    intro found hProgress
    cases hProgress
    exact List.mem_append_right _ (List.mem_singleton_self _)
  pinned := by
    intro row hRow
    obtain ⟨issued, hIssued, hNames⟩ := h.pinned row hRow
    exact ⟨issued, List.mem_append_left _ hIssued, hNames⟩

/-- The file can change while no key is stored in it. -/
theorem rewrite {file : KeyFile} {point : Loading} (h : host.Consistent)
    (hEmpty : ∀ seed, ¬ host.path.Stored seed) (hPoint : point.Consistent (.entry file)) :
    ({ host with path := .entry file }.reach process point).Consistent where
  stored := fun signer hSigner => absurd (h.stored signer hSigner) (hEmpty _)
  loading := by
    intro other found hProgress
    cases hProgress
    exact hPoint
  serving := by
    intro signer hProgress
    cases hProgress
  pinned := h.pinned

/-- A system call of `load_or_create` that succeeds. -/
theorem proceed {random : ByteArr 32} {count : Nat} {point : Loading}
    (h : host.Consistent) (hPoint : point.Consistent host.path) :
    (host.proceed process random count point).Consistent := by
  cases point with
  | starting => exact h.reach rfl
  | looked present =>
      rw [Host.proceed]
      cases hOpen : process.openKey host.path with
      | error fault => exact h.fail
      | ok file =>
          rcases Process.openKey_eq_ok hOpen with hPath | ⟨hPath, hBytes⟩
          · -- The file was there when the launch looked.
            dsimp only
            rw [← hPath]
            refine h.reach ⟨file, hPath, ?_⟩
            intro hAbsent
            rw [Loading.Consistent, hPath, hAbsent] at hPoint
            cases hPoint
          · refine h.rewrite ?_ ⟨file, rfl, fun _ => hBytes⟩
            rintro seed ⟨old, hOld, -⟩
            rw [hPath] at hOld
            cases hOld
  | opened present =>
      obtain ⟨file, hPath, hBytes⟩ := hPoint
      rw [Host.proceed, hPath]
      dsimp only [KeyPath.file?]
      split_ifs with hUnsafe
      · exact h.fail
      · exact h.reach ⟨file, hPath, hUnsafe, hBytes⟩
  | trusted present =>
      obtain ⟨file, hPath, hSafe, hBytes⟩ := hPoint
      cases present with
      | false =>
          refine h.reach ⟨file, hPath, hSafe, Nat.zero_le _, ?_⟩
          rw [hBytes rfl, List.take_zero]
      | true =>
          rw [Host.proceed, hPath]
          dsimp only [KeyPath.file?]
          cases hSeed : ByteArr.ofBytes? 32 (file.bytes.take 32) with
          | none => exact h.fail
          | some seed =>
              exact h.reach ⟨file, hPath, hSafe, (ByteArr.ofBytes?_eq_some_iff.mp hSeed).symm⟩
  | read seed =>
      obtain ⟨file, hPath, hSafe, hSeed⟩ := hPoint
      rw [Host.proceed, hPath]
      dsimp only [KeyPath.file?]
      split_ifs with hLength
      · refine h.finish ⟨file, hPath, hSafe, ?_⟩
        rw [← hSeed, List.take_of_length_le hLength]
      · exact h.fail
  | seeded seed written =>
      obtain ⟨file, hPath, hSafe, hWritten, hBytes⟩ := hPoint
      have hSize : seed.val.length = 32 := seed.property
      rw [Host.proceed]
      by_cases hRest : written < 32
      · rw [if_pos hRest, hPath]
        dsimp only [KeyPath.file?]
        split_ifs with hCount
        · exact h.fail
        · have hLength : file.bytes.length = written := by
            rw [hBytes, List.length_take]
            omega
          refine h.rewrite ?_ ⟨_, rfl, hSafe, ?_, ?_⟩
          · -- A seed that is not written whole is not stored.
            rintro stored ⟨old, hOld, -, hStored⟩
            rw [hPath] at hOld
            cases hOld
            have hWhole : stored.val.length = 32 := stored.property
            rw [← hStored] at hWhole
            omega
          · simp only [List.length_take, List.length_drop]
            omega
          · rw [KeyFile.write_end hLength, hBytes, take_append_taken]
      · rw [if_neg hRest]
        refine h.finish ⟨file, hPath, hSafe, ?_⟩
        rw [hBytes, List.take_of_length_le (by omega)]

/-- The calls of a process that signs with its own key pin no other one. -/
theorem call {signer : BrokerSigningKey} {call : Call} (h : host.Consistent)
    (hServing : host.progress = .serving signer)
    (hSigns : ∀ used ∈ call.signer?, used = signer) :
    ({ host with store := host.store.step call } : Host).Consistent where
  stored := h.stored
  loading := h.loading
  serving := h.serving
  pinned := by
    intro row hRow
    rcases host.store.step_cases call with hSame | hDone
    · dsimp only at hRow
      rw [hSame] at hRow
      exact h.pinned row hRow
    by_cases hIdentity : ∃ used entropy, call = .initializeIdentity used entropy
    · obtain ⟨used, entropy, rfl⟩ := hIdentity
      obtain ⟨pinned, hAfter, ⟨hNames, -⟩, -⟩ := initializeIdentity_eq_ok hDone
      have hSame : used = signer := hSigns used rfl
      rw [hAfter, Option.some.injEq] at hRow
      rw [← hRow]
      exact ⟨signer, h.serving signer hServing, hSame ▸ hNames⟩
    · have hOther : ∀ used entropy, call ≠ .initializeIdentity used entropy :=
        fun used entropy hSame => hIdentity ⟨used, entropy, hSame⟩
      dsimp only at hRow
      rw [(Call.shared hDone).sameIdentity hOther] at hRow
      exact h.pinned row hRow

/-- Every event keeps this, except a look at the path that fails. -/
theorem step (host : Host) (event : HostEvent) (h : host.Consistent)
    (hLook : ¬ LookupFails host event) : (host.step event).Consistent := by
  cases event with
  | launch process =>
      refine { stored := h.stored, loading := ?_, serving := ?_, pinned := ?_ }
      · intro other point hProgress
        cases hProgress
        trivial
      · intro signer hProgress
        cases hProgress
      · intro row hRow
        rcases host.store.step_cases .reopen with hSame | hDone
        · dsimp only [Host.step] at hRow
          rw [hSame] at hRow
          exact h.pinned row hRow
        · have hOther : ∀ signer entropy,
              Call.reopen ≠ .initializeIdentity signer entropy :=
            fun _ _ hSame => by cases hSame
          dsimp only [Host.step] at hRow
          rw [(Call.shared hDone).sameIdentity hOther] at hRow
          exact h.pinned row hRow
  | proceeds random count =>
      unfold Host.step
      cases hProgress : host.progress with
      | loading process point => exact h.proceed (h.loading process point hProgress)
      | idle => exact h
      | serving signer => exact h
      | failed fault => exact h
  | fails =>
      unfold Host.step
      cases hProgress : host.progress with
      | loading process point =>
          cases point with
          | starting => exact absurd ⟨process, hProgress⟩ hLook
          | _ => exact h.fail
      | idle => exact h
      | serving signer => exact h
      | failed fault => exact h
  | call call =>
      unfold Host.step
      cases hProgress : host.progress with
      | serving signer =>
          dsimp only
          split_ifs with hSigns
          · have hCall := h.call hProgress hSigns
            rw [hProgress] at hCall
            exact hCall
          · exact h
      | idle => exact h
      | loading process point => exact h
      | failed fault => exact h

end Consistent

/-! ### One identity -/

/-- The next launch loads a stored key, if its system calls succeed. -/
theorem loads_stored {host : Host} {seed : ByteArr 32} (h : host.path.Stored seed)
    (process : Process) (answers : List (ByteArr 32 × Nat)) (hAnswers : answers.length = 5) :
    (run step host (.launch process ::
      answers.map fun answer => .proceeds answer.1 answer.2)).progress =
      .serving { key := seed } := by
  obtain ⟨file, hPath, hSafe, hBytes⟩ := h
  match answers, hAnswers with
  | [_, _, _, _, _], _ =>
    have hOpen : process.openKey (.entry file) = .ok file := by
      have hKind : file.kind ≠ .directory := by
        intro hKind
        exact hSafe (.inl (by rw [hKind]; decide))
      rw [Process.openKey, rejectIf, if_neg hKind]
      rfl
    have hSeed : ByteArr.ofBytes? 32 (file.bytes.take 32) = some seed := by
      rw [hBytes, List.take_of_length_le seed.property.le, ByteArr.ofBytes?_val]
    have hWhole : file.bytes.length ≤ 32 := by
      rw [hBytes]
      exact seed.property.le
    simp only [List.map_cons, List.map_nil, run_cons, run_nil, step, proceed, reach, hPath,
      KeyPath.resolves, KeyPath.file?, hOpen, if_neg hSafe, hSeed, if_pos hWhole, finish]

theorem length_kid (signer : BrokerSigningKey) : signer.kid.length = 16 := by
  have hDigest : (sha256 signer.publicKey.val).val.length = 32 :=
    (sha256 signer.publicKey.val).property
  rw [BrokerSigningKey.kid, List.length_take, hDigest]
  rfl

/-- A database that names this signer, or nobody, accepts it. -/
theorem initializeIdentity_accepts {signer : BrokerSigningKey} {random : ByteArr 16}
    {database : Database}
    (h : ∀ row, database.brokerIdentity = some row → row.Names signer) :
    ∃ result, initializeIdentity signer (some random) database = .ok result := by
  have hRead : query (fun tables => .ok tables.brokerIdentity) database =
      .ok (database.brokerIdentity, database) := query_eq_ok_iff.mpr ⟨rfl, rfl⟩
  have hRandom : attempt (randomBytes16 (some random)) database =
      .ok (random, database) := attempt_eq_ok_iff.mpr ⟨rfl, rfl⟩
  rw [initializeIdentity, run_bind_of_ok hRead]
  cases hIdentity : database.brokerIdentity with
  | none =>
      have hChecked : (IdentityRow.mk signer.kid signer.publicKey.val 0
          (some random.val)).Checked := by
        refine ⟨?_, signer.publicKey.property, Int64.le_refl 0, ?_⟩
        · rw [length_kid]
          omega
        · intro bytes hBytes
          cases hBytes
          exact random.property
      obtain ⟨after, hAfter⟩ := execute_identity (fun _ => some _)
        fun row hRow => by
          cases hRow
          exact hChecked
      dsimp only
      rw [run_bind_of_ok hRandom, run_bind_of_ok hAfter]
      exact ⟨_, rfl⟩
  | some row =>
      have hRow : row.Checked := database.constraints.identityChecks row hIdentity
      have hAccepted : attempt (rejectIf (¬ row.Names signer) BrokerError.unsafeKey)
          database = .ok ((), database) :=
        attempt_eq_ok_iff.mpr
          ⟨rejectIf_eq_ok_iff.mpr (not_not.mpr (h row hIdentity)), rfl⟩
      dsimp only
      rw [run_bind_of_ok hAccepted]
      cases hDevice : row.deviceId with
      | some deviceId =>
          have hLength : deviceId.length = 16 := hRow.2.2.2 deviceId hDevice
          refine ⟨(⟨deviceId, hLength⟩, database), attempt_eq_ok_iff.mpr ⟨?_, rfl⟩⟩
          rw [orFault_eq_ok_iff, ByteArr.ofBytes?_eq_some_iff]
      | none =>
          have hChecked : { row with deviceId := some random.val }.Checked := by
            refine ⟨hRow.1, hRow.2.1, hRow.2.2.1, ?_⟩
            intro bytes hBytes
            cases hBytes
            exact random.property
          obtain ⟨after, hAfter⟩ := execute_identity
            (fun tables => tables.brokerIdentity.map fun row =>
              { row with deviceId := some random.val })
            fun filled hFilled => by
              rw [hIdentity] at hFilled
              cases hFilled
              exact hChecked
          dsimp only
          rw [run_bind_of_ok hRandom, run_bind_of_ok hAfter]
          exact ⟨_, rfl⟩

/-- The launches of the broker agree on one key. -/
structure OneIdentity (host : Host) : Prop where
  oneKey : ∀ first ∈ host.issued, ∀ second ∈ host.issued, first = second
  stored : ∀ signer ∈ host.issued, host.path.Stored signer.key
  reloaded : ∀ signer ∈ host.issued, ∀ (process : Process)
    (answers : List (ByteArr 32 × Nat)), answers.length = 5 →
    (run step host (.launch process ::
      answers.map fun answer => .proceeds answer.1 answer.2)).progress = .serving signer
  pinned : ∀ signer ∈ host.issued, ∀ row, host.store.database.brokerIdentity = some row →
    row.Names signer
  accepted : ∀ signer ∈ host.issued, ∀ random,
    ∃ next, host.store.call (.initializeIdentity signer (some random)) = .ok next

/-- However often the broker is killed while it loads its key, and whatever else fails,
every launch that ends has the same key, and the database of the host accepts it. -/
theorem one_identity (path : KeyPath) (events : List HostEvent)
    (hLooks : Throughout step (start path) events fun host event =>
      ¬ LookupFails host event) :
    OneIdentity (run step (start path) events) := by
  have hStart : (start path).Consistent :=
    { stored := fun _ hSigner => by cases hSigner
      loading := fun _ _ hProgress => by cases hProgress
      serving := fun _ hProgress => by cases hProgress
      pinned := fun _ hRow => by cases hRow }
  have hRun := run_invariant_of_throughout hStart Consistent.step hLooks
  have hOne : ∀ first ∈ (run step (start path) events).issued,
      ∀ second ∈ (run step (start path) events).issued, first = second := by
    intro first hFirst second hSecond
    have hKeys := (hRun.stored first hFirst).unique (hRun.stored second hSecond)
    cases first
    cases second
    cases hKeys
    rfl
  have hPinned : ∀ signer ∈ (run step (start path) events).issued, ∀ row,
      (run step (start path) events).store.database.brokerIdentity = some row →
      row.Names signer := by
    intro signer hSigner row hRow
    obtain ⟨issued, hIssued, hNames⟩ := hRun.pinned row hRow
    rw [hOne signer hSigner issued hIssued]
    exact hNames
  refine ⟨hOne, hRun.stored, ?_, hPinned, ?_⟩
  · intro signer hSigner process answers hAnswers
    exact loads_stored (hRun.stored signer hSigner) process answers hAnswers
  · intro signer hSigner random
    obtain ⟨result, hDone⟩ : ∃ result, initializeIdentity signer (some random)
        (run step (start path) events).store.database = .ok result :=
      initializeIdentity_accepts (hPinned signer hSigner)
    exact ⟨_, by rw [BrokerStore.call, Call.transaction, hDone]; rfl⟩

end Host

/-- A launch by root that finds no key, and writes one in two parts. -/
def firstLaunch (key : ByteArr 32) : List HostEvent :=
  .launch { uid := 0, umask := 0o022 } :: List.replicate 7 (.proceeds key 20)

/-- The key of the first launch is pinned, and the sample run has one identity. -/
theorem one_identity_sample :
    let _ : Cryptography := keyedHashCryptography
    let events := firstLaunch sampleSigner.key ++
      [.call (.initializeIdentity sampleSigner (some (ByteArr.fill 16 9)))]
    (run Host.step (.start .absent) events).issued = [sampleSigner] ∧
      Host.OneIdentity (run Host.step (.start .absent) events) := by
  intro _ events
  refine ⟨by decide +kernel, Host.one_identity .absent events ?_⟩
  intro earlier event later hSplit hFails
  have hMem : event ∈ events := by
    rw [hSplit]
    exact List.mem_append_right _ List.mem_cons_self
  cases event with
  | fails => simp [events, firstLaunch] at hMem
  | _ => exact hFails

-- A look that fails makes the next launch write its own key over the stored one.
example : let _ : Cryptography := keyedHashCryptography
    (run Host.step (.start .absent) (firstLaunch (ByteArr.fill 32 1) ++
      [.launch { uid := 0, umask := 0o022 }, .fails] ++
      List.replicate 6 (.proceeds (ByteArr.fill 32 2) 20))).issued =
      [{ key := ByteArr.fill 32 1 }, { key := ByteArr.fill 32 2 }] := by
  decide +kernel

end Broker
end RootPermit
