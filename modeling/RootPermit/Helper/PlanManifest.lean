import RootPermit.Foundation.Cryptography
import RootPermit.Helper.Cbor

/-!
# Plan manifests of the privileged helper

This module embeds `parse_plan_manifest` of `startup_contract.cpp`, with the action
graph that it normalises.  A function that fills an output and returns a `bool` is a
function into `Option`.
-/

namespace RootPermit
namespace Helper

open Foundation

/-! ### Fields -/

def hasKey (key : UInt64) : CborValue × CborValue → Bool
  | (.unsignedInteger candidate, _) => decide (candidate = key)
  | _ => false

def mapField (map : CborValue) (key : UInt64) : Option CborValue :=
  match map with
  | .map entries => (entries.find? (hasKey key)).map Prod.snd
  | _ => none

def mapHasExactFields (map : CborValue) (keys : List UInt64) : Bool :=
  match map with
  | .map entries => decide (entries.length = keys.length) &&
      keys.all fun key => (mapField map key).isSome
  | _ => false

def copyDigest : Option CborValue → Option Digest
  | some (.bytes bytes) => ByteArr.ofBytes? 32 bytes
  | _ => none

def unsignedField : Option CborValue → Option UInt64
  | some (.unsignedInteger value) => some value
  | _ => none

def validPackageName (value : Bytes) : Bool :=
  match value with
  | [] => false
  | first :: rest =>
      decide (rest.length + 1 ≤ 255) && decide (0x61 ≤ first ∧ first ≤ 0x7a) &&
        rest.all fun item => decide (0x61 ≤ item ∧ item ≤ 0x7a) ||
          decide (0x30 ≤ item ∧ item ≤ 0x39) || item == 0x2b || item == 0x2e ||
          item == 0x2d

def validText (value : Option CborValue) (maximum : Nat) (allowEmpty : Bool) :
    Option Bytes :=
  match value with
  | some (.text text) =>
      if maximum < text.length ∨ (allowEmpty = false ∧ text = []) then none
      else some text
  | _ => none

/-! ### The action graph -/

/-- An `enum class` over `std::uint64_t`, whose objects may hold other values. -/
structure PackageActionKind where
  code : UInt64
  deriving DecidableEq, Repr

def PackageActionKind.install : PackageActionKind where
  code := 1

structure PackageAction where
  packageName : Bytes
  architecture : Bytes
  installedVersion : Bytes
  targetVersion : Bytes
  kind : PackageActionKind
  originIdentity : Bytes
  debDigest : Digest
  archiveBytes : UInt64
  installedDeltaBytes : UInt64
  dependencyParents : List UInt32
  deriving DecidableEq, Repr

def parseParent : CborValue → Option UInt32
  | .unsignedInteger value => toU32? value.toNat
  | _ => none

def parseAction (value : CborValue) : Option PackageAction := do
  guard (mapHasExactFields value [1, 2, 3, 4, 5, 6, 7, 8, 9, 10])
  let packageName ← validText (mapField value 1) 255 false
  guard (validPackageName packageName)
  let architecture ← validText (mapField value 2) 64 false
  let installedVersion ← validText (mapField value 3) 256 true
  let targetVersion ← validText (mapField value 4) 256 false
  let originIdentity ← validText (mapField value 6) 512 false
  let kind ← unsignedField (mapField value 5)
  guard (kind = 1)
  let archiveBytes ← unsignedField (mapField value 9)
  let installedDeltaBytes ← unsignedField (mapField value 10)
  let debDigest ← copyDigest (mapField value 7)
  match mapField value 8 with
  | some (.array parents) =>
      guard (parents.length ≤ kMaxGraphActions)
      let dependencyParents ← parents.mapM parseParent
      return { packageName, architecture, installedVersion, targetVersion
               kind := .install, originIdentity, debDigest, archiveBytes
               installedDeltaBytes, dependencyParents }
  | _ => none

/-- The order of the frozen-plan keys `(package_name, architecture,
target_version)`. -/
def compareKeys (left right : PackageAction) : Ordering :=
  (compare left.packageName right.packageName).then
    ((compare left.architecture right.architecture).then
      (compare left.targetVersion right.targetVersion))

/-- `std::adjacent_find` finds something. -/
def adjacentFind {α : Type} (same : α → α → Bool) : List α → Bool
  | first :: second :: rest => same first second || adjacentFind same (second :: rest)
  | _ => false

def validAction (count : Nat) (action : PackageAction) : Bool :=
  validPackageName action.packageName && !action.architecture.isEmpty &&
    !action.targetVersion.isEmpty && decide (action.kind = .install) &&
    action.dependencyParents.all fun parent => decide (parent.toNat < count)

/-- The actions with their old indexes, in the order of their keys.  Equal keys are
refused, so it does not matter how they are ordered. -/
def orderActions (original : List PackageAction) : List (PackageAction × Nat) :=
  original.zipIdx.insertionSort fun left right => compareKeys left.1 right.1 ≠ .gt

/-- The new index of an old one. -/
def remap (order : List (PackageAction × Nat)) (index : UInt32) : UInt32 :=
  UInt32.ofNat (order.findIdx fun entry => decide (entry.2 = index.toNat))

def remapParents (order : List (PackageAction × Nat)) (action : PackageAction) :
    Option PackageAction :=
  let parents := (action.dependencyParents.map (remap order)).insertionSort (· ≤ ·)
  if adjacentFind (fun first second => decide (first = second)) parents then none
  else some { action with dependencyParents := parents }

def normalizeActionGraph (original : List PackageAction) :
    Option (List PackageAction) :=
  let order := orderActions original
  if kMaxGraphActions < original.length then none
  else if original.all (validAction original.length) = false then none
  else if adjacentFind (fun previous current =>
      decide (compareKeys previous.1 current.1 = .eq)) order then none
  else order.mapM fun entry => remapParents order entry.1

def actionGraphsEqual (left right : List PackageAction) : Bool :=
  decide (left = right)

/-! ### The manifest -/

structure SealedInput where
  digest : Digest
  role : UInt64
  deriving DecidableEq, Repr

structure PlanManifest where
  planDigest : Digest
  inputs : List SealedInput
  actionGraph : List PackageAction
  policyDigest : Digest
  createdUtc : Int64
  toolchain : Bytes
  prestateObservation : Digest
  deriving DecidableEq, Repr

def parseInput (input : CborValue) : Option SealedInput := do
  guard (mapHasExactFields input [1, 2])
  let digest ← copyDigest (mapField input 1)
  let role ← unsignedField (mapField input 2)
  guard (role ≠ 0)
  return { digest, role }

/-- The inputs have increasing digests. -/
def parseInputs (previous : Option Digest) :
    List CborValue → Except ManifestError (List SealedInput)
  | [] => .ok []
  | input :: inputs => do
      let parsed ← orFault .invalidField (parseInput input)
      match previous with
      | some previous =>
          rejectIf (previous = parsed.digest) .duplicateInput
          rejectIf (compare previous.val parsed.digest.val ≠ .lt) .inputOrderInvalid
      | none => .ok ()
      let rest ← parseInputs (some parsed.digest) inputs
      return parsed :: rest

/-- The seconds of an integer; a value past the signed range wraps around. -/
def createdField : Option CborValue → Option Int64
  | some (.unsignedInteger value) => some value.toInt64
  | some (.negativeInteger value) => some value
  | _ => none

def arrayField (maximum : Nat) : Option CborValue → Option (List CborValue)
  | some (.array values) => if maximum < values.length then none else some values
  | _ => none

def rootFields : List UInt64 := [1, 2, 3, 4, 5, 6, 7, 8]

/-- The root is a map with exactly the fields of a manifest. -/
def checkRoot (root : CborValue) : Except ManifestError Unit :=
  match root with
  | .map entries => do
      rejectIf (rootFields.length < entries.length) .unknownField
      rejectIf (entries.length < rootFields.length) .missingField
      rejectIf (mapHasExactFields root rootFields = false) .unknownField
  | _ => .error .malformedCbor

def parsePlanManifest (encoded : Bytes) : Except ManifestError PlanManifest := do
  let root ← CborParser.parse encoded
  checkRoot root
  rejectIf (unsignedField (mapField root 1) ≠ some 1) .unsupportedVersion
  let planDigest ← orFault .invalidField (copyDigest (mapField root 2))
  let policyDigest ← orFault .invalidField (copyDigest (mapField root 5))
  let prestateObservation ← orFault .invalidField (copyDigest (mapField root 8))
  let createdUtc ← orFault .invalidField (createdField (mapField root 6))
  let toolchain ← orFault .invalidField (validText (mapField root 7) 128 false)
  let items ← orFault .invalidField (arrayField kMaxInputs (mapField root 3))
  let inputs ← parseInputs none items
  let graph ← orFault .actionGraphInvalid
    (arrayField kMaxGraphActions (mapField root 4))
  let unnormalized ← orFault .actionGraphInvalid (graph.mapM parseAction)
  let actionGraph ← orFault .actionGraphInvalid (normalizeActionGraph unnormalized)
  rejectIf (actionGraphsEqual unnormalized actionGraph = false) .actionGraphInvalid
  return { planDigest, inputs, actionGraph, policyDigest, createdUtc, toolchain
           prestateObservation }

end Helper
end RootPermit
