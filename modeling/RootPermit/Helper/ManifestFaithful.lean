import RootPermit.Helper.CborAgreement
import RootPermit.Helper.PlanManifest

/-!
# What a plan manifest says about its bytes

A byte string that the helper accepts is determined by the manifest read from it: the
fields of every map are in the order of their keys and nothing else is in the map, so
the tree can be written again (`root_of_parsed`).  Every number is read as it is, except
for the time, which is cast to a signed number: a time from 2^63 on comes out negative.
-/

namespace RootPermit
namespace Helper

open Foundation

/-! ### The tree of a byte string -/

theorem corresponds_unsigned_iff {value : UInt64} {read : Protocol.CborValue} :
    Corresponds (.unsignedInteger value) read ↔ read = .unsigned value := by
  cases read <;> simp [Corresponds, ofProtocol]

theorem corresponds_array_iff {values : List CborValue} {read : Protocol.CborValue} :
    Corresponds (.array values) read ↔
      ∃ reads, read = .array reads ∧ List.Forall₂ Corresponds values reads := by
  cases read <;> simp [Corresponds, ofProtocol, ofItems_eq_some_iff]

theorem corresponds_map_iff {entries : List (CborValue × CborValue)}
    {read : Protocol.CborValue} :
    Corresponds (.map entries) read ↔
      ∃ reads, read = .map reads ∧ List.Forall₂ EntriesCorrespond entries reads := by
  cases read <;> simp [Corresponds, ofProtocol, ofEntries_eq_some_iff]

/-- Lists are equal when their members are determined by related ones. -/
theorem forall₂_left_unique {α β : Type} {related : α → β → Prop} {values : List α}
    {first second : List β}
    (hUnique : ∀ other ∈ first, ∀ value other', related value other →
      related value other' → other = other')
    (hFirst : List.Forall₂ related values first)
    (hSecond : List.Forall₂ related values second) : first = second := by
  induction hFirst generalizing second with
  | nil => exact (List.forall₂_nil_left_iff.mp hSecond).symm
  | cons hHead _ ih =>
      obtain ⟨other, others, hHead', hTail', rfl⟩ :=
        List.forall₂_cons_left_iff.mp hSecond
      have hUniqueTail := (List.forall_mem_cons.mp hUnique).2
      rw [hUnique _ List.mem_cons_self _ _ hHead hHead', ih hUniqueTail hTail']

theorem exists_related {α β : Type} {related : α → β → Prop} {values : List α}
    {others : List β} (h : List.Forall₂ related values others) {value : α}
    (hValue : value ∈ values) : ∃ other ∈ others, related value other := by
  induction h with
  | nil => cases hValue
  | cons hHead _ ih =>
      rcases List.mem_cons.mp hValue with rfl | hLater
      · exact ⟨_, List.mem_cons_self, hHead⟩
      · obtain ⟨other, hOther, hRelated⟩ := ih hLater
        exact ⟨other, List.mem_cons_of_mem _ hOther, hRelated⟩

/-- No value of the helper stands for two values of the protocol. -/
theorem corresponds_unique {root : CborValue} {read read' : Protocol.CborValue}
    (h : Corresponds root read) (h' : Corresponds root read') : read = read' := by
  induction read using Protocol.CborValue.induct generalizing root read' with
  | array values ih =>
      rw [Corresponds, ofProtocol, Option.map_eq_some_iff] at h
      obtain ⟨roots, hRoots, rfl⟩ := h
      obtain ⟨values', rfl, hRoots'⟩ := corresponds_array_iff.mp h'
      congr 1
      refine forall₂_left_unique ?_ (ofItems_eq_some_iff.mp hRoots) hRoots'
      exact fun value hValue _ _ hFirst hSecond => ih value hValue hFirst hSecond
  | map entries ihKeys ihValues =>
      rw [Corresponds, ofProtocol, Option.map_eq_some_iff] at h
      obtain ⟨roots, hRoots, rfl⟩ := h
      obtain ⟨entries', rfl, hRoots'⟩ := corresponds_map_iff.mp h'
      congr 1
      refine forall₂_left_unique ?_ (ofEntries_eq_some_iff.mp hRoots) hRoots'
      intro entry hEntry _ _ hFirst hSecond
      exact Prod.ext (ihKeys entry hEntry hFirst.1 hSecond.1)
        (ihValues entry hEntry hFirst.2 hSecond.2)
  | tag tag value ih => cases h
  | bool value => cases h
  | text value =>
      cases h
      cases read' with
      | text text' =>
          simp only [Corresponds, ofProtocol, Option.some.injEq, CborValue.text.injEq] at h'
          rw [utf8_injective h']
      | _ => simp [Corresponds, ofProtocol] at h'
  | _ =>
      cases h
      cases read' <;> simp_all [Corresponds, ofProtocol]

/-- The byte string is the deterministic encoding of the value, within the limits. -/
def Spells (input : Bytes) (root : CborValue) : Prop :=
  ∃ read, Corresponds root read ∧ Protocol.InProfile helperLimits 0 read ∧
    input = Protocol.referenceEncoding read

theorem spells_of_parsed {input : Bytes} {root : CborValue}
    (h : CborParser.parse input = .ok root) : Spells input root := by
  obtain ⟨read, hSame, hRead⟩ := CborParser.parse_eq_ok_iff.mp h
  obtain ⟨-, hInput, hProfile⟩ := Protocol.decodeWithLimits_eq_ok_iff.mp hRead
  exact ⟨read, hSame, hProfile, hInput⟩

/-- No value has two encodings. -/
theorem Spells.input_unique {first second : Bytes} {root : CborValue}
    (h : Spells first root) (h' : Spells second root) : first = second := by
  obtain ⟨read, hSame, -, rfl⟩ := h
  obtain ⟨read', hSame', -, rfl⟩ := h'
  rw [corresponds_unique hSame hSame']

/-- No byte string encodes two values. -/
theorem Spells.root_unique {input : Bytes} {first second : CborValue}
    (h : Spells input first) (h' : Spells input second) : first = second := by
  obtain ⟨read, hSame, hProfile, hInput⟩ := h
  obtain ⟨read', hSame', hProfile', hInput'⟩ := h'
  have hRead : read = read' := Protocol.referenceEncoding_injective
    hProfile.representable hProfile'.representable (hInput ▸ hInput')
  subst hRead
  exact Option.some.inj (hSame.symm.trans hSame')

/-! ### The fields of a map -/

/-- The value is read from a byte string: the keys of its maps increase. -/
def Canonical (value : CborValue) : Prop :=
  ∃ read depth, Corresponds value read ∧ Protocol.InProfile helperLimits depth read

theorem canonical_of_mem {values : List CborValue} (h : Canonical (.array values))
    {value : CborValue} (hValue : value ∈ values) : Canonical value := by
  obtain ⟨read, depth, hSame, hProfile⟩ := h
  obtain ⟨reads, rfl, hReads⟩ := corresponds_array_iff.mp hSame
  obtain ⟨read, hRead, hSameItem⟩ := exists_related hReads hValue
  obtain ⟨-, -, hItems⟩ := Protocol.inProfile_iff.mp hProfile
  exact ⟨read, _, hSameItem, hItems read hRead⟩

theorem canonical_of_entry {entries : List (CborValue × CborValue)}
    (h : Canonical (.map entries)) {entry : CborValue × CborValue}
    (hEntry : entry ∈ entries) : Canonical entry.2 := by
  obtain ⟨read, depth, hSame, hProfile⟩ := h
  obtain ⟨reads, rfl, hReads⟩ := corresponds_map_iff.mp hSame
  obtain ⟨read, hRead, -, hSameValue⟩ := exists_related hReads hEntry
  obtain ⟨-, -, -, hValues, -⟩ := Protocol.inProfile_iff.mp hProfile
  exact ⟨read.2, _, hSameValue, hValues read hRead⟩

theorem mem_of_mapField {entries : List (CborValue × CborValue)} {key : UInt64}
    {value : CborValue} (h : mapField (.map entries) key = some value) :
    (.unsignedInteger key, value) ∈ entries := by
  rw [mapField, Option.map_eq_some_iff] at h
  obtain ⟨⟨candidate, found⟩, hFound, rfl⟩ := h
  have hKey := List.find?_some hFound
  have hMem := List.mem_of_find?_eq_some hFound
  cases candidate with
  | unsignedInteger candidate => rwa [of_decide_eq_true hKey] at hMem
  | _ => cases hKey

theorem canonical_of_mapField {value found : CborValue} {key : UInt64}
    (h : Canonical value) (hField : mapField value key = some found) :
    Canonical found := by
  cases value with
  | map entries => exact canonical_of_entry h (mem_of_mapField hField)
  | _ => cases hField

/-- The keys of a map are those that were asked for, in their order. -/
theorem keys_of_exactFields {entries : List (CborValue × CborValue)}
    {keys : List UInt64} (h : Canonical (.map entries))
    (hFields : mapHasExactFields (.map entries) keys = true)
    (hIncrease : KeysIncrease
      (fun key => Protocol.referenceEncoding (.unsigned key)) keys) :
    entries.map Prod.fst = keys.map .unsignedInteger := by
  obtain ⟨read, depth, hSame, hProfile⟩ := h
  obtain ⟨reads, rfl, hReads⟩ := corresponds_map_iff.mp hSame
  obtain ⟨-, -, -, -, hOrder⟩ := Protocol.inProfile_iff.mp hProfile
  rw [mapHasExactFields, Bool.and_eq_true, decide_eq_true_iff, List.all_eq_true]
    at hFields
  obtain ⟨hLength, hFound⟩ := hFields
  -- Every key is there, there are no more entries, and both lists increase.
  have hKeys : keys.map Protocol.CborValue.unsigned = reads.map Prod.fst := by
    have hNodup : (keys.map Protocol.CborValue.unsigned).Nodup := by
      refine List.Nodup.of_map Protocol.referenceEncoding ?_
      rw [List.map_map]
      exact hIncrease.nodup
    have hSubset : keys.map Protocol.CborValue.unsigned ⊆ reads.map Prod.fst := by
      intro written hWritten
      obtain ⟨key, hKey, rfl⟩ := List.mem_map.mp hWritten
      obtain ⟨value, hValue⟩ := Option.isSome_iff_exists.mp (hFound key hKey)
      obtain ⟨read, hRead, hSameKey, -⟩ :=
        exists_related hReads (mem_of_mapField hValue)
      rw [← corresponds_unsigned_iff.mp hSameKey]
      exact List.mem_map_of_mem hRead
    have hPerm : (keys.map Protocol.CborValue.unsigned).Perm (reads.map Prod.fst) := by
      refine (List.subperm_of_subset hNodup hSubset).perm_of_length_le ?_
      rw [List.length_map, List.length_map, ← hReads.length_eq, hLength]
    have hWanted : KeysIncrease Protocol.referenceEncoding
        (keys.map Protocol.CborValue.unsigned) := List.pairwise_map.mpr hIncrease
    have hListed : KeysIncrease Protocol.referenceEncoding (reads.map Prod.fst) :=
      List.pairwise_map.mpr hOrder
    exact hWanted.eq_of_perm hListed hPerm
  have hSameKeys : List.Forall₂ Corresponds (entries.map Prod.fst)
      (keys.map Protocol.CborValue.unsigned) := by
    rw [hKeys, List.forall₂_map_left_iff, List.forall₂_map_right_iff]
    exact hReads.imp fun _ _ hEntry => hEntry.1
  rw [List.forall₂_map_right_iff] at hSameKeys
  have hEqual : List.Forall₂ Eq (entries.map Prod.fst)
      (keys.map CborValue.unsignedInteger) :=
    List.forall₂_map_right_iff.mpr
      (hSameKeys.imp fun _ _ hKey => (Option.some.inj hKey).symm)
  rwa [List.forall₂_eq_eq_eq] at hEqual

/-- The content of the field with this key. -/
def fieldOf (map : CborValue) : CborValue → CborValue
  | .unsignedInteger key => (mapField map key).getD .nullValue
  | _ => .nullValue

/-- A map with exactly the given fields is the list of its fields. -/
theorem map_of_exactFields {value : CborValue} {keys : List UInt64}
    (h : Canonical value) (hFields : mapHasExactFields value keys = true)
    (hSorted : keys.Pairwise fun first second =>
      shortlex (Protocol.referenceEncoding (.unsigned first))
        (Protocol.referenceEncoding (.unsigned second)) = .lt) :
    value = .map (keys.map fun key =>
      (.unsignedInteger key, (mapField value key).getD .nullValue)) := by
  cases value with
  | map entries =>
      have hIncrease : KeysIncrease
          (fun key => Protocol.referenceEncoding (.unsigned key)) keys :=
        hSorted.imp fun hLess => shortlex_eq_lt_iff.mp hLess
      have hKeys := keys_of_exactFields h hFields hIncrease
      have hNodup : (entries.map Prod.fst).Nodup := by
        rw [hKeys]
        refine List.Nodup.map (fun _ _ hSame => CborValue.unsignedInteger.inj hSame) ?_
        exact List.Nodup.of_map _ hIncrease.nodup
      rw [mapHasExactFields, Bool.and_eq_true, List.all_eq_true] at hFields
      have hEntry : ∀ entry ∈ entries, (entry.1, fieldOf (.map entries) entry.1) =
          entry := by
        intro entry hEntry
        have hKey := List.mem_map_of_mem (f := Prod.fst) hEntry
        rw [hKeys] at hKey
        obtain ⟨key, hKey, hCandidate⟩ := List.mem_map.mp hKey
        obtain ⟨value, hValue⟩ := Option.isSome_iff_exists.mp (hFields.2 key hKey)
        have hSame : (.unsignedInteger key, value) = entry :=
          List.inj_on_of_nodup_map hNodup (mem_of_mapField hValue) hEntry hCandidate
        rw [← hSame, fieldOf, hValue]
        rfl
      congr 1
      calc
        entries = entries.map fun entry => (entry.1, fieldOf (.map entries) entry.1) := by
            rw [List.map_congr_left hEntry, List.map_id']
        _ = (entries.map Prod.fst).map fun candidate =>
              (candidate, fieldOf (.map entries) candidate) := by
            rw [List.map_map]
            rfl
        _ = keys.map fun key =>
              (.unsignedInteger key, (mapField (.map entries) key).getD .nullValue) := by
            rw [hKeys, List.map_map]
            rfl
  | _ => cases hFields

theorem copyDigest_eq_some {found : Option CborValue} {digest : Digest}
    (h : copyDigest found = some digest) : found = some (.bytes digest.val) := by
  unfold copyDigest at h
  split at h
  · rw [ByteArr.ofBytes?_eq_some_iff.mp h]
  · cases h

theorem unsignedField_eq_some {found : Option CborValue} {value : UInt64}
    (h : unsignedField found = some value) :
    found = some (.unsignedInteger value) := by
  unfold unsignedField at h
  split at h
  · rw [Option.some.inj h]
  · cases h

theorem validText_eq_some {found : Option CborValue} {maximum : Nat}
    {allowEmpty : Bool} {text : Bytes}
    (h : validText found maximum allowEmpty = some text) : found = some (.text text) := by
  unfold validText at h
  split at h
  · split at h
    · cases h
    · rw [Option.some.inj h]
  · cases h

theorem arrayField_eq_some {maximum : Nat} {found : Option CborValue}
    {values : List CborValue} (h : arrayField maximum found = some values) :
    found = some (.array values) := by
  unfold arrayField at h
  split at h
  · split at h
    · cases h
    · rw [Option.some.inj h]
  · cases h

/-! ### Trees of a manifest -/

def inputTree (input : SealedInput) : CborValue :=
  .map [(.unsignedInteger 1, .bytes input.digest.val),
    (.unsignedInteger 2, .unsignedInteger input.role)]

def parentTree (parent : UInt32) : CborValue :=
  .unsignedInteger parent.toUInt64

def actionTree (action : PackageAction) : CborValue :=
  .map [(.unsignedInteger 1, .text action.packageName),
    (.unsignedInteger 2, .text action.architecture),
    (.unsignedInteger 3, .text action.installedVersion),
    (.unsignedInteger 4, .text action.targetVersion),
    (.unsignedInteger 5, .unsignedInteger action.kind.code),
    (.unsignedInteger 6, .text action.originIdentity),
    (.unsignedInteger 7, .bytes action.debDigest.val),
    (.unsignedInteger 8, .array (action.dependencyParents.map parentTree)),
    (.unsignedInteger 9, .unsignedInteger action.archiveBytes),
    (.unsignedInteger 10, .unsignedInteger action.installedDeltaBytes)]

/-- An integer below zero or not. -/
def integerTree (value : Int64) : CborValue :=
  if 0 ≤ value then .unsignedInteger value.toUInt64 else .negativeInteger value

/-- The tree of a manifest with this value for the time. -/
def treeAt (created : CborValue) (manifest : PlanManifest) : CborValue :=
  .map [(.unsignedInteger 1, .unsignedInteger 1),
    (.unsignedInteger 2, .bytes manifest.planDigest.val),
    (.unsignedInteger 3, .array (manifest.inputs.map inputTree)),
    (.unsignedInteger 4, .array (manifest.actionGraph.map actionTree)),
    (.unsignedInteger 5, .bytes manifest.policyDigest.val),
    (.unsignedInteger 6, created),
    (.unsignedInteger 7, .text manifest.toolchain),
    (.unsignedInteger 8, .bytes manifest.prestateObservation.val)]

theorem inputTree_of_parsed {value : CborValue} {input : SealedInput}
    (hCanonical : Canonical value) (h : parseInput value = some input) :
    value = inputTree input := by
  simp only [parseInput, Option.bind_eq_bind, Option.bind_eq_some_iff,
    Option.guard_eq_some', Option.pure_def, Option.some.injEq, exists_const] at h
  obtain ⟨hFields, digest, hDigest, role, hRole, -, rfl⟩ := h
  rw [map_of_exactFields hCanonical hFields (by decide)]
  simp only [List.map_cons, List.map_nil, copyDigest_eq_some hDigest,
    unsignedField_eq_some hRole, Option.getD_some]
  rfl

theorem parentTree_of_parsed {value : CborValue} {parent : UInt32}
    (h : parseParent value = some parent) : value = parentTree parent := by
  unfold parseParent at h
  split at h
  · next read =>
      have hRead : (parent.toNat : Int) = read.toNat := toU32?_eq_some_iff.mp h
      have hSame : parent.toUInt64 = read := by
        rw [← UInt64.toNat_inj, UInt32.toNat_toUInt64]
        omega
      rw [parentTree, hSame]
  · cases h

/-- A list of parsed values is the list of their trees. -/
theorem trees_of_mapM {α : Type} {parse : CborValue → Option α} {tree : α → CborValue}
    {values : List CborValue} {results : List α}
    (hTree : ∀ value ∈ values, ∀ result, parse value = some result →
      value = tree result)
    (h : values.mapM parse = some results) : values = results.map tree := by
  have hParsed := mapM_eq_some_iff.mp h
  have hEqual : List.Forall₂ Eq values (results.map tree) := by
    rw [List.forall₂_map_right_iff]
    exact ((List.forall₂_and_left _ _).mpr ⟨hTree, hParsed⟩).imp
      fun _ _ hBoth => hBoth.1 _ hBoth.2
  rwa [List.forall₂_eq_eq_eq] at hEqual

theorem actionTree_of_parsed {value : CborValue} {action : PackageAction}
    (hCanonical : Canonical value) (h : parseAction value = some action) :
    value = actionTree action := by
  simp only [parseAction, Option.bind_eq_bind, Option.bind_eq_some_iff,
    Option.guard_eq_some', exists_const] at h
  obtain ⟨hFields, packageName, hName, -, architecture, hArchitecture, installedVersion,
    hInstalled, targetVersion, hTarget, originIdentity, hOrigin, kind, hKind, hInstall,
    archiveBytes, hArchive, installedDeltaBytes, hDelta, debDigest, hDigest, hRest⟩ := h
  split at hRest
  · next parents hParents =>
      simp only [Option.bind_eq_some_iff, Option.guard_eq_some', exists_const,
        Option.pure_def, Option.some.injEq] at hRest
      obtain ⟨-, dependencyParents, hIndexes, rfl⟩ := hRest
      have hTrees : parents = dependencyParents.map parentTree :=
        trees_of_mapM (fun _ _ _ hParsed => parentTree_of_parsed hParsed) hIndexes
      rw [hInstall] at hKind
      rw [map_of_exactFields hCanonical hFields (by decide)]
      simp only [List.map_cons, List.map_nil, validText_eq_some hName,
        validText_eq_some hArchitecture, validText_eq_some hInstalled,
        validText_eq_some hTarget, validText_eq_some hOrigin, unsignedField_eq_some hKind,
        unsignedField_eq_some hArchive, unsignedField_eq_some hDelta,
        copyDigest_eq_some hDigest, hParents, Option.getD_some, hTrees]
      rfl
  · cases hRest

theorem inputTrees_of_parsed {previous : Option Digest} {values : List CborValue}
    {inputs : List SealedInput} (hCanonical : ∀ value ∈ values, Canonical value)
    (h : parseInputs previous values = .ok inputs) : values = inputs.map inputTree := by
  induction values generalizing previous inputs with
  | nil =>
      cases h
      rfl
  | cons value values ih =>
      obtain ⟨input, hInput, hOrdered⟩ := bind_eq_ok_iff.mp h
      rw [orFault_eq_ok_iff] at hInput
      -- The order of the digests does not matter here.
      have hRest : ∃ rest, parseInputs (some input.digest) values = .ok rest ∧
          inputs = input :: rest := by
        cases previous with
        | none =>
            obtain ⟨_, _, hLater⟩ := bind_eq_ok_iff.mp hOrdered
            obtain ⟨rest, hRest, hEq⟩ := bind_eq_ok_iff.mp hLater
            exact ⟨rest, hRest, (Except.ok.inj hEq).symm⟩
        | some previous =>
            obtain ⟨_, _, hLater⟩ := bind_eq_ok_iff.mp hOrdered
            obtain ⟨_, _, hLater⟩ := bind_eq_ok_iff.mp hLater
            obtain ⟨rest, hRest, hEq⟩ := bind_eq_ok_iff.mp hLater
            exact ⟨rest, hRest, (Except.ok.inj hEq).symm⟩
      obtain ⟨rest, hParsed, rfl⟩ := hRest
      obtain ⟨hValue, hValues⟩ := List.forall_mem_cons.mp hCanonical
      rw [List.map_cons, ← inputTree_of_parsed hValue hInput, ← ih hValues hParsed]

theorem createdField_eq_some {found : Option CborValue} {created : Int64}
    (h : createdField found = some created) :
    ∃ value, found = some value ∧ createdField (some value) = some created := by
  cases found with
  | none => cases h
  | some value => exact ⟨value, rfl, h⟩

theorem exactFields_of_checkRoot {root : CborValue} {result : Unit}
    (h : checkRoot root = .ok result) : mapHasExactFields root rootFields = true := by
  cases root with
  | map entries =>
      simp only [checkRoot, bind_eq_ok_iff, rejectIf_eq_ok_iff, exists_const,
        Bool.not_eq_false] at h
      exact h.2.2
  | _ => cases h

/-- What the helper accepts is the tree of the manifest that it returns, up to the cast
of the time. -/
theorem root_of_parsed {input : Bytes} {manifest : PlanManifest}
    (h : parsePlanManifest input = .ok manifest) :
    ∃ created, CborParser.parse input = .ok (treeAt created manifest) ∧
      createdField (some created) = some manifest.createdUtc := by
  simp only [parsePlanManifest, bind_eq_ok_iff, orFault_eq_ok_iff, rejectIf_eq_ok_iff,
    exists_const, pure_eq_ok, Except.ok.injEq] at h
  obtain ⟨root, hRoot, _, hChecked, hVersion, planDigest, hPlan, policyDigest, hPolicy,
    prestate, hPrestate, createdUtc, hCreated, toolchain, hToolchain, items, hItems,
    inputs, hInputs, graph, hGraph, unnormalized, hActions, actionGraph, hNormalized,
    hSame, rfl⟩ := h
  obtain ⟨created, hField, hTime⟩ := createdField_eq_some hCreated
  refine ⟨created, ?_, hTime⟩
  obtain ⟨read, hCorresponds, hRead⟩ := CborParser.parse_eq_ok_iff.mp hRoot
  have hCanonical : Canonical root :=
    ⟨read, 0, hCorresponds, (Protocol.decodeWithLimits_eq_ok_iff.mp hRead).2.2⟩
  have hFields := exactFields_of_checkRoot hChecked
  have hUnnormalized : unnormalized = actionGraph := by
    simpa [actionGraphsEqual] using hSame
  have hInputTrees : items = inputs.map inputTree := by
    refine inputTrees_of_parsed (fun value hValue => ?_) hInputs
    exact canonical_of_mem (canonical_of_mapField hCanonical
      (arrayField_eq_some hItems)) hValue
  have hActionTrees : graph = actionGraph.map actionTree := by
    rw [← hUnnormalized]
    refine trees_of_mapM (fun value hValue _ hParsed => ?_) hActions
    exact actionTree_of_parsed (canonical_of_mem (canonical_of_mapField hCanonical
      (arrayField_eq_some hGraph)) hValue) hParsed
  rw [hRoot, map_of_exactFields hCanonical hFields (by decide)]
  simp only [rootFields, List.map_cons, List.map_nil, copyDigest_eq_some hPlan,
    copyDigest_eq_some hPolicy, copyDigest_eq_some hPrestate, hField,
    validText_eq_some hToolchain, arrayField_eq_some hItems, arrayField_eq_some hGraph,
    Option.getD_some, hInputTrees, hActionTrees,
    unsignedField_eq_some (not_not.mp hVersion)]
  rfl

/-! ### Faithful manifests -/

/-- `parse_plan_manifest` with the object behind its output pointer, if it points to
one.  The object is written last, when nothing can fail any more. -/
def parsePlanManifestInto (encoded : Bytes) :
    Option PlanManifest → Option ManifestError × Option PlanManifest
  | none => (some .invalidField, none)
  | some manifest =>
      match parsePlanManifest encoded with
      | .ok candidate => (none, some candidate)
      | .error error => (some error, some manifest)

theorem parsePlanManifestInto_eq_none_iff {encoded : Bytes}
    {before after : Option PlanManifest} :
    parsePlanManifestInto encoded before = (none, after) ↔
      before.isSome = true ∧ ∃ manifest, after = some manifest ∧
        parsePlanManifest encoded = .ok manifest := by
  cases before with
  | none => simp [parsePlanManifestInto]
  | some manifest =>
      cases hParsed : parsePlanManifest encoded with
      | error error => simp [parsePlanManifestInto, hParsed]
      | ok candidate => simp [parsePlanManifestInto, hParsed, eq_comm]

/-- The output is unchanged on every error. -/
theorem parsePlanManifestInto_error {encoded : Bytes} {error : ManifestError}
    {before after : Option PlanManifest}
    (h : parsePlanManifestInto encoded before = (some error, after)) :
    after = before := by
  cases before with
  | none =>
      cases h
      rfl
  | some manifest =>
      rw [parsePlanManifestInto] at h
      split at h
      · cases h
      · cases h
        rfl

/-- The byte string is the deterministic encoding of the manifest: every number in it is
the one in the manifest. -/
def Faithful (input : Bytes) (manifest : PlanManifest) : Prop :=
  Spells input (treeAt (integerTree manifest.createdUtc) manifest)

/-- The integer that a value stands for. -/
def integerOf : Protocol.CborValue → Option Int
  | .unsigned value => some value.toNat
  | .negative value => some value.toInt
  | _ => none

/-- The integer is in field six of the map that the byte string encodes. -/
def EncodesTime (input : Bytes) (time : Int) : Prop :=
  ∃ entries value, Protocol.InProfile helperLimits 0 (.map entries) ∧
    input = Protocol.referenceEncoding (.map entries) ∧
    (.unsigned 6, value) ∈ entries ∧ integerOf value = some time

/-- The time fits a signed number of 64 bits. -/
def TimeFits (input : Bytes) : Prop :=
  ∀ time, EncodesTime input time → time < 2 ^ 63

/-- The integer that a value of the helper stands for. -/
def timeOf : CborValue → Option Int
  | .unsignedInteger value => some value.toNat
  | .negativeInteger value => some value.toInt
  | _ => none

theorem integerOf_of_corresponds {root : CborValue} {read : Protocol.CborValue}
    (h : Corresponds root read) : integerOf read = timeOf root := by
  cases read with
  | array values =>
      obtain ⟨_, _, rfl⟩ := Option.map_eq_some_iff.mp h
      rfl
  | map entries =>
      obtain ⟨_, _, rfl⟩ := Option.map_eq_some_iff.mp h
      rfl
  | tag tag value => cases h
  | bool value => cases h
  | _ =>
      cases h
      rfl

/-- The time in the tree of a manifest is in field six. -/
theorem encodesTime_iff {input : Bytes} {created : CborValue} {manifest : PlanManifest}
    (h : Spells input (treeAt created manifest)) {time : Int} :
    EncodesTime input time ↔ timeOf created = some time := by
  obtain ⟨read, hSame, hProfile, hInput⟩ := h
  obtain ⟨reads, rfl, hReads⟩ := corresponds_map_iff.mp hSame
  constructor
  · rintro ⟨entries, value, hProfile', hInput', hField, hTime⟩
    have hEntries := Protocol.referenceEncoding_injective hProfile.representable
      hProfile'.representable (hInput ▸ hInput')
    cases hEntries
    obtain ⟨entry, hEntry, hKey, hValue⟩ := exists_related hReads.flip hField
    have hSix : entry.1 = .unsignedInteger 6 := (Option.some.inj hKey).symm
    -- Only one entry of the tree has this key.
    have hCreated : entry.2 = created := by
      simp only [List.mem_cons, List.not_mem_nil, or_false] at hEntry
      rcases hEntry with rfl | rfl | rfl | rfl | rfl | rfl | rfl | rfl <;>
        first
        | rfl
        | exact absurd (CborValue.unsignedInteger.inj hSix) (by decide)
    rw [← hCreated, ← integerOf_of_corresponds hValue, hTime]
  · intro hTime
    have hMem : (.unsignedInteger 6, created) ∈ [(.unsignedInteger 1, .unsignedInteger 1),
        (.unsignedInteger 2, .bytes manifest.planDigest.val),
        (.unsignedInteger 3, .array (manifest.inputs.map inputTree)),
        (.unsignedInteger 4, .array (manifest.actionGraph.map actionTree)),
        (.unsignedInteger 5, .bytes manifest.policyDigest.val),
        (CborValue.unsignedInteger 6, created),
        (.unsignedInteger 7, .text manifest.toolchain),
        (.unsignedInteger 8, .bytes manifest.prestateObservation.val)] := by simp
    obtain ⟨⟨key, value⟩, hEntry, hKey, hValue⟩ := exists_related hReads hMem
    cases corresponds_unsigned_iff.mp hKey
    exact ⟨reads, value, hProfile, hInput, hEntry,
      (integerOf_of_corresponds hValue).trans hTime⟩

theorem negative_of_canonical {value : Int64} (h : Canonical (.negativeInteger value)) :
    value.toInt < 0 := by
  obtain ⟨read, depth, hSame, hProfile⟩ := h
  cases read with
  | negative read =>
      cases hSame
      exact (Protocol.inProfile_iff.mp hProfile).2
  | array values =>
      obtain ⟨_, _, hCase⟩ := Option.map_eq_some_iff.mp hSame
      cases hCase
  | map entries =>
      obtain ⟨_, _, hCase⟩ := Option.map_eq_some_iff.mp hSame
      cases hCase
  | _ => cases hSame

/-- The cast keeps exactly the times below 2^63. -/
theorem eq_integerTree_iff {created : CborValue} {time : Int64}
    (hCanonical : Canonical created) (hTime : createdField (some created) = some time) :
    created = integerTree time ↔ ∀ value, timeOf created = some value → value < 2 ^ 63 := by
  unfold integerTree
  cases created with
  | unsignedInteger value =>
      cases hTime
      have hSigned : value.toInt64.toInt =
          if 2 * value.toNat < 2 ^ 64 then (value.toNat : Int)
          else value.toNat - (2 ^ 64 : Nat) := BitVec.toInt_eq_toNat_cond value.toBitVec
      have hFits : 0 ≤ value.toInt64 ↔ value.toNat < 2 ^ 63 := by
        have hHigh : value.toNat < 2 ^ 64 := value.toNat_lt
        rw [Int64.le_iff_toInt_le, hSigned]
        change 0 ≤ _ ↔ _
        split <;> omega
      simp only [timeOf, Option.some.injEq, forall_eq']
      by_cases hLow : value.toNat < 2 ^ 63
      · rw [if_pos (hFits.mpr hLow), UInt64.toUInt64_toInt64]
        exact ⟨fun _ => by omega, fun _ => rfl⟩
      · rw [if_neg (mt hFits.mp hLow)]
        constructor
        · intro hSame
          cases hSame
        · intro hBound
          omega
  | negativeInteger value =>
      have hSame : value = time := Option.some.inj hTime
      subst hSame
      have hNegative := negative_of_canonical hCanonical
      have hSign : ¬ 0 ≤ value := by
        rw [Int64.le_iff_toInt_le]
        exact Int.not_le.mpr hNegative
      simp only [timeOf, Option.some.injEq, forall_eq']
      rw [if_neg hSign]
      exact ⟨fun _ => by omega, fun _ => rfl⟩
  | _ => cases hTime

/-- The manifest is faithful when the time fits. -/
theorem faithful_iff {input : Bytes} {manifest : PlanManifest}
    (h : parsePlanManifest input = .ok manifest) :
    Faithful input manifest ↔ TimeFits input := by
  obtain ⟨created, hRoot, hTime⟩ := root_of_parsed h
  have hSpells := spells_of_parsed hRoot
  have hCanonical : Canonical created := by
    obtain ⟨read, hSame, hProfile, -⟩ := hSpells
    exact canonical_of_mapField ⟨read, 0, hSame, hProfile⟩
      (show mapField (treeAt created manifest) 6 = some created from rfl)
  have hTree : Faithful input manifest ↔ created = integerTree manifest.createdUtc := by
    constructor
    · intro hFaithful
      have hSame := hSpells.root_unique hFaithful
      simp only [treeAt, CborValue.map.injEq, List.cons.injEq, Prod.mk.injEq] at hSame
      exact hSame.2.2.2.2.2.1.2
    · intro hSame
      rw [Faithful, ← hSame]
      exact hSpells
  rw [hTree, eq_integerTree_iff hCanonical hTime]
  exact forall_congr' fun time => imp_congr_left (encodesTime_iff hSpells).symm

/-- Two accepted byte strings are faithful to their manifests, and different for
different manifests only, when both times fit; the output keeps its value on errors. -/
theorem manifests_faithful_iff {first second : Bytes}
    {before before' : Option PlanManifest} {manifest manifest' : PlanManifest}
    (h : parsePlanManifestInto first before = (none, some manifest))
    (h' : parsePlanManifestInto second before' = (none, some manifest')) :
    (Faithful first manifest ∧ Faithful second manifest' ∧
      (manifest = manifest' → first = second) ∧
      ∀ encoded output error after,
        parsePlanManifestInto encoded output = (some error, after) → after = output) ↔
    TimeFits first ∧ TimeFits second := by
  obtain ⟨-, _, hSame, hParsed⟩ := parsePlanManifestInto_eq_none_iff.mp h
  obtain ⟨-, _, hSame', hParsed'⟩ := parsePlanManifestInto_eq_none_iff.mp h'
  cases hSame
  cases hSame'
  rw [← faithful_iff hParsed, ← faithful_iff hParsed']
  constructor
  · rintro ⟨hFirst, hSecond, -⟩
    exact ⟨hFirst, hSecond⟩
  · rintro ⟨hFirst, hSecond⟩
    refine ⟨hFirst, hSecond, ?_, fun _ _ _ _ hError => ?_⟩
    · rintro rfl
      exact hFirst.input_unique hSecond
    · exact parsePlanManifestInto_error hError

/-- A manifest without inputs and actions, with these bytes for the time. -/
def manifestAt (time : Bytes) : Bytes :=
  [0xa8, 0x01, 0x01, 0x02, 0x58, 0x20] ++ List.replicate 32 1 ++
    [0x03, 0x80, 0x04, 0x80, 0x05, 0x58, 0x20] ++ List.replicate 32 2 ++
    [0x06] ++ time ++ [0x07, 0x61, 0x78, 0x08, 0x58, 0x20] ++ List.replicate 32 3

def contentAt (time : Int64) : PlanManifest where
  planDigest := ByteArr.fill 32 1
  inputs := []
  actionGraph := []
  policyDigest := ByteArr.fill 32 2
  createdUtc := time
  toolchain := [0x78]
  prestateObservation := ByteArr.fill 32 3

theorem manifests_faithful_sample :
    (Faithful (manifestAt [0x01]) (contentAt 1) ∧
      Faithful (manifestAt [0x02]) (contentAt 2) ∧
      (contentAt 1 = contentAt 2 → manifestAt [0x01] = manifestAt [0x02]) ∧
      ∀ encoded output error after,
        parsePlanManifestInto encoded output = (some error, after) → after = output) ↔
    TimeFits (manifestAt [0x01]) ∧ TimeFits (manifestAt [0x02]) :=
  manifests_faithful_iff
    (show parsePlanManifestInto (manifestAt [0x01]) (some (contentAt 0)) =
      (none, some (contentAt 1)) by decide +kernel)
    (show parsePlanManifestInto (manifestAt [0x02]) (some (contentAt 0)) =
      (none, some (contentAt 2)) by decide +kernel)

/-- The time 2^64 - 1 is read as -1, as the time -1 is. -/
theorem last_time_collides :
    ¬ ∀ first second before before' manifest,
      parsePlanManifestInto first before = (none, some manifest) →
      parsePlanManifestInto second before' = (none, some manifest) →
      first = second := by
  intro h
  have hSame := h (manifestAt [0x20])
    (manifestAt [0x1b, 0xff, 0xff, 0xff, 0xff, 0xff, 0xff, 0xff, 0xff])
    (some (contentAt 0)) (some (contentAt 0)) (contentAt (-1)) (by decide +kernel)
    (by decide +kernel)
  have hLength := congrArg List.length hSame
  revert hLength
  decide

end Helper
end RootPermit
