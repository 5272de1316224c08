import RootPermit.Helper.PlanManifest
import RootPermit.Helper.CborAgreement
import RootPermit.Protocol.SchemaRoundTrip

/-!
# The two formats of a plan manifest

The helper and the protocol crate read the same deterministic CBOR: where both parsers
accept a byte string, they return corresponding values (`CborParser.parse_agrees`).
They do not read the same manifests.  The helper wants an array of actions, a text and a
digest in the fields four, seven and eight; the protocol crate wants maps there.  So no
manifest that the helper accepts is decoded by the protocol crate (`manifests_unread`).
-/

namespace RootPermit
namespace Helper

open Foundation

/-! ### Fields of corresponding maps -/

/-- A field of the helper's map is a field of the record that corresponds to it. -/
theorem mapField_corresponds {table : List (UInt64 × Protocol.CborValue)}
    {entries : List (CborValue × CborValue)} {key : UInt64} {value : CborValue}
    (h : List.Forall₂ EntriesCorrespond entries (Protocol.recordEntries table))
    (hField : mapField (.map entries) key = some value) :
    ∃ read, (key, read) ∈ table ∧ Corresponds value read := by
  induction table generalizing entries with
  | nil =>
      cases h
      cases hField
  | cons row table ih =>
      obtain ⟨key', read⟩ := row
      cases h with
      | cons hFirst hRest =>
          next entry entries =>
            obtain ⟨hKey, hValue⟩ := hFirst
            obtain ⟨candidate, found⟩ := entry
            cases hKey
            by_cases hSame : key' = key
            · have hHas : hasKey key (.unsignedInteger key', found) = true :=
                decide_eq_true hSame
              rw [mapField, List.find?_cons_of_pos hHas, Option.map_some,
                Option.some.injEq] at hField
              rw [← hField, ← hSame]
              exact ⟨read, List.mem_cons_self, hValue⟩
            · have hHas : ¬ hasKey key (.unsignedInteger key', found) = true := by
                simpa [hasKey] using hSame
              rw [mapField, List.find?_cons_of_neg hHas] at hField
              obtain ⟨read', hMem, hCorresponds⟩ := ih hRest hField
              exact ⟨read', List.mem_cons_of_mem _ hMem, hCorresponds⟩

/-- A map of the helper does not correspond to a record that reads an array of it as a
map. -/
theorem not_map_of_array {table : List (UInt64 × Protocol.CborValue)}
    {fields : Protocol.Fields} (hHolds : Protocol.Holds fields table) {key : UInt64}
    {values : List CborValue} {entries : List (CborValue × CborValue)}
    (h : List.Forall₂ EntriesCorrespond entries (Protocol.recordEntries table))
    (hArray : mapField (.map entries) key = some (.array values))
    (content : Protocol.CborValue) :
    ¬ Protocol.FieldIs key (Protocol.asMap key) fields content := by
  rintro ⟨read, hRead, hMap⟩
  obtain ⟨other, hOther, hCorresponds⟩ := mapField_corresponds h hArray
  have hSame : fields.lookup key = some other := (hHolds key other).mpr hOther
  rw [hRead, Option.some.injEq] at hSame
  rw [← hSame] at hCorresponds
  obtain ⟨rfl, hIsMap⟩ := Protocol.Conversion.asMap_eq_ok_iff.mp hMap
  cases read with
  | map entries =>
      rw [Corresponds, ofProtocol, Option.map_eq_some_iff] at hCorresponds
      obtain ⟨_, _, hCase⟩ := hCorresponds
      cases hCase
  | _ => cases hIsMap

/-! ### Manifests -/

/-- What the helper wants in the field of the action graph. -/
theorem parsePlanManifest_graph {input : Bytes} {manifest : PlanManifest}
    (h : parsePlanManifest input = .ok manifest) :
    ∃ entries values, CborParser.parse input = .ok (.map entries) ∧
      mapField (.map entries) 4 = some (.array values) := by
  unfold parsePlanManifest at h
  simp only [bind_eq_ok_iff, orFault_eq_ok_iff] at h
  obtain ⟨root, hRoot, _, hChecked, _, _, _, _, _, _, _, _, _, _, _, _, _, _, _, _,
    graph, hGraph, _⟩ := h
  cases root with
  | map entries =>
      refine ⟨entries, graph, hRoot, ?_⟩
      unfold arrayField at hGraph
      split at hGraph
      · next values hField =>
          split at hGraph
          · cases hGraph
          · rw [hField, ← Option.some.inj hGraph]
      · cases hGraph
  | _ => cases hChecked

/-- The protocol's manifest has the digests, the time, the inputs and the action graph
of the helper's. -/
structure SameManifest (manifest : PlanManifest) (read : Protocol.PlanManifest) :
    Prop where
  planDigest : read.planDigest = manifest.planDigest
  policyDigest : read.policyDigest = manifest.policyDigest
  createdUtc : read.createdUtc = manifest.createdUtc
  inputs : List.Forall₂
    (fun input read => ∃ value, Corresponds value read ∧
      parseInput value = some input) manifest.inputs read.inputs
  actionGraph : ∃ values, Corresponds (.array values) read.actionGraph ∧
    values.mapM parseAction = some manifest.actionGraph

/-- The protocol crate decodes the bytes to the same manifest. -/
def ProtocolReads (input : Bytes) (manifest : PlanManifest) : Prop :=
  ∃ read, Protocol.PlanManifest.decode input = .ok read ∧ SameManifest manifest read

/-- The protocol crate wants a map in the field of the action graph. -/
theorem protocol_graph {input : Bytes} {read : Protocol.PlanManifest}
    (h : Protocol.PlanManifest.decode input = .ok read) :
    ∃ table fields, Protocol.decode input = .ok (Protocol.record table) ∧
      Protocol.Holds fields table ∧
      Protocol.FieldIs 4 (Protocol.asMap 4) fields read.actionGraph := by
  obtain ⟨found, hFound, hRest⟩ := bind_eq_ok_iff.mp h
  obtain ⟨_, _, hSame⟩ := bind_eq_ok_iff.mp hRest
  cases hSame
  obtain ⟨value, hValue, hFields⟩ := bind_eq_ok_iff.mp hFound
  rw [mapError_eq_ok_iff] at hValue
  obtain ⟨fields, hTable, _, hYields⟩ :=
    Protocol.Layout.readMessage_eq_ok_iff.mp hFields
  obtain ⟨table, rfl, _, hHolds⟩ := Protocol.fields_eq_ok hTable
  have hGraph := (Protocol.PlanManifest.yields_iff fields read).mp hYields
    (.required 4 (.map 4) Protocol.PlanManifest.actionGraph)
    (by simp [Protocol.PlanManifest.specs])
  exact ⟨table, fields, hValue, hHolds, hGraph⟩

/-- No manifest that the helper accepts is decoded by the protocol crate. -/
theorem manifests_unread {input : Bytes} {manifest : PlanManifest}
    (h : parsePlanManifest input = .ok manifest) :
    (∀ read, Protocol.PlanManifest.decode input ≠ .ok read) ∧
      ¬ ProtocolReads input manifest := by
  have hUnread : ∀ read, Protocol.PlanManifest.decode input ≠ .ok read := by
    intro read hRead
    obtain ⟨entries, values, hParse, hArray⟩ := parsePlanManifest_graph h
    obtain ⟨table, fields, hDecode, hHolds, hGraph⟩ := protocol_graph hRead
    -- Both parsers see the same map, so the field cannot be an array and a map.
    have hSame := CborParser.parse_agrees hParse hDecode
    rw [Corresponds, Protocol.record, ofProtocol, Option.map_eq_some_iff] at hSame
    obtain ⟨_, hEntries, hMap⟩ := hSame
    cases hMap
    exact not_map_of_array hHolds (ofEntries_eq_some_iff.mp hEntries) hArray _ hGraph
  refine ⟨hUnread, ?_⟩
  rintro ⟨read, hRead, _⟩
  exact hUnread read hRead

/-- The smallest manifest that the helper accepts. -/
def smallestManifest : Bytes :=
  [0xa8, 0x01, 0x01, 0x02, 0x58, 0x20] ++ List.replicate 32 1 ++
    [0x03, 0x80, 0x04, 0x80, 0x05, 0x58, 0x20] ++ List.replicate 32 2 ++
    [0x06, 0x00, 0x07, 0x61, 0x78, 0x08, 0x58, 0x20] ++ List.replicate 32 3

def smallestContent : PlanManifest where
  planDigest := ByteArr.fill 32 1
  inputs := []
  actionGraph := []
  policyDigest := ByteArr.fill 32 2
  createdUtc := 0
  toolchain := [0x78]
  prestateObservation := ByteArr.fill 32 3

theorem manifests_unread_sample :
    parsePlanManifest smallestManifest = .ok smallestContent ∧
      ∀ read, Protocol.PlanManifest.decode smallestManifest ≠ .ok read :=
  ⟨by decide +kernel, (manifests_unread
    (show parsePlanManifest smallestManifest = .ok smallestContent by
      decide +kernel)).1⟩

/-- The helper accepts a manifest that the protocol crate does not read. -/
theorem smallestManifest_unread :
    ¬ ∀ input manifest, parsePlanManifest input = .ok manifest →
      ProtocolReads input manifest := by
  intro h
  obtain ⟨read, hRead, _⟩ := h smallestManifest smallestContent (by decide +kernel)
  have hRejected : (Protocol.PlanManifest.decode smallestManifest).isOk = false := by
    decide +kernel
  rw [hRead] at hRejected
  cases hRejected

end Helper
end RootPermit
