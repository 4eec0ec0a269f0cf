/-
The object-list of the device and the objects that `cursus/bacnet/server.py` serves. The entry of
`_read_device_property` for the list is the identifier of the device alone, and `_read_property` also
serves the analog values: a client that goes by the list finds none of them.
-/
import Cursus.Bacnet.Reading
import Cursus.Bacnet.Safety

namespace Cursus.Bacnet

open Cursus.Python

/-! ## Object identifiers -/

/-- A sequence of application-tagged object identifiers, by type and instance. -/
inductive ObjectIdentifiers : List (ℕ × ℕ) → Bytes → Prop
  | nil : ObjectIdentifiers [] []
  | cons {t : UInt8} {oid e rest : Bytes} {ids : List (ℕ × ℕ)} : t.toNat >>> 4 = applicationTagObjectIdentifier →
      t.toNat &&& contextClassBit = 0 → Element t oid e → oid.length = 4 → ObjectIdentifiers ids rest →
      ObjectIdentifiers ((objectTypeOf oid, instanceOf oid) :: ids) (e ++ rest)

/-- The identifiers of a sequence without octets. -/
theorem ObjectIdentifiers.of_nil {ids : List (ℕ × ℕ)} (h : ObjectIdentifiers ids []) : ids = [] := by
  generalize hbs : ([] : Bytes) = bs at h
  cases h with
  | nil => rfl
  | cons _ _ he _ _ =>
    obtain ⟨rest, rfl⟩ := he.eq_cons
    cases hbs

/-- An encoded object identifier is a sequence of one. -/
theorem objectIdentifiers_encode_iff {objectType n : ℕ} (ht : objectType < 1024) (hn : n < 2 ^ 22) {enc : Bytes}
    (h : encodeApplicationObjectIdentifier objectType n = .ok enc) (ids : List (ℕ × ℕ)) :
    ObjectIdentifiers ids enc ↔ ids = [(objectType, n)] := by
  have hcontent : (ByteOrder.big.encode 4 (objectType <<< 22 ||| n)).length = 4 := ByteOrder.length_encode ..
  obtain ⟨htype, hinst⟩ := objectIdentifier_fields ht hn
  rw [encodeApplicationObjectIdentifier_eq_encodeTagged, structPack_objectIdentifier ht, if_pos (by omega),
    Int.toNat_natCast] at h
  obtain ⟨content, t, hc, -, he, -, htag, hclass⟩ :=
    encodeTagged_eq_ok (show applicationTagObjectIdentifier < 16 by simp) h
  cases hc
  constructor
  · intro hids
    cases hids with
    | nil =>
      obtain ⟨bs, hbs⟩ := he.eq_cons
      cases hbs
    | cons _ _ he' _ hrest =>
      obtain ⟨-, rfl, -, hnil⟩ := he'.unique he (List.append_nil _).symm
      rw [hnil] at hrest
      rw [hrest.of_nil, htype, hinst]
  · rintro rfl
    have hone := ObjectIdentifiers.cons htag hclass he hcontent .nil
    rwa [List.append_nil, htype, hinst] at hone

/-! ## Listed and served objects -/

/-- The identifier of the object is in the object-list that some ReadProperty of the device gets. -/
def ListsObject (s : BacnetServer) (objectType n : ℕ) : Prop :=
  ∃ (inst : ℕ) (v : Bytes) (ids : List (ℕ × ℕ)), (inst : ℤ) = s.device.inst ∧
    ReadsValue s objectTypeDevice inst propertyObjectList v ∧ ObjectIdentifiers ids v ∧ (objectType, n) ∈ ids

/-- All fields can be encoded, and instances have 22 bits; every analog value is under its own. -/
structure BacnetServerConfig.Encodable (config : BacnetServerConfig) : Prop where
  device : config.device.Encodes
  inst : config.device.inst < 2 ^ 22
  analogValues : ∀ n analogValue, config.analogValues.lookup n = some analogValue →
    analogValue.Encodes ∧ ∃ bs, packFloat analogValue.presentValue = .ok bs
  keys : ∀ n analogValue, config.analogValues.lookup n = some analogValue → analogValue.inst = n ∧ n < 2 ^ 22

/-- The default configuration can be encoded. -/
theorem BacnetServerConfig.encodable_default : ({} : BacnetServerConfig).Encodable where
  device := BacnetServer.encodable_init.device.encodes_iff.2 (by decide)
  inst := by simp
  analogValues n analogValue h := by
    have henc := BacnetServer.encodable_init.analogValues n analogValue h
    refine ⟨henc.encodes_iff.2 ?_, henc.presentValue⟩
    rcases lookup_default h with ⟨-, rfl⟩ | ⟨-, rfl⟩
    · decide
    · decide
  keys n analogValue h := by
    rcases lookup_default h with ⟨rfl, rfl⟩ | ⟨rfl, rfl⟩
    · exact ⟨rfl, by simp⟩
    · exact ⟨rfl, by simp⟩

section

variable {config : BacnetServerConfig}

theorem BacnetServerConfig.Encodable.exists_inst (hc : config.Encodable) :
    ∃ inst : ℕ, (inst : ℤ) = config.device.inst ∧ inst < 2 ^ 22 := by
  refine ⟨config.device.inst.toNat, Int.toNat_of_nonneg hc.device.inst.1, ?_⟩
  have := hc.inst
  omega

/-- The device is the only object that is listed. -/
theorem listsObject_iff (hc : config.Encodable) (objectType n : ℕ) :
    ListsObject (.init config) objectType n ↔ objectType = objectTypeDevice ∧ (n : ℤ) = config.device.inst := by
  obtain ⟨inst, hinst, hlt⟩ := hc.exists_inst
  have hfield : config.device.fields.lookup propertyObjectList =
      some (.objectIdentifier objectTypeDevice config.device.inst) := rfl
  obtain ⟨enc, henc, hfields⟩ := readField_of_lookup hfield (config.device.allEncode_iff.2 hc.device)
  have hread : readProperty (.init config) objectTypeDevice inst propertyObjectList = .ok (some enc) := by
    rw [readProperty, if_pos ⟨rfl, hinst⟩, readDeviceProperty_eq]
    exact hfields
  have hids : ∀ ids, ObjectIdentifiers ids enc ↔ ids = [(objectTypeDevice, inst)] := by
    rw [PropertyField.encode, ← hinst] at henc
    exact objectIdentifiers_encode_iff (by simp) hlt henc
  have hvalue := readsValue_iff (show objectTypeDevice < 1024 by simp) hlt
    (show propertyObjectList < 256 ^ 255 by norm_num) (.init config)
  constructor
  · rintro ⟨inst', v, ids, hinst', hreads, hv, hmem⟩
    obtain rfl : inst' = inst := Int.ofNat_inj.1 (hinst'.trans hinst.symm)
    have hsame := (hvalue v).1 hreads
    rw [hread] at hsame
    cases hsame
    rw [(hids ids).1 hv, List.mem_singleton, Prod.mk.injEq] at hmem
    obtain ⟨rfl, rfl⟩ := hmem
    exact ⟨rfl, hinst⟩
  · rintro ⟨rfl, hn⟩
    obtain rfl : n = inst := Int.ofNat_inj.1 (hn.trans hinst.symm)
    exact ⟨n, enc, _, hinst, (hvalue enc).2 hread, (hids _).2 rfl, List.mem_singleton_self _⟩

/-- The device and the analog values are the objects whose name is answered. -/
theorem answersName_iff (hc : config.Encodable) (objectType n : ℕ) :
    AnswersProperty (.init config) objectType n propertyObjectName ↔
      (objectType = objectTypeDevice ∧ (n : ℤ) = config.device.inst) ∨
        (objectType = objectTypeAnalogValue ∧ (n : ℤ) ∈ config.analogValues) := by
  rw [answersProperty_iff (by norm_num)]
  rcases readProperty_cases (.init config) objectType n propertyObjectName with
    ⟨rfl, hn, hread⟩ | ⟨rfl, hread⟩ | ⟨hd, ha, hread⟩
  · have hfield : config.device.fields.lookup propertyObjectName = some (.characterString config.device.objectName) :=
      rfl
    obtain ⟨enc, -, hfields⟩ := readField_of_lookup hfield (config.device.allEncode_iff.2 hc.device)
    have hlt := hc.inst
    have hn' : (n : ℤ) = config.device.inst := hn
    refine iff_of_true ⟨by simp, by omega, enc, ?_⟩ (.inl ⟨rfl, hn'⟩)
    rw [hread, readDeviceProperty_eq]
    exact hfields
  · rw [hread]
    have hne : ¬ objectTypeAnalogValue = objectTypeDevice := by simp
    rw [or_iff_right (fun h => hne h.1), and_iff_right rfl, Finmap.mem_iff]
    constructor
    · rintro ⟨-, -, v, hv⟩
      apply Option.ne_none_iff_exists'.1
      intro hnone
      rw [readAnalogValueProperty_none hnone] at hv
      cases hv
    · rintro ⟨analogValue, hav⟩
      have hfield : analogValue.fields.lookup propertyObjectName = some (.characterString analogValue.objectName) :=
        rfl
      obtain ⟨enc, -, hfields⟩ :=
        readField_of_lookup hfield (analogValue.allEncode_iff.2 (hc.analogValues _ _ hav))
      have hlt := (hc.keys _ _ hav).2
      refine ⟨by simp, by omega, enc, ?_⟩
      rw [readAnalogValueProperty_some hav]
      exact hfields
  · rw [hread]
    refine iff_of_false ?_ ?_
    · rintro ⟨-, -, v, hv⟩
      cases hv
    · rintro (h | ⟨h, -⟩)
      · exact hd h
      · exact ha h

end

/-- An object is listed when it is served, and served when it is listed, exactly when it is no analog
value. -/
theorem listed_iff_served {config : BacnetServerConfig} (hc : config.Encodable) (objectType n : ℕ) :
    (ListsObject (.init config) objectType n ↔ AnswersProperty (.init config) objectType n propertyObjectName) ↔
      ¬ (objectType = objectTypeAnalogValue ∧ (n : ℤ) ∈ config.analogValues) := by
  rw [listsObject_iff hc, answersName_iff hc]
  constructor
  · rintro h ⟨rfl, hn⟩
    have hdevice := (h.2 (.inr ⟨rfl, hn⟩)).1
    simp at hdevice
  · intro hav
    rw [or_iff_left hav]

/-- The default device is listed and served. -/
theorem listed_iff_served_device :
    ListsObject (.init {}) objectTypeDevice 1234 ↔
      AnswersProperty (.init {}) objectTypeDevice 1234 propertyObjectName :=
  (listed_iff_served BacnetServerConfig.encodable_default objectTypeDevice 1234).2 (by simp)

/-- The first analog value of the default configuration is served and not listed. -/
theorem not_listed_analogValue :
    ({} : BacnetServerConfig).Encodable ∧
    ¬ (ListsObject (.init {}) objectTypeAnalogValue 1 ↔
      AnswersProperty (.init {}) objectTypeAnalogValue 1 propertyObjectName) := by
  have hc := BacnetServerConfig.encodable_default
  rw [listsObject_iff hc, answersName_iff hc]
  refine ⟨hc, fun h => ?_⟩
  have hdevice := (h.2 (.inr ⟨rfl, Finmap.mem_insert.2 (.inl rfl)⟩)).1
  simp at hdevice

end Cursus.Bacnet
