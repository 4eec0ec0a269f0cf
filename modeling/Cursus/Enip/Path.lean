/-
CIP paths as lists of segments. `_parse_cip_path` accepts the encodings of segment lists that name a
class and an instance, and of every kind the last segment counts; it raises `ValueError` on every
other path.
-/
import Cursus.Enip.Codec

namespace Cursus.Enip

open Cursus.Python

/-! ## Segments -/

/-- How many octets the value of a segment takes. -/
inductive Width
  | byte | word | dword
  deriving DecidableEq, Repr

def Width.octets : Width → ℕ
  | .byte => 1
  | .word => 2
  | .dword => 4

/-- A pad octet, or a value of one of the three types that fits its width. -/
inductive Segment
  | pad
  | value (type : SegmentType) (width : Width) (v : ℕ) (fits : v < 256 ^ width.octets)

/-- The octet in front of a value. -/
def segmentCode : SegmentType → Width → ℕ
  | .cls, .byte => 0x20
  | .cls, .word => 0x21
  | .cls, .dword => 0x22
  | .inst, .byte => 0x24
  | .inst, .word => 0x25
  | .inst, .dword => 0x26
  | .attr, .byte => 0x30
  | .attr, .word => 0x31
  | .attr, .dword => 0x32

namespace Segment

def encode : Segment → Bytes
  | pad => [0]
  | value type width v _ => UInt8.ofNat (segmentCode type width) :: ByteOrder.little.encode width.octets v

def apply (values : PathValues) : Segment → PathValues
  | pad => values
  | value type _ v _ => values.assign v type

end Segment

/-- What the segments assign, the later ones over the earlier ones. -/
def resolve (segments : List Segment) : PathValues := segments.foldl Segment.apply {}

theorem segmentTypeByCode_segmentCode (type : SegmentType) (width : Width) :
    segmentTypeByCode (segmentCode type width) = some type := by
  cases type <;> cases width <;> rfl

theorem toNat_segmentCode (type : SegmentType) (width : Width) :
    (UInt8.ofNat (segmentCode type width)).toNat = segmentCode type width := by
  cases type <;> cases width <;> rfl

theorem segmentCode_ne_zero (type : SegmentType) (width : Width) : UInt8.ofNat (segmentCode type width) ≠ 0 := by
  cases type <;> cases width <;> decide

theorem segmentCode_inj {type type' : SegmentType} {width width' : Width}
    (h : UInt8.ofNat (segmentCode type width) = UInt8.ofNat (segmentCode type' width')) :
    type = type' ∧ width = width' := by
  have hnat := congrArg UInt8.toNat h
  rw [toNat_segmentCode, toNat_segmentCode] at hnat
  revert hnat
  cases type <;> cases width <;> cases type' <;> cases width' <;> decide

/-! ## Reading a value -/

theorem readPathValue_of_le {path : Bytes} {offset : ℕ} (type : SegmentType) (width : Width)
    (h : offset + width.octets ≤ path.length) :
    readPathValue path offset (segmentCode type width) =
      .ok (uintAt .little width.octets path offset, offset + width.octets) := by
  cases width with
  | byte =>
    have hlt : offset < path.length := h
    cases type <;> simp [readPathValue, segmentCode, not_le.2 hlt, index_eq_uintAt hlt, Width.octets]
  | word =>
    have hle : offset + 2 ≤ path.length := h
    cases type <;> simp [readPathValue, segmentCode, not_lt.2 hle, checkFrom, hle, Width.octets]
  | dword =>
    have hle : offset + 4 ≤ path.length := h
    cases type <;> simp [readPathValue, segmentCode, not_lt.2 hle, checkFrom, hle, Width.octets]

theorem readPathValue_of_lt {path : Bytes} {offset : ℕ} (type : SegmentType) (width : Width)
    (h : path.length < offset + width.octets) :
    readPathValue path offset (segmentCode type width) = .error .valueError := by
  cases width with
  | byte =>
    have hle : path.length ≤ offset := Nat.le_of_lt_succ h
    cases type <;> simp [readPathValue, segmentCode, hle] <;> rfl
  | word =>
    have hlt : path.length < offset + 2 := h
    cases type <;> simp [readPathValue, segmentCode, hlt] <;> rfl
  | dword =>
    have hlt : path.length < offset + 4 := h
    cases type <;> simp [readPathValue, segmentCode, hlt] <;> rfl

/-- An octet is the code of a type and a width, or no value can be read behind it. -/
theorem segmentCode_or_error (path : Bytes) (offset segment : ℕ) :
    (∃ type width, segment = segmentCode type width) ∨
      readPathValue path offset segment = .error .valueError := by
  by_cases h1 : segment = 0x20 ∨ segment = 0x24 ∨ segment = 0x30
  · rcases h1 with rfl | rfl | rfl
    · exact .inl ⟨.cls, .byte, rfl⟩
    · exact .inl ⟨.inst, .byte, rfl⟩
    · exact .inl ⟨.attr, .byte, rfl⟩
  by_cases h2 : segment = 0x21 ∨ segment = 0x25 ∨ segment = 0x31
  · rcases h2 with rfl | rfl | rfl
    · exact .inl ⟨.cls, .word, rfl⟩
    · exact .inl ⟨.inst, .word, rfl⟩
    · exact .inl ⟨.attr, .word, rfl⟩
  by_cases h3 : segment = 0x22 ∨ segment = 0x26 ∨ segment = 0x32
  · rcases h3 with rfl | rfl | rfl
    · exact .inl ⟨.cls, .dword, rfl⟩
    · exact .inl ⟨.inst, .dword, rfl⟩
    · exact .inl ⟨.attr, .dword, rfl⟩
  right
  unfold readPathValue
  rw [if_neg h1, if_neg h2, if_neg h3]
  rfl

/-- Reading a value succeeds behind the code of a type and a width only, and takes the octets of the
width. -/
theorem readPathValue_eq_ok {path : Bytes} {offset segment v next : ℕ}
    (h : readPathValue path offset segment = .ok (v, next)) :
    ∃ type width, segment = segmentCode type width ∧ offset + width.octets ≤ path.length ∧
      v = uintAt .little width.octets path offset ∧ next = offset + width.octets := by
  rcases segmentCode_or_error path offset segment with ⟨type, width, rfl⟩ | herr
  · by_cases hle : offset + width.octets ≤ path.length
    · rw [readPathValue_of_le type width hle] at h
      cases h
      exact ⟨type, width, rfl, hle, rfl, rfl⟩
    · rw [readPathValue_of_lt type width (not_le.1 hle)] at h
      cases h
  · rw [herr] at h
    cases h

theorem readPathValue_error {path : Bytes} {offset segment : ℕ} {e : PyError}
    (h : readPathValue path offset segment = .error e) : e = .valueError := by
  rcases segmentCode_or_error path offset segment with ⟨type, width, rfl⟩ | herr
  · by_cases hle : offset + width.octets ≤ path.length
    · rw [readPathValue_of_le type width hle] at h
      cases h
    · rw [readPathValue_of_lt type width (not_le.1 hle)] at h
      cases h
      rfl
  · rw [herr] at h
    cases h
    rfl

/-! ## The loop over the segments -/

theorem parseSegments_of_le {path : Bytes} {offset : ℕ} (h : path.length ≤ offset) (values : PathValues) :
    parseSegments path offset values = .ok values := by
  unfold parseSegments
  rw [dif_neg (not_lt.2 h)]

theorem parseSegments_pad {path : Bytes} {offset : ℕ} (h : path[offset]? = some 0) (values : PathValues) :
    parseSegments path offset values = parseSegments path (offset + 1) values := by
  obtain ⟨hlt, h0⟩ := List.getElem?_eq_some_iff.1 h
  rw [parseSegments, dif_pos hlt, if_pos h0]

theorem parseSegments_value {path : Bytes} {offset : ℕ} {type : SegmentType} {width : Width}
    (h : path[offset]? = some (UInt8.ofNat (segmentCode type width)))
    (hle : offset + 1 + width.octets ≤ path.length) (values : PathValues) :
    parseSegments path offset values =
      parseSegments path (offset + 1 + width.octets)
        (values.assign (uintAt .little width.octets path (offset + 1)) type) := by
  obtain ⟨hlt, hcode⟩ := List.getElem?_eq_some_iff.1 h
  have hnat : path[offset].toNat = segmentCode type width := by rw [hcode, toNat_segmentCode]
  have hread := readPathValue_of_le type width hle
  rw [← hnat] at hread
  have htype : segmentTypeByCode path[offset].toNat = some type := by
    rw [hnat, segmentTypeByCode_segmentCode]
  rw [parseSegments, dif_pos hlt, if_neg (by rw [hcode]; exact segmentCode_ne_zero type width)]
  split
  · rename_i heq
    rw [hread] at heq
    cases heq
  · rename_i heq
    rw [hread] at heq
    cases heq
    rw [htype]

/-- The loop assigns what a list of segments says. -/
theorem parseSegments_encode (pre : Bytes) (segments : List Segment) (values : PathValues) :
    parseSegments (pre ++ segments.flatMap Segment.encode) pre.length values =
      .ok (segments.foldl Segment.apply values) := by
  induction segments generalizing pre values with
  | nil =>
    apply parseSegments_of_le
    simp
  | cons segment segments ih =>
    cases segment with
    | pad =>
      have hpath : pre ++ (Segment.pad :: segments).flatMap Segment.encode =
          (pre ++ [0]) ++ segments.flatMap Segment.encode := by simp [Segment.encode]
      have hnext : pre.length + 1 = (pre ++ [0]).length := by simp
      rw [parseSegments_pad (by simp [Segment.encode]), hpath, hnext, ih]
      rfl
    | value type width v fits =>
      let code := UInt8.ofNat (segmentCode type width)
      let data := ByteOrder.little.encode width.octets v
      have hpath : pre ++ (Segment.value type width v fits :: segments).flatMap Segment.encode =
          (pre ++ [code]) ++ (data ++ segments.flatMap Segment.encode) := by
        simp [Segment.encode, code, data]
      have hlen : pre.length + 1 = (pre ++ [code]).length := by simp
      have hnext : pre.length + 1 + width.octets = (pre ++ [code] ++ data).length := by simp [data]; omega
      have hcode : (pre ++ [code] ++ (data ++ segments.flatMap Segment.encode))[pre.length]? = some code := by simp
      have hle : pre.length + 1 + width.octets ≤
          (pre ++ [code] ++ (data ++ segments.flatMap Segment.encode)).length := by
        simp [data]
        omega
      rw [hpath, parseSegments_value hcode hle, hlen, uintAt_encode _ fits, ← hlen, hnext, ← List.append_assoc, ih]
      rfl

/-- Where the loop succeeds, the rest of the path is a list of segments. -/
theorem parseSegments_eq_ok {path : Bytes} {offset : ℕ} {values found : PathValues} :
    parseSegments path offset values = .ok found →
      ∃ segments : List Segment, path.drop offset = segments.flatMap Segment.encode ∧
        found = segments.foldl Segment.apply values := by
  fun_induction parseSegments path offset values with
  | case1 offset values hlt hpad ih =>
    intro h
    obtain ⟨segments, hdrop, hfound⟩ := ih h
    refine ⟨.pad :: segments, ?_, hfound⟩
    rw [List.drop_eq_getElem_cons hlt, hpad, hdrop]
    rfl
  | case2 offset values hlt hpad e hread => nofun
  | case3 offset values hlt hpad v next hread htype => nofun
  | case4 offset values hlt hpad v next hread segmentType htype ih =>
    intro h
    -- the octet and the value that was read behind it are one segment
    obtain ⟨type, width, hcode, hle, rfl, rfl⟩ := readPathValue_eq_ok hread
    rw [hcode, segmentTypeByCode_segmentCode] at htype
    cases htype
    obtain ⟨segments, hdrop, hfound⟩ := ih h
    refine ⟨.value segmentType width _ (uintAt_lt ..) :: segments, ?_, hfound⟩
    have hoctet : path[offset] = UInt8.ofNat (segmentCode segmentType width) := by
      rw [← hcode, UInt8.ofNat_toNat]
    rw [List.drop_eq_getElem_cons hlt, hoctet, List.flatMap_cons, Segment.encode, encode_uintAt _ hle, ← hdrop,
      List.cons_append, take_append_drop_add]
  | case5 offset values hge =>
    rintro ⟨⟩
    exact ⟨[], by rw [List.drop_of_length_le (not_lt.1 hge)]; rfl, rfl⟩

theorem parseSegments_error {path : Bytes} {offset : ℕ} {values : PathValues} {e : PyError} :
    parseSegments path offset values = .error e → e = .valueError := by
  fun_induction parseSegments path offset values with
  | case1 offset values hlt hpad ih => exact ih
  | case2 offset values hlt hpad e' hread =>
    rintro ⟨⟩
    exact readPathValue_error hread
  | case3 offset values hlt hpad v next hread htype =>
    rintro ⟨⟩
    rfl
  | case4 offset values hlt hpad v next hread segmentType htype ih => exact ih
  | case5 offset values hge => nofun

/-! ## Paths -/

/-- The path is a list of segments that names a class, an instance and perhaps an attribute. -/
def Names (path : Bytes) (classCode inst : ℕ) (attr : Option ℕ) : Prop :=
  ∃ segments : List Segment, path = segments.flatMap Segment.encode ∧
    resolve segments = ⟨some classCode, some inst, attr⟩

/-- A path parses to what it names. -/
theorem parseCipPath_eq_ok_iff {path : Bytes} {classCode inst : ℕ} {attr : Option ℕ} :
    parseCipPath path = .ok (classCode, inst, attr) ↔ Names path classCode inst attr := by
  constructor
  · intro h
    obtain ⟨values, hparse, hvalues⟩ := bind_eq_ok h
    obtain ⟨segments, hpath, rfl⟩ := parseSegments_eq_ok hparse
    refine ⟨segments, hpath, ?_⟩
    split at hvalues
    · rename_i heq
      cases hvalues
      exact heq
    · cases hvalues
  · rintro ⟨segments, rfl, hresolve⟩
    have hparse := parseSegments_encode [] segments {}
    rw [List.nil_append] at hparse
    unfold parseCipPath
    rw [show ([] : Bytes).length = 0 from rfl] at hparse
    rw [hparse, ok_bind]
    unfold resolve at hresolve
    rw [hresolve]
    rfl

theorem parseCipPath_error {path : Bytes} {e : PyError} (h : parseCipPath path = .error e) :
    e = .valueError := by
  unfold parseCipPath at h
  cases hparse : parseSegments path 0 {} with
  | error e' =>
    rw [hparse] at h
    cases h
    exact parseSegments_error hparse
  | ok values =>
    rw [hparse, ok_bind] at h
    split at h
    · cases h
    · cases h
      rfl

/-! ## The length of a path -/

/-- How many of the three values are there. -/
def PathValues.count (values : PathValues) : ℕ :=
  values.classCode.toList.length + values.inst.toList.length + values.attr.toList.length

theorem count_apply_le (segment : Segment) (values : PathValues) :
    2 * (segment.apply values).count ≤ 2 * values.count + segment.encode.length := by
  cases segment with
  | pad => simp [Segment.apply]
  | value type width v fits =>
    have hoctets : 1 ≤ width.octets := by cases width <;> decide
    have hassign : (values.assign v type).count ≤ values.count + 1 := by
      cases type <;> simp [PathValues.assign, PathValues.count] <;> omega
    simp only [Segment.apply, Segment.encode, List.length_cons, ByteOrder.length_encode]
    omega

theorem count_foldl_le (segments : List Segment) (values : PathValues) :
    2 * (segments.foldl Segment.apply values).count ≤
      2 * values.count + (segments.flatMap Segment.encode).length := by
  induction segments generalizing values with
  | nil => simp
  | cons segment segments ih =>
    have hstep := count_apply_le segment values
    have hrest := ih (segment.apply values)
    simp only [List.foldl_cons, List.flatMap_cons, List.length_append]
    omega

/-- A path that names an attribute takes two octets at least for each of its three values. -/
theorem Names.length_le {path : Bytes} {classCode inst attr : ℕ} (h : Names path classCode inst (some attr)) :
    6 ≤ path.length := by
  obtain ⟨segments, rfl, hresolve⟩ := h
  have hcount := count_foldl_le segments {}
  have hzero : PathValues.count {} = 0 := rfl
  have hthree : PathValues.count ⟨some classCode, some inst, some attr⟩ = 3 := rfl
  unfold resolve at hresolve
  rw [hresolve] at hcount
  omega

end Cursus.Enip
