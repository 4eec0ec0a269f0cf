/-
Padded CIP paths. A client puts a pad octet between the type octet and the value of a segment of two or
four octets; `_read_path_value` reads the value right behind the type octet. A padded path parses to the
class, the instance and the attribute that it was built from iff each of the three is written in one
octet, or is zero.
The proof counts the octets of a path that are segment types. The path has no more of them than its three
segments and their values need, so every segment that the loop finds in it assigns a value that stays.
-/
import Cursus.Enip.Requests

namespace Cursus.Enip

open Cursus.Python

/-! ## Padded paths -/

/-- A logical segment of a padded path. -/
def paddedSegment (type : SegmentType) (width : Width) (v : ℕ) : Bytes :=
  let value := ByteOrder.little.encode width.octets v
  UInt8.ofNat (segmentCode type width) :: if width = .byte then value else 0 :: value

/-- A class, an instance and an attribute, with a width for each that can hold it. -/
structure PaddedPath where
  classCode : ℕ
  inst : ℕ
  attr : ℕ
  classWidth : Width
  instWidth : Width
  attrWidth : Width
  classWidth_ne : classWidth ≠ .dword
  attrWidth_ne : attrWidth ≠ .dword
  class_lt : classCode < 256 ^ classWidth.octets
  inst_lt : inst < 256 ^ instWidth.octets
  attr_lt : attr < 256 ^ attrWidth.octets

namespace PaddedPath

variable (p : PaddedPath)

def encode : Bytes :=
  paddedSegment .cls p.classWidth p.classCode ++
    (paddedSegment .inst p.instWidth p.inst ++ paddedSegment .attr p.attrWidth p.attr)

/-- A CIP request with this path. -/
def request (service : UInt8) (data : Bytes) : Bytes :=
  service :: UInt8.ofNat (p.encode.length / 2) :: (p.encode ++ data)

/-- The path parses to what it was built from, and the services for one attribute are for this object. -/
def AddressesNamed : Prop :=
  parseCipPath p.encode = .ok (p.classCode, p.inst, some p.attr) ∧
    ∀ (service : UInt8) (data : Bytes) (s : EnipServer), service = 0x0E ∨ service = 0x10 →
      handleCipRequest (p.request service data) s =
        dispatchService service.toNat p.classCode p.inst (some p.attr) data s

end PaddedPath

/-! ## Octets that are segment types -/

/-- How many octets are the type of a segment. -/
def codes (bs : Bytes) : ℕ := bs.countP fun b => (segmentTypeByCode b.toNat).isSome

/-- How many octets of a value are the type of a segment, whatever its width. -/
def valueCodes (v : ℕ) : ℕ := codes (encodeLE 4 v)

theorem codes_append (bs bs' : Bytes) : codes (bs ++ bs') = codes bs + codes bs' := List.countP_append

theorem codes_zero_cons (bs : Bytes) : codes (0 :: bs) = codes bs := List.countP_cons_of_neg (by decide)

theorem codes_segmentCode_cons (type : SegmentType) (width : Width) (bs : Bytes) :
    codes (UInt8.ofNat (segmentCode type width) :: bs) = codes bs + 1 := by
  apply List.countP_cons_of_pos
  rw [toNat_segmentCode, segmentTypeByCode_segmentCode]
  rfl

theorem codes_encodeLE_zero (w : ℕ) : codes (encodeLE w 0) = 0 := by
  induction w with
  | zero => rfl
  | succ w ih => exact (codes_zero_cons _).trans ih

/-- The octets that a greater width adds are zero. -/
theorem codes_encodeLE {w w' v : ℕ} (h : v < 256 ^ w) (hw : w ≤ w') :
    codes (encodeLE w v) = codes (encodeLE w' v) := by
  induction w generalizing w' v with
  | zero =>
    obtain rfl : v = 0 := by simpa using h
    rw [codes_encodeLE_zero, codes_encodeLE_zero]
  | succ w ih =>
    obtain ⟨w', rfl⟩ := Nat.exists_eq_add_of_le' hw
    have hd : v / 256 < 256 ^ w := by rw [pow_succ] at h; omega
    have htail := ih hd (Nat.le_add_left w w')
    show codes ([UInt8.ofNat v] ++ encodeLE w (v / 256)) =
      codes ([UInt8.ofNat v] ++ encodeLE (w' + w) (v / 256))
    rw [codes_append, codes_append, htail]

theorem codes_encode {width : Width} {v : ℕ} (h : v < 256 ^ width.octets) :
    codes (ByteOrder.little.encode width.octets v) = valueCodes v := by
  apply codes_encodeLE h
  cases width <;> decide

theorem codes_paddedSegment (type : SegmentType) {width : Width} {v : ℕ} (h : v < 256 ^ width.octets) :
    codes (paddedSegment type width v) = valueCodes v + 1 := by
  unfold paddedSegment
  rw [codes_segmentCode_cons]
  split_ifs
  · rw [codes_encode h]
  · rw [codes_zero_cons, codes_encode h]

/-! ## What the segments of a path must assign -/

namespace PathValues

def get (values : PathValues) : SegmentType → Option ℕ
  | .cls => values.classCode
  | .inst => values.inst
  | .attr => values.attr

/-- How many octets of the values are segment types. -/
def weight (values : PathValues) : ℕ :=
  (values.classCode.elim 0 valueCodes) + (values.inst.elim 0 valueCodes) + (values.attr.elim 0 valueCodes)

/-- How many values are still to be assigned. -/
def distance (values found : PathValues) : ℕ :=
  missing values.classCode found.classCode + missing values.inst found.inst + missing values.attr found.attr
where
  missing (o o' : Option ℕ) : ℕ := if o = o' then 0 else 1

theorem missing_le_one (o o' : Option ℕ) : distance.missing o o' ≤ 1 := by
  unfold distance.missing
  split_ifs <;> decide

theorem missing_of_ne {o o' : Option ℕ} (h : o' ≠ o) : distance.missing o o' = 1 := if_neg h.symm

theorem distance_self (values : PathValues) : values.distance values = 0 := by simp [distance, distance.missing]

theorem weight_assign_le (values : PathValues) (v : ℕ) (type : SegmentType) :
    (values.assign v type).weight ≤ values.weight + valueCodes v := by
  cases type <;> simp only [assign, weight, Option.elim] <;> omega

/-- An assignment brings the values nearer by one at most. -/
theorem distance_le_succ (values found : PathValues) (v : ℕ) (type : SegmentType) :
    values.distance found ≤ (values.assign v type).distance found + 1 := by
  have hcls := missing_le_one values.classCode found.classCode
  have hinst := missing_le_one values.inst found.inst
  have hattr := missing_le_one values.attr found.attr
  cases type <;> simp only [assign, distance] <;> omega

/-- It does not bring them nearer when the value does not stay. -/
theorem distance_le_of_ne {found : PathValues} {v : ℕ} {type : SegmentType} (h : found.get type ≠ some v)
    (values : PathValues) : values.distance found ≤ (values.assign v type).distance found := by
  have hcls := missing_le_one values.classCode found.classCode
  have hinst := missing_le_one values.inst found.inst
  have hattr := missing_le_one values.attr found.attr
  have hone := missing_of_ne h
  cases type <;> simp only [assign, distance, get] at hone ⊢ <;> omega

end PathValues

theorem codes_encode_value (type : SegmentType) (width : Width) (v : ℕ) (fits : v < 256 ^ width.octets)
    (segments : List Segment) :
    codes ((Segment.value type width v fits :: segments).flatMap Segment.encode) =
      valueCodes v + codes (segments.flatMap Segment.encode) + 1 := by
  rw [List.flatMap_cons, Segment.encode, List.cons_append, codes_segmentCode_cons, codes_append, codes_encode fits]

/-- Every value that segments assign costs them one segment type and its own octets. -/
theorem distance_add_weight_le (segments : List Segment) (values : PathValues) :
    values.distance (segments.foldl Segment.apply values) + (segments.foldl Segment.apply values).weight ≤
      codes (segments.flatMap Segment.encode) + values.weight := by
  induction segments generalizing values with
  | nil => exact (congrArg (· + values.weight) values.distance_self).le
  | cons segment segments ih =>
    cases segment with
    | pad => exact (ih values).trans_eq (congrArg (· + values.weight) (codes_zero_cons _).symm)
    | value type width v fits =>
      have htail := ih (values.assign v type)
      have hweight := values.weight_assign_le v type
      have hdistance := values.distance_le_succ (segments.foldl Segment.apply (values.assign v type)) v type
      rw [codes_encode_value, List.foldl_cons, Segment.apply]
      omega

/-- Segments with no more segment types than they need assign values that stay only. -/
theorem get_of_mem {segments : List Segment} {values found : PathValues}
    (hfound : segments.foldl Segment.apply values = found)
    (hcodes : codes (segments.flatMap Segment.encode) + values.weight ≤ values.distance found + found.weight)
    {type : SegmentType} {width : Width} {v : ℕ} {fits : v < 256 ^ width.octets}
    (hmem : Segment.value type width v fits ∈ segments) : found.get type = some v := by
  induction segments generalizing values with
  | nil => cases hmem
  | cons segment segments ih =>
    cases segment with
    | pad =>
      have hcodes' : codes (segments.flatMap Segment.encode) + values.weight ≤ _ :=
        (congrArg (· + values.weight) (codes_zero_cons _)).ge.trans hcodes
      exact ih hfound hcodes' (by simpa using hmem)
    | value type' width' v' fits' =>
      have htail := distance_add_weight_le segments (values.assign v' type')
      have hweight := values.weight_assign_le v' type'
      have hdistance := values.distance_le_succ found v' type'
      rw [List.foldl_cons, Segment.apply] at hfound
      rw [hfound] at htail
      rw [codes_encode_value] at hcodes
      rcases List.mem_cons.1 hmem with heq | hmem
      · cases heq
        by_contra hne
        have hsame := PathValues.distance_le_of_ne hne values
        omega
      · exact ih hfound (by omega) hmem

/-! ## Reading a padded path -/

/-- Where a value repeats the pad octet in front of it, it is zero throughout. -/
theorem eq_zero_of_cons_append {xs rest more : Bytes} (h : 0 :: (xs ++ rest) = xs ++ more) :
    (∀ x ∈ xs, x = 0) ∧ more = 0 :: rest := by
  induction xs with
  | nil => exact ⟨nofun, h.symm⟩
  | cons x xs ih =>
    obtain ⟨rfl, htail⟩ := List.cons.inj h
    obtain ⟨hxs, hmore⟩ := ih htail
    exact ⟨List.forall_mem_cons.2 ⟨rfl, hxs⟩, hmore⟩

theorem eq_zero_of_encodeLE {w v : ℕ} (hlt : v < 256 ^ w) (h : ∀ x ∈ encodeLE w v, x = 0) : v = 0 := by
  induction w generalizing v with
  | zero => simpa using hlt
  | succ w ih =>
    obtain ⟨hhead, htail⟩ := List.forall_mem_cons.1 h
    have hd : v / 256 < 256 ^ w := by rw [pow_succ] at hlt; omega
    have hlow : v % 256 = 0 := by simpa using congrArg UInt8.toNat hhead
    have hhigh := ih hd htail
    omega

/-- Segments that spell a padded segment and more begin with that segment; where they assign its value
only, the value has one octet or is zero, and other segments spell the rest. -/
theorem padded_of_flatMap {type : SegmentType} {width : Width} {v : ℕ} (hlt : v < 256 ^ width.octets)
    {rest : Bytes} {segments : List Segment}
    (h : paddedSegment type width v ++ rest = segments.flatMap Segment.encode)
    (hassigns : ∀ {width' v' fits}, Segment.value type width' v' fits ∈ segments → v' = v) :
    (width = .byte ∨ v = 0) ∧ ∃ tail, rest = tail.flatMap Segment.encode ∧ tail ⊆ segments := by
  cases segments with
  | nil => cases h
  | cons segment segments =>
    cases segment with
    | pad =>
      have hhead := (List.cons.inj h).1
      exact absurd hhead (segmentCode_ne_zero type width)
    | value type' width' v' fits =>
      obtain ⟨hhead, hbody⟩ := List.cons.inj h
      obtain ⟨rfl, rfl⟩ := segmentCode_inj hhead
      obtain rfl := hassigns List.mem_cons_self
      have hsub : segments ⊆ Segment.value type width v' fits :: segments := List.subset_cons_self _ _
      by_cases hwidth : width = .byte
      · rw [if_pos hwidth] at hbody
        exact ⟨.inl hwidth, segments, List.append_cancel_left hbody, hsub⟩
      · rw [if_neg hwidth] at hbody
        obtain ⟨hzero, hmore⟩ := eq_zero_of_cons_append hbody
        refine ⟨.inr (eq_zero_of_encodeLE hlt hzero), ?_⟩
        -- the last octet of the value is left over, and read as a pad octet
        cases segments with
        | nil => cases hmore
        | cons next segments =>
          cases next with
          | pad => exact ⟨segments, (List.cons.inj hmore).2.symm, fun x hx => hsub (List.mem_cons_of_mem _ hx)⟩
          | value type'' width'' v'' fits'' =>
            have hcode := (List.cons.inj hmore).1
            exact absurd hcode (segmentCode_ne_zero type'' width'')

/-- What the loop reads of a padded segment of one octet, or of value zero. -/
theorem exists_segments (type : SegmentType) {width : Width} {v : ℕ} (hlt : v < 256 ^ width.octets)
    (h : width = .byte ∨ v = 0) :
    ∃ segments : List Segment, segments.flatMap Segment.encode = paddedSegment type width v ∧
      ∀ values, segments.foldl Segment.apply values = values.assign v type := by
  by_cases hwidth : width = .byte
  · subst hwidth
    exact ⟨[.value type .byte v hlt], rfl, fun _ => rfl⟩
  · obtain rfl := h.resolve_left hwidth
    refine ⟨[.value type width 0 hlt, .pad], ?_, fun _ => rfl⟩
    cases width with
    | byte => exact absurd rfl hwidth
    | word => rfl
    | dword => rfl

namespace PaddedPath

theorem parseCipPath_encode_iff (p : PaddedPath) :
    parseCipPath p.encode = .ok (p.classCode, p.inst, some p.attr) ↔
      (p.classWidth = .byte ∨ p.classCode = 0) ∧ (p.instWidth = .byte ∨ p.inst = 0) ∧
        (p.attrWidth = .byte ∨ p.attr = 0) := by
  rw [parseCipPath_eq_ok_iff]
  constructor
  · rintro ⟨segments, hencode, hresolve⟩
    have hcodes : codes (segments.flatMap Segment.encode) =
        valueCodes p.classCode + 1 + (valueCodes p.inst + 1 + (valueCodes p.attr + 1)) := by
      rw [← hencode, encode, codes_append, codes_append, codes_paddedSegment _ p.class_lt,
        codes_paddedSegment _ p.inst_lt, codes_paddedSegment _ p.attr_lt]
    have hassigns : ∀ {type width v fits}, Segment.value type width v fits ∈ segments →
        PathValues.get ⟨some p.classCode, some p.inst, some p.attr⟩ type = some v := by
      intro type width v fits hmem
      refine get_of_mem hresolve ?_ hmem
      have hdistance : PathValues.distance {} ⟨some p.classCode, some p.inst, some p.attr⟩ = 3 := rfl
      have hnone : PathValues.weight {} = 0 := rfl
      have hweight : PathValues.weight ⟨some p.classCode, some p.inst, some p.attr⟩ =
          valueCodes p.classCode + valueCodes p.inst + valueCodes p.attr := rfl
      omega
    obtain ⟨hclass, tail, htail, hsub⟩ :=
      padded_of_flatMap p.class_lt hencode fun hmem => (Option.some.inj (hassigns hmem)).symm
    obtain ⟨hinst, tail', htail', hsub'⟩ :=
      padded_of_flatMap p.inst_lt htail fun hmem => (Option.some.inj (hassigns (hsub hmem))).symm
    rw [← List.append_nil (paddedSegment .attr p.attrWidth p.attr)] at htail'
    obtain ⟨hattr, -⟩ :=
      padded_of_flatMap p.attr_lt htail' fun hmem => (Option.some.inj (hassigns (hsub (hsub' hmem)))).symm
    exact ⟨hclass, hinst, hattr⟩
  · rintro ⟨hclass, hinst, hattr⟩
    obtain ⟨classSegments, hclassEncode, hclassApply⟩ := exists_segments .cls p.class_lt hclass
    obtain ⟨instSegments, hinstEncode, hinstApply⟩ := exists_segments .inst p.inst_lt hinst
    obtain ⟨attrSegments, hattrEncode, hattrApply⟩ := exists_segments .attr p.attr_lt hattr
    refine ⟨classSegments ++ (instSegments ++ attrSegments), ?_, ?_⟩
    · rw [List.flatMap_append, List.flatMap_append, hclassEncode, hinstEncode, hattrEncode, encode]
    · rw [resolve, List.foldl_append, List.foldl_append, hclassApply, hinstApply, hattrApply]
      rfl

theorem length_paddedSegment (type : SegmentType) (width : Width) (v : ℕ) :
    (paddedSegment type width v).length = if width = .byte then 2 else width.octets + 2 := by
  unfold paddedSegment
  split_ifs with h
  · rw [List.length_cons, ByteOrder.length_encode, h]
    rfl
  · rw [List.length_cons, List.length_cons, ByteOrder.length_encode]

theorem length_encode_words (p : PaddedPath) :
    p.encode.length = (UInt8.ofNat (p.encode.length / 2)).toNat * 2 := by
  unfold encode
  rw [List.length_append, List.length_append, length_paddedSegment, length_paddedSegment, length_paddedSegment]
  cases p.classWidth <;> cases p.instWidth <;> cases p.attrWidth <;> rfl

/-- A padded path addresses the object it names iff each of the class, the instance and the attribute is
written in one octet, or is zero. -/
theorem addressesNamed_iff (p : PaddedPath) :
    p.AddressesNamed ↔ (p.classWidth = .byte ∨ p.classCode = 0) ∧ (p.instWidth = .byte ∨ p.inst = 0) ∧
      (p.attrWidth = .byte ∨ p.attr = 0) := by
  rw [← parseCipPath_encode_iff]
  constructor
  · exact And.left
  · intro hparse
    refine ⟨hparse, fun service data s _ => ?_⟩
    exact handleCipRequest_of_asks ⟨_, _, rfl, p.length_encode_words, parseCipPath_eq_ok_iff.1 hparse⟩ s

/-- Class 4, instance 100 in two octets, attribute 3. -/
def wordInstance : PaddedPath where
  classCode := 4
  inst := 100
  attr := 3
  classWidth := .byte
  instWidth := .word
  attrWidth := .byte
  classWidth_ne := nofun
  attrWidth_ne := nofun
  class_lt := by decide
  inst_lt := by decide
  attr_lt := by decide

/-- The code reads instance 25600. -/
theorem not_addressesNamed_word :
    parseCipPath wordInstance.encode = .ok (4, 25600, some 3) ∧ ¬ wordInstance.AddressesNamed := by
  have hparse : parseCipPath wordInstance.encode = .ok (4, 25600, some 3) := by
    rw [parseCipPath_eq_ok_iff]
    exact ⟨[.value .cls .byte 4 (by decide), .value .inst .word 25600 (by decide), .pad,
      .value .attr .byte 3 (by decide)], rfl, rfl⟩
  refine ⟨hparse, fun h => ?_⟩
  have hnamed := h.1
  rw [hparse] at hnamed
  cases hnamed

end PaddedPath

end Cursus.Enip
