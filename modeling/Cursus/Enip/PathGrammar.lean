/-
`_parse_cip_path` accepts exactly the segment lists with a class and an instance. A path is spelled by
one list of segments at most, the last value of every type counts, and the loop ends after at most one
iteration for each octet, also where it raises.
-/
import Cursus.Enip.Path

namespace Cursus.Enip

open Cursus.Python

/-! ## The segments of a path -/

/-- A segment says how long it is. -/
theorem Segment.encode_append_inj {segment segment' : Segment} {rest rest' : Bytes}
    (h : segment.encode ++ rest = segment'.encode ++ rest') : segment = segment' ∧ rest = rest' := by
  cases segment with
  | pad =>
    cases segment' with
    | pad => exact ⟨rfl, (List.cons.inj h).2⟩
    | value type' width' v' fits' =>
      have hcode := (List.cons.inj h).1
      exact absurd hcode.symm (segmentCode_ne_zero type' width')
  | value type width v fits =>
    cases segment' with
    | pad =>
      have hcode := (List.cons.inj h).1
      exact absurd hcode (segmentCode_ne_zero type width)
    | value type' width' v' fits' =>
      obtain ⟨hcode, hbody⟩ := List.cons.inj h
      obtain ⟨rfl, rfl⟩ := segmentCode_inj hcode
      obtain ⟨rfl, hrest⟩ := ByteOrder.encode_append_inj _ fits fits' hbody
      exact ⟨rfl, hrest⟩

/-- One list of segments at most spells a path. -/
theorem flatMap_encode_inj {segments segments' : List Segment}
    (h : segments.flatMap Segment.encode = segments'.flatMap Segment.encode) : segments = segments' := by
  induction segments generalizing segments' with
  | nil =>
    cases segments' with
    | nil => rfl
    | cons segment' segments' => cases segment' <;> cases h
  | cons segment segments ih =>
    cases segments' with
    | nil => cases segment <;> cases h
    | cons segment' segments' =>
      obtain ⟨rfl, htail⟩ := Segment.encode_append_inj h
      rw [ih htail]

/-! ## The value that counts -/

/-- The value that the segment assigns to the variable of a type. -/
def Segment.valueOf (type : SegmentType) : Segment → Option ℕ
  | pad => none
  | value type' _ v _ => if type' = type then some v else none

/-- The value of the last segment of a type. -/
def lastValue (type : SegmentType) (segments : List Segment) : Option ℕ :=
  (segments.filterMap (Segment.valueOf type)).getLast?

theorem lastValue_concat (type : SegmentType) (segments : List Segment) (segment : Segment) :
    lastValue type (segments ++ [segment]) = (segment.valueOf type).or (lastValue type segments) := by
  unfold lastValue
  rw [List.filterMap_append, List.getLast?_append]
  cases hvalue : segment.valueOf type <;> simp [hvalue]

theorem lastValue_eq_none_iff {type : SegmentType} {segments : List Segment} :
    lastValue type segments = none ↔ ∀ width v fits, Segment.value type width v fits ∉ segments := by
  unfold lastValue
  rw [List.getLast?_eq_none_iff, List.filterMap_eq_nil_iff]
  constructor
  · intro h width v fits hmem
    have hnone := h _ hmem
    simp [Segment.valueOf] at hnone
  · intro h segment hmem
    cases segment with
    | pad => rfl
    | value type' width v fits =>
      apply if_neg
      rintro rfl
      exact h width v fits hmem

/-- The variables hold the last values. -/
theorem resolve_eq (segments : List Segment) :
    resolve segments = ⟨lastValue .cls segments, lastValue .inst segments, lastValue .attr segments⟩ := by
  induction segments using List.reverseRecOn with
  | nil => rfl
  | append_singleton segments segment ih =>
    unfold resolve at ih ⊢
    rw [List.foldl_append, ih, lastValue_concat, lastValue_concat, lastValue_concat]
    cases segment with
    | pad => rfl
    | value type width v fits => cases type <;> rfl

/-- The path is spelled by segments, a class and an instance among them. -/
structure Decomposes (path : Bytes) (segments : List Segment) : Prop where
  path_eq : path = segments.flatMap Segment.encode
  exists_class : ∃ width v fits, Segment.value .cls width v fits ∈ segments
  exists_inst : ∃ width v fits, Segment.value .inst width v fits ∈ segments

theorem exists_value_iff {type : SegmentType} {segments : List Segment} :
    (∃ width v fits, Segment.value type width v fits ∈ segments) ↔ ∃ v, lastValue type segments = some v := by
  rw [← Option.ne_none_iff_exists', ne_eq, lastValue_eq_none_iff]
  simp only [not_forall, not_not]

theorem names_iff {path : Bytes} {classCode inst : ℕ} {attr : Option ℕ} :
    Names path classCode inst attr ↔
      ∃ segments, Decomposes path segments ∧ lastValue .cls segments = some classCode ∧
        lastValue .inst segments = some inst ∧ lastValue .attr segments = attr := by
  constructor
  · rintro ⟨segments, hpath, hresolve⟩
    rw [resolve_eq, PathValues.mk.injEq] at hresolve
    exact ⟨segments, ⟨hpath, exists_value_iff.2 ⟨_, hresolve.1⟩, exists_value_iff.2 ⟨_, hresolve.2.1⟩⟩, hresolve⟩
  · rintro ⟨segments, hd, hclass, hinst, hattr⟩
    exact ⟨segments, hd.path_eq, by rw [resolve_eq, hclass, hinst, hattr]⟩

/-! ## The iterations of the loop -/

/-- The body of the loop of `_parse_cip_path`: the offset and the variables behind it. -/
def parseSegment (path : Bytes) (offset : ℕ) (values : PathValues) : Except PyError (ℕ × PathValues) := do
  let segment ← index path offset
  if segment = 0 then return (offset + 1, values)
  let (value, next) ← readPathValue path (offset + 1) segment
  match segmentTypeByCode segment with
  | none => throw .valueError
  | some segmentType => return (next, values.assign value segmentType)

/-- The loop, if it ends within the iterations. -/
def parseSegmentsWithin (path : Bytes) : (iterations offset : ℕ) → PathValues → Option (Except PyError PathValues)
  | 0, offset, values => if offset < path.length then none else some (.ok values)
  | iterations + 1, offset, values =>
    if offset < path.length then
      match parseSegment path offset values with
      | .error e => some (.error e)
      | .ok (next, values) => parseSegmentsWithin path iterations next values
    else some (.ok values)

/-- An iteration goes forward. -/
theorem parseSegment_lt {path : Bytes} {offset next : ℕ} {values values' : PathValues}
    (h : parseSegment path offset values = .ok (next, values')) : offset < next := by
  obtain ⟨segment, -, hbody⟩ := bind_eq_ok h
  split_ifs at hbody
  · cases hbody
    exact Nat.lt_succ_self offset
  · obtain ⟨⟨value, next'⟩, hread, hassign⟩ := bind_eq_ok hbody
    have hlt := readPathValue_lt hread
    dsimp only at hassign
    split at hassign
    · cases hassign
    · cases hassign
      omega

/-- The loop is its body and the loop from the next offset on. -/
theorem parseSegments_eq_bind {path : Bytes} {offset : ℕ} (hlt : offset < path.length) (values : PathValues) :
    parseSegments path offset values =
      parseSegment path offset values >>= fun next => parseSegments path next.1 next.2 := by
  unfold parseSegment
  rw [parseSegments, dif_pos hlt, index_of_lt hlt, ok_bind]
  by_cases hpad : path[offset] = 0
  · rw [if_pos hpad, if_pos (by rw [hpad]; rfl)]
    rfl
  · have hne : path[offset].toNat ≠ 0 := fun h => hpad (UInt8.toNat_inj.1 h)
    rw [if_neg hpad, if_neg hne]
    split
    · rename_i hread
      rw [hread]
      rfl
    · rename_i hread
      rw [hread, ok_bind]
      cases segmentTypeByCode path[offset].toNat <;> rfl

/-- One iteration for each octet that is left is enough. -/
theorem parseSegmentsWithin_of_le {path : Bytes} {iterations offset : ℕ} (values : PathValues)
    (h : path.length ≤ offset + iterations) :
    parseSegmentsWithin path iterations offset values = some (parseSegments path offset values) := by
  induction iterations generalizing offset values with
  | zero =>
    have hle : path.length ≤ offset := h
    rw [parseSegmentsWithin, if_neg (not_lt.2 hle), parseSegments_of_le hle]
  | succ iterations ih =>
    unfold parseSegmentsWithin
    by_cases hlt : offset < path.length
    · rw [if_pos hlt, parseSegments_eq_bind hlt]
      rcases hbody : parseSegment path offset values with e | ⟨next, values'⟩
      · rfl
      · have hnext := parseSegment_lt hbody
        exact ih values' (by omega)
    · rw [if_neg hlt, parseSegments_of_le (not_lt.1 hlt)]

/-! ## The grammar -/

/-- A path parses to the last class, instance and attribute of the segments that spell it, which are
unique, and raises `ValueError` where no segments with a class and an instance do; the loop ends within
one iteration for each octet. -/
theorem parseCipPath_grammar (path : Bytes) :
    (∀ classCode inst attr, parseCipPath path = .ok (classCode, inst, attr) ↔
      ∃ segments, Decomposes path segments ∧ lastValue .cls segments = some classCode ∧
        lastValue .inst segments = some inst ∧ lastValue .attr segments = attr) ∧
    (∀ segments segments', Decomposes path segments → Decomposes path segments' → segments = segments') ∧
    ((¬ ∃ segments, Decomposes path segments) ↔ parseCipPath path = .error .valueError) ∧
    (∀ e, parseCipPath path = .error e → e = .valueError) ∧
    parseSegmentsWithin path path.length 0 {} = some (parseSegments path 0 {}) := by
  refine ⟨fun classCode inst attr => parseCipPath_eq_ok_iff.trans names_iff, ?_, ?_, fun e => parseCipPath_error, ?_⟩
  · intro segments segments' h h'
    apply flatMap_encode_inj
    rw [← h.path_eq, ← h'.path_eq]
  · constructor
    · intro hnone
      rcases hparse : parseCipPath path with e | ⟨classCode, inst, attr⟩
      · rw [parseCipPath_error hparse]
      · obtain ⟨segments, hd, -⟩ := names_iff.1 (parseCipPath_eq_ok_iff.1 hparse)
        exact absurd ⟨segments, hd⟩ hnone
    · rintro hparse ⟨segments, hd⟩
      obtain ⟨classCode, hclass⟩ := exists_value_iff.1 hd.exists_class
      obtain ⟨inst, hinst⟩ := exists_value_iff.1 hd.exists_inst
      have hok := parseCipPath_eq_ok_iff.2 (names_iff.2 ⟨segments, hd, hclass, hinst, rfl⟩)
      rw [hparse] at hok
      cases hok
  · exact parseSegmentsWithin_of_le {} (by omega)

end Cursus.Enip
