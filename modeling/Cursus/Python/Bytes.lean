/-
Python's `bytes`: indexing, slicing and searching; `int.to_bytes` and `int.from_bytes`; the integer
and byte-string fields of the `struct` module; ASCII text. An operation that can raise returns
`Except PyError`.
-/
import Mathlib.Tactic

namespace Cursus.Python

abbrev Bytes := List UInt8

/-- The exceptions raised by the built-in operations used here. -/
inductive PyError
  | indexError | keyError | valueError | unicodeEncodeError | overflowError | structError | osError
  deriving DecidableEq, Repr

/-! ## Exceptions -/

section Bind

variable {α β : Type}

@[simp] theorem ok_bind (a : α) (f : α → Except PyError β) : (Except.ok a >>= f) = f a := rfl

@[simp] theorem error_bind (e : PyError) (f : α → Except PyError β) :
    (Except.error e >>= f) = Except.error e := rfl

@[simp] theorem pure_eq_ok (a : α) : (pure a : Except PyError α) = .ok a := rfl

theorem bind_eq_ok {x : Except PyError α} {f : α → Except PyError β} {b : β}
    (h : (x >>= f) = .ok b) : ∃ a, x = .ok a ∧ f a = .ok b := by
  cases x with
  | ok a => exact ⟨a, rfl, h⟩
  | error e => cases h

theorem map_some_eq_ok {x : Except PyError α} {o : Option α} (h : x.map some = .ok o) :
    ∃ a, x = .ok a ∧ o = some a := by
  cases x with
  | ok a =>
    cases h
    exact ⟨a, rfl, rfl⟩
  | error e => cases h

theorem exists_error_iff {x : Except PyError α} : (∃ e, x = .error e) ↔ ¬ ∃ a, x = .ok a := by
  cases x <;> simp

theorem bind_ok_iff {x : Except PyError α} {f : α → Except PyError β} :
    (∃ b, (x >>= f) = .ok b) ↔ ∃ a, x = .ok a ∧ ∃ b, f a = .ok b := by
  cases x <;> simp

end Bind

/-! ## Indexing, slicing and searching -/

/-- `bs[i]` for `0 ≤ i`. -/
def index (bs : Bytes) (i : ℕ) : Except PyError ℕ :=
  match bs[i]? with
  | some b => .ok b.toNat
  | none => .error .indexError

/-- `bs[i:j]` for `0 ≤ i` and `0 ≤ j`. -/
def slice (bs : Bytes) (i j : ℕ) : Bytes := (bs.drop i).take (j - i)

/-- The lowest position at which `sub` occurs. -/
def findFrom (sub : Bytes) : Bytes → Option ℕ
  | [] => if sub = [] then some 0 else none
  | b :: bs => if sub <+: b :: bs then some 0 else (findFrom sub bs).map (· + 1)

/-- `bs.find(sub, start)`, with `none` for `-1`. -/
def find (bs sub : Bytes) (start : ℕ) : Option ℕ :=
  if bs.length < start then none else (findFrom sub (bs.drop start)).map (start + ·)

theorem index_of_lt {bs : Bytes} {i : ℕ} (h : i < bs.length) : index bs i = .ok bs[i].toNat := by
  simp [index, h]

@[simp] theorem index_zero_cons (b : UInt8) (bs : Bytes) : index (b :: bs) 0 = .ok b.toNat := rfl

@[simp] theorem index_succ_cons (b : UInt8) (bs : Bytes) (i : ℕ) :
    index (b :: bs) (i + 1) = index bs i := rfl

@[simp] theorem index_nil (i : ℕ) : index [] i = .error .indexError := rfl

theorem index_append_right (pre bs : Bytes) (i : ℕ) :
    index (pre ++ bs) (pre.length + i) = index bs i := by
  simp [index, List.getElem?_append_right]

theorem slice_append_right (pre bs : Bytes) (i j : ℕ) :
    slice (pre ++ bs) (pre.length + i) (pre.length + j) = slice bs i j := by
  unfold slice
  rw [show pre.length + j - (pre.length + i) = j - i by omega, ← List.drop_drop, List.drop_left]

theorem slice_zero (bs : Bytes) (j : ℕ) : slice bs 0 j = bs.take j := by simp [slice]

theorem slice_take {i j n : ℕ} (h : j ≤ n) (bs : Bytes) : slice (bs.take n) i j = slice bs i j := by
  unfold slice
  rw [List.drop_take, List.take_take, Nat.min_eq_left (by omega)]

theorem length_slice {bs : Bytes} {i j : ℕ} (hj : j ≤ bs.length) :
    (slice bs i j).length = j - i := by
  simp [slice]; omega

theorem take_append_drop_add (bs : Bytes) (i k : ℕ) : (bs.drop i).take k ++ bs.drop (i + k) = bs.drop i := by
  rw [← List.drop_drop, List.take_append_drop]

/-- A prefix that avoids the byte is skipped by the search for it. -/
theorem findFrom_append_cons {c : UInt8} :
    ∀ {pre : Bytes} (rest : Bytes), c ∉ pre → findFrom [c] (pre ++ c :: rest) = some pre.length
  | [], rest, _ => by simp [findFrom]
  | b :: pre, rest, h => by
    simp only [List.mem_cons, not_or] at h
    have hne : ¬ [c] <+: b :: (pre ++ c :: rest) := by simp [h.1]
    rw [List.cons_append, findFrom, if_neg hne, findFrom_append_cons rest h.2]
    simp

theorem findFrom_eq_some {c : UInt8} :
    ∀ {bs : Bytes} {i : ℕ}, findFrom [c] bs = some i →
      ∃ pre rest, bs = pre ++ c :: rest ∧ c ∉ pre ∧ pre.length = i
  | [], i, h => by simp [findFrom] at h
  | b :: bs, i, h => by
    unfold findFrom at h
    split at h
    · rename_i hp
      cases h
      simp only [List.cons_prefix_cons, List.nil_prefix, and_true] at hp
      exact ⟨[], bs, by simp [hp], by simp, rfl⟩
    · rename_i hp
      obtain ⟨j, hj, rfl⟩ := Option.map_eq_some_iff.1 h
      obtain ⟨pre, rest, rfl, hc, rfl⟩ := findFrom_eq_some hj
      refine ⟨b :: pre, rest, rfl, ?_, rfl⟩
      simp only [List.cons_prefix_cons, List.nil_prefix, and_true] at hp
      simp [hp, hc]

theorem findFrom_eq_none {c : UInt8} : ∀ {bs : Bytes}, findFrom [c] bs = none → c ∉ bs
  | [], _ => by simp
  | b :: bs, h => by
    unfold findFrom at h
    split at h
    · cases h
    · rename_i hp
      simp only [List.cons_prefix_cons, List.nil_prefix, and_true] at hp
      have := findFrom_eq_none (Option.map_eq_none_iff.1 h)
      simp [hp, this]

theorem find_append_right (pre bs : Bytes) (c : UInt8) :
    find (pre ++ bs) [c] pre.length = (findFrom [c] bs).map (pre.length + ·) := by
  simp [find]

/-- What holds of every entry of a table holds of the one looked up. -/
theorem forall_of_lookup {P : Bytes → Prop} {k : ℕ} {v : Bytes} {table : List (ℕ × Bytes)}
    (htable : ∀ p ∈ table, P p.2) (h : table.lookup k = some v) : P v := by
  obtain ⟨before, after, rfl, -⟩ := List.lookup_eq_some_iff.1 h
  exact htable (k, v) (by simp)

/-! ## Integers as bytes -/

/-- The `w` low-order bytes of `v`, least significant first. -/
def encodeLE : ℕ → ℕ → Bytes
  | 0, _ => []
  | w + 1, v => UInt8.ofNat v :: encodeLE w (v / 256)

def decodeLE : Bytes → ℕ
  | [] => 0
  | b :: bs => b.toNat + 256 * decodeLE bs

inductive ByteOrder
  | little | big
  deriving DecidableEq, Repr

/-- `v.to_bytes(w, order)` for `v < 256 ^ w`. -/
def ByteOrder.encode : ByteOrder → ℕ → ℕ → Bytes
  | .little, w, v => encodeLE w v
  | .big, w, v => (encodeLE w v).reverse

/-- `int.from_bytes(bs, order)`. -/
def ByteOrder.decode : ByteOrder → Bytes → ℕ
  | .little, bs => decodeLE bs
  | .big, bs => decodeLE bs.reverse

@[simp] theorem length_encodeLE (w v : ℕ) : (encodeLE w v).length = w := by
  induction w generalizing v with
  | zero => rfl
  | succ w ih => simp [encodeLE, ih]

theorem decodeLE_encodeLE {w v : ℕ} (h : v < 256 ^ w) : decodeLE (encodeLE w v) = v := by
  induction w generalizing v with
  | zero => simp only [pow_zero] at h; simp [encodeLE, decodeLE]; omega
  | succ w ih =>
    have hd : v / 256 < 256 ^ w := by rw [pow_succ] at h; omega
    simp only [encodeLE, decodeLE, ih hd, UInt8.toNat_ofNat']
    omega

theorem decodeLE_lt : ∀ bs : Bytes, decodeLE bs < 256 ^ bs.length
  | [] => by simp [decodeLE]
  | b :: bs => by
    have := decodeLE_lt bs
    have := b.toNat_lt
    simp only [decodeLE, List.length_cons, pow_succ]
    omega

theorem encodeLE_decodeLE : ∀ bs : Bytes, encodeLE bs.length (decodeLE bs) = bs
  | [] => rfl
  | b :: bs => by
    have := b.toNat_lt
    have hd : (b.toNat + 256 * decodeLE bs) / 256 = decodeLE bs := by omega
    have hb : UInt8.ofNat (b.toNat + 256 * decodeLE bs) = b := by
      apply UInt8.toNat_inj.1
      rw [UInt8.toNat_ofNat']
      omega
    rw [List.length_cons, decodeLE, encodeLE, hd, hb, encodeLE_decodeLE bs]

namespace ByteOrder

variable (o : ByteOrder)

@[simp] theorem length_encode (w v : ℕ) : (o.encode w v).length = w := by
  cases o <;> simp [encode]

theorem decode_encode {w v : ℕ} (h : v < 256 ^ w) : o.decode (o.encode w v) = v := by
  cases o <;> simp [encode, decode, decodeLE_encodeLE h]

theorem decode_lt (bs : Bytes) : o.decode bs < 256 ^ bs.length := by
  cases o with
  | little => exact decodeLE_lt bs
  | big => simpa [decode] using decodeLE_lt bs.reverse

theorem encode_decode (bs : Bytes) : o.encode bs.length (o.decode bs) = bs := by
  cases o with
  | little => exact encodeLE_decodeLE bs
  | big =>
    have := encodeLE_decodeLE bs.reverse
    rw [List.length_reverse] at this
    simp [encode, decode, this]

/-- Integers of one width are read off the front. -/
theorem encode_append_inj {w v v' : ℕ} (h : v < 256 ^ w) (h' : v' < 256 ^ w) {rest rest' : Bytes}
    (heq : o.encode w v ++ rest = o.encode w v' ++ rest') : v = v' ∧ rest = rest' := by
  obtain ⟨hencode, hrest⟩ := List.append_inj heq (by rw [length_encode, length_encode])
  have hdecode := congrArg o.decode hencode
  rw [decode_encode o h, decode_encode o h'] at hdecode
  exact ⟨hdecode, hrest⟩

end ByteOrder

/-- `v.bit_length()` for `0 ≤ v`. -/
def bitLength (v : ℕ) : ℕ := if v = 0 then 0 else v.log2 + 1

theorem lt_two_pow_bitLength (v : ℕ) : v < 2 ^ bitLength v := by
  unfold bitLength
  split
  · simp [*]
  · exact Nat.lt_log2_self

theorem bitLength_le_iff {v n : ℕ} : bitLength v ≤ n ↔ v < 2 ^ n := by
  unfold bitLength
  split
  · rename_i h; simp [h]
  · rename_i h; rw [← Nat.log2_lt h]; omega

/-- `v.to_bytes(w, order)`. -/
def intToBytes (o : ByteOrder) (w : ℕ) (v : ℤ) : Except PyError Bytes :=
  if 0 ≤ v ∧ v < 256 ^ w then .ok (o.encode w v.toNat) else .error .overflowError

/-- `bytes([v, …])`. -/
def bytesOf (vs : List ℕ) : Except PyError Bytes :=
  if ∀ v ∈ vs, v < 256 then .ok (vs.map UInt8.ofNat) else .error .valueError

/-! ## Text -/

/-- `text.encode("ascii")`. -/
def encodeAscii (text : String) : Except PyError Bytes :=
  if text.toList.all fun c => c.toNat < 128 then .ok (text.toList.map fun c => UInt8.ofNat c.toNat)
  else .error .unicodeEncodeError

def IsAscii (text : String) : Prop := ∀ c ∈ text.toList, c.toNat < 128

theorem all_eq_true_iff_isAscii (text : String) :
    (text.toList.all fun c => c.toNat < 128) = true ↔ IsAscii text := by
  simp [IsAscii]

instance (text : String) : Decidable (IsAscii text) := decidable_of_iff _ (all_eq_true_iff_isAscii text)

theorem encodeAscii_of_isAscii {text : String} (h : IsAscii text) :
    encodeAscii text = .ok (text.toList.map fun c => UInt8.ofNat c.toNat) :=
  if_pos ((all_eq_true_iff_isAscii text).2 h)

/-- ASCII text is determined by its octets. -/
theorem map_ofNat_inj {text text' : String} (h : IsAscii text) (h' : IsAscii text')
    (heq : (text.toList.map fun c => UInt8.ofNat c.toNat) = text'.toList.map fun c => UInt8.ofNat c.toNat) :
    text = text' := by
  have hinv : ∀ {text : String}, IsAscii text →
      (text.toList.map fun c => UInt8.ofNat c.toNat).map (fun b => Char.ofNat b.toNat) = text.toList := by
    intro text h
    rw [List.map_map]
    refine (List.map_congr_left fun c hc => ?_).trans (List.map_id _)
    have hlt : c.toNat < 2 ^ 8 := (h c hc).trans (by simp)
    show Char.ofNat (UInt8.ofNat c.toNat).toNat = c
    rw [UInt8.toNat_ofNat_of_lt' hlt, Char.ofNat_toNat]
  apply String.ext
  rw [← hinv h, heq, hinv h']

theorem encodeAscii_of_not {text : String} (h : ¬ IsAscii text) :
    encodeAscii text = .error .unicodeEncodeError :=
  if_neg (mt (all_eq_true_iff_isAscii text).1 h)

/-! ## `struct` -/

/-- A value of a `struct` format: an unsigned integer of a byte width, or a padded byte string. -/
inductive Field
  | int (w : ℕ) (v : ℤ)
  | str (w : ℕ) (v : Bytes)

namespace Field

abbrev B (v : ℤ) : Field := .int 1 v
abbrev H (v : ℤ) : Field := .int 2 v
abbrev I (v : ℤ) : Field := .int 4 v

def Fits : Field → Prop
  | .int w v => 0 ≤ v ∧ v < 256 ^ w
  | .str _ _ => True

/-- Decided on natural numbers: on integers the kernel counts down from `256 ^ w`. -/
instance : DecidablePred Fits
  | .int w v => decidable_of_iff (0 ≤ v ∧ v.toNat < 256 ^ w)
      (and_congr_right fun h => by rw [← Int.ofNat_lt, Int.toNat_of_nonneg h]; norm_cast)
  | .str _ _ => inferInstanceAs (Decidable True)

def width : Field → ℕ
  | .int w _ => w
  | .str w _ => w

/-- The bytes of a field that fits. -/
def raw (o : ByteOrder) : Field → Bytes
  | .int w v => o.encode w v.toNat
  | .str w v => (v ++ List.replicate w 0).take w

def pack (o : ByteOrder) (f : Field) : Except PyError Bytes :=
  if f.Fits then .ok (f.raw o) else .error .structError

@[simp] theorem length_raw (o : ByteOrder) (f : Field) : (f.raw o).length = f.width := by
  cases f <;> simp [raw, width]

end Field

theorem Field.Fits.toNat_lt {w : ℕ} {v : ℤ} (h : (Field.int w v).Fits) : v.toNat < 256 ^ w := by
  have hlt := h.2
  zify
  rwa [Int.toNat_of_nonneg h.1]

/-- An integer that fits is read off the front. -/
theorem Field.raw_append_inj {o : ByteOrder} {w : ℕ} {v v' : ℤ} (h : (Field.int w v).Fits) (h' : (Field.int w v').Fits)
    {rest rest' : Bytes} (heq : (Field.int w v).raw o ++ rest = (Field.int w v').raw o ++ rest') :
    v = v' ∧ rest = rest' := by
  obtain ⟨hnat, hrest⟩ := o.encode_append_inj h.toNat_lt h'.toNat_lt heq
  rw [← Int.toNat_of_nonneg h.1, ← Int.toNat_of_nonneg h'.1, hnat]
  exact ⟨rfl, hrest⟩

/-- `struct.pack` of a format without alignment. -/
def structPack (o : ByteOrder) : List Field → Except PyError Bytes
  | [] => .ok []
  | f :: fs => do return (← f.pack o) ++ (← structPack o fs)

/-- The bytes of fields that fit. -/
def structRaw (o : ByteOrder) (fs : List Field) : Bytes := fs.flatMap (Field.raw o)

theorem structPack_of_fits {o : ByteOrder} :
    ∀ {fs : List Field}, (∀ f ∈ fs, f.Fits) → structPack o fs = .ok (structRaw o fs)
  | [], _ => rfl
  | f :: fs, h => by
    rw [List.forall_mem_cons] at h
    simp [structPack, structRaw, Field.pack, h.1, structPack_of_fits h.2]

theorem structPack_of_not_fits {o : ByteOrder} :
    ∀ {fs : List Field}, ¬ (∀ f ∈ fs, f.Fits) → structPack o fs = .error .structError
  | [], h => by simp at h
  | f :: fs, h => by
    rw [List.forall_mem_cons] at h
    by_cases hf : f.Fits
    · simp [structPack, Field.pack, hf, structPack_of_not_fits (o := o) fun hs => h ⟨hf, hs⟩]
    · simp [structPack, Field.pack, hf]

theorem structPack_eq_ok {o : ByteOrder} {fs : List Field} {bs : Bytes}
    (h : structPack o fs = .ok bs) : (∀ f ∈ fs, f.Fits) ∧ bs = structRaw o fs := by
  by_cases hf : ∀ f ∈ fs, f.Fits
  · rw [structPack_of_fits hf] at h
    cases h
    exact ⟨hf, rfl⟩
  · rw [structPack_of_not_fits hf] at h
    cases h

theorem length_structRaw (o : ByteOrder) (fs : List Field) :
    (structRaw o fs).length = (fs.map Field.width).sum := by
  simp [structRaw, List.length_flatMap]

/-- The buffer check of `struct.unpack`. -/
def checkSize (size : ℕ) (bs : Bytes) : Except PyError Unit :=
  if bs.length = size then .ok () else .error .structError

/-- The buffer check of `struct.unpack_from`. -/
def checkFrom (size : ℕ) (bs : Bytes) (offset : ℕ) : Except PyError Unit :=
  if offset + size ≤ bs.length then .ok () else .error .structError

/-- The unsigned integer of width `w` at `offset`. -/
def uintAt (o : ByteOrder) (w : ℕ) (bs : Bytes) (offset : ℕ) : ℕ :=
  o.decode (slice bs offset (offset + w))

theorem uintAt_lt (o : ByteOrder) (w : ℕ) (bs : Bytes) (offset : ℕ) :
    uintAt o w bs offset < 256 ^ w := by
  refine lt_of_lt_of_le (o.decode_lt _) (Nat.pow_le_pow_right (by simp) ?_)
  simp [slice]

theorem uintAt_drop (o : ByteOrder) (w n i : ℕ) (bs : Bytes) : uintAt o w (bs.drop n) i = uintAt o w bs (n + i) := by
  unfold uintAt slice
  rw [List.drop_drop, Nat.add_assoc, Nat.add_sub_cancel_left, ← Nat.add_assoc, Nat.add_sub_cancel_left]

theorem uintAt_append_right (o : ByteOrder) (w : ℕ) (pre bs : Bytes) (i : ℕ) :
    uintAt o w (pre ++ bs) (pre.length + i) = uintAt o w bs i := by
  unfold uintAt
  rw [show pre.length + i + w = pre.length + (i + w) by omega, slice_append_right]

theorem uintAt_take (o : ByteOrder) {w i n : ℕ} (h : i + w ≤ n) (bs : Bytes) :
    uintAt o w (bs.take n) i = uintAt o w bs i := by
  rw [uintAt, slice_take h, uintAt]

theorem uintAt_append_left (o : ByteOrder) {w i : ℕ} {bs : Bytes} (h : i + w ≤ bs.length) (rest : Bytes) :
    uintAt o w (bs ++ rest) i = uintAt o w bs i := by
  rw [← uintAt_take o h, List.take_left]

theorem index_eq_uintAt {bs : Bytes} {i : ℕ} (h : i < bs.length) :
    index bs i = .ok (uintAt .little 1 bs i) := by
  unfold uintAt slice
  rw [index_of_lt h, Nat.add_sub_cancel_left, List.drop_eq_getElem_cons h, List.take_succ_cons, List.take_zero]
  rfl

/-- An integer is read back where it was written. -/
theorem uintAt_encode (o : ByteOrder) {w v : ℕ} (h : v < 256 ^ w) (pre rest : Bytes) :
    uintAt o w (pre ++ (o.encode w v ++ rest)) pre.length = v := by
  have hslice := slice_append_right pre (o.encode w v ++ rest) 0 w
  rw [Nat.add_zero, slice_zero, List.take_left' (ByteOrder.length_encode ..)] at hslice
  unfold uintAt
  rw [hslice, ByteOrder.decode_encode _ h]

/-- An integer that is read is written back as the bytes it was read from. -/
theorem encode_uintAt (o : ByteOrder) {w i : ℕ} {bs : Bytes} (h : i + w ≤ bs.length) :
    o.encode w (uintAt o w bs i) = (bs.drop i).take w := by
  have hinv := o.encode_decode (slice bs i (i + w))
  rw [length_slice h, Nat.add_sub_cancel_left] at hinv
  unfold uintAt
  rw [hinv, slice, Nat.add_sub_cancel_left]

/-- An integer that `struct.pack` has written is read back at the sum of the widths before it. -/
theorem uintAt_structRaw (o : ByteOrder) (before after : List Field) {w : ℕ} {v : ℤ} (h : (Field.int w v).Fits)
    (rest : Bytes) :
    uintAt o w (structRaw o (before ++ .int w v :: after) ++ rest) (before.map Field.width).sum = v.toNat := by
  have hv : v.toNat < 256 ^ w := h.toNat_lt
  have hsplit : structRaw o (before ++ .int w v :: after) ++ rest =
      structRaw o before ++ (o.encode w v.toNat ++ (structRaw o after ++ rest)) := by
    simp [structRaw, Field.raw]
  rw [← length_structRaw o, hsplit, uintAt_encode o hv]

/-- A byte string of the width of its field stands at the sum of the widths before it. -/
theorem slice_structRaw (o : ByteOrder) (before after : List Field) {w : ℕ} {v : Bytes} (h : v.length = w)
    (rest : Bytes) :
    slice (structRaw o (before ++ .str w v :: after) ++ rest) (before.map Field.width).sum
      ((before.map Field.width).sum + w) = v := by
  have hraw : (Field.str w v).raw o = v := List.take_left' h
  have hsplit : structRaw o (before ++ .str w v :: after) ++ rest =
      structRaw o before ++ (v ++ (structRaw o after ++ rest)) := by
    simp [structRaw, hraw]
  have hslice := slice_append_right (structRaw o before) (v ++ (structRaw o after ++ rest)) 0 w
  rw [Nat.add_zero, slice_zero, List.take_left' h, length_structRaw] at hslice
  rw [hsplit, hslice]

end Cursus.Python
