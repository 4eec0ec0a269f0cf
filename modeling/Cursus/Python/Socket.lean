/-
Python's `socket.inet_aton` as inet(3) describes it: up to four numbers between dots, each decimal,
octal or hexadecimal, of which the last one fills the remaining bytes; anything may follow a white
space.
-/
import Cursus.Python.Bytes

namespace Cursus.Python

/-! ## Numbers -/

/-- The value of a digit of a base up to 16. -/
def digitValue (c : Char) : ℕ :=
  if c.isDigit then c.toNat - 48
  else if 'a' ≤ c ∧ c ≤ 'f' then c.toNat - 87
  else if 'A' ≤ c ∧ c ≤ 'F' then c.toNat - 55
  else 16

/-- Read digits of the base, and what follows them. -/
def readDigits (base : ℕ) : List Char → ℕ → ℕ × List Char
  | [], value => (value, [])
  | c :: cs, value => if digitValue c < base then readDigits base cs (base * value + digitValue c) else (value, c :: cs)

/-- `strtoul` in base 0 at a digit: a leading `0x` means hexadecimal, another leading `0` octal. -/
def strtoul : List Char → ℕ × List Char
  | '0' :: x :: c :: cs =>
    if (x = 'x' ∨ x = 'X') ∧ digitValue c < 16 then readDigits 16 (c :: cs) 0
    else readDigits 8 ('0' :: x :: c :: cs) 0
  | '0' :: cs => readDigits 8 ('0' :: cs) 0
  | cs => readDigits 10 cs 0

/-- The C function `isspace`. -/
def isSpace (c : Char) : Bool := c == ' ' || (9 ≤ c.toNat && c.toNat ≤ 13)

/-! ## Addresses -/

/-- The last number of an address fills the `left + 1` bytes that are missing. -/
def inetAtonLast (bytes : Bytes) (left value : ℕ) (rest : List Char) : Option Bytes :=
  if value < 256 ^ (left + 1) ∧ rest.head?.all isSpace then
    some (bytes ++ ByteOrder.big.encode (left + 1) value)
  else none

/-- The address that begins with `bytes`, when up to `left + 1` numbers may follow. -/
def inetAtonFrom : ℕ → Bytes → List Char → Option Bytes
  | 0, bytes, cs =>
    if cs.head?.any Char.isDigit then inetAtonLast bytes 0 (strtoul cs).1 (strtoul cs).2 else none
  | left + 1, bytes, cs =>
    if cs.head?.any Char.isDigit then
      match (strtoul cs).2 with
      | '.' :: rest =>
        if (strtoul cs).1 ≤ 0xFF then inetAtonFrom left (bytes ++ [UInt8.ofNat (strtoul cs).1]) rest else none
      | rest => inetAtonLast bytes (left + 1) (strtoul cs).1 rest
    else none

/-- `socket.inet_aton(text)`. -/
def inetAton (text : String) : Except PyError Bytes :=
  match inetAtonFrom 3 [] text.toList with
  | some bytes => .ok bytes
  | none => .error .osError

example : inetAton "127.0.0.1" = .ok [127, 0, 0, 1] := by decide +kernel

/-! ## Dotted quads -/

/-- A decimal number from 0 to 255 without leading zeros. -/
structure IsOctet (cs : List Char) (value : ℕ) : Prop where
  isDigit : ∀ c ∈ cs, c.isDigit = true
  canonical : cs = ['0'] ∨ ∃ c rest, cs = c :: rest ∧ c ≠ '0'
  value_eq : cs.foldl (fun v c => 10 * v + digitValue c) 0 = value
  value_lt : value < 256

/-- Four decimal numbers from 0 to 255 between dots. -/
def IsDottedQuad (text : String) : Prop :=
  ∃ cs₁ cs₂ cs₃ cs₄ v₁ v₂ v₃ v₄, IsOctet cs₁ v₁ ∧ IsOctet cs₂ v₂ ∧ IsOctet cs₃ v₃ ∧ IsOctet cs₄ v₄ ∧
    text.toList = cs₁ ++ '.' :: (cs₂ ++ '.' :: (cs₃ ++ '.' :: cs₄))

theorem digitValue_of_isDigit {c : Char} (h : c.isDigit = true) : digitValue c < 10 := by
  unfold digitValue
  rw [if_pos h]
  simp only [Char.isDigit, Bool.and_eq_true, decide_eq_true_eq, UInt32.le_iff_toNat_le] at h
  have h1 : c.val.toNat ≤ 57 := h.2
  have h2 : c.toNat = c.val.toNat := rfl
  omega

theorem readDigits_append (base : ℕ) {rest : List Char} (hrest : ∀ c ∈ rest.head?, base ≤ digitValue c) :
    ∀ {cs : List Char}, (∀ c ∈ cs, digitValue c < base) → ∀ v,
      readDigits base (cs ++ rest) v = (cs.foldl (fun v c => base * v + digitValue c) v, rest)
  | [], _, v => by
    cases rest with
    | nil => rfl
    | cons c rest => rw [List.nil_append, readDigits, if_neg (not_lt.2 (hrest c rfl))]; rfl
  | c :: cs, h, v => by
    rw [List.forall_mem_cons] at h
    rw [List.cons_append, readDigits, if_pos h.1, readDigits_append base hrest h.2]
    rfl

/-- `strtoul` reads an octet up to its end or the next dot. -/
theorem strtoul_octet {cs rest : List Char} {value : ℕ} (h : IsOctet cs value)
    (hrest : rest = [] ∨ ∃ rest', rest = '.' :: rest') : strtoul (cs ++ rest) = (value, rest) := by
  have hdot : digitValue '.' = 16 := by decide
  have hstop : ∀ base ≤ 16, ∀ c ∈ rest.head?, base ≤ digitValue c := by
    rintro base hb c hc
    rcases hrest with rfl | ⟨rest', rfl⟩
    · cases hc
    · cases hc
      rwa [hdot]
  rcases h.canonical with rfl | ⟨c, cs, rfl, hc⟩
  · have hdigits : ∀ c ∈ ['0'], digitValue c < 8 := fun c hc => by cases List.mem_singleton.1 hc; decide
    have hread := readDigits_append 8 (hstop 8 (by simp)) hdigits 0
    have hv := h.value_eq
    simp only [List.foldl_cons, List.foldl_nil] at hread hv
    rcases hrest with rfl | ⟨rest', rfl⟩
    · rw [← hv]
      exact hread
    · cases rest' with
      | nil => rw [← hv]; exact hread
      | cons c rest' =>
        rw [List.singleton_append, strtoul, if_neg (by simp), ← hv]
        exact hread
  · have hdigits : ∀ c' ∈ c :: cs, digitValue c' < 10 := fun c' hc' => digitValue_of_isDigit (h.isDigit c' hc')
    have hread := readDigits_append 10 (hstop 10 (by simp)) hdigits 0
    rw [h.value_eq] at hread
    rw [← hread, List.cons_append]
    unfold strtoul
    split
    · rename_i heq
      exact absurd (List.cons.inj heq).1 hc
    · rename_i heq
      exact absurd (List.cons.inj heq).1 hc
    · rfl

theorem head_octet {cs : List Char} {value : ℕ} (h : IsOctet cs value) (rest : List Char) :
    (cs ++ rest).head?.any Char.isDigit = true := by
  rcases h.canonical with rfl | ⟨c, cs, rfl, -⟩
  · rfl
  · exact h.isDigit c List.mem_cons_self

theorem inetAtonFrom_octet {cs : List Char} {value : ℕ} (h : IsOctet cs value) (left : ℕ) (bytes : Bytes)
    (rest : List Char) :
    inetAtonFrom (left + 1) bytes (cs ++ '.' :: rest) = inetAtonFrom left (bytes ++ [UInt8.ofNat value]) rest := by
  have hlt := h.value_lt
  rw [inetAtonFrom, if_pos (head_octet h _), strtoul_octet h (.inr ⟨rest, rfl⟩)]
  exact if_pos (by omega)

theorem inetAtonFrom_last {cs : List Char} {value : ℕ} (h : IsOctet cs value) (bytes : Bytes) :
    inetAtonFrom 0 bytes cs = some (bytes ++ [UInt8.ofNat value]) := by
  have hs := strtoul_octet h (.inl rfl)
  have hh := head_octet h []
  rw [List.append_nil] at hs hh
  unfold inetAtonFrom
  rw [if_pos hh, hs, inetAtonLast, if_pos ⟨by simpa using h.value_lt, rfl⟩]
  rfl

/-- A dotted quad is packed into its four bytes. -/
theorem inetAton_of_isDottedQuad {text : String} (h : IsDottedQuad text) :
    ∃ bytes, inetAton text = .ok bytes ∧ bytes.length = 4 := by
  obtain ⟨cs₁, cs₂, cs₃, cs₄, v₁, v₂, v₃, v₄, h₁, h₂, h₃, h₄, htext⟩ := h
  unfold inetAton
  rw [htext, inetAtonFrom_octet h₁, inetAtonFrom_octet h₂, inetAtonFrom_octet h₃, inetAtonFrom_last h₄]
  exact ⟨_, rfl, rfl⟩

end Cursus.Python
