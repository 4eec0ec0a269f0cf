/-
`int` of a string, for strings of ASCII characters, and its round trip with `str`.
-/
import Cursus.Python.Socket

namespace Cursus.Python

/-! ## `int` -/

/-- `sys.int_info.default_max_str_digits`. -/
def maxStrDigits : ℕ := 4300

def strip (cs : List Char) : List Char := ((cs.dropWhile isSpace).reverse.dropWhile isSpace).reverse

/-- The sign, and what is behind it. -/
def splitSign : List Char → Bool × List Char
  | '-' :: cs => (true, cs)
  | '+' :: cs => (false, cs)
  | cs => (false, cs)

/-- The digits, between which there may be single underscores. -/
def digitsOf : List Char → Option (List Char)
  | [] => none
  | [c] => if c.isDigit then some [c] else none
  | c :: '_' :: cs => if c.isDigit then (digitsOf cs).map (c :: ·) else none
  | c :: cs => if c.isDigit then (digitsOf cs).map (c :: ·) else none

def int (s : String) : Except PyError ℤ :=
  let (negative, cs) := splitSign (strip s.toList)
  match digitsOf cs with
  | none => .error .valueError
  | some digits =>
    if maxStrDigits < digits.length then .error .valueError
    else
      let n : ℕ := Nat.ofDigitChars 10 digits 0
      .ok (if negative then -n else n)

/-! ## The round trip -/

section RoundTrip

theorem strip_eq_self {cs : List Char} (h : ∀ c ∈ cs, isSpace c = false) : strip cs = cs := by
  have hdrop : ∀ cs : List Char, (∀ c ∈ cs, isSpace c = false) → cs.dropWhile isSpace = cs := by
    intro cs h
    cases cs with
    | nil => rfl
    | cons c cs => rw [List.dropWhile_cons, h c List.mem_cons_self]; rfl
  rw [strip, hdrop cs h, hdrop cs.reverse fun c hc => h c (List.mem_reverse.1 hc), List.reverse_reverse]

theorem digitsOf_eq_self : ∀ {cs : List Char}, cs ≠ [] → (∀ c ∈ cs, c.isDigit = true) → digitsOf cs = some cs
  | [], h, _ => absurd rfl h
  | [c], _, hd => by rw [digitsOf, if_pos (hd c List.mem_cons_self)]
  | c :: c' :: cs, _, hd => by
    rw [List.forall_mem_cons] at hd
    have hc' : c' ≠ '_' := by
      rintro rfl
      exact absurd (hd.2 '_' List.mem_cons_self) (by decide)
    have hrest : digitsOf (c' :: cs) = some (c' :: cs) := digitsOf_eq_self nofun hd.2
    simp [digitsOf, hd.1, hc', hrest]

theorem isSpace_of_isDigit {c : Char} (h : c.isDigit = true) : isSpace c = false := by
  have hlow : 48 ≤ c.toNat := by
    simp only [Char.isDigit, Bool.and_eq_true, decide_eq_true_eq] at h
    exact h.1
  by_contra hspace
  simp only [isSpace, Bool.not_eq_false, Bool.or_eq_true, beq_iff_eq, Bool.and_eq_true, decide_eq_true_eq] at hspace
  rcases hspace with rfl | ⟨-, hhigh⟩
  · exact absurd hlow (by decide)
  · omega

theorem isDigit_of_mem_toDigits {n : ℕ} {c : Char} (h : c ∈ Nat.toDigits 10 n) : c.isDigit = true :=
  Nat.isDigit_of_mem_toDigits (by decide) (by decide) h

/-- `int` of a sign, if any, and the digits of a number. -/
theorem int_digits {s : String} (sign : List Char) (negative : Bool) (n : ℕ) (hs : s.toList = sign ++ Nat.toDigits 10 n)
    (hspace : ∀ c ∈ sign, isSpace c = false)
    (hsign : splitSign (sign ++ Nat.toDigits 10 n) = (negative, Nat.toDigits 10 n))
    (h : (Nat.toDigits 10 n).length ≤ maxStrDigits) : int s = .ok (if negative then -n else n) := by
  have hstrip : strip s.toList = sign ++ Nat.toDigits 10 n := by
    rw [hs]
    refine strip_eq_self fun c hc => ?_
    rcases List.mem_append.1 hc with hc | hc
    · exact hspace c hc
    · exact isSpace_of_isDigit (isDigit_of_mem_toDigits hc)
  have hdigits : digitsOf (Nat.toDigits 10 n) = some (Nat.toDigits 10 n) :=
    digitsOf_eq_self Nat.toDigits_ne_nil fun c hc => isDigit_of_mem_toDigits hc
  simp only [int, hstrip, hsign, hdigits, if_neg (not_lt.2 h), Nat.ofDigitChars_ten_toDigits]

/-- `int` reads what `str` has written. -/
theorem int_toString {n : ℤ} (h : (Nat.toDigits 10 n.natAbs).length ≤ maxStrDigits) : int (toString n) = .ok n := by
  cases n with
  | ofNat n =>
    have hsign : splitSign (Nat.toDigits 10 n) = (false, Nat.toDigits 10 n) := by
      unfold splitSign
      split
      · rename_i cs hcs
        exact absurd (isDigit_of_mem_toDigits (hcs ▸ List.mem_cons_self)) (by decide)
      · rename_i cs hcs
        exact absurd (isDigit_of_mem_toDigits (hcs ▸ List.mem_cons_self)) (by decide)
      · rfl
    have hs : (toString (Int.ofNat n)).toList = [] ++ Nat.toDigits 10 n := by
      rw [Int.toString_eq_repr, Int.repr_eq_if, if_pos (show 0 ≤ Int.ofNat n from Int.natCast_nonneg n)]
      exact Nat.toList_repr
    exact int_digits [] false n hs nofun hsign h
  | negSucc n =>
    have hs : (toString (Int.negSucc n)).toList = ['-'] ++ Nat.toDigits 10 (n + 1) := by
      rw [Int.toString_eq_repr, Int.repr_eq_if, if_neg (by omega), String.toList_append]
      exact congrArg _ Nat.toList_repr
    exact int_digits ['-'] true (n + 1) hs (List.forall_mem_singleton.2 rfl) rfl h

end RoundTrip

end Cursus.Python
