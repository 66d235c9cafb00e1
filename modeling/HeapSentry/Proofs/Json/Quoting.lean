import HeapSentry.Json.Quoted
import Mathlib.Tactic.Common

/-!
# Reading back quoted strings

Every string is read back as it was written, whatever characters it has: those that would end the
string or break the line are escaped, and no other character is taken for the start of an escape.
-/

namespace HeapSentry.Json.Quoted

theorem hexValue?_hexDigit : ∀ n < 16, hexValue? (hexDigit n) = some n := by
  decide

theorem hexQuad?_low {n : Nat} (h : n < 32) (rest : List Char) :
    hexQuad? ('0' :: '0' :: hexDigit (n / 16) :: hexDigit (n % 16) :: rest) = some (n, rest) := by
  have hhigh := hexValue?_hexDigit (n / 16) (by omega)
  have hlow := hexValue?_hexDigit (n % 16) (by omega)
  have hzero : hexValue? '0' = some 0 := by decide
  simp only [hexQuad?, hzero, hhigh, hlow, Option.bind_eq_bind, Option.bind_some]
  congr 2
  omega

theorem next_unicode {n : Nat} (h : n < 32) (rest : List Char) :
    next ('\\' :: 'u' :: '0' :: '0' :: hexDigit (n / 16) :: hexDigit (n % 16) :: rest) =
      .char (some (Char.ofNat n)) rest := by
  have hhigh : isHighSurrogate n = false := by
    simp [isHighSurrogate]
    omega
  have hlow : isLowSurrogate n = false := by
    simp [isLowSurrogate]
    omega
  simp [next, hexQuad?_low h, hhigh, hlow]

theorem next_plain {c : Char} (hquote : c ≠ '"') (hback : c ≠ '\\') (hspace : ¬ c.toNat < 32)
    (rest : List Char) : next (c :: rest) = .char (some c) rest := by
  unfold next
  split <;> simp_all

theorem next_escape (c : Char) (rest : List Char) :
    next (escape c ++ rest) = .char (some c) rest := by
  unfold escape
  split
  next h => rw [h]; rfl
  split
  next h => rw [h]; rfl
  split
  next h => rw [h]; rfl
  split
  next h => rw [h]; rfl
  split
  next h => rw [h]; rfl
  split
  next h => rw [h]; rfl
  split
  next h => rw [h]; rfl
  split
  next hcontrol =>
    have hnext := next_unicode hcontrol rest
    rwa [Char.ofNat_toNat] at hnext
  next hquote hback _ _ _ _ _ hcontrol => exact next_plain hquote hback hcontrol rest

theorem length_escape_pos (c : Char) : 0 < (escape c).length := by
  unfold escape
  repeat' split
  all_goals exact Nat.zero_lt_succ _

theorem length_le_flatMap_escape (s : List Char) : s.length ≤ (s.flatMap escape).length := by
  induction s with
  | nil => exact Nat.le_refl 0
  | cons c s ih =>
      have hc := length_escape_pos c
      rw [List.flatMap_cons, List.length_append, List.length_cons]
      omega

theorem body_escape {fuel : Nat} (seen s rest : List Char) (hfuel : s.length < fuel) :
    body fuel (some seen) (s.flatMap escape ++ '"' :: rest) =
      some (some (seen.reverse ++ s), rest) := by
  induction s generalizing fuel seen with
  | nil =>
      obtain ⟨fuel, rfl⟩ := Nat.exists_eq_add_of_lt hfuel
      simp [body, next]
  | cons c s ih =>
      obtain ⟨fuel, rfl⟩ := Nat.exists_eq_succ_of_ne_zero (Nat.ne_of_gt (Nat.zero_lt_of_lt hfuel))
      rw [List.flatMap_cons, List.append_assoc, body, next_escape]
      have hs := ih (c :: seen) (Nat.lt_of_succ_lt_succ hfuel)
      simpa using hs

/-- What was written inside quotes is read back, and what follows the quotes is left. -/
theorem decode?_escape (s rest : List Char) :
    decode? (s.flatMap escape ++ '"' :: rest) = some (some s, rest) := by
  have hlength := length_le_flatMap_escape s
  rw [decode?, body_escape [] s rest]
  · rfl
  · rw [List.length_append, List.length_cons]
    omega

end HeapSentry.Json.Quoted
