import HeapSentry.Json.Magnitude
import HeapSentry.Json.Reading
import Mathlib.Tactic.Common

/-!
# Reading back numbers

A number is read back as it was written if nothing follows that could belong to it.  The digits of
an integer that fits 64 bits are gathered without loss.
-/

namespace HeapSentry.Json

/-! ## Runs of digits -/

def IsNumeral (ds : List Char) : Prop := ds ≠ [] ∧ ∀ d ∈ ds, Reading.isDigit d = true

/-- No number goes on here. -/
def EndsNumber (rest : List Char) : Prop :=
  ∀ c ∈ rest.head?, Reading.isDigit c = false ∧ c ≠ '.' ∧ c ≠ 'e' ∧ c ≠ 'E'

def EndsDigits (rest : List Char) : Prop := ∀ c ∈ rest.head?, Reading.isDigit c = false

theorem EndsNumber.endsDigits {rest : List Char} (h : EndsNumber rest) : EndsDigits rest :=
  fun c hc ↦ (h c hc).1

theorem endsDigits_cons {c : Char} {rest : List Char} (h : Reading.isDigit c = false) :
    EndsDigits (c :: rest) := by
  rintro _ ⟨⟩
  exact h

theorem endsNumber_cons {c : Char} {rest : List Char}
    (h : Reading.isDigit c = false ∧ c ≠ '.' ∧ c ≠ 'e' ∧ c ≠ 'E') : EndsNumber (c :: rest) := by
  rintro _ ⟨⟩
  exact h

namespace Reading

variable {ds rest : List Char}

theorem digitRun_append (hds : ∀ d ∈ ds, isDigit d = true) (hrest : EndsDigits rest) :
    digitRun (ds ++ rest) = (ds, rest) := by
  rw [digitRun, List.takeWhile_append_of_pos hds, List.dropWhile_append_of_pos hds]
  cases rest with
  | nil => simp
  | cons c rest =>
      have hc : isDigit c = false := hrest c rfl
      simp [hc]

theorem someDigits?_append (hds : IsNumeral ds) (hrest : EndsDigits rest) :
    someDigits? (ds ++ rest) = some (ds, rest) := by
  rw [someDigits?, digitRun_append hds.2 hrest]
  cases ds with
  | nil => exact absurd rfl hds.1
  | cons d ds => rfl

theorem wholeDigits?_append (hds : IsNumeral ds) (hzero : ∀ d more, ds ≠ '0' :: d :: more)
    (hrest : EndsDigits rest) : wholeDigits? (ds ++ rest) = some (ds, rest) := by
  rw [wholeDigits?, digitRun_append hds.2 hrest]
  split
  next heq => exact absurd (Prod.ext_iff.1 heq).1 hds.1
  next heq => exact absurd (Prod.ext_iff.1 heq).1 (hzero _ _)
  next => rfl

end Reading

/-! ## Numbers -/

def Exponent.text (e : Exponent) : List Char :=
  'e' :: (if e.negative then '-' else '+') :: e.digits

namespace Number

variable {n : Number} {rest : List Char}

/-- Every part of a number has digits, and a leading zero stands alone. -/
structure WellFormed (n : Number) : Prop where
  whole : IsNumeral n.whole
  whole_ne : ∀ d ds, n.whole ≠ '0' :: d :: ds
  fraction : ∀ ds ∈ n.fraction, IsNumeral ds
  exponent : ∀ e ∈ n.exponent, IsNumeral e.digits

theorem text_append (n : Number) (rest : List Char) : n.text ++ rest =
    (if n.negative then ['-'] else []) ++ (n.whole ++ (n.fraction.elim [] ('.' :: ·) ++
      (n.exponent.elim [] Exponent.text ++ rest))) := by
  obtain ⟨negative, whole, fraction, exponent⟩ := n
  cases fraction <;> cases exponent <;> simp [text, Exponent.text]

theorem exponent?_text {e : Option Exponent} (he : ∀ e' ∈ e, IsNumeral e'.digits)
    (hrest : EndsNumber rest) :
    Reading.exponent? (e.elim [] Exponent.text ++ rest) = some (e, rest) := by
  cases e with
  | none =>
      cases rest with
      | nil => rfl
      | cons c rest =>
          obtain ⟨-, -, hlower, hupper⟩ := hrest c rfl
          simp [Reading.exponent?, hlower, hupper]
  | some e =>
      have hdigits := Reading.someDigits?_append (he e rfl) hrest.endsDigits
      obtain ⟨negative, digits⟩ := e
      cases negative
      all_goals simpa [Exponent.text, Reading.exponent?, Reading.exponentSign] using hdigits

theorem endsDigits_exponent (e : Option Exponent) (hrest : EndsNumber rest) :
    EndsDigits (e.elim [] Exponent.text ++ rest) := by
  cases e with
  | none => exact hrest.endsDigits
  | some e => exact endsDigits_cons (by decide)

theorem fraction?_text {f : Option (List Char)} {more : List Char} (hf : ∀ ds ∈ f, IsNumeral ds)
    (hmore : EndsDigits more) (hpoint : '.' ∉ more.head?) :
    Reading.fraction? (f.elim [] ('.' :: ·) ++ more) = some (f, more) := by
  cases f with
  | none =>
      cases more with
      | nil => rfl
      | cons c more =>
          unfold Reading.fraction?
          split
          next heq => simp_all
          next => rfl
  | some ds => simp [Reading.fraction?, Reading.someDigits?_append (hf ds rfl) hmore]

theorem unsigned?_text (hn : n.WellFormed) (hrest : EndsNumber rest) :
    Reading.unsigned? n.negative (n.whole ++ (n.fraction.elim [] ('.' :: ·) ++
      (n.exponent.elim [] Exponent.text ++ rest))) = some (n, rest) := by
  have hexponent := exponent?_text hn.exponent hrest
  have hends := endsDigits_exponent n.exponent hrest
  have hpoint : '.' ∉ (n.exponent.elim [] Exponent.text ++ rest).head? := by
    intro hc
    cases he : n.exponent with
    | none =>
        rw [he] at hc
        exact (hrest _ hc).2.1 rfl
    | some e => simp [he, Exponent.text] at hc
  have hfraction := fraction?_text hn.fraction hends hpoint
  have hfollows : EndsDigits (n.fraction.elim [] ('.' :: ·) ++
      (n.exponent.elim [] Exponent.text ++ rest)) := by
    cases hf : n.fraction with
    | none => exact hends
    | some ds => exact endsDigits_cons (by decide)
  have hwhole := Reading.wholeDigits?_append hn.whole hn.whole_ne hfollows
  simp [Reading.unsigned?, hwhole, hfraction, hexponent]

/-- A number is read back, and what follows it is left. -/
theorem number?_text (hn : n.WellFormed) (hrest : EndsNumber rest) :
    Reading.number? (n.text ++ rest) = some (n, rest) := by
  have hunsigned := unsigned?_text hn hrest
  rw [text_append]
  cases hnegative : n.negative with
  | true =>
      rw [hnegative] at hunsigned
      exact hunsigned
  | false =>
      rw [hnegative] at hunsigned
      obtain ⟨d, ds, hwhole⟩ := List.exists_cons_of_ne_nil hn.whole.1
      have hdigit := hn.whole.2 d (by simp [hwhole])
      rw [hwhole] at hunsigned ⊢
      unfold Reading.number?
      split
      next heq =>
        obtain rfl : d = '-' := (List.cons.inj heq).1
        cases hdigit
      next => exact hunsigned

theorem exists_text_eq_cons (hn : n.WellFormed) :
    ∃ c cs, n.text = c :: cs ∧ (c = '-' ∨ Reading.isDigit c = true) := by
  have htext := text_append n []
  rw [List.append_nil] at htext
  obtain ⟨d, ds, hwhole⟩ := List.exists_cons_of_ne_nil hn.whole.1
  have hdigit := hn.whole.2 d (by simp [hwhole])
  rw [htext]
  cases n.negative with
  | true => exact ⟨_, _, rfl, .inl rfl⟩
  | false =>
      rw [hwhole]
      exact ⟨_, _, rfl, .inr hdigit⟩

/-! ## Integers -/

theorem isNumeral_toDigits (k : Nat) : IsNumeral (Nat.toDigits 10 k) := by
  refine ⟨Nat.toDigits_ne_nil, fun d hd ↦ ?_⟩
  have hdigit := Nat.isDigit_of_mem_toDigits (by decide) (by decide) hd
  exact hdigit

theorem eq_zero_of_head?_toDigits {k : Nat} (h : (Nat.toDigits 10 k).head? = some '0') :
    k = 0 := by
  induction k using Nat.strongRecOn with
  | ind k ih =>
      rw [Nat.toDigits_eq_if (by decide)] at h
      split at h
      next hlt =>
        have hsmall : ∀ k < 10, k.digitChar = '0' → k = 0 := by decide
        exact hsmall k hlt (Option.some.inj h)
      next hge =>
        obtain ⟨d, ds, hhigh⟩ := List.exists_cons_of_ne_nil (Nat.toDigits_ne_nil (n := k / 10))
        rw [hhigh] at h
        have hzero := ih (k / 10) (by omega) (by rwa [hhigh])
        omega

theorem wellFormed_ofNat (k : Nat) : (ofNat k).WellFormed where
  whole := isNumeral_toDigits k
  whole_ne d ds heq := by
    have hdigits : Nat.toDigits 10 k = '0' :: d :: ds := heq
    have hzero : k = 0 := eq_zero_of_head?_toDigits (congrArg List.head? hdigits)
    rw [hzero, Nat.toDigits_zero] at hdigits
    cases hdigits
  fraction := by simp [ofNat]
  exponent := by simp [ofNat]

theorem le_ofDigitChars (ds : List Char) (acc : Nat) : acc ≤ Nat.ofDigitChars 10 ds acc := by
  induction ds generalizing acc with
  | nil => exact Nat.le_refl acc
  | cons d ds ih =>
      rw [Nat.ofDigitChars_cons]
      have hnext := ih (10 * acc + (d.toNat - '0'.toNat))
      omega

theorem gather_eq {ds : List Char} {acc : Nat}
    (h : Nat.ofDigitChars 10 ds acc ≤ gatherLimit) :
    gather acc ds = (Nat.ofDigitChars 10 ds acc, 0) := by
  induction ds generalizing acc with
  | nil => rfl
  | cons d ds ih =>
      have hvalue : acc * 10 + digitValue d = 10 * acc + (d.toNat - '0'.toNat) := by
        rw [Nat.mul_comm]
        rfl
      rw [Nat.ofDigitChars_cons] at h ⊢
      have hfits := Nat.le_trans (le_ofDigitChars ds _) h
      rw [gather, hvalue, if_pos hfits, ih h]

theorem magnitude_ofNat {k : Nat} (h : k ≤ gatherLimit) :
    (ofNat k).magnitude = .natural (UInt64.ofNat k) := by
  have hdigits : Nat.ofDigitChars 10 (Nat.toDigits 10 k) 0 = k := Nat.ofDigitChars_ten_toDigits
  have hgather : gather 0 (Nat.toDigits 10 k) = (k, 0) := by
    rw [gather_eq (by rwa [hdigits]), hdigits]
  simp [magnitude, ofNat, hgather]

theorem ofInt_natCast (k : Nat) : ofInt (k : Int) = ofNat k := by
  simp [ofInt, ofNat]

theorem wellFormed_ofInt (i : Int) : (ofInt i).WellFormed where
  whole := isNumeral_toDigits i.natAbs
  whole_ne := (wellFormed_ofNat i.natAbs).whole_ne
  fraction := by simp [ofInt]
  exponent := by simp [ofInt]

theorem magnitude_ofInt {i : Int} (hnegative : i < 0) (h : -0x8000000000000000 ≤ i) :
    (ofInt i).magnitude = .negative (Int64.ofInt i) := by
  obtain ⟨k, rfl⟩ : ∃ k : Nat, i = -(k : Int) := ⟨i.natAbs, by omega⟩
  have hdigits : Nat.ofDigitChars 10 (Nat.toDigits 10 k) 0 = k := Nat.ofDigitChars_ten_toDigits
  have hfits : k ≤ gatherLimit := by
    rw [gatherLimit]
    omega
  have hgather : gather 0 (Nat.toDigits 10 k) = (k, 0) := by
    rw [gather_eq (by rwa [hdigits]), hdigits]
  have hzero : k ≠ 0 := by omega
  have hpositive : 0 < k := Nat.pos_of_ne_zero hzero
  have hsmall : ¬ 0x8000000000000000 < k := by omega
  simp [magnitude, ofInt, hgather, hzero, hpositive, hsmall]

end Number

end HeapSentry.Json
