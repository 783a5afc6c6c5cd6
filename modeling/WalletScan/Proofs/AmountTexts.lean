import Mathlib.Algebra.Field.Rat
import Mathlib.Data.List.DropRight
import Mathlib.Tactic.FieldSimp
import Mathlib.Tactic.Ring
import WalletScan.Amount
import WalletScan.Proofs.JoinedTexts

/-!
# Exact and canonical amounts

A count of smallest units is divided by a power of ten and written down.  The text is read here
as the rational number that it spells, so that it can be compared with the quotient.

* `naturalOfDigits_append`, `naturalOfDigits_paddedDigits`, `exists_trimZeros_append` — the value
  of digits is kept when zeros are put before them, and scaled by a power of ten when zeros are
  taken off their end.
* `unit?_eq_some`, `unit?_eq_none` — the power of ten is found exactly when it has 128 bits, and
  `split_eq` — either way a count is divided by it with remainder.
* `render_canonical`, `value?_render` — the layout of the text, and its value.
* `render_exact` — all of it together, and that no two counts share a text.
-/

set_option autoImplicit false

namespace WalletScan

/-! ## The value of digits -/

theorem naturalOfDigits_eq (digits : List Char) :
    naturalOfDigits digits = Nat.ofDigitChars 10 digits 0 := by
  simp only [naturalOfDigits, Nat.ofDigitChars, Nat.mul_comm]

@[simp] theorem naturalOfDigits_toDigits (n : Nat) : naturalOfDigits (Nat.toDigits 10 n) = n := by
  rw [naturalOfDigits_eq, Nat.ofDigitChars_ten_toDigits]

@[simp] theorem naturalOfDigits_zeros (k : Nat) :
    naturalOfDigits (List.replicate k '0') = 0 := by
  rw [naturalOfDigits_eq, Nat.ofDigitChars_replicate_zero, Nat.mul_zero]

theorem naturalOfDigits_append (front back : List Char) :
    naturalOfDigits (front ++ back) =
      naturalOfDigits front * 10 ^ back.length + naturalOfDigits back := by
  rw [naturalOfDigits_eq, Nat.ofDigitChars_append, Nat.ofDigitChars_eq_ofDigitChars_zero,
    ← naturalOfDigits_eq, ← naturalOfDigits_eq, Nat.mul_comm]

/-! ## Digits filled up with zeros -/

@[simp] theorem naturalOfDigits_paddedDigits (width n : Nat) :
    naturalOfDigits (paddedDigits width n) = n := by
  simp [paddedDigits, naturalOfDigits_append]

theorem isDigit_of_mem_paddedDigits {c : Char} {width n : Nat} (h : c ∈ paddedDigits width n) :
    c.isDigit := by
  rcases List.mem_append.mp h with h | h
  · rw [List.eq_of_mem_replicate h]
    rfl
  · exact isDigit_of_mem_toDigits h

/-- Digits that fit into a width are filled up to that width. -/
theorem length_paddedDigits {width n : Nat} (hpos : 0 < width) (hn : n < 10 ^ width) :
    (paddedDigits width n).length = width := by
  have hfits : (Nat.toDigits 10 n).length ≤ width :=
    (Nat.length_toDigits_le_iff (by omega) hpos).mpr hn
  simp only [paddedDigits, List.length_append, List.length_replicate]
  omega

namespace Amount

/-! ## Digits without the zeros at their end -/

section

variable (digits : List Char)

/-- What is taken off is zeros. -/
theorem exists_trimZeros_append : ∃ k, digits = trimZeros digits ++ List.replicate k '0' := by
  let zeros := digits.reverse.takeWhile (· = '0')
  have hzeros : zeros = List.replicate zeros.length '0' :=
    List.eq_replicate_of_mem fun c hc => by simpa using List.mem_takeWhile_imp hc
  refine ⟨zeros.length, ?_⟩
  calc digits = (zeros ++ digits.reverse.dropWhile (· = '0')).reverse := by
        rw [List.takeWhile_append_dropWhile, List.reverse_reverse]
    _ = trimZeros digits ++ zeros.reverse := List.reverse_append
    _ = trimZeros digits ++ List.replicate zeros.length '0' := by
        rw [hzeros, List.reverse_replicate, List.length_replicate]

/-- No zero is left at the end. -/
theorem getLast?_trimZeros : (trimZeros digits).getLast? ≠ some '0' := by
  intro hlast
  obtain ⟨hne, hzero⟩ := List.mem_getLast?_eq_getLast hlast
  exact List.rdropWhile_last_not (· = '0') digits hne (decide_eq_true hzero.symm)

end

/-! ## Dividing by a power of ten -/

theorem tenfold?_eq_some {n m : Wide} : tenfold? n = some m ↔ m.toNat = n.toNat * 10 := by
  unfold tenfold?
  split
  · rename_i hover
    have hlarge : 2 ^ 128 ≤ n.toNat * 10 := of_decide_eq_true hover
    have hm := m.isLt
    simp
    omega
  · rename_i hfits
    have hproduct : (n * 10).toNat = n.toNat * 10 := BitVec.toNat_mul_of_not_umulOverflow hfits
    rw [Option.some.injEq, ← BitVec.toNat_inj, hproduct]
    exact eq_comm

/-- A number is scaled without error, if the result has 128 bits. -/
theorem scaled?_eq_some {places : Nat} {n m : Wide} :
    scaled? places n = some m ↔ m.toNat = n.toNat * 10 ^ places := by
  induction places generalizing n with
  | zero =>
    rw [scaled?, Option.some.injEq, ← BitVec.toNat_inj, Nat.pow_zero, Nat.mul_one]
    exact eq_comm
  | succ places ih =>
    have hstep : n.toNat * 10 ^ (places + 1) = n.toNat * 10 * 10 ^ places := by
      rw [Nat.pow_succ', Nat.mul_assoc]
    simp only [scaled?, Option.bind_eq_some_iff, tenfold?_eq_some, ih, hstep]
    constructor
    · rintro ⟨next, hnext, hm⟩
      rw [hm, hnext]
    · intro hm
      -- The factor that is left does not shrink the product, which has 128 bits.
      have hfits : n.toNat * 10 < 2 ^ 128 :=
        calc n.toNat * 10 ≤ n.toNat * 10 * 10 ^ places :=
              Nat.le_mul_of_pos_right _ (Nat.pow_pos (by omega))
          _ < 2 ^ 128 := hm ▸ m.isLt
      have hnext : (BitVec.ofNat 128 (n.toNat * 10)).toNat = n.toNat * 10 :=
        Nat.mod_eq_of_lt hfits
      exact ⟨BitVec.ofNat 128 (n.toNat * 10), hnext, by rw [hm, hnext]⟩

theorem unit?_eq_some {decimals : UInt32} {unit : Wide} :
    unit? decimals = some unit ↔ unit.toNat = 10 ^ decimals.toNat := by
  simp [unit?, scaled?_eq_some]

theorem unit?_eq_none {decimals : UInt32} :
    unit? decimals = none ↔ 2 ^ 128 ≤ 10 ^ decimals.toNat := by
  constructor
  · intro hnone
    by_contra hfits
    have hsome : unit? decimals = some (BitVec.ofNat 128 (10 ^ decimals.toNat)) :=
      unit?_eq_some.mpr (Nat.mod_eq_of_lt (Nat.lt_of_not_le hfits))
    rw [hnone] at hsome
    cases hsome
  · intro hlarge
    rw [Option.eq_none_iff_forall_ne_some]
    intro unit hunit
    exact absurd (unit?_eq_some.mp hunit ▸ unit.isLt) (Nat.not_lt_of_le hlarge)

section

variable (amount : UInt64) (decimals : UInt32)

theorem toNat_count : (amount.toBitVec.setWidth 128).toNat = amount.toNat :=
  BitVec.toNat_setWidth_of_le (by omega)

/-- Whether or not a whole unit has 128 bits, a count is divided by it with remainder. -/
theorem split_eq :
    split amount decimals =
      (amount.toNat / 10 ^ decimals.toNat, amount.toNat % 10 ^ decimals.toNat) := by
  cases hunit : unit? decimals with
  | some unit =>
    simp only [split, hunit, BitVec.toNat_udiv, BitVec.toNat_umod, toNat_count,
      unit?_eq_some.mp hunit]
  | none =>
    have hlarge : amount.toNat < 10 ^ decimals.toNat :=
      calc amount.toNat < 2 ^ 64 := amount.toNat_lt
        _ ≤ 2 ^ 128 := by decide
        _ ≤ 10 ^ decimals.toNat := unit?_eq_none.mp hunit
    simp only [split, hunit, toNat_count, Nat.div_eq_of_lt hlarge, Nat.mod_eq_of_lt hlarge]

end

/-! ## Decimal numerals -/

/-- The number that a decimal numeral spells: digits and, where a point follows, more digits. -/
def value? (text : String) : Option ℚ :=
  let whole := text.toList.takeWhile Char.isDigit
  if whole.isEmpty then none
  else
    match text.toList.dropWhile Char.isDigit with
    | [] => some (naturalOfDigits whole)
    | '.' :: places =>
      if places.isEmpty ∨ ¬ places.all Char.isDigit then none
      else some (naturalOfDigits whole + naturalOfDigits places / 10 ^ places.length)
    | _ => none

/-- Digits that begin with no zero, or are a zero alone. -/
structure Leading (digits : List Char) : Prop where
  ne_nil : digits ≠ []
  isDigit : ∀ c ∈ digits, c.isDigit
  head : digits.head? = some '0' → digits = ['0']

/-- Digits after a point that end in no zero. -/
structure Trailing (places : List Char) : Prop where
  ne_nil : places ≠ []
  isDigit : ∀ c ∈ places, c.isDigit
  last : places.getLast? ≠ some '0'

/-- A numeral with no digit too many. -/
inductive Canonical : String → Prop
  | whole {digits : List Char} (hwhole : Leading digits) : Canonical (String.ofList digits)
  | pointed {digits places : List Char} (hwhole : Leading digits) (hplaces : Trailing places) :
      Canonical (String.ofList (digits ++ '.' :: places))

section

variable {digits places : List Char}

theorem value?_whole (hwhole : Leading digits) :
    value? (String.ofList digits) = some (naturalOfDigits digits : ℚ) := by
  have htake := List.takeWhile_eq_self_iff.mpr hwhole.isDigit
  have hdrop := List.dropWhile_eq_nil_iff.mpr hwhole.isDigit
  simp [value?, htake, hdrop, hwhole.ne_nil]

theorem value?_pointed (hwhole : Leading digits) (hplaces : Trailing places) :
    value? (String.ofList (digits ++ '.' :: places)) =
      some (naturalOfDigits digits + naturalOfDigits places / 10 ^ places.length : ℚ) := by
  have htake : (digits ++ '.' :: places).takeWhile Char.isDigit = digits := by
    rw [List.takeWhile_append_of_pos hwhole.isDigit]
    simp
  have hdrop : (digits ++ '.' :: places).dropWhile Char.isDigit = '.' :: places := by
    rw [List.dropWhile_append_of_pos hwhole.isDigit]
    rfl
  have hall := List.all_eq_true.mpr hplaces.isDigit
  simp [value?, htake, hdrop, hwhole.ne_nil, hplaces.ne_nil, hall]

end

/-! ## The digits of an amount -/

theorem leading_toDigits (n : Nat) : Leading (Nat.toDigits 10 n) where
  ne_nil := Nat.toDigits_ne_nil
  isDigit := fun _ => isDigit_of_mem_toDigits
  head := fun h => by
    rw [eq_zero_of_head?_toDigits h]
    rfl

section

variable {width n : Nat}

/-- The places of a proper fraction are not empty: its digits are not all zero. -/
theorem trailing_trimZeros (hn : n ≠ 0) : Trailing (trimZeros (paddedDigits width n)) where
  ne_nil := by
    intro hempty
    obtain ⟨k, hk⟩ := exists_trimZeros_append (paddedDigits width n)
    have hvalue := congrArg naturalOfDigits hk
    rw [hempty, List.nil_append, naturalOfDigits_paddedDigits, naturalOfDigits_zeros] at hvalue
    exact hn hvalue
  isDigit := by
    intro c hc
    exact isDigit_of_mem_paddedDigits ((List.rdropWhile_prefix (· = '0') _).subset hc)
  last := getLast?_trimZeros _

/-- The places of a proper fraction spell it, over the power of ten that they were filled up to. -/
theorem value_trimZeros (hwidth : 0 < width) (hn : n < 10 ^ width) :
    (naturalOfDigits (trimZeros (paddedDigits width n)) : ℚ) /
      10 ^ (trimZeros (paddedDigits width n)).length * 10 ^ width = n := by
  obtain ⟨k, hk⟩ := exists_trimZeros_append (paddedDigits width n)
  generalize trimZeros (paddedDigits width n) = places at hk
  have hvalue : n = naturalOfDigits places * 10 ^ k := by
    simpa [naturalOfDigits_append] using congrArg naturalOfDigits hk
  have hlength : width = places.length + k := by
    simpa [length_paddedDigits hwidth hn] using congrArg List.length hk
  rw [hlength, pow_add, hvalue]
  push_cast
  field_simp

end

/-! ## The text of an amount -/

section

variable (amount : UInt64) (decimals : UInt32)

theorem render_eq :
    render amount decimals =
      if amount.toNat % 10 ^ decimals.toNat = 0 then
        String.ofList (Nat.toDigits 10 (amount.toNat / 10 ^ decimals.toNat))
      else
        String.ofList (Nat.toDigits 10 (amount.toNat / 10 ^ decimals.toNat) ++
          '.' :: trimZeros
            (paddedDigits decimals.toNat (amount.toNat % 10 ^ decimals.toNat))) := by
  simp only [render, split_eq]

theorem render_canonical : Canonical (render amount decimals) := by
  rw [render_eq]
  split
  · exact .whole (leading_toDigits _)
  · rename_i hfraction
    exact .pointed (leading_toDigits _) (trailing_trimZeros hfraction)

theorem value?_render :
    ∃ q, value? (render amount decimals) = some q ∧ q * 10 ^ decimals.toNat = amount.toNat := by
  have hdivision : (amount.toNat : ℚ) =
      (10 ^ decimals.toNat * (amount.toNat / 10 ^ decimals.toNat) +
        amount.toNat % 10 ^ decimals.toNat : ℕ) := by
    rw [Nat.div_add_mod]
  rw [render_eq, hdivision]
  split
  · rename_i hfraction
    refine ⟨_, value?_whole (leading_toDigits _), ?_⟩
    rw [naturalOfDigits_toDigits, hfraction]
    push_cast
    ring
  · rename_i hfraction
    refine ⟨_, value?_pointed (leading_toDigits _) (trailing_trimZeros hfraction), ?_⟩
    have hwidth : 0 < decimals.toNat := by
      by_contra hzero
      simp [Nat.eq_zero_of_not_pos hzero, Nat.mod_one] at hfraction
    rw [add_mul, value_trimZeros hwidth (Nat.mod_lt _ (Nat.pow_pos (by omega))),
      naturalOfDigits_toDigits]
    push_cast
    ring

end

/-- **Amounts are exact and canonical.**  The text of a count is a numeral with no digit too many,
whose value is the count over a power of ten; so no two counts have the same text.  The arithmetic
behind it is exact whether or not that power has 128 bits: it is found if it has, without a wrap
and never as zero, and given up if not. -/
theorem render_exact (decimals : UInt32) :
    (∀ amount, Canonical (render amount decimals) ∧
      ∃ q, value? (render amount decimals) = some q ∧ q * 10 ^ decimals.toNat = amount.toNat) ∧
    Function.Injective (fun amount => render amount decimals) ∧
    (∀ amount, split amount decimals =
      (amount.toNat / 10 ^ decimals.toNat, amount.toNat % 10 ^ decimals.toNat)) ∧
    (∀ unit, unit? decimals = some unit → unit.toNat = 10 ^ decimals.toNat ∧ unit ≠ 0) ∧
    (unit? decimals = none ↔ 2 ^ 128 ≤ 10 ^ decimals.toNat) := by
  refine ⟨fun amount => ⟨render_canonical amount decimals, value?_render amount decimals⟩, ?_,
    fun amount => split_eq amount decimals, ?_, unit?_eq_none⟩
  · intro amount other htexts
    obtain ⟨q, hq, hvalue⟩ := value?_render amount decimals
    obtain ⟨r, hr, hvalue'⟩ := value?_render other decimals
    obtain rfl : q = r := Option.some.inj (hq.symm.trans ((congrArg value? htexts).trans hr))
    have hcounts : (amount.toNat : ℚ) = other.toNat := hvalue.symm.trans hvalue'
    exact UInt64.toNat_inj.mp (by exact_mod_cast hcounts)
  · intro unit hunit
    have hpower := unit?_eq_some.mp hunit
    refine ⟨hpower, ?_⟩
    rintro rfl
    exact absurd hpower (Nat.ne_of_lt (Nat.pow_pos (by omega)))

end Amount
end WalletScan
