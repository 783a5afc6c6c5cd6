import Mathlib.Data.List.Nodup
import Mathlib.Data.Set.Function
import WalletScan.Digest.Sha256

/-!
# Texts joined by separators

Identifiers digest numbers and texts that a separator joins.  A part that does not hold the
separator is found again, from the left or from the right, and a number is found in its digits.

* `append_cons_eq_append_cons_iff` — how a separator can split a text in two ways.
* `append_cons_inj_left`, `append_cons_inj_right` — the first, or last, separator splits a text in
  one way.
* `toString_nat_inj` — a number is known by its text, which holds no separator.
* `eq_zero_of_head?_toDigits` — a number is written without leading zeros.
* `injOn_hexOfText` — what has to be computed to see that digests keep some texts apart.
-/

set_option autoImplicit false

namespace WalletScan

section

variable {α : Type} {c : α} {x x' y y' : List α}

/-- A text that splits at a separator in two ways has a middle part between two separators. -/
theorem append_cons_eq_append_cons_iff :
    x ++ c :: y = x' ++ c :: y' ↔ x = x' ∧ y = y' ∨
      (∃ middle, x' = x ++ c :: middle ∧ y = middle ++ c :: y') ∨
      ∃ middle, x = x' ++ c :: middle ∧ y' = middle ++ c :: y := by
  constructor
  · intro h
    rcases List.append_eq_append_iff.mp h with ⟨m, rfl, htail⟩ | ⟨m, rfl, htail⟩
    · cases m with
      | nil => exact .inl ⟨(List.append_nil x).symm, (List.cons.inj htail).2⟩
      | cons a m =>
        obtain ⟨rfl, rfl⟩ := List.cons.inj htail
        exact .inr (.inl ⟨m, rfl, rfl⟩)
    · cases m with
      | nil => exact .inl ⟨List.append_nil x', (List.cons.inj htail).2.symm⟩
      | cons a m =>
        obtain ⟨rfl, rfl⟩ := List.cons.inj htail
        exact .inr (.inr ⟨m, rfl, rfl⟩)
  · rintro (⟨rfl, rfl⟩ | ⟨middle, rfl, rfl⟩ | ⟨middle, rfl, rfl⟩) <;> simp

/-- The first separator splits a text in one way. -/
theorem append_cons_inj_left (hx : c ∉ x) (hx' : c ∉ x') (h : x ++ c :: y = x' ++ c :: y') :
    x = x' ∧ y = y' := by
  rcases append_cons_eq_append_cons_iff.mp h with heq | ⟨middle, rfl, -⟩ | ⟨middle, rfl, -⟩
  · exact heq
  · exact absurd (List.mem_append_right x List.mem_cons_self) hx'
  · exact absurd (List.mem_append_right x' List.mem_cons_self) hx

/-- The last separator splits a text in one way. -/
theorem append_cons_inj_right (hy : c ∉ y) (hy' : c ∉ y') (h : x ++ c :: y = x' ++ c :: y') :
    x = x' ∧ y = y' := by
  have hreversed := congrArg List.reverse h
  simp only [List.reverse_append, List.reverse_cons, List.append_assoc, List.singleton_append]
    at hreversed
  obtain ⟨htails, hheads⟩ := append_cons_inj_left (mt List.mem_reverse.mp hy)
    (mt List.mem_reverse.mp hy') hreversed
  exact ⟨List.reverse_inj.mp hheads, List.reverse_inj.mp htails⟩

end

/-! ## Numbers -/

theorem toString_nat_toList (n : Nat) : (toString n).toList = Nat.toDigits 10 n := by
  rw [Nat.toString_eq_ofList_toDigits, String.toList_ofList]

theorem underscore_not_mem_toString (n : Nat) : '_' ∉ (toString n).toList := by
  rw [toString_nat_toList]
  exact Nat.underscore_not_in_toDigits

/-- A number is known by its text. -/
theorem toString_nat_inj {m n : Nat} (h : (toString m).toList = (toString n).toList) : m = n := by
  rw [toString_nat_toList, toString_nat_toList] at h
  calc
    m = Nat.ofDigitChars 10 (Nat.toDigits 10 m) 0 := Nat.ofDigitChars_ten_toDigits.symm
    _ = Nat.ofDigitChars 10 (Nat.toDigits 10 n) 0 := by rw [h]
    _ = n := Nat.ofDigitChars_ten_toDigits

theorem isDigit_of_mem_toDigits {c : Char} {n : Nat} (h : c ∈ Nat.toDigits 10 n) : c.isDigit :=
  Nat.isDigit_of_mem_toDigits (by omega) (by omega) h

/-- Only zero begins with the digit zero. -/
theorem eq_zero_of_head?_toDigits {n : Nat} (h : (Nat.toDigits 10 n).head? = some '0') : n = 0 := by
  induction n using Nat.strongRecOn with
  | ind n ih =>
    rw [Nat.toDigits_eq_if (by omega)] at h
    split at h
    · exact Nat.digitChar_eq_zero.mp (Option.some.inj h)
    · rename_i hlarge
      -- Ten or more has a nonzero quotient, whose digits come first.
      rw [List.head?_append_of_ne_nil _ Nat.toDigits_ne_nil] at h
      have := ih (n / 10) (by omega) h
      omega

/-! ## Digests of texts -/

/-- Some texts are kept apart if they are among those of a list whose digests, each text counted
once, have no repetition. -/
theorem injOn_hexOfText_of_mem {texts : List String} {s : Set String} (hmem : ∀ t ∈ s, t ∈ texts)
    (h : (texts.eraseDups.map Sha256.hexOfText).Nodup) : Set.InjOn Sha256.hexOfText s :=
  fun t ht t' ht' heq => List.inj_on_of_nodup_map h (List.mem_eraseDups.mpr (hmem t ht))
    (List.mem_eraseDups.mpr (hmem t' ht')) heq

theorem injOn_hexOfText {α : Type} {l : List α} {text : α → String}
    (h : ((l.map text).eraseDups.map Sha256.hexOfText).Nodup) :
    Set.InjOn Sha256.hexOfText {t | ∃ a ∈ l, t = text a} := by
  refine injOn_hexOfText_of_mem ?_ h
  rintro _ ⟨a, ha, rfl⟩
  exact List.mem_map_of_mem ha

end WalletScan
