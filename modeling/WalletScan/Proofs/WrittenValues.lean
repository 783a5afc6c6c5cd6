import WalletScan.Ledger.Rows
import WalletScan.Proofs.JoinedTexts

/-!
# Reading back what was written

Texts, numbers and lists are read back from their JSON as they were written, whatever characters
and numbers they hold.  A numeral has no end of its own, so a value is read only in front of what
does not go on with one.

* `readTextBody_escaped` — the reader of texts undoes the escapes.
* `readNumeral_toDigits` — the reader of numerals finds the number of its digits.
* `Reads` — a form reads a value from its characters and leaves what follows.
* `Wire.Faithful`, `Wire.decode_encode` — a type whose values are read back as they were written;
  texts and numbers are faithful, and so are lists of what is, and what may be missing.
* `BlockRow.block_ofBlock` — a block is read back from its row in a database.
-/

set_option autoImplicit false

namespace WalletScan

namespace Json

/-! ## Texts -/

theorem hexValue_hexDigit : ∀ n < 16, hexValue? (hexDigit n) = some n := by decide

/-- The escape of a character below U+0020, after its first two characters. -/
theorem readUnicodeEscape_low {c : Char} (hlow : c.toNat < 0x20) (s : Source) :
    readUnicodeEscape (some '0' :: some '0' :: some (hexDigit (c.toNat / 16)) ::
      some (hexDigit (c.toNat % 16)) :: s) = .ok (c, s) := by
  have hzero : hexValue? '0' = some 0 := rfl
  have hhigh := hexValue_hexDigit (c.toNat / 16) (by omega)
  have hdigit := hexValue_hexDigit (c.toNat % 16) (by omega)
  have hsum : ((0 * 16 + 0) * 16 + c.toNat / 16) * 16 + c.toNat % 16 = c.toNat := by omega
  have hread : readHex4 (some '0' :: some '0' :: some (hexDigit (c.toNat / 16)) ::
      some (hexDigit (c.toNat % 16)) :: s) = .ok (c.toNat, s) := by
    simp only [readHex4, hzero, hhigh, hdigit, hsum]
  unfold readUnicodeEscape
  rw [hread]
  show (if 0xDC00 ≤ c.toNat ∧ c.toNat ≤ 0xDFFF then _ else _) = _
  rw [if_neg (by omega), if_pos (by omega), Char.ofNat_toNat]
  rfl

/-- An escaped character is read with one step of fuel. -/
theorem readTextBody_escapedChar (fuel : Nat) (c : Char) (s : Source) :
    readTextBody (fuel + 1) ((escapedChar c).map some ++ s) =
      (readTextBody fuel s).map fun read => (c :: read.1, read.2) := by
  unfold escapedChar
  split
  case h_8 hquote hslash _ _ _ _ _ =>
    split
    · rename_i hlow
      show readTextBody (fuel + 1) (some '\\' :: some 'u' :: some '0' :: some '0' ::
        some (hexDigit (c.toNat / 16)) :: some (hexDigit (c.toNat % 16)) :: s) = _
      simp only [readTextBody, readUnicodeEscape_low hlow]
      show (do let read ← readTextBody fuel s; return (c :: read.1, read.2)) = _
      cases readTextBody fuel s <;> rfl
    · rename_i hlow
      show readTextBody (fuel + 1) (some c :: s) = _
      rw [readTextBody]
      · rw [if_neg hlow]
        cases readTextBody fuel s <;> rfl
      · exact hquote
      all_goals intros; exact hslash ‹_›
  all_goals rfl

theorem readTextBody_escaped {cs : List Char} {fuel : Nat} (hfuel : cs.length < fuel)
    (rest : Source) :
    readTextBody fuel ((cs.flatMap escapedChar).map some ++ some '"' :: rest) = .ok (cs, rest) := by
  induction cs generalizing fuel with
  | nil =>
    obtain ⟨fuel, rfl⟩ := Nat.exists_eq_add_one_of_ne_zero (Nat.ne_of_gt hfuel)
    rfl
  | cons c cs ih =>
    obtain ⟨fuel, rfl⟩ := Nat.exists_eq_add_one_of_ne_zero (Nat.ne_of_gt (Nat.zero_lt_of_lt hfuel))
    rw [List.flatMap_cons, List.map_append, List.append_assoc, readTextBody_escapedChar,
      ih (Nat.lt_of_succ_lt_succ hfuel)]
    rfl

theorem length_le_escaped (cs : List Char) : cs.length ≤ (cs.flatMap escapedChar).length := by
  induction cs with
  | nil => exact Nat.le_refl _
  | cons c cs ih =>
    have hpos : 1 ≤ (escapedChar c).length := by
      unfold escapedChar
      repeat' split
      all_goals simp
    rw [List.flatMap_cons, List.length_append, List.length_cons]
    omega

theorem quotedChars_map (k : String) (rest : Source) :
    (quotedChars k).map some ++ rest =
      some '"' :: ((k.toList.flatMap escapedChar).map some ++ some '"' :: rest) := by
  simp [quotedChars]

theorem readText_quoted (s : String) (rest : Source) :
    readText ((s.toList.flatMap escapedChar).map some ++ some '"' :: rest) = .ok (s, rest) := by
  have hfuel : s.toList.length <
      ((s.toList.flatMap escapedChar).map some ++ some '"' :: rest).length + 1 := by
    have hle := length_le_escaped s.toList
    rw [List.length_append, List.length_map]
    omega
  unfold readText
  rw [readTextBody_escaped hfuel]
  show Except.ok (String.ofList s.toList, rest) = _
  rw [String.ofList_toList]

/-! ## Numbers -/

/-- What follows a numeral: no digit, no point and no exponent. -/
def EndsNumeral (rest : Source) : Prop :=
  ∀ c s, rest = some c :: s → c.isDigit = false ∧ c ≠ '.' ∧ c ≠ 'e' ∧ c ≠ 'E'

theorem endsNumeral_nil : EndsNumeral [] := by
  intro c s h
  cases h

theorem endsNumeral_cons {c : Char} {s : Source}
    (h : c.isDigit = false ∧ c ≠ '.' ∧ c ≠ 'e' ∧ c ≠ 'E') : EndsNumeral (some c :: s) := by
  intro c' s' heq
  cases heq
  exact h

theorem leadingDigits_append {digits : List Char} {rest : Source}
    (hdigits : ∀ c ∈ digits, c.isDigit) (hrest : EndsNumeral rest) :
    leadingDigits (digits.map some ++ rest) = digits := by
  induction digits with
  | nil =>
    match rest with
    | [] => rfl
    | none :: _ => rfl
    | some c :: s => simp [leadingDigits, (hrest c s rfl).1]
  | cons c digits ih =>
    rw [List.forall_mem_cons] at hdigits
    simp [leadingDigits, hdigits.1, ih hdigits.2]

theorem le_ofDigitChars (n : Nat) (digits : List Char) : n ≤ Nat.ofDigitChars 10 digits n := by
  rw [Nat.ofDigitChars_eq_ofDigitChars_zero]
  exact Nat.le_trans (Nat.le_mul_of_pos_left n (Nat.pow_pos (by decide))) (Nat.le_add_right _ _)

/-- Digits of a number that fits are all appended. -/
theorem appendDigits_eq {digits : List Char} {n : Nat}
    (h : Nat.ofDigitChars 10 digits n < wordBound) :
    appendDigits n digits = (Nat.ofDigitChars 10 digits n, 0) := by
  induction digits generalizing n with
  | nil => rfl
  | cons c digits ih =>
    have hnext : n * 10 + digitValue c = 10 * n + (c.toNat - '0'.toNat) := by
      rw [Nat.mul_comm, digitValue]
    rw [Nat.ofDigitChars_cons] at h ⊢
    have hfits := Nat.lt_of_le_of_lt (le_ofDigitChars _ digits) h
    rw [appendDigits, hnext, if_pos hfits]
    exact ih h

theorem readUnsigned_toDigits {n : Nat} (hn : n < wordBound) {rest : Source}
    (hrest : EndsNumeral rest) :
    readUnsigned false ((Nat.toDigits 10 n).map some ++ rest) = .ok (.natural n, rest) := by
  have hspelled := leadingDigits_append (fun _ => isDigit_of_mem_toDigits (n := n)) hrest
  have happend : appendDigits 0 (Nat.toDigits 10 n) = (n, 0) := by
    rw [appendDigits_eq] <;> rw [Nat.ofDigitChars_ten_toDigits]
    exact hn
  have hdrop : ((Nat.toDigits 10 n).map some ++ rest).drop (Nat.toDigits 10 n).length = rest := by
    rw [List.drop_left' (List.length_map ..)]
  unfold readUnsigned
  split
  · rename_i heq
    simp [Nat.toDigits_ne_nil] at heq
  · simp only [hspelled, hdrop]
    split
    · rename_i heq
      exact absurd heq Nat.toDigits_ne_nil
    · rename_i heq
      have hzero : n = 0 := eq_zero_of_head?_toDigits (by rw [heq]; rfl)
      rw [hzero, Nat.toDigits_zero] at heq
      cases heq
    · simp only [happend]
      -- A point or an exponent would go on with the numeral.
      split
      · exact absurd rfl (hrest '.' _ rfl).2.1
      · exact absurd rfl (hrest 'e' _ rfl).2.2.1
      · exact absurd rfl (hrest 'E' _ rfl).2.2.2
      · rfl

theorem exists_toDigits_cons (n : Nat) :
    ∃ c cs, Nat.toDigits 10 n = c :: cs ∧ c.isDigit := by
  obtain ⟨c, cs, hcs⟩ := List.exists_cons_of_ne_nil (Nat.toDigits_ne_nil (n := n) (b := 10))
  exact ⟨c, cs, hcs, isDigit_of_mem_toDigits (n := n) (by simp [hcs])⟩

/-- A number of 64 bits is read from its digits. -/
theorem readNumeral_toDigits {n : Nat} (hn : n < wordBound) {rest : Source}
    (hrest : EndsNumeral rest) :
    readNumeral ((Nat.toDigits 10 n).map some ++ rest) = .ok (.natural n, rest) := by
  rw [← readUnsigned_toDigits hn hrest]
  obtain ⟨c, cs, hcs, hdigit⟩ := exists_toDigits_cons n
  rw [hcs]
  show readNumeral (some c :: (cs.map some ++ rest)) = _
  unfold readNumeral
  split
  · rename_i heq
    cases heq
    cases hdigit
  · rfl

/-! ## Values -/

/-- A form reads a value from its characters, whatever follows them but more of a numeral. -/
def Reads (form : Form) (v : Value) : Prop :=
  ∀ rest, EndsNumeral rest → form (v.chars.map some ++ rest) = .ok (v, rest)

theorem skipBlanks_cons {c : Char} (hc : isBlank c = false) (s : Source) :
    skipBlanks (some c :: s) = some c :: s := by
  unfold skipBlanks
  rw [List.dropWhile_cons_of_neg (by simpa using hc)]

theorem isBlank_of_isDigit {c : Char} (h : c.isDigit) : isBlank c = false := by
  refine Bool.eq_false_iff.mpr fun hblank => ?_
  simp only [isBlank, Bool.or_eq_true, beq_iff_eq] at hblank
  rcases hblank with ((rfl | rfl) | rfl) | rfl <;> cases h

/-- How a value begins: with no blank, no closing bracket, and only `null` with an `n`. -/
theorem exists_chars_cons (v : Value) :
    ∃ c cs, v.chars = c :: cs ∧ isBlank c = false ∧ c ≠ ']' ∧ (c = 'n' → v = .null) := by
  unfold Value.chars
  split
  case h_1 => exact ⟨_, _, rfl, rfl, by decide, fun _ => rfl⟩
  case h_4 n =>
    obtain ⟨c, cs, hcs, hdigit⟩ := exists_toDigits_cons n
    refine ⟨c, cs, hcs, isBlank_of_isDigit hdigit, ?_, ?_⟩ <;> rintro rfl <;> cases hdigit
  all_goals exact ⟨_, _, rfl, rfl, by decide, by simp⟩

theorem skipBlanks_chars (v : Value) (rest : Source) :
    skipBlanks (v.chars.map some ++ rest) = v.chars.map some ++ rest := by
  obtain ⟨c, cs, hchars, hblank, -⟩ := exists_chars_cons v
  rw [hchars]
  exact skipBlanks_cons hblank _

/-! ## Scalars -/

theorem reads_text (s : String) : Reads Form.text (.text s) := by
  intro rest _
  unfold Form.text
  rw [Value.chars, quotedChars_map, skipBlanks_cons rfl]
  simp only [readText_quoted]
  rfl

theorem reads_number {bound n : Nat} (hbound : bound ≤ wordBound) (hn : n < bound) :
    Reads (Form.number bound) (.number n) := by
  intro rest hrest
  obtain ⟨c, cs, hcs, hdigit⟩ := exists_toDigits_cons n
  have hchars : (Value.number n).chars.map some ++ rest = some c :: (cs.map some ++ rest) := by
    rw [Value.chars, hcs]
    rfl
  have hread : readNumeral (some c :: (cs.map some ++ rest)) = .ok (.natural n, rest) := by
    rw [← hchars]
    exact readNumeral_toDigits (Nat.lt_of_lt_of_le hn hbound) hrest
  unfold Form.number
  rw [hchars, skipBlanks_cons (isBlank_of_isDigit hdigit)]
  simp only [hdigit, Bool.or_true, if_true, hread, bind, Except.bind, hn]
  rfl

theorem reads_null (form : Form) : Reads (Form.optional form) .null := by
  intro rest _
  rfl

/-- A value that is not `null` is read by its own form. -/
theorem Reads.optional {form : Form} {v : Value} (h : Reads form v) (hv : v ≠ .null) :
    Reads (Form.optional form) v := by
  intro rest hrest
  obtain ⟨c, cs, hchars, -, -, hnull⟩ := exists_chars_cons v
  unfold Form.optional
  rw [skipBlanks_chars, ← h rest hrest, hchars]
  split
  · rename_i heq
    cases heq
    exact absurd (hnull rfl) hv
  · rfl

/-! ## Lists -/

/-- The first item of an array is found where it stands. -/
theorem nextItem_first (v : Value) (rest : Source) :
    Form.nextItem true (v.chars.map some ++ rest) = .ok (true, v.chars.map some ++ rest) := by
  obtain ⟨c, cs, hchars, -, hne, -⟩ := exists_chars_cons v
  unfold Form.nextItem
  rw [skipBlanks_chars, hchars]
  split
  · contradiction
  · rename_i heq
    cases heq
    exact absurd rfl hne
  · rename_i heq
    cases heq
    rfl

/-- A further item of an array is found behind its comma. -/
theorem nextItem_further (v : Value) (rest : Source) :
    Form.nextItem false (some ',' :: (v.chars.map some ++ rest)) =
      .ok (true, v.chars.map some ++ rest) := by
  obtain ⟨c, cs, hchars, -, hne, -⟩ := exists_chars_cons v
  unfold Form.nextItem
  rw [skipBlanks_cons rfl]
  split
  · contradiction
  · rename_i heq
    exact absurd (Option.some.inj (List.cons.inj heq).1) (by decide)
  · rename_i heq
    cases heq
    rw [if_neg Bool.false_ne_true, if_pos rfl, skipBlanks_chars, hchars]
    split
    · contradiction
    · rename_i heq
      cases heq
      exact absurd rfl hne
    · rfl

section

variable {form : Form} {v : Value}

/-- An item that is there is read, and the others after it. -/
theorem items_of_item {first : Bool} {s s' rest : Source}
    (hnext : Form.nextItem first s = .ok (true, s'))
    (hread : form s' = .ok (v, rest)) (fuel : Nat) :
    Form.items form (fuel + 1) first s =
      (Form.items form fuel false rest).map fun read => (v :: read.1, read.2) := by
  simp only [Form.items, hnext, hread, bind, Except.bind]
  cases Form.items form fuel false rest <;> rfl

theorem endsNumeral_itemsChars (vs : List Value) (rest : Source) :
    EndsNumeral ((itemsChars vs).map some ++ rest) := by
  cases vs <;> exact endsNumeral_cons (by decide)

theorem items_further {vs : List Value} (h : ∀ v ∈ vs, Reads form v) {fuel : Nat}
    (hfuel : vs.length < fuel) (rest : Source) :
    Form.items form fuel false ((itemsChars vs).map some ++ rest) = .ok (vs, some ']' :: rest) := by
  induction vs generalizing fuel with
  | nil =>
    obtain ⟨fuel, rfl⟩ := Nat.exists_eq_add_one_of_ne_zero (Nat.ne_of_gt hfuel)
    rfl
  | cons v vs ih =>
    obtain ⟨fuel, rfl⟩ := Nat.exists_eq_add_one_of_ne_zero (Nat.ne_of_gt (Nat.zero_lt_of_lt hfuel))
    rw [List.forall_mem_cons] at h
    have hchars : (itemsChars (v :: vs)).map some ++ rest =
        some ',' :: (v.chars.map some ++ ((itemsChars vs).map some ++ rest)) := by
      simp [itemsChars]
    rw [hchars, items_of_item (nextItem_further v _) (h.1 _ (endsNumeral_itemsChars vs rest)),
      ih h.2 (Nat.lt_of_succ_lt_succ hfuel)]
    rfl

theorem length_lt_itemsChars (vs : List Value) : vs.length < (itemsChars vs).length := by
  induction vs with
  | nil => simp [itemsChars]
  | cons v vs ih =>
    simp only [itemsChars, List.length_cons, List.length_append]
    omega

theorem reads_array {vs : List Value} (h : ∀ v ∈ vs, Reads form v) :
    Reads (Form.list form) (.array vs) := by
  intro rest _
  cases vs with
  | nil => rfl
  | cons v vs =>
    rw [List.forall_mem_cons] at h
    have hchars : (Value.array (v :: vs)).chars.map some ++ rest =
        some '[' :: (v.chars.map some ++ ((itemsChars vs).map some ++ rest)) := by
      simp [Value.chars]
    have hfuel : vs.length < (v.chars.map some ++ ((itemsChars vs).map some ++ rest)).length := by
      have hlt := length_lt_itemsChars vs
      simp only [List.length_append, List.length_map]
      omega
    unfold Form.list
    rw [hchars, skipBlanks_cons rfl]
    simp only [items_of_item (nextItem_first v _) (h.1 _ (endsNumeral_itemsChars vs rest)),
      items_further h.2 hfuel]
    rfl

end

end Json

/-! ## Types -/

namespace Wire

open Json

/-- What is written of a type is read back as it was. -/
class Faithful (α : Type) [Wire α] : Prop where
  reads : ∀ a : α, Reads (form α) (toValue a)
  back : ∀ a : α, ofValue? (toValue a) = some a

/-- No value of a type is written as `null`. -/
class Present (α : Type) [Wire α] : Prop where
  ne_null : ∀ a : α, toValue a ≠ .null

instance : Faithful String := ⟨reads_text, fun _ => rfl⟩

instance : Faithful UInt64 where
  reads n := reads_number (Nat.le_refl _) n.toNat_lt
  back _ := congrArg some UInt64.ofNat_toNat

instance : Faithful UInt32 where
  reads n := reads_number (by decide) n.toNat_lt
  back _ := congrArg some UInt32.ofNat_toNat

instance : Present UInt64 := ⟨fun _ => Value.noConfusion⟩

section

variable {α : Type} [Wire α] [Faithful α]

instance : Faithful (List α) where
  reads items := reads_array fun v hv => by
    obtain ⟨a, -, rfl⟩ := List.mem_map.mp hv
    exact Faithful.reads a
  back items := by
    show (items.map toValue).mapM ofValue? = some items
    induction items with
    | nil => rfl
    | cons a rest ih =>
      rw [List.map_cons, List.mapM_cons, Faithful.back, ih]
      rfl

instance [Present α] : Faithful (Option α) where
  reads
    | none => reads_null (form α)
    | some a => (Faithful.reads a).optional (Present.ne_null a)
  back
    | none => rfl
    | some a => by
      show (match toValue a with
        | .null => some none
        | v => (ofValue? v).map some) = some (some a)
      split
      · exact absurd ‹_› (Present.ne_null a)
      · rw [Faithful.back]
        rfl

/-- **Decoding undoes encoding.** -/
theorem decode_encode (a : α) : decode (encode a) = .ok a := by
  have hsource : Source.ofString (encode a) = (toValue a).chars.map some ++ [] := by
    unfold Source.ofString encode Value.render
    rw [String.toList_ofList, List.append_nil]
  have hread : Json.decode (form α) ((toValue a).chars.map some ++ []) = .ok (toValue a) := by
    unfold Json.decode
    rw [Faithful.reads a [] endsNumeral_nil]
    rfl
  unfold decode decodeSource
  rw [hsource, hread]
  simp only [bind, Except.bind, Faithful.back]
  rfl

end

end Wire

/-- A block is read back from its row, whatever its transaction identifiers are. -/
theorem BlockRow.block_ofBlock (b : Block) : (BlockRow.ofBlock b).block = .ok b := by
  unfold BlockRow.block BlockRow.ofBlock
  simp only [Wire.decode_encode, UInt64.toUInt64_toInt64]
  rfl

end WalletScan
