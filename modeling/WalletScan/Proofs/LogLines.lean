import WalletScan.Log.Pattern

/-!
# Values cannot break a line of the log

The values of a record come from the chain and may hold anything.  Whether a value is quoted is
decided by its white space, and how it is quoted by the shapes of its characters; together they
leave no white space but the space in a line.

* `isShapeless_of_isBlank` — all white space but the space has no shape.
* `Escapes`, `escapes_flatMap` — the inside of quotes, and that it stands for the value.
* `Shown`, `Spells` — how a value and the named values of a record may stand in a line.
* `values_keep_line` — after what the pattern writes, a line ends where its values do.
-/

set_option autoImplicit false

namespace WalletScan

namespace Text

/-! ## White space -/

/-- All white space but the space has no shape of its own. -/
theorem isShapeless_of_isBlank {c : Char} (h : isBlank c = true) (hspace : c ≠ ' ') :
    isShapeless c = true := by
  have hcovered : ∀ r ∈ blankRanges, r = (0x20, 0x20) ∨
      ∃ r' ∈ shapelessRanges, r'.1 ≤ r.1 ∧ r.2 ≤ r'.2 := by
    decide +kernel
  obtain ⟨r, hr, hin⟩ := List.any_eq_true.mp h
  rw [Bool.and_eq_true, decide_eq_true_eq, decide_eq_true_eq] at hin
  rcases hcovered r hr with rfl | ⟨r', hr', hlow, hhigh⟩
  · refine absurd (Char.ext (UInt32.toNat_inj.mp ?_)) hspace
    exact Nat.le_antisymm hin.2 hin.1
  · refine List.any_eq_true.mpr ⟨r', hr', ?_⟩
    rw [Bool.and_eq_true, decide_eq_true_eq, decide_eq_true_eq]
    exact ⟨Nat.le_trans hlow hin.1, Nat.le_trans hin.2 hhigh⟩

/-- The only white space of a text is the space. -/
def SpaceOnly (s : List Char) : Prop := ∀ c ∈ s, isBlank c = true → c = ' '

theorem spaceOnly_nil : SpaceOnly [] := by
  intro c hc
  cases hc

theorem spaceOnly_cons {c : Char} {s : List Char} :
    SpaceOnly (c :: s) ↔ (isBlank c = true → c = ' ') ∧ SpaceOnly s :=
  List.forall_mem_cons

theorem spaceOnly_append {s t : List Char} : SpaceOnly (s ++ t) ↔ SpaceOnly s ∧ SpaceOnly t :=
  List.forall_mem_append

theorem spaceOnly_of_not_isBlank {s : List Char} (h : ∀ c ∈ s, isBlank c = false) :
    SpaceOnly s := by
  intro c hc hblank
  rw [h c hc] at hblank
  cases hblank

/-- The characters that end a line somewhere. -/
def lineBreaks : List Char := ['\n', '\r', '\x0b', '\x0c', '\x85', '\u2028', '\u2029']

theorem isBlank_of_mem_lineBreaks : ∀ c ∈ lineBreaks, isBlank c = true ∧ c ≠ ' ' := by
  have hall : (lineBreaks.all fun c => isBlank c && c != ' ') = true := by decide
  simpa using hall

/-! ## Between quotes -/

/-- The characters that a backslash and a letter stand for. -/
def escapeLetters : List (Char × Char) :=
  [('0', '\x00'), ('t', '\t'), ('r', '\r'), ('n', '\n'), ('\\', '\\'), ('"', '"')]

/-- What stands between quotes, and the text that it stands for.  A character stands for itself only
if it has a shape and is no quote and no backslash; others take a letter or the digits of their code
point after a backslash. -/
inductive Escapes : List Char → List Char → Prop
  | nil : Escapes [] []
  | plain {c : Char} {inner value : List Char} : c ≠ '"' → c ≠ '\\' → isShapeless c = false →
      Escapes inner value → Escapes (c :: inner) (c :: value)
  | letter {l c : Char} {inner value : List Char} : (l, c) ∈ escapeLetters →
      Escapes inner value → Escapes ('\\' :: l :: inner) (c :: value)
  | code {c : Char} {inner value : List Char} : isShapeless c = true →
      Escapes inner value →
      Escapes ('\\' :: 'u' :: '\x7b' :: Nat.toDigits 16 c.toNat ++ '\x7d' :: inner) (c :: value)

theorem Escapes.cons (c : Char) {inner value : List Char} (h : Escapes inner value) :
    Escapes (escapedChar c ++ inner) (c :: value) := by
  unfold escapedChar
  split
  case h_7 c hzero htab hreturn hfeed hslash hquote =>
    split
    case isTrue hshape => simpa using Escapes.code hshape h
    case isFalse hshape => exact .plain hquote hslash (Bool.eq_false_iff.mpr hshape) h
  all_goals exact .letter (by decide) h

theorem escapes_flatMap (value : List Char) : Escapes (value.flatMap escapedChar) value := by
  induction value with
  | nil => exact .nil
  | cons c value ih => exact ih.cons c

/-- The digits of a number in hexadecimal are no white space. -/
theorem isBlank_of_mem_toDigits {n : Nat} : ∀ c ∈ Nat.toDigits 16 n, isBlank c = false := by
  have hdigit : ∀ d < 16, isBlank d.digitChar = false := by decide
  induction n using Nat.strongRecOn with
  | ind n ih =>
    rw [Nat.toDigits_eq_if (by omega)]
    split
    · simpa using hdigit n ‹_›
    · intro c hc
      rcases List.mem_append.mp hc with hc | hc
      · exact ih (n / 16) (by omega) c hc
      · rw [List.mem_singleton.mp hc]
        exact hdigit (n % 16) (by omega)

/-- Between quotes there is no white space but the space. -/
theorem Escapes.spaceOnly {inner value : List Char} (h : Escapes inner value) :
    SpaceOnly inner := by
  have hletters : ∀ e ∈ escapeLetters, isBlank e.1 = true → e.1 = ' ' := by decide
  have hslash : isBlank '\\' = true → '\\' = ' ' := by decide
  induction h with
  | nil => exact spaceOnly_nil
  | @plain c _ _ _ _ hshape _ ih =>
    refine spaceOnly_cons.mpr ⟨fun hblank => ?_, ih⟩
    refine Decidable.byContradiction fun hspace => ?_
    rw [isShapeless_of_isBlank hblank hspace] at hshape
    cases hshape
  | letter hletter _ ih =>
    exact spaceOnly_cons.mpr ⟨hslash, spaceOnly_cons.mpr ⟨hletters _ hletter, ih⟩⟩
  | code _ _ ih =>
    refine spaceOnly_append.mpr ⟨spaceOnly_cons.mpr ⟨hslash, spaceOnly_cons.mpr ⟨by decide,
      spaceOnly_cons.mpr ⟨by decide, ?_⟩⟩⟩, spaceOnly_cons.mpr ⟨by decide, ih⟩⟩
    exact spaceOnly_of_not_isBlank isBlank_of_mem_toDigits

/-! ## Values -/

/-- How a value may stand in a line: as it is, if it has characters and none of them is white space,
or between quotes, where the space is the only white space. -/
inductive Shown (value : List Char) : List Char → Prop
  | bare : value ≠ [] → (∀ c ∈ value, isBlank c = false) → Shown value value
  | quoted {inner : List Char} : Escapes inner value → SpaceOnly inner →
      Shown value ('"' :: inner ++ ['"'])

theorem shown_delimited (value : List Char) : Shown value (delimited value) := by
  unfold delimited
  split
  case isTrue => exact .quoted (escapes_flatMap value) (escapes_flatMap value).spaceOnly
  case isFalse hbare =>
    rw [needsQuotes, Bool.or_eq_true, not_or] at hbare
    refine .bare (fun hnil => hbare.1 (List.isEmpty_iff.mpr hnil)) fun c hc => ?_
    exact Bool.eq_false_iff.mpr fun hblank => hbare.2 (List.any_eq_true.mpr ⟨c, hc, hblank⟩)

theorem Shown.spaceOnly {value shown : List Char} (h : Shown value shown) : SpaceOnly shown := by
  cases h with
  | bare _ hbare => exact spaceOnly_of_not_isBlank hbare
  | quoted _ hinner =>
    exact spaceOnly_append.mpr ⟨spaceOnly_cons.mpr ⟨by decide, hinner⟩,
      spaceOnly_cons.mpr ⟨by decide, spaceOnly_nil⟩⟩

end Text

namespace Log

open Text

/-! ## Lines -/

/-- What may spell the named values of a record: each after a space and its name, in colour. -/
inductive Spells : List (String × Value) → List Mark → Prop
  | nil : Spells [] []
  | cons {name : String} {value : Value} {shown : List Char} {pairs : List (String × Value)}
      {body : List Mark} : Shown value.render.toList shown → Spells pairs body →
      Spells ((name, value) :: pairs)
        (.paint (some .cyan) :: Mark.ofChars (' ' :: name.toList ++ ['=']) ++
          .paint none :: Mark.ofChars shown ++ body)

theorem spells_flatMap (pairs : List (String × Value)) :
    Spells pairs (pairs.flatMap pairMarks) := by
  induction pairs with
  | nil => exact .nil
  | cons pair pairs ih =>
    obtain ⟨name, value⟩ := pair
    exact .cons (shown_delimited value.render.toList) ih

theorem Mark.char_mem_ofChars {c : Char} {s : List Char} : .char c ∈ ofChars s ↔ c ∈ s := by
  simp [ofChars]

/-- If the names hold no white space, named values are spelled with no white space but the space. -/
theorem Spells.eq_space {pairs : List (String × Value)} {body : List Mark} (h : Spells pairs body)
    (hnames : ∀ pair ∈ pairs, ∀ c ∈ pair.1.toList, isBlank c = false) {c : Char}
    (hc : .char c ∈ body) (hblank : isBlank c = true) : c = ' ' := by
  induction h with
  | nil => cases hc
  | @cons name value shown pairs body hshown _ ih =>
    obtain ⟨hname, hnames⟩ := List.forall_mem_cons.mp hnames
    have hlead : SpaceOnly (' ' :: name.toList ++ ['=']) :=
      spaceOnly_append.mpr ⟨spaceOnly_cons.mpr ⟨fun _ => rfl, spaceOnly_of_not_isBlank hname⟩,
        spaceOnly_cons.mpr ⟨by decide, spaceOnly_nil⟩⟩
    rcases List.mem_append.mp hc with hc | hbody
    · rcases List.mem_append.mp hc with hc | hc
      · rcases List.mem_cons.mp hc with heq | hmem
        · cases heq
        · exact hlead c (Mark.char_mem_ofChars.mp hmem) hblank
      · rcases List.mem_cons.mp hc with heq | hmem
        · cases heq
        · exact hshown.spaceOnly c (Mark.char_mem_ofChars.mp hmem) hblank
    · exact ih hnames hbody

/-- **Values cannot break a line.**  If the names hold no white space, then whatever the values are,
a line is what the pattern writes, then the named values, then one line feed.  Each named value is
spelled after a space and its name, as it is or between quotes inside which quotes, backslashes and
characters without a shape are escaped.  All white space among the named values is the space, so
there is no line break of any kind. -/
theorem values_keep_line (pattern : List Piece) (now : Moment) (record : Record)
    (hnames : ∀ pair ∈ record.pairs, ∀ c ∈ pair.1.toList, isBlank c = false) :
    ∃ body, lineMarks pattern now record =
        Pattern.marks now record pattern ++ body ++ [.char '\n'] ∧
      Spells record.pairs body ∧
      (∀ c, .char c ∈ body → isBlank c = true → c = ' ') ∧
      ∀ c ∈ lineBreaks, .char c ∉ body := by
  have hspells := spells_flatMap record.pairs
  refine ⟨_, ?_, hspells, fun c => hspells.eq_space hnames, fun c hc hbody => ?_⟩
  · rw [lineMarks, pairsMarks, List.append_assoc]
  · obtain ⟨hblank, hspace⟩ := isBlank_of_mem_lineBreaks c hc
    exact hspace (hspells.eq_space hnames hbody hblank)

/-- A record whose values try to end the line and the quotes. -/
def craftyRecord : Record :=
  ⟨.info, "chain", "seen",
    [("memo", .text "a\nb\u2028\"c\" \\ \x85"), ("note", .text ""), ("hash", .text "\"h\"")]⟩

/-- Its line is one line. -/
theorem craftyRecord_line :
    plainText (lineMarks [] ⟨0, 0⟩ craftyRecord) =
        " memo=\"a\\nb\\u\x7b2028\x7d\\\"c\\\" \\\\ \\u\x7b85\x7d\" note=\"\" hash=\"h\"\n" ∧
      ∃ body, lineMarks [] ⟨0, 0⟩ craftyRecord = body ++ [.char '\n'] ∧
        Spells craftyRecord.pairs body ∧ ∀ c ∈ lineBreaks, .char c ∉ body := by
  have hnames : (craftyRecord.pairs.all fun pair => pair.1.toList.all (!isBlank ·)) = true := by
    decide
  obtain ⟨body, hline, hspells, -, hbreaks⟩ :=
    values_keep_line [] ⟨0, 0⟩ craftyRecord (by simpa using hnames)
  exact ⟨by decide +kernel, body, hline, hspells, hbreaks⟩

end Log

end WalletScan
