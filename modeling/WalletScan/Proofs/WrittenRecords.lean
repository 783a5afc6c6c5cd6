import Mathlib.Data.List.Forall2
import WalletScan.Proofs.DistinctEntries
import WalletScan.Proofs.WrittenValues
import WalletScan.Webhook.Delivery

/-!
# Reading back records

A record is written as an object with its members in the order of the fields, and a choice as the
name of a variant or as an object with one member.  Both are read back as they were, and with them
all that is stored or sent.

* `members_of_member`, `members_from_key` — one member of an object is read by its field, and then
  all up to the closing brace.
* `reads_record`, `reads_variant`, `reads_content` — a record, and the variants of a choice.
* `Wire.member?_cons` — a field is found in a record in normal shape.
* `records_read_back` — whatever is stored or sent is read back as it was, and no two values of a
  type share a text.
-/

set_option autoImplicit false

namespace WalletScan

namespace Json

/-! ## Members -/

/-- The key of the first member is found where it stands. -/
theorem nextKey_first (k : String) (rest : Source) :
    Form.nextKey true ((quotedChars k).map some ++ rest) = .ok (some k, rest) := by
  unfold Form.nextKey
  rw [quotedChars_map, skipBlanks_cons rfl]
  show (readText _ >>= fun read => pure (some read.1, read.2)) = _
  rw [readText_quoted]
  rfl

/-- The key of a further member is found behind its comma. -/
theorem nextKey_further (k : String) (rest : Source) :
    Form.nextKey false (some ',' :: ((quotedChars k).map some ++ rest)) = .ok (some k, rest) := by
  unfold Form.nextKey
  rw [quotedChars_map, skipBlanks_cons rfl]
  show (readText _ >>= fun read => pure (some read.1, read.2)) = _
  rw [readText_quoted]
  rfl

section

variable {fields : List Form.Field} {f : Form.Field} {ms seen : List (String × Value)}

theorem endsNumeral_membersChars (ms : List (String × Value)) (rest : Source) :
    EndsNumeral ((membersChars ms).map some ++ rest) := by
  rcases ms with _ | ⟨⟨k, v⟩, ms⟩ <;> exact endsNumeral_cons (by decide)

/-- A field that a member belongs to, and that reads its value. -/
structure Fits (f : Form.Field) (m : String × Value) : Prop where
  name : m.1 = f.name
  reads : Reads f.form m.2

/-- Among fields of different names, a field is found by its name. -/
theorem find?_name (hnames : (fields.map (·.name)).Nodup) (hf : f ∈ fields) :
    fields.find? (fun f' => f'.name == f.name) = some f := by
  induction fields with
  | nil => cases hf
  | cons f' fields ih =>
    obtain ⟨hfresh, hnames⟩ := List.nodup_cons.mp hnames
    rcases List.mem_cons.mp hf with rfl | hf
    · simp
    · have hne : (f'.name == f.name) = false :=
        beq_eq_false_iff_ne.mpr fun heq => hfresh (List.mem_map.mpr ⟨f, hf, heq.symm⟩)
      rw [List.find?_cons, hne]
      exact ih hnames hf

/-- A member that was not seen is read by its field, and the others after it. -/
theorem members_of_member (hnames : (fields.map (·.name)).Nodup) (hf : f ∈ fields)
    {m : String × Value} (hm : Fits f m) (hnew : seen.lookup m.1 = none) {rest : Source}
    (hrest : EndsNumeral rest) {first : Bool} {s : Source}
    (hkey : Form.nextKey first s = .ok (some m.1, some ':' :: (m.2.chars.map some ++ rest)))
    (fuel : Nat) :
    Form.members fields (fuel + 1) seen first s =
      Form.members fields fuel (seen ++ [m]) false rest := by
  have hfound : fields.find? (fun f' => f'.name == m.1) = some f := by
    rw [hm.name]
    exact find?_name hnames hf
  have hcolon : Form.readColon (some ':' :: (m.2.chars.map some ++ rest)) =
      .ok (m.2.chars.map some ++ rest) := rfl
  simp only [Form.members, hkey, hfound, hnew, hcolon, hm.reads rest hrest, bind, Except.bind]
  rfl

/-- From the key of a member on, the members are read up to the closing brace. -/
theorem members_from_key (hnames : (fields.map (·.name)).Nodup) {m : String × Value}
    (h : ∀ m' ∈ m :: ms, ∃ f ∈ fields, Fits f m') (hkeys : ((m :: ms).map (·.1)).Nodup)
    (hnew : ∀ m' ∈ m :: ms, seen.lookup m'.1 = none) {fuel : Nat} (hfuel : ms.length < fuel)
    {first : Bool} {s rest : Source}
    (hkey : Form.nextKey first s = .ok (some m.1,
      some ':' :: (m.2.chars.map some ++ ((membersChars ms).map some ++ rest)))) :
    Form.members fields (fuel + 1) seen first s = .ok (seen ++ m :: ms, some '\x7d' :: rest) := by
  induction ms generalizing m seen fuel first s with
  | nil =>
    obtain ⟨fuel, rfl⟩ := Nat.exists_eq_add_one_of_ne_zero (Nat.ne_of_gt hfuel)
    obtain ⟨f, hf, hm⟩ := h m List.mem_cons_self
    rw [members_of_member hnames hf hm (hnew m List.mem_cons_self)
      (endsNumeral_membersChars [] rest) hkey]
    rfl
  | cons m' ms ih =>
    obtain ⟨fuel, rfl⟩ := Nat.exists_eq_add_one_of_ne_zero (Nat.ne_of_gt (Nat.zero_lt_of_lt hfuel))
    obtain ⟨⟨f, hf, hm⟩, hothers⟩ := List.forall_mem_cons.mp h
    obtain ⟨hnewKey, hnewOthers⟩ := List.forall_mem_cons.mp hnew
    obtain ⟨hfresh, hdistinct⟩ := List.nodup_cons.mp hkeys
    have hnext : ∀ m'' ∈ m' :: ms, (seen ++ [m]).lookup m''.1 = none := by
      intro m'' hm''
      have hne : m''.1 ≠ m.1 := fun heq => hfresh (List.mem_map.mpr ⟨m'', hm'', heq⟩)
      obtain ⟨k, v⟩ := m
      rw [List.lookup_append, hnewOthers m'' hm'', lookup_cons_ite, if_neg hne]
      rfl
    have hchars : (membersChars (m' :: ms)).map some ++ rest =
        some ',' :: ((quotedChars m'.1).map some ++
          some ':' :: (m'.2.chars.map some ++ ((membersChars ms).map some ++ rest))) := by
      simp [membersChars]
    rw [members_of_member hnames hf hm hnewKey (endsNumeral_membersChars _ rest) hkey, hchars,
      ih hothers hdistinct hnext (Nat.lt_of_succ_lt_succ hfuel) (nextKey_further m'.1 _),
      List.append_assoc]
    rfl

theorem length_lt_membersChars (ms : List (String × Value)) :
    ms.length < (membersChars ms).length := by
  induction ms with
  | nil => simp [membersChars]
  | cons m ms ih =>
    simp only [membersChars, List.length_cons, List.length_append]
    omega

/-! ## Records -/

/-- Members in the order of the fields are collected as they are. -/
theorem collect_eq {all : List (String × Value)} (h : List.Forall₂ Fits fields ms)
    (hall : ∀ m ∈ ms, all.lookup m.1 = some m.2) : Form.collect all fields = .ok ms := by
  induction h with
  | nil => rfl
  | @cons f m fields ms hm _ ih =>
    obtain ⟨hlookup, hothers⟩ := List.forall_mem_cons.mp hall
    rw [hm.name] at hlookup
    simp only [Form.collect, hlookup, ih hothers, bind, Except.bind, pure, Except.pure]
    rw [← hm.name]

theorem keys_of_fits (h : List.Forall₂ Fits fields ms) :
    ms.map (·.1) = fields.map (·.name) := by
  induction h with
  | nil => rfl
  | cons hm _ ih => rw [List.map_cons, List.map_cons, hm.name, ih]

theorem exists_field_of_fits (h : List.Forall₂ Fits fields ms) :
    ∀ m ∈ ms, ∃ f ∈ fields, Fits f m := by
  induction h with
  | nil => simp
  | cons hm _ ih => simpa [hm] using fun k v hkv => .inr (ih (k, v) hkv)

/-- A record is read from the members of its fields, in their order. -/
theorem reads_record (hnames : (fields.map (·.name)).Nodup) (h : List.Forall₂ Fits fields ms) :
    Reads (Form.record fields) (.object ms) := by
  intro rest _
  have hkeys : (ms.map (·.1)).Nodup := by rwa [keys_of_fits h]
  have hcollect := collect_eq h fun _ hm => (mem_iff_lookup hkeys).mp hm
  cases ms with
  | nil =>
    cases h
    rfl
  | cons m ms =>
    have hchars : (Value.object (m :: ms)).chars.map some ++ rest =
        some '\x7b' :: ((quotedChars m.1).map some ++
          some ':' :: (m.2.chars.map some ++ ((membersChars ms).map some ++ rest))) := by
      simp [Value.chars]
    have hfuel : ms.length < ((quotedChars m.1).map some ++
        some ':' :: (m.2.chars.map some ++ ((membersChars ms).map some ++ rest))).length := by
      have hlt := length_lt_membersChars ms
      simp only [List.length_append, List.length_cons, List.length_map]
      omega
    have hnew : ∀ m' ∈ m :: ms, ([] : List (String × Value)).lookup m'.1 = none := fun _ _ => rfl
    unfold Form.record
    rw [hchars, skipBlanks_cons rfl]
    simp only [members_from_key hnames (exists_field_of_fits h) hkeys hnew hfuel
      (nextKey_first m.1 _), List.nil_append, hcollect, bind, Except.bind]
    rfl

end

/-! ## Choices -/

section

variable {variants : List Form.Variant} {name : String}

/-- A variant without content is read from its name. -/
theorem reads_variant (h : variants.find? (fun v => v.name == name) = some ⟨name, none⟩) :
    Reads (Form.choice variants) (.text name) := by
  intro rest hrest
  have htext := reads_text name rest hrest
  rw [Value.chars, quotedChars_map] at htext ⊢
  unfold Form.choice
  rw [skipBlanks_cons rfl]
  simp only [htext, h, bind, Except.bind]
  rfl

/-- A variant with content is read from the only member of an object. -/
theorem reads_content {form : Form} {v : Value}
    (h : variants.find? (fun v => v.name == name) = some ⟨name, some form⟩)
    (hv : Reads form v) : Reads (Form.choice variants) (.object [(name, v)]) := by
  intro rest _
  have hchars : (Value.object [(name, v)]).chars.map some ++ rest =
      some '\x7b' :: ((Value.text name).chars.map some ++
        some ':' :: (v.chars.map some ++ some '\x7d' :: rest)) := by
    simp [Value.chars, membersChars]
  have htext := reads_text name (some ':' :: (v.chars.map some ++ some '\x7d' :: rest))
    (endsNumeral_cons (by decide))
  have hcolon : Form.readColon (some ':' :: (v.chars.map some ++ some '\x7d' :: rest)) =
      .ok (v.chars.map some ++ some '\x7d' :: rest) := rfl
  have hcontent := hv (some '\x7d' :: rest) (endsNumeral_cons (by decide))
  unfold Form.choice
  rw [hchars, skipBlanks_cons rfl]
  simp only [htext, h, hcolon, hcontent, bind, Except.bind, pure, Except.pure]
  rfl

end

end Json

/-! ## Types -/

namespace Wire

open Json

section

variable {α : Type} [Wire α] [Faithful α]

@[simp]
theorem fits_field (name : String) (a : α) : Fits (field α name) (name, toValue a) :=
  ⟨rfl, Faithful.reads a⟩

@[simp]
theorem fits_optionalField [Present α] (name : String) (a : Option α) :
    Fits (optionalField α name) (name, toValue a) :=
  ⟨rfl, Faithful.reads a⟩

@[simp]
theorem ofValue?_toValue (a : α) : ofValue? (toValue a) = some a := Faithful.back a

omit [Faithful α] in
@[simp]
theorem member?_cons (name name' : String) (v : Value) (ms : List (String × Value)) :
    (member? ((name', v) :: ms) name : Option α) =
      if name = name' then ofValue? v else member? ms name := by
  unfold member?
  rw [lookup_cons_ite]
  by_cases h : name = name' <;> simp [h]

end

instance : Faithful BlockHeader where
  reads a := reads_record (by decide) (by simp)
  back a := by
    unfold instWireBlockHeader
    simp

instance : Faithful Block where
  reads a := reads_record (by decide) (by simp)
  back a := by
    unfold instWireBlock
    simp

instance : Faithful Cursor where
  reads a := reads_record (by decide) (by simp)
  back a := by
    unfold instWireCursor
    simp

instance : Faithful UnscannedRecord where
  reads a := reads_record (by decide) (by simp)
  back a := by
    unfold instWireUnscannedRecord
    simp

instance : Faithful Party where
  reads a := reads_record (by decide) (by simp)
  back a := by
    unfold instWireParty
    simp

instance : Faithful TransferGroup where
  reads a := reads_record (by decide) (by simp)
  back a := by
    unfold instWireTransferGroup
    simp

instance : Faithful Transaction where
  reads a := reads_record (by decide) (by simp)
  back a := by
    unfold instWireTransaction
    simp

instance : Faithful TxType where
  reads
    | .transfer => reads_variant rfl
    | .feeCharge => reads_variant rfl
  back a := by cases a <;> rfl

instance : Faithful TxStatus where
  reads
    | .success => reads_variant rfl
    | .failed => reads_variant rfl
  back a := by cases a <;> rfl

instance : Faithful Coin where
  reads a := reads_record (by decide) (by simp)
  back a := by
    unfold instWireCoin
    simp

instance : Faithful TxInput where
  reads a := reads_record (by decide) (by simp)
  back a := by
    unfold instWireTxInput
    simp

instance : Faithful TxOutput where
  reads a := reads_record (by decide) (by simp)
  back a := by
    unfold instWireTxOutput
    simp

instance : Faithful TransactionSummary where
  reads a := reads_record (by decide) (by simp)
  back a := by
    unfold instWireTransactionSummary
    simp

instance : Present TransactionSummary := ⟨fun _ => Value.noConfusion⟩

instance : Faithful ExtractedData where
  reads a := reads_record (by decide) (by simp)
  back a := by
    unfold instWireExtractedData
    simp

instance : Faithful Bucket where
  reads
    | .asset denom => reads_content rfl (reads_text denom)
    | .fee => reads_variant rfl
  back a := by cases a <;> rfl

instance : Faithful OwnerKey where
  reads a := reads_record (by decide) (by simp)
  back a := by
    unfold instWireOwnerKey
    simp

end Wire

/-! ## Deliveries -/

/-- What a receiver finds in the body of a delivery. -/
structure Webhook.Announcement where
  eventType : String
  owner : String
  createdAt : String
  data : ExtractedData
deriving DecidableEq, Repr

section

open Wire Json

instance : Wire Webhook.Announcement where
  form := Form.record
    [ field String "event_type",
      field String "owner",
      field String "created_at",
      field ExtractedData "data" ]
  toValue a := .object
    [ ("event_type", toValue a.eventType),
      ("owner", toValue a.owner),
      ("created_at", toValue a.createdAt),
      ("data", toValue a.data) ]
  ofValue?
    | .object members => do
      pure
        { eventType := ← member? members "event_type"
          owner := ← member? members "owner"
          createdAt := ← member? members "created_at"
          data := ← member? members "data" }
    | _ => none

end

namespace Wire

open Json Webhook

instance : Faithful Announcement where
  reads a := reads_record (by decide) (by simp)
  back a := by
    unfold instWireAnnouncement
    simp

/-- The body of a delivery announces its data. -/
theorem body_eq_encode (now : Moment) (d : Delivery) :
    d.body now = encode (⟨eventType, d.owner.render, now.render, d.data⟩ : Announcement) := rfl

/-- The values of a type are read back from their texts, and no two share a text. -/
structure RoundTrips (α : Type) [Wire α] : Prop where
  decode_encode : ∀ a : α, decode (encode a) = .ok a
  encode_injective : Function.Injective (encode : α → String)

theorem roundTrips {α : Type} [Wire α] [Faithful α] : RoundTrips α := by
  refine ⟨decode_encode, fun a b heq => ?_⟩
  have hdecoded : (Except.ok a : Except Fault α) = .ok b := by
    rw [← decode_encode a, ← decode_encode b, heq]
  exact Except.ok.inj hdecoded

/-- **Decoding undoes encoding for whatever is stored or sent.**  Blocks, cursors, unscanned
records, transactions, owners and extracted data, and all that these consist of, are read back from
their texts as they were, whatever characters, numbers and lists they hold, and no two values of a
type share a text.  The transaction identifiers of a block are read back from their column, and the
block from its row.  The body of a delivery announces the owner's text and the very data. -/
theorem records_read_back :
    (RoundTrips Block ∧ RoundTrips Cursor ∧ RoundTrips UnscannedRecord ∧ RoundTrips Transaction ∧
        RoundTrips OwnerKey ∧ RoundTrips ExtractedData) ∧
      (RoundTrips TxInput ∧ RoundTrips TxOutput ∧ RoundTrips TransactionSummary ∧
        RoundTrips Coin ∧ RoundTrips TxType ∧ RoundTrips TxStatus) ∧
      (∀ b : Block, decode (BlockRow.ofBlock b).transactions = .ok b.transactions ∧
        (BlockRow.ofBlock b).block = .ok b) ∧
      ∀ (now : Moment) (d : Delivery),
        decode (d.body now) =
          .ok (⟨eventType, d.owner.render, now.render, d.data⟩ : Announcement) :=
  ⟨⟨roundTrips, roundTrips, roundTrips, roundTrips, roundTrips, roundTrips⟩,
    ⟨roundTrips, roundTrips, roundTrips, roundTrips, roundTrips, roundTrips⟩,
    fun b => ⟨decode_encode b.transactions, BlockRow.block_ofBlock b⟩,
    fun now d => by rw [body_eq_encode, decode_encode]⟩

end Wire

end WalletScan
