import WsmDriver.Dns.Parse

/-!
# Answers

What a server may answer: a header, questions and records, whose names are label sequences that end
with the root or with a pointer into the message. The parser takes the address from the first record
that has one, whatever stands before it, and whatever follows the answers.
-/

namespace WsmDriver.Dns

open Format

open W6300 (be16 word word_be16)

/-! ## Names -/

/-- A label. -/
abbrev Label := { l : List UInt8 // 1 ≤ l.length ∧ l.length ≤ 63 }

/-- How a name ends: with the root, or with a pointer to the rest of it. -/
inductive NameEnd
  | root
  | pointer (hi lo : UInt8)

structure Name where
  labels : List Label
  ending : NameEnd

def Label.encode (l : Label) : List UInt8 := UInt8.ofNat l.1.length :: l.1

/-- The two high bits of a pointer are set. -/
def NameEnd.encode : NameEnd → List UInt8
  | .root => [0]
  | .pointer hi lo => [0xC0 ||| hi, lo]

def Name.encode (n : Name) : List UInt8 := n.labels.flatMap Label.encode ++ n.ending.encode

/-! ## Messages -/

structure Question where
  name : Name
  qtype : UInt16
  qclass : UInt16

def Question.encode (q : Question) : List UInt8 := q.name.encode ++ (be16 q.qtype ++ be16 q.qclass)

structure Record where
  name : Name
  type : UInt16
  cls : UInt16
  ttl : UInt32
  rdata : { l : List UInt8 // l.length < 65536 }

def Record.encode (r : Record) : List UInt8 :=
  r.name.encode ++ (be16 r.type ++ (be16 r.cls ++ (Dhcp.bytesOf32 r.ttl ++
    (be16 (UInt16.ofNat r.rdata.1.length) ++ r.rdata.1))))

/-- An address record. -/
def Record.IsAddress (r : Record) : Prop :=
  r.type = dnsTypeA ∧ r.cls = dnsClassIn ∧ r.rdata.1.length = 4

instance : DecidablePred Record.IsAddress := fun _ ↦ inferInstanceAs (Decidable (_ ∧ _ ∧ _))

/-- The address of an address record. -/
def Record.address (r : Record) : Dhcp.Ip4 := Dhcp.bytesAt 4 r.rdata.1 0

/-- An answer that is none of an error. Behind the answers there may be anything. -/
structure Response where
  id : UInt16
  flags : UInt8
  rcode : UInt8
  isResponse : flags &&& 0x80 ≠ 0
  isOk : rcode &&& 0x0F = 0
  questions : { l : List Question // l.length < 65536 }
  answers : { l : List Record // l.length < 65536 }
  nscount : UInt16
  arcount : UInt16
  rest : List UInt8

def Response.encode (m : Response) : List UInt8 :=
  be16 m.id ++ ([m.flags, m.rcode] ++ (be16 (UInt16.ofNat m.questions.1.length) ++
    (be16 (UInt16.ofNat m.answers.1.length) ++ (be16 m.nscount ++ (be16 m.arcount ++
      (m.questions.1.flatMap Question.encode ++ (m.answers.1.flatMap Record.encode ++ m.rest)))))))

/-- The address that is asked for: that of the first address record. -/
def Response.address (m : Response) : Option Dhcp.Ip4 :=
  (m.answers.1.find? fun r ↦ decide r.IsAddress).map Record.address

variable {p q : List UInt8} {off n : ℕ}

/-! ## Reading what was written -/

theorem readWord_of_drop {x : UInt16} (h : p.drop off = be16 x ++ q) (hoff : off ≤ p.length) :
    readWord p off = some x := by
  rw [readWord, readBytes_of_drop (n := 2) h hoff rfl, Option.map_some, word_be16]

theorem ofNat_length_ne_zero {k : ℕ} (h₁ : 1 ≤ k) (h₂ : k ≤ 63) : UInt8.ofNat k ≠ 0 := by
  interval_cases k <;> decide

theorem ofNat_length_not_pointer {k : ℕ} (h : k ≤ 63) : ¬UInt8.ofNat k &&& 0xC0 = 0xC0 := by
  interval_cases k <;> decide

theorem pointer_and (hi : UInt8) : (0xC0 ||| hi) &&& 0xC0 = 0xC0 := by
  refine UInt8.toBitVec_inj.mp (BitVec.eq_of_getLsbD_eq fun i hi ↦ ?_)
  interval_cases i <;> simp

theorem toNat_ofNat_label (l : Label) : (UInt8.ofNat l.1.length).toNat = l.1.length :=
  UInt8.toNat_ofNat_of_lt' (Nat.lt_of_le_of_lt l.2.2 (by decide))

/-- The labels are skipped one after the other. -/
theorem skipLabels_labels : ∀ {labels : List Label} {off : ℕ}, p.drop off =
    labels.flatMap Label.encode ++ q →
    skipLabels p (labels.length + n) off = skipLabels p n
    (off + (labels.flatMap Label.encode).length) := by
  intro labels
  induction labels with
  | nil =>
    intro off _
    rw [List.length_nil, Nat.zero_add]
    rfl
  | cons l labels ih =>
    intro off h
    rw [List.flatMap_cons, List.append_assoc, Label.encode, List.cons_append] at h
    have hrest := drop_add_of_drop (drop_succ_of_drop h) rfl
    rw [List.length_cons, Nat.add_right_comm, skipLabels, if_pos (lt_of_drop_cons h),
      readByte_of_drop h,
      Option.bind_eq_bind, Option.bind_some, if_neg (ofNat_length_ne_zero l.2.1 l.2.2),
      if_neg (ofNat_length_not_pointer l.2.2), toNat_ofNat_label, ih hrest]
    congr 1
    rw [List.flatMap_cons, List.length_append, Label.encode, List.length_cons]
    omega

theorem skipLabels_ending {ending : NameEnd} (h : p.drop off = ending.encode ++ q)
    (hoff : off ≤ p.length) :
    skipLabels p (n + 1) off = some (some (off + ending.encode.length)) := by
  have hlen := length_of_drop h hoff
  cases ending with
  | root =>
    rw [NameEnd.encode, List.singleton_append] at h
    rw [skipLabels, if_pos (lt_of_drop_cons h), readByte_of_drop h]
    rfl
  | pointer hi lo =>
    have hne : ¬0xC0 ||| hi = 0 := fun h0 ↦ by
      have := pointer_and hi
      rw [h0] at this
      exact absurd this (by decide)
    rw [NameEnd.encode] at h
    change off + 2 + q.length = p.length at hlen
    rw [skipLabels, if_pos (lt_of_drop_cons h), readByte_of_drop h, Option.bind_eq_bind,
      Option.bind_some, if_neg hne, if_pos (pointer_and hi), if_pos (by omega)]
    rfl

/-- A label takes a byte at least. -/
theorem length_labels_le (labels : List Label) :
    labels.length ≤ (labels.flatMap Label.encode).length := by
  induction labels with
  | nil => exact Nat.le_refl _
  | cons l labels ih =>
    rw [List.flatMap_cons, List.length_append, Label.encode, List.length_cons, List.length_cons]
    omega

/-- **A name is skipped as a whole.** -/
theorem dnsSkipName_name {name : Name} (h : p.drop off = name.encode ++ q) (hoff : off ≤ p.length) :
    dnsSkipName p off = some (some (off + name.encode.length)) := by
  have hlabels : p.drop off = name.labels.flatMap Label.encode ++ (name.ending.encode ++ q) := by
    rw [h, Name.encode, List.append_assoc]
  have hlen := length_of_drop hlabels hoff
  have hcount := length_labels_le name.labels
  obtain ⟨k, hk⟩ := Nat.exists_eq_add_of_le (show name.labels.length ≤ p.length by omega)
  rw [dnsSkipName, hk, Nat.add_assoc, skipLabels_labels hlabels,
    skipLabels_ending (drop_add_of_drop hlabels rfl) (by omega), Name.encode, List.length_append,
      Nat.add_assoc]

/-! ## Questions and answers -/

theorem skipQuestions_encode : ∀ {qs : List Question} {off : ℕ}, p.drop off =
    qs.flatMap Question.encode ++ q →
    off ≤ p.length → skipQuestions p qs.length off = some
    (some (off + (qs.flatMap Question.encode).length)) := by
  intro qs
  induction qs with
  | nil => exact fun _ _ ↦ rfl
  | cons question qs ih =>
    intro off h hoff
    rw [List.flatMap_cons, List.append_assoc, Question.encode, List.append_assoc] at h
    have hfields := drop_add_of_drop h rfl
    have hrest := drop_add_of_drop (n := 4) hfields rfl
    have hlen := length_of_drop h hoff
    have hfour : (be16 question.qtype ++ be16 question.qclass).length = 4 := rfl
    rw [List.length_append, hfour] at hlen
    rw [List.length_cons, skipQuestions, dnsSkipName_name h hoff, Option.bind_eq_bind,
      Option.bind_some]
    dsimp only
    rw [if_neg (by omega), ih hrest (by omega), List.flatMap_cons, List.length_append,
      Question.encode, List.length_append, hfour]
    congr 2
    omega

/-- A record that has no address is passed over; the first one that has is taken. -/
theorem findAddress_encode : ∀ {rs : List Record} {off : ℕ}, p.drop off =
    rs.flatMap Record.encode ++ q →
    off ≤ p.length → findAddress p rs.length off =
      some ((rs.find? fun r ↦ decide r.IsAddress).map Record.address) := by
  intro rs
  induction rs with
  | nil => exact fun _ _ ↦ rfl
  | cons r rs ih =>
    intro off h hoff
    have hrdlen : (UInt16.ofNat r.rdata.1.length).toNat = r.rdata.1.length :=
      UInt16.toNat_ofNat_of_lt' r.rdata.2
    rw [List.flatMap_cons, List.append_assoc, Record.encode] at h
    simp only [List.append_assoc] at h
    have hlen := length_of_drop h hoff
    have htype := drop_add_of_drop h rfl
    have hcls := drop_add_of_drop (n := 2) htype rfl
    have httl := drop_add_of_drop (n := 2) hcls rfl
    have hrdlength : p.drop (off + r.name.encode.length + 8) = _ :=
      drop_add_of_drop (n := 4) httl rfl
    have hrdata : p.drop (off + r.name.encode.length + 10) = _ :=
      drop_add_of_drop (n := 2) hrdlength rfl
    have hend : off + r.name.encode.length + 10 + r.rdata.1.length ≤ p.length := by
      have hfields : ∀ x : UInt16, (be16 x).length = 2 := fun _ ↦ rfl
      have httl : (Dhcp.bytesOf32 r.ttl).length = 4 := rfl
      simp only [List.length_append, hfields, httl] at hlen
      omega
    -- What the loop asks of the header is what makes the record an address.
    have hfour : UInt16.ofNat r.rdata.1.length = 4 ↔ r.rdata.1.length = 4 := by
      rw [← UInt16.toNat_inj, hrdlen]
      rfl
    rw [List.length_cons, findAddress, dnsSkipName_name h hoff, Option.bind_eq_bind,
      Option.bind_some]
    dsimp only
    rw [if_neg (by omega), readWord_of_drop htype (by omega), readWord_of_drop hcls (by omega),
      readWord_of_drop hrdlength (by omega)]
    simp only [Option.bind_eq_bind, Option.bind_some]
    rw [hrdlen, if_neg (by omega), List.find?_cons]
    by_cases haddress : r.IsAddress
    · rw [if_pos ⟨haddress.1, haddress.2.1, hfour.mpr haddress.2.2⟩, decide_eq_true haddress,
        readBytes_of_drop hrdata (by omega) haddress.2.2]
      rfl
    · rw [if_neg fun hA ↦ haddress ⟨hA.1, hA.2.1, hfour.mp hA.2.2⟩, decide_eq_false haddress,
        ih (drop_add_of_drop hrdata rfl) hend]

/-! ## Answers -/

/-- **What an answer says.** Whatever the questions and the records are, the parser finds the first
address. -/
theorem dnsAddress_response (m : Response) : dnsAddress m.encode m.id = some m.address := by
  -- Field by field: what is left of the message behind each of them.
  have hid : m.encode.drop 0 = be16 m.id ++ _ := List.drop_zero
  have hflags : m.encode.drop 2 = m.flags :: _ := drop_add_of_drop (n := 2) hid rfl
  have hrcode : m.encode.drop 3 = m.rcode :: _ := drop_succ_of_drop hflags
  have hqd : m.encode.drop 4 = be16 (UInt16.ofNat m.questions.1.length) ++ _ :=
    drop_succ_of_drop hrcode
  have han : m.encode.drop 6 = be16 (UInt16.ofNat m.answers.1.length) ++ _ :=
    drop_add_of_drop (n := 2) hqd rfl
  have hns : m.encode.drop 8 = be16 m.nscount ++ _ := drop_add_of_drop (n := 2) han rfl
  have har : m.encode.drop 10 = be16 m.arcount ++ _ := drop_add_of_drop (n := 2) hns rfl
  have hquestions : m.encode.drop dnsHeaderLen = m.questions.1.flatMap Question.encode ++ _ :=
    drop_add_of_drop (n := 2) har rfl
  have hlen : dnsHeaderLen ≤ m.encode.length := by
    simp only [Response.encode, be16, List.length_append, List.length_cons, List.length_nil,
      dnsHeaderLen]
    omega
  have hin : ∀ {n : ℕ}, n ≤ dnsHeaderLen → n ≤ m.encode.length :=
    fun h ↦ Nat.le_trans h hlen
  rw [dnsAddress, if_neg (Nat.not_lt.mpr hlen), readWord_of_drop hid (hin (by decide)),
    readByte_of_drop hflags,
    readByte_of_drop hrcode, readWord_of_drop hqd (hin (by decide)),
      readWord_of_drop han (hin (by decide))]
  simp only [Option.bind_eq_bind, Option.bind_some]
  rw [if_neg (not_not.mpr rfl), if_neg m.isResponse, if_neg (not_not.mpr m.isOk),
    UInt16.toNat_ofNat_of_lt' m.questions.2, UInt16.toNat_ofNat_of_lt' m.answers.2,
    skipQuestions_encode hquestions hlen, Option.bind_some]
  dsimp only
  have hanswers := drop_add_of_drop hquestions rfl
  exact findAddress_encode hanswers (by have := length_of_drop hquestions hlen; omega)

/-- **Decoding answers.** `dns_skip_name` and `dns_parse` end without looking outside of the
message, whatever it is, and of an answer without an error the parser makes the address of its first
address record. -/
theorem dns_decoding : (∀ p off, ∃ r, dnsSkipName p off = some r) ∧
    (∀ p id outIp, ∃ r, dnsParse p id outIp = some r) ∧
    ∀ (m : Response) (outIp : Dhcp.Ip4), dnsParse m.encode m.id outIp = some
    (m.address.isSome, m.address.getD outIp) :=
  ⟨dnsSkipName_isSome, dnsParse_isSome, fun m outIp ↦ by rw [dnsParse, dnsAddress_response,
    Option.map_some]⟩

end WsmDriver.Dns
