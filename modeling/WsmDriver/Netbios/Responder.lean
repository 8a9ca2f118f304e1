import Mathlib.Data.List.DropRight
import WsmDriver.Format.Text
import WsmDriver.W6300.Bytes

/-!
# The NetBIOS responder

`netbios_handle` of `netbios.c`, which looks at a datagram and answers it if it asks for the one
name the responder has.

A name on the wire is 16 bytes, each of them in two letters from `A` to `P`, and all of their values
are possible: a byte of a name may be zero, and ends the name for the comparison with `nb_name`
there. The byte behind the letters is not looked at, but goes back with the answer.
-/

namespace WsmDriver.Netbios

open Format (cstr)
open W6300 (be16 word)

/-! ## Constants -/

/-- `NETBIOS_NAME_LEN` and `NETBIOS_ENCNAME_LEN`. -/
def netbiosNameLen : ℕ := 16

def netbiosEncnameLen : ℕ := 32

/-- The size of `netbios_hdr_t`, and `NETBIOS_QUESTION_LEN`. -/
def headerLen : ℕ := 12

def netbiosQuestionLen : ℕ := 38

/-- The flags of a header: `NETB_HFLAG_RESPONSE`, `NETB_HFLAG_OPCODE`,
`NETB_HFLAG_OPCODE_NAME_QUERY`, `NETB_HFLAG_AUTHORATIVE` and `NETB_HFLAG_RECURS_DESIRED`. -/
def netbHflagResponse : UInt16 := 0x8000

def netbHflagOpcode : UInt16 := 0x7800

def netbHflagOpcodeNameQuery : UInt16 := 0x0000

def netbHflagAuthorative : UInt16 := 0x0400

def netbHflagRecursDesired : UInt16 := 0x0100

/-- `NETB_NFLAG_NODETYPE_BNODE`. -/
def netbNflagNodetypeBnode : UInt16 := 0x0000

/-- `NETBIOS_NAME_TTL`. -/
def netbiosNameTtl : UInt16 := 10

/-! ## The responder -/

/-- The loop of `netbios_name_decode`, over the label. -/
def decodeNibbles : List UInt8 → Option (List UInt8)
  | hi :: lo :: enc =>
    if hi < 0x41 ∨ 0x50 < hi ∨ lo < 0x41 ∨ 0x50 < lo then none
    else (decodeNibbles enc).map ((((hi - 0x41) <<< 4) ||| (lo - 0x41)) :: ·)
  | _ => some []

/-- `netbios_name_decode`, with the zero at the end. -/
def netbiosNameDecode (enc : List UInt8) (outLen : ℕ) : Option (List UInt8) :=
  match decodeNibbles (enc.take netbiosEncnameLen) with
  | none => none
  | some raw =>
    let name := (raw.take (netbiosNameLen - 1)).rdropWhile (· = 0x20)
    if outLen ≤ name.length then none else some (name ++ [0])

/-- `tolower`, of the C locale. -/
def tolower (c : UInt8) : UInt8 := if 0x41 ≤ c ∧ c ≤ 0x5a then c + 0x20 else c

/-- `strcasecmp`: the difference at the first place where there is one. -/
def strcasecmp : List UInt8 → List UInt8 → ℤ
  | [], [] => 0
  | a :: _, [] => (tolower a).toNat
  | [], b :: _ => -(tolower b).toNat
  | a :: s, b :: t => if tolower a = tolower b then strcasecmp s t else
      (tolower a).toNat - (tolower b).toNat

/-- The answer to a query, as it is sent. -/
def answer (req : List UInt8) (ip : Vector UInt8 4) : List UInt8 :=
  req.take 2 ++ (be16 (netbHflagResponse ||| netbHflagOpcodeNameQuery ||| netbHflagAuthorative |||
    netbHflagRecursDesired) ++
    (be16 0 ++ (be16 1 ++
      (be16 0 ++ (be16 0 ++ (req.getD 12 0 :: ((req.drop 13).take 33 ++ ((req.drop 46).take 2 ++
      ((req.drop 48).take 2 ++ (be16 0 ++ be16 netbiosNameTtl ++
        (be16 6 ++ (be16 netbNflagNodetypeBnode ++ ip.toList))))))))))))

/-- `netbios_handle`: what is to be sent, if anything. -/
def netbiosHandle (nbName : List UInt8) (getIp : Option (Vector UInt8 4)) (req : List UInt8) :
    Option (List UInt8) :=
  if req.length < headerLen + netbiosQuestionLen then none
  else
    let flags := word (req.drop 2)
    -- What stands behind the 32 letters is not among what is checked.
    if flags &&& netbHflagResponse ≠ 0 ∨ flags &&& netbHflagOpcode ≠ netbHflagOpcodeNameQuery ∨
        word (req.drop 4) ≠ 1 ∨
        (req.getD 12 0).toNat ≠ netbiosEncnameLen then none
    else
      match netbiosNameDecode (req.drop 13) netbiosNameLen with
      | none => none
      | some asked =>
        -- `asked` is a buffer, and what is compared is the text in it.
        if strcasecmp (cstr asked) nbName ≠ 0 then none
        else
          match getIp with
          | none => none
          | some ip => some (answer req ip)

/-! ## Queries -/

/-- A name of one to fifteen characters, without padding. -/
structure NbName where
  chars : List UInt8
  ne_nil : chars ≠ []
  length_le : chars.length ≤ 15
  zero : 0 ∉ chars
  last : ∀ h : chars ≠ [], chars.getLast h ≠ 0x20

/-- The bytes of a name from its letters, a nibble each. -/
def levelOne : List UInt8 → List UInt8
  | hi :: lo :: enc => UInt8.ofNat (16 * (hi.toNat - 0x41) + (lo.toNat - 0x41)) :: levelOne enc
  | _ => []

/-- The fifteen bytes before the suffix. -/
def asked (req : List UInt8) : List UInt8 := (levelOne ((req.drop 13).take 32)).take 15

/-- The same up to ASCII case. -/
def SameName (s t : List UInt8) : Prop := s.map tolower = t.map tolower

instance (s t : List UInt8) : Decidable (SameName s t) := inferInstanceAs (Decidable (_ = _))

/-- A name query with one question, as far as the label of 32 letters. -/
structure NameQuery (req : List UInt8) : Prop where
  length : headerLen + netbiosQuestionLen ≤ req.length
  query : word (req.drop 2) &&& netbHflagResponse = 0
  opcode : word (req.drop 2) &&& netbHflagOpcode = netbHflagOpcodeNameQuery
  question : word (req.drop 4) = 1
  label : req.getD 12 0 = 32
  letters : ∀ c ∈ (req.drop 13).take 32, 0x41 ≤ c ∧ c ≤ 0x50

/-- The query names `nb`, padded with spaces. -/
def Names (nb : NbName) (req : List UInt8) : Prop :=
  SameName (asked req) (nb.chars ++ List.replicate (15 - nb.chars.length) 0x20)

/-- The answer goes with the query and carries the address. -/
structure Answers (req : List UInt8) (ip : Vector UInt8 4) (resp : List UInt8) : Prop where
  length : resp.length = 62
  transId : resp.take 2 = req.take 2
  flags : word (resp.drop 2) = 0x8500
  counts : resp.extract 4 12 = [0, 0, 0, 1, 0, 0, 0, 0]
  name : resp.extract 12 46 = req.extract 12 46
  typeClass : resp.extract 46 50 = req.extract 46 50
  addr : resp.drop 58 = ip.toList

/-- The responder answers the datagram exactly if it should, and then rightly. -/
structure Exact (nb : NbName) (ip : Vector UInt8 4) (req : List UInt8) : Prop where
  iff : (netbiosHandle nb.chars (some ip) req).isSome ↔ NameQuery req ∧ req.getD 45 0 = 0 ∧
    Names nb req
  answers : ∀ resp, netbiosHandle nb.chars (some ip) req = some resp → Answers req ip resp

variable {nb : NbName} {ip : Vector UInt8 4} {req enc s t : List UInt8} {c : UInt8}

/-! ## Decoding -/

theorem shiftLeft_or_nibble : ∀ a < 16, ∀ b < 16,
    (UInt8.ofNat a <<< 4) ||| UInt8.ofNat b = UInt8.ofNat (16 * a + b) := by
  decide

theorem sub_letter (h : 0x41 ≤ c) : c - 0x41 = UInt8.ofNat (c.toNat - 0x41) := by
  have hc := c.toNat_lt
  apply UInt8.toNat_inj.mp
  rw [UInt8.toNat_sub_of_le _ _ h, UInt8.toNat_ofNat']
  exact (Nat.mod_eq_of_lt (by omega)).symm

theorem decodeNibbles_of_letters : ∀ {enc : List UInt8},
    (∀ c ∈ enc, 0x41 ≤ c ∧ c ≤ 0x50) →
    decodeNibbles enc = some (levelOne enc)
  | [], _ | [_], _ => rfl
  | hi :: lo :: enc, h => by
    have hhi : 0x41 ≤ hi.toNat ∧ hi.toNat ≤ 0x50 := h hi (by simp)
    have hlo : 0x41 ≤ lo.toNat ∧ lo.toNat ≤ 0x50 := h lo (by simp)
    -- Either letter is a nibble, for which the two ways to join them are compared by computation.
    have hbyte : ((hi - 0x41) <<< 4) ||| (lo - 0x41) =
        UInt8.ofNat (16 * (hi.toNat - 0x41) + (lo.toNat - 0x41)) := by
      rw [← shiftLeft_or_nibble _ (by omega) _ (by omega), sub_letter hhi.1, sub_letter hlo.1]
    rw [decodeNibbles, if_neg, decodeNibbles_of_letters fun c hc ↦ h c (by simp [hc]), hbyte]
    · rfl
    · change ¬(hi.toNat < 0x41 ∨ 0x50 < hi.toNat ∨ lo.toNat < 0x41 ∨ 0x50 < lo.toNat)
      omega

theorem letters_of_decodeNibbles : ∀ {enc raw : List UInt8}, enc.length % 2 = 0 →
    decodeNibbles enc = some raw →
    ∀ c ∈ enc, 0x41 ≤ c ∧ c ≤ 0x50
  | [], _, _, _ => by simp
  | hi :: lo :: enc, _, hl, h => by
    rw [decodeNibbles] at h
    split at h
    · cases h
    · rename_i hletters
      obtain ⟨_, hr, -⟩ := Option.map_eq_some_iff.mp h
      have ih := letters_of_decodeNibbles (by simp only [List.length_cons] at hl; omega) hr
      simp only [not_or, UInt8.not_lt] at hletters
      simp only [List.mem_cons, forall_eq_or_imp]
      exact ⟨⟨hletters.1, hletters.2.1⟩, ⟨hletters.2.2.1, hletters.2.2.2⟩, ih⟩

theorem length_levelOne : ∀ enc : List UInt8, (levelOne enc).length = enc.length / 2
  | [] => rfl
  | [_] => by simp [levelOne]
  | _ :: _ :: enc => by
    rw [levelOne, List.length_cons, length_levelOne enc, List.length_cons, List.length_cons]
    omega

theorem length_asked (h : headerLen + netbiosQuestionLen ≤ req.length) : (asked req).length =
    15 := by
  rw [headerLen, netbiosQuestionLen] at h
  simp only [asked, List.length_take, length_levelOne, List.length_drop]
  omega

/-- The name without its padding. -/
def unpadded (req : List UInt8) : List UInt8 := (asked req).rdropWhile (· = 0x20)

theorem netbiosNameDecode_eq (h : ∀ c ∈ (req.drop 13).take 32, 0x41 ≤ c ∧ c ≤ 0x50) :
    netbiosNameDecode (req.drop 13) netbiosNameLen = some (unpadded req ++ [0]) := by
  have hlen : (unpadded req).length ≤ (asked req).length := (List.rdropWhile_prefix _ _).length_le
  have hasked : (asked req).length ≤ 15 := List.length_take_le _ _
  have hfits : ¬netbiosNameLen ≤ (unpadded req).length := by
    rw [netbiosNameLen]
    omega
  rw [netbiosNameDecode, netbiosEncnameLen, decodeNibbles_of_letters h]
  exact if_neg hfits

theorem letters_of_netbiosNameDecode {name : List UInt8} (hl : 45 ≤ req.length)
    (h : netbiosNameDecode (req.drop 13) netbiosNameLen = some name) :
    ∀ c ∈ (req.drop 13).take 32, 0x41 ≤ c ∧ c ≤ 0x50 := by
  rw [netbiosNameDecode] at h
  split at h
  · cases h
  · rename_i hraw
    have heven : ((req.drop 13).take netbiosEncnameLen).length % 2 = 0 := by
      rw [List.length_take, List.length_drop, netbiosEncnameLen]
      omega
    exact letters_of_decodeNibbles heven hraw

/-! ## Comparing -/

theorem tolower_eq_iff {x : UInt8} (hx : x < 0x41) : tolower c = x ↔ c = x := by
  rw [tolower]
  split
  · rename_i h
    have hc : (c + 0x20).toNat = c.toNat + 0x20 := by
      rw [UInt8.toNat_add, Nat.mod_eq_of_lt]
      · rfl
      · have : c.toNat ≤ 0x5a := h.2
        change c.toNat + 0x20 < 256
        omega
    have hx' : x.toNat < 0x41 := hx
    have hc' : 0x41 ≤ c.toNat := h.1
    simp only [← UInt8.toNat_inj, hc]
    omega
  · rfl

theorem SameName.zero_mem (h : SameName s t) (hs : 0 ∈ s) : 0 ∈ t := by
  have hmem : tolower 0 ∈ t.map tolower := h ▸ List.mem_map_of_mem hs
  obtain ⟨b, hb, hzero⟩ := List.mem_map.mp hmem
  rwa [← (tolower_eq_iff (x := 0) (by decide)).mp hzero]

/-- The comparison finds no difference between the names that are the same up to case. -/
theorem strcasecmp_eq_zero_iff : ∀ {s t : List UInt8}, 0 ∉ s → 0 ∉ t →
    (strcasecmp s t = 0 ↔ SameName s t)
  | [], [], _, _ => by simp [strcasecmp, SameName]
  | a :: s, [], hs, _ => by
    -- At the end of the shorter text its zero is compared with a byte that is none.
    have ha : tolower a ≠ 0 := fun h ↦ hs (by simp [(tolower_eq_iff (by decide)).mp h])
    simpa [strcasecmp, SameName, ← UInt8.toNat_inj] using ha
  | [], b :: t, _, ht => by
    have hb : tolower b ≠ 0 := fun h ↦ ht (by simp [(tolower_eq_iff (by decide)).mp h])
    simpa [strcasecmp, SameName, ← UInt8.toNat_inj] using hb
  | a :: s, b :: t, hs, ht => by
    have ih := strcasecmp_eq_zero_iff (fun h ↦ hs (.tail a h)) (fun h ↦ ht (.tail b h))
    rw [strcasecmp]
    split
    · rename_i hab
      rw [ih]
      simp [SameName, hab]
    · rename_i hab
      have hne : (tolower a).toNat ≠ (tolower b).toNat := fun h ↦ hab (UInt8.toNat_inj.mp h)
      simp only [SameName, List.map_cons, List.cons.injEq, hab, false_and, iff_false]
      omega

theorem map_tolower_unpadded :
    (unpadded req).map tolower = ((asked req).map tolower).rdropWhile (· = 0x20) := by
  have hspace : (fun c ↦ decide (tolower c = 0x20)) = (fun c ↦ decide (c = 0x20)) := by
    funext c
    rw [decide_eq_decide, tolower_eq_iff (by decide)]
  rw [unpadded, List.rdropWhile, List.rdropWhile, ← List.map_reverse, List.dropWhile_map,
    List.map_reverse]
  exact congrArg (fun p ↦ (((asked req).reverse.dropWhile p).map tolower).reverse) hspace.symm

/-- Without padding on either side the names are compared rightly. -/
theorem sameName_unpadded_iff (h : headerLen + netbiosQuestionLen ≤ req.length) :
    SameName (unpadded req) nb.chars ↔ Names nb req := by
  have hlast : ∀ h : nb.chars.map tolower ≠ [], (nb.chars.map tolower).getLast h ≠ 0x20 := by
    intro hne hspace
    rw [List.getLast_map, tolower_eq_iff (by decide)] at hspace
    exact nb.last _ hspace
  rw [SameName, map_tolower_unpadded, Format.rdropWhile_eq_iff hlast, Names, SameName,
    List.length_map, List.length_map,
    length_asked h, List.map_append, List.map_replicate, show tolower 0x20 = 0x20 from rfl]

/-! ## What is answered -/

/-- The name as the comparison sees it. -/
def heard (req : List UInt8) : List UInt8 := cstr (unpadded req ++ [0])

theorem heard_eq_unpadded (h : 0 ∉ asked req) : heard req = unpadded req :=
  Format.cstr_append_zero (fun hmem ↦ h ((List.rdropWhile_prefix _ _).subset hmem)) []

/-- A zero in the name hides what is behind it, the padding as well. -/
theorem heard_eq_cstr (h : 0 ∈ asked req) : heard req = cstr (asked req) := by
  have hpad : asked req = unpadded req ++ _ := Format.eq_rdropWhile_append 0x20 (asked req)
  rw [hpad, List.mem_append] at h
  -- The padding is of spaces, so the zero precedes it.
  have hmem : 0 ∈ unpadded req :=
    h.resolve_right fun hr ↦ absurd (List.eq_of_mem_replicate hr) (by decide)
  rw [heard, Format.cstr_append_of_mem hmem, hpad, Format.cstr_append_of_mem hmem]

/-- The responder answers the queries in which it hears its name. -/
theorem netbiosHandle_of_nameQuery (h : NameQuery req) : netbiosHandle nb.chars (some ip) req =
    if SameName (heard req) nb.chars then some (answer req ip) else none := by
  have hcmp : strcasecmp (heard req) nb.chars = 0 ↔ SameName (heard req) nb.chars :=
    strcasecmp_eq_zero_iff (Format.zero_notMem_cstr _) nb.zero
  have hlabel : (req.getD 12 0).toNat = netbiosEncnameLen := by rw [h.label]; rfl
  simp only [netbiosHandle, if_neg (not_lt.mpr h.length), netbiosNameDecode_eq h.letters]
  rw [if_neg (by simp only [h.query, h.opcode, h.question, hlabel, ne_eq, not_true_eq_false,
    or_self, not_false_eq_true])]
  change (if strcasecmp (heard req) nb.chars ≠ 0 then none else some (answer req ip)) = _
  simp only [ne_eq, hcmp, ite_not]

theorem nameQuery_of_netbiosHandle {nbName resp : List UInt8} {getIp : Option (Vector UInt8 4)}
    (h : netbiosHandle nbName getIp req = some resp) : NameQuery req := by
  unfold netbiosHandle at h
  split at h
  · cases h
  · rename_i hl
    have hl := not_lt.mp hl
    simp only at h
    split at h
    · cases h
    · rename_i hhdr
      simp only [ne_eq, not_or, not_not] at hhdr
      split at h
      · cases h
      · rename_i hdec
        exact
          { length := hl
            query := hhdr.1
            opcode := hhdr.2.1
            question := hhdr.2.2.1
            label := UInt8.toNat_inj.mp hhdr.2.2.2
            letters := letters_of_netbiosNameDecode (le_trans (by decide) hl) hdec }

/-- What is answered is told by the query and the name heard in it. -/
theorem netbiosHandle_eq_some_iff {resp : List UInt8} : netbiosHandle nb.chars (some ip) req =
    some resp ↔
    NameQuery req ∧ SameName (heard req) nb.chars ∧ resp = answer req ip := by
  constructor
  · intro h
    have hq := nameQuery_of_netbiosHandle h
    rw [netbiosHandle_of_nameQuery hq] at h
    split at h
    · rename_i hname
      exact ⟨hq, hname, (Option.some.inj h).symm⟩
    · cases h
  · rintro ⟨hq, hname, rfl⟩
    rw [netbiosHandle_of_nameQuery hq, if_pos hname]

/-! ## The answer -/

/-- The answer is a header, what was asked, and the address with what precedes it. -/
theorem answer_eq (h : 50 ≤ req.length) (ip : Vector UInt8 4) : answer req ip =
    (req.take 2 ++ [0x85, 0x00, 0, 0, 0, 1, 0, 0, 0, 0]) ++
      (req.extract 12 46 ++ (req.extract 46 50 ++ ([0, 0, 0, 10, 0, 6, 0, 0] ++ ip.toList))) := by
  have hname : req.extract 12 46 = req.getD 12 0 :: (req.drop 13).take 33 := by
    rw [List.extract_eq_take_drop, List.drop_eq_getElem_cons (by omega), List.getD_eq_getElem _ _
      (by omega)]
    rfl
  have htype : req.extract 46 50 = (req.drop 46).take 2 ++ (req.drop 48).take 2 := by
    have hdrop : req.drop 48 = (req.drop 46).drop 2 := by rw [List.drop_drop]
    rw [List.extract_eq_take_drop, hdrop, ← List.take_add]
  rw [hname, htype, answer]
  simp only [List.append_assoc, List.cons_append, List.nil_append]
  rfl

theorem answers_answer (h : NameQuery req) : Answers req ip (answer req ip) := by
  have hl : 50 ≤ req.length := h.length
  have hid : (req.take 2).length = 2 := List.length_take_of_le (by omega)
  have hhdr : (req.take 2 ++ [0x85, 0x00, 0, 0, 0, 1, 0, 0, 0, 0]).length = 12 := by simp [hid]
  have hname : (req.extract 12 46).length = 34 := by simp; omega
  have htype : (req.extract 46 50).length = 4 := by simp; omega
  have hfour : req.take 2 ++ [0x85, 0x00, 0, 0, 0, 1, 0, 0, 0, 0] =
      (req.take 2 ++ [0x85, 0x00]) ++ [0, 0, 0, 1, 0, 0, 0, 0] := by simp
  rw [answer_eq hl]
  exact
    { length := by simp only [List.length_append, hhdr, hname, htype, Vector.length_toList]; rfl
      transId := by rw [List.append_assoc, List.take_left' hid]
      flags := by
        rw [List.append_assoc, List.drop_left' hid]
        change ((0x85 : UInt8).toUInt16 <<< 8) ||| (0 : UInt8).toUInt16 = 0x8500
        decide
      counts := by
        rw [List.extract_eq_take_drop, hfour, List.append_assoc,
          List.drop_left' (by rw [List.length_append, hid]; rfl)]
        rfl
      name := by
        rw [List.extract_eq_take_drop, List.drop_left' hhdr, List.take_left' hname]
      typeClass := by
        rw [List.extract_eq_take_drop, ← List.append_assoc,
          List.drop_left' (by rw [List.length_append, hhdr, hname]), List.take_left' htype]
      addr := by
        rw [← List.append_assoc, ← List.append_assoc, ← List.append_assoc]
        exact List.drop_left' (by simp only [List.length_append, hhdr, hname, htype]; rfl) }

/-! ## Exactness -/

/-- The query is answered though it should not be: nothing looks at the byte behind the label, or a
zero in the decoded name hides the rest of it. -/
def Loose (nb : NbName) (req : List UInt8) : Prop :=
  NameQuery req ∧ ((Names nb req ∧ req.getD 45 0 ≠ 0) ∨
    (0 ∈ asked req ∧ SameName (cstr (asked req)) nb.chars))

theorem not_names_of_zero (h : 0 ∈ asked req) : ¬Names nb req := by
  intro hn
  have hmem := SameName.zero_mem hn h
  rw [List.mem_append] at hmem
  exact hmem.elim nb.zero fun hr ↦ absurd (List.eq_of_mem_replicate hr) (by decide)

/-- The responder hears its name where the query has it, or has it with a zero behind it. -/
theorem sameName_heard_iff (h : NameQuery req) : SameName (heard req) nb.chars ↔
    Names nb req ∨ (0 ∈ asked req ∧ SameName (cstr (asked req)) nb.chars) := by
  -- A zero makes the two readings differ: the name has none, and the comparison stops there.
  by_cases hzero : 0 ∈ asked req
  · rw [heard_eq_cstr hzero]
    simp [hzero, not_names_of_zero hzero]
  · rw [heard_eq_unpadded hzero, sameName_unpadded_iff h.length]
    simp [hzero]

/-- In any other query it hears its name where the query has it. -/
theorem sameName_heard_of_not_loose (hq : NameQuery req) (h : ¬Loose nb req) :
    SameName (heard req) nb.chars ↔ req.getD 45 0 = 0 ∧ Names nb req := by
  rw [sameName_heard_iff hq]
  constructor
  · rintro (hnames | hcut)
    · exact ⟨by_contra fun hne ↦ h ⟨hq, .inl ⟨hnames, hne⟩⟩, hnames⟩
    · exact absurd ⟨hq, .inr hcut⟩ h
  · rintro ⟨-, hnames⟩
    exact .inl hnames

/-- The responder is exact for a datagram, whatever its length and its contents, if and only if that
is no query with another byte than zero behind its label or a zero in the name. -/
theorem netbiosHandle_exact_iff (nb : NbName) (ip : Vector UInt8 4) (req : List UInt8) :
    Exact nb ip req ↔ ¬Loose nb req := by
  have hsome : (netbiosHandle nb.chars (some ip) req).isSome ↔ NameQuery req ∧
      SameName (heard req) nb.chars := by
    simp [Option.isSome_iff_exists, netbiosHandle_eq_some_iff]
  constructor
  · rintro ⟨hiff, -⟩ ⟨hq, hloose⟩
    have hheard : SameName (heard req) nb.chars :=
      (sameName_heard_iff hq).mpr (hloose.imp And.left id)
    obtain ⟨-, hroot, hnames⟩ := hiff.mp (hsome.mpr ⟨hq, hheard⟩)
    rcases hloose with ⟨-, hne⟩ | ⟨hzero, -⟩
    · exact hne hroot
    · exact not_names_of_zero hzero hnames
  · intro h
    refine ⟨hsome.trans (and_congr_right fun hq ↦ sameName_heard_of_not_loose hq h), ?_⟩
    · intro resp hresp
      obtain ⟨hq, -, rfl⟩ := netbiosHandle_eq_some_iff.mp hresp
      exact answers_answer hq

/-! ## A query that is not terminated -/

/-- `W`. -/
def letterW : NbName := ⟨[0x57], by simp, by simp, by simp, by simp⟩

/-- A query for `W`, with the byte `root` behind the label. -/
def queryW (root : UInt8) : List UInt8 :=
  [0x12, 0x34, 0x01, 0x10, 0, 1, 0, 0, 0, 0, 0, 0, 0x20, 0x46, 0x48] ++
    (List.replicate 14 [0x43, 0x41]).flatten ++ [0x41, 0x41, root, 0, 0x20, 0, 1]

theorem not_exact : ¬∀ nb ip req, Exact nb ip req := by
  intro h
  have hsome : (netbiosHandle letterW.chars (some #v[192, 168, 0, 6]) (queryW 1)).isSome := by
    decide
  obtain ⟨-, hroot, -⟩ := (h letterW #v[192, 168, 0, 6] (queryW 1)).iff.mp hsome
  exact absurd hroot (by decide)

end WsmDriver.Netbios
