import Mathlib.Data.List.TakeWhile
import WsmDriver.Dns.Resolver

/-!
# Names of domains

As text the labels of a domain are separated by dots; in a query each of them follows its length,
and a zero ends the name. `dns_encode_name` goes from the one to the other, `dns_skip_name` steps
over the other, and neither knows of labels.

The encoder writes into memory that the caller has. `dnsEncodeNameAt` is the encoder with its
writes; what `dnsEncodeName` collects is what it leaves there.
-/

namespace WsmDriver.Dns

open Format

variable {l : Label} {labels : List Label} {p q w v label rest beyond domain : List UInt8}
    {cap k n off : ℕ}

/-! ## Labels and text -/

/-- A domain as text: labels without dots, at least one of them, with dots between them. -/
structure Spells (labels : List Label) (domain : List UInt8) : Prop where
  nonempty : labels ≠ []
  undotted : ∀ l ∈ labels, dot ∉ l.1
  joined : [dot].intercalate (labels.map Subtype.val) = domain

/-- The labels as a name in a query. -/
def rooted (labels : List Label) : Name := ⟨labels, .root⟩

/-- The labels that can be read at the start of a block, up to a zero. -/
def readLabels : ℕ → List UInt8 → List (List UInt8)
  | k + 1, b :: p => if b = 0 then [] else p.take b.toNat :: readLabels k (p.drop b.toNat)
  | _, _ => []

/-- The length of the name: the labels with one byte more for each of them, and the final zero. -/
def wireLength (labels : List Label) : ℕ := (labels.map fun l ↦ l.1.length + 1).sum + 1

theorem rooted_encode_nil : (rooted []).encode = [0] := rfl

theorem rooted_encode_cons (l : Label) (labels : List Label) :
    (rooted (l :: labels)).encode = UInt8.ofNat l.1.length :: (l.1 ++ (rooted labels).encode) := by
  rw [rooted, Name.encode, List.flatMap_cons, Label.encode, List.append_assoc, List.cons_append]
  rfl

theorem rooted_encode_length (labels : List Label) : (rooted labels).encode.length =
    wireLength labels := by
  induction labels with
  | nil => rfl
  | cons l labels ih =>
    rw [rooted_encode_cons, List.length_cons, List.length_append, ih, wireLength, wireLength,
      List.map_cons, List.sum_cons]
    omega

theorem length_lt_wireLength (labels : List Label) : labels.length < wireLength labels := by
  have hle := length_labels_le labels
  rw [← rooted_encode_length, rooted, Name.encode, List.length_append]
  exact Nat.lt_succ_of_le hle

/-- What is read back are the labels. -/
theorem readLabels_rooted (q : List UInt8) : ∀ {labels : List Label} {k : ℕ}, labels.length < k →
    readLabels k ((rooted labels).encode ++ q) = labels.map Subtype.val := by
  intro labels
  induction labels with
  | nil =>
    intro k hk
    obtain ⟨k, rfl⟩ := Nat.exists_eq_succ_of_ne_zero hk.ne'
    rfl
  | cons l labels ih =>
    intro k hk
    obtain ⟨k, rfl⟩ := Nat.exists_eq_succ_of_ne_zero (Nat.ne_zero_of_lt hk)
    rw [rooted_encode_cons, List.cons_append, List.append_assoc, readLabels,
      if_neg (ofNat_length_ne_zero l.2.1 l.2.2), toNat_ofNat_label, List.take_left' rfl,
      List.drop_left' rfl, ih (Nat.lt_of_succ_lt_succ hk), List.map_cons]

theorem Spells.single (h : dot ∉ l.1) : Spells [l] l.1 where
  nonempty := List.cons_ne_nil _ _
  undotted := by simpa using h
  joined := List.intercalate_singleton

theorem Spells.cons (h : dot ∉ l.1) (hs : Spells labels domain) :
    Spells (l :: labels) (l.1 ++ dot :: domain) where
  nonempty := List.cons_ne_nil _ _
  undotted := List.forall_mem_cons.mpr ⟨h, hs.undotted⟩
  joined := by
    rw [List.map_cons, List.intercalate_cons_of_ne_nil (mt List.map_eq_nil_iff.mp hs.nonempty),
      hs.joined, List.append_assoc]
    rfl

/-- The first label, and what follows the first dot. -/
theorem Spells.of_cons (h : Spells (l :: labels) domain) : dot ∉ l.1 ∧
    (labels = [] ∧ domain = l.1 ∨ ∃ domain', Spells labels domain' ∧ domain = l.1 ++ dot ::
      domain') := by
  obtain ⟨hl, hundotted⟩ := List.forall_mem_cons.mp h.undotted
  refine ⟨hl, ?_⟩
  by_cases hne : labels = []
  · subst hne
    exact .inl ⟨rfl, h.joined.symm.trans List.intercalate_singleton⟩
  · refine .inr ⟨_, ⟨hne, hundotted, rfl⟩, ?_⟩
    rw [← h.joined, List.map_cons, List.intercalate_cons_of_ne_nil (mt List.map_eq_nil_iff.mp hne),
      List.append_assoc]
    rfl

/-- What stands before the first dot, where one is found. -/
theorem takeWhile_undotted (h : dot ∉ v) (q : List UInt8) :
    ((v ++ dot :: q).takeWhile fun b ↦ b ≠ dot) = v := by
  have hall : ∀ b ∈ v, decide (b ≠ dot) = true :=
    fun b hb ↦ decide_eq_true fun heq ↦ h (heq ▸ hb)
  rw [List.takeWhile_append_of_pos hall, List.takeWhile_cons_of_neg (by simp), List.append_nil]

theorem takeWhile_undotted_self (h : dot ∉ v) : (v.takeWhile fun b ↦ b ≠ dot) = v :=
  List.takeWhile_eq_self_iff.mpr fun _ hb ↦ decide_eq_true fun heq ↦ h (heq ▸ hb)

/-! ## The encoder -/

/-- What is spelled out is encoded, if it fits. -/
theorem encodeLabels_spells : ∀ {labels : List Label} {domain w : List UInt8} {k : ℕ},
    Spells labels domain →
    domain.length < k → w.length + wireLength labels ≤ cap →
    encodeLabels cap k w domain = some (w ++ (rooted labels).encode) := by
  intro labels
  induction labels with
  | nil => exact fun h ↦ absurd rfl h.nonempty
  | cons l labels ih =>
    intro domain w k h hk hcap
    obtain ⟨k, rfl⟩ := Nat.exists_eq_succ_of_ne_zero (Nat.ne_zero_of_lt hk)
    have hfit : ¬(l.1.length = 0 ∨ 63 < l.1.length ∨ cap < w.length + 1 + l.1.length + 1) := by
      have hlen := l.2
      rw [wireLength, List.map_cons, List.sum_cons] at hcap
      omega
    -- The last label ends at the end of the text, another one at its dot.
    rcases h.of_cons with ⟨hl, ⟨rfl, rfl⟩ | ⟨domain', h', rfl⟩⟩
    · rw [encodeLabels, takeWhile_undotted_self hl, if_neg hfit, List.drop_length,
        rooted_encode_cons, rooted_encode_nil]
      simp only [List.append_assoc, List.cons_append]
    · rw [encodeLabels, takeWhile_undotted hl, if_neg hfit, List.drop_left' rfl]
      dsimp only
      rw [List.length_append, List.length_cons] at hk
      rw [ih h' (by omega) ?_, rooted_encode_cons]
      · simp only [List.append_assoc, List.cons_append]
      · rw [wireLength, List.map_cons, List.sum_cons] at hcap
        rw [List.length_append, List.length_cons, wireLength]
        omega

/-- What is encoded is spelled out. -/
theorem encodeLabels_some : ∀ {k : ℕ} {domain w v : List UInt8}, encodeLabels cap k w domain =
    some v →
    ∃ labels, Spells labels domain ∧ v = w ++ (rooted labels).encode ∧ v.length ≤ cap := by
  intro k
  induction k with
  | zero => exact fun h ↦ nomatch h
  | succ k ih =>
    intro domain w v h
    -- Either there is no dot, or the first one ends the first label.
    by_cases hdot : dot ∈ domain
    · obtain ⟨a, q, rfl, ha⟩ := List.eq_append_cons_of_mem hdot
      rw [encodeLabels, takeWhile_undotted ha] at h
      split at h
      next => cases h
      next hfit =>
        rw [List.drop_left' rfl] at h
        obtain ⟨labels, hs, rfl, hcap⟩ := ih h
        have hl : 1 ≤ a.length ∧ a.length ≤ 63 := by omega
        refine ⟨⟨a, hl⟩ :: labels, .cons (l := ⟨a, hl⟩) ha hs, ?_, hcap⟩
        rw [rooted_encode_cons]
        simp only [List.append_assoc, List.cons_append]
    · rw [encodeLabels, takeWhile_undotted_self hdot] at h
      split at h
      next => cases h
      next hfit =>
        rw [List.drop_length] at h
        obtain rfl := Option.some.inj h
        have hl : 1 ≤ domain.length ∧ domain.length ≤ 63 := by omega
        refine ⟨[⟨domain, hl⟩], .single (l := ⟨domain, hl⟩) hdot, ?_, ?_⟩
        · rw [rooted_encode_cons, rooted_encode_nil]
          simp only [List.append_assoc, List.cons_append]
        · simp only [List.length_append, List.length_cons, List.length_nil]
          omega

theorem dnsEncodeName_some_iff : dnsEncodeName cap domain = some v ↔
    ∃ labels, Spells labels domain ∧ v = (rooted labels).encode ∧ v.length ≤ cap := by
  constructor
  · exact fun h ↦ encodeLabels_some h
  · rintro ⟨labels, hs, rfl, hcap⟩
    rw [rooted_encode_length] at hcap
    exact encodeLabels_spells hs (Nat.lt_succ_self _) (by rwa [List.length_nil, Nat.zero_add])

/-! ## In memory -/

/-- The loop of `dns_encode_name`, at the label that starts the text, with the `n` first bytes of
the memory `p` written: the memory in the end, and the value returned with `none` for `-1`. It fails
at a write outside of `p`. -/
def encodeLabelsAt (cap : ℕ) : ℕ → List UInt8 → ℕ → List UInt8 →
    Option (List UInt8 × Option ℕ)
  | 0, _, _, _ => none
  | k + 1, p, n, label =>
    let l := (label.takeWhile fun b ↦ b ≠ dot).length
    if l = 0 ∨ 63 < l ∨ cap < n + 1 + l + 1 then some (p, none)
    else do
      let p ← writeBytes p n [UInt8.ofNat l]
      let p ← writeBytes p (n + 1) (label.take l)
      match label.drop l with
      | [] => do
        let p ← writeBytes p (n + 1 + l) [0]
        some (p, some (n + 1 + l + 1))
      | _ :: label => encodeLabelsAt cap k p (n + 1 + l) label

/-- `dns_encode_name`. -/
def dnsEncodeNameAt (p : List UInt8) (cap : ℕ) (domain : List UInt8) :
    Option (List UInt8 × Option ℕ) :=
  encodeLabelsAt cap (domain.length + 1) p 0 domain

/-- The encoder stays inside the memory it is given, and leaves there what `encodeLabels`
collects. -/
theorem encodeLabelsAt_collects : ∀ {k : ℕ} {label w rest : List UInt8}, label.length < k →
    w.length + rest.length = cap →
    ∃ p, encodeLabelsAt cap k (w ++ (rest ++ beyond)) w.length label =
        some (p ++ beyond, (encodeLabels cap k w label).map List.length) ∧
      p.length = cap ∧ ∀ v, encodeLabels cap k w label = some v → v <+: p := by
  intro k
  induction k with
  | zero => exact fun h ↦ absurd h (Nat.not_lt_zero _)
  | succ k ih =>
    intro label w rest hk hcap
    rw [encodeLabelsAt, encodeLabels]
    dsimp only
    split
    next =>
      refine ⟨w ++ rest, by rw [List.append_assoc, Option.map_none],
        by rw [List.length_append, hcap], ?_⟩
      exact fun v h ↦ nomatch h
    next hfit =>
      have hprefix :=
        List.prefix_iff_eq_take.mp (List.takeWhile_prefix (fun b ↦ decide (b ≠ dot)) (l := label))
      rw [← hprefix]
      generalize label.takeWhile (fun b ↦ decide (b ≠ dot)) = a at hfit hprefix ⊢
      -- The length and the label go behind what there is, and the turn ends with less of the
      -- memory.
      generalize UInt8.ofNat a.length = b
      have hfirst : writeBytes (w ++ (rest ++ beyond)) w.length [b] =
          some ((w ++ [b]) ++ (rest.drop 1 ++ beyond)) :=
        writeBytes_extend rfl (by rw [List.length_singleton]; omega) beyond
      have hsecond : writeBytes ((w ++ [b]) ++ (rest.drop 1 ++ beyond)) (w.length + 1) a =
          some ((w ++ [b] ++ a) ++ ((rest.drop 1).drop a.length ++ beyond)) :=
        writeBytes_extend List.length_append (by rw [List.length_drop]; omega) beyond
      have hturn : w.length + 1 + a.length = (w ++ [b] ++ a).length := by
        rw [List.length_append, List.length_append, List.length_singleton]
      have hroom : (w ++ [b] ++ a).length + ((rest.drop 1).drop a.length).length = cap := by
        rw [← hturn, List.length_drop, List.length_drop]
        omega
      have hzero : 1 ≤ ((rest.drop 1).drop a.length).length := by
        rw [List.length_drop, List.length_drop]
        omega
      have hcollect : w ++ b :: a = w ++ [b] ++ a := by
        rw [List.append_assoc, List.singleton_append]
      rw [hfirst, Option.bind_eq_bind, Option.bind_some, hsecond, Option.bind_some, hturn, hcollect]
      generalize w ++ [b] ++ a = w' at hroom ⊢
      generalize (rest.drop 1).drop a.length = rest' at hroom hzero ⊢
      rcases hdrop : label.drop a.length with _ | ⟨c, label'⟩
      · dsimp only
        rw [writeBytes_extend (v := [0]) rfl hzero, Option.bind_some, Option.map_some,
          List.length_append]
        refine ⟨w' ++ [0] ++ rest'.drop 1, by rw [List.append_assoc _ _ beyond]; rfl, ?_, ?_⟩
        · simp only [List.length_append, List.length_drop, List.length_singleton]
          omega
        · intro v hv
          rw [← Option.some.inj hv]
          exact List.prefix_append _ _
      · dsimp only
        have hshort := congrArg List.length hdrop
        rw [List.length_drop, List.length_cons] at hshort
        exact ih (by omega) hroom

/-- **Encoding a name.** The encoder ends and writes to the first `cap` bytes of its memory only. It
succeeds exactly for the text of labels whose encoding fits there, and what it then leaves is that
encoding, out of which the labels can be read and over which `dns_skip_name` steps. -/
theorem dnsEncodeNameAt_exact (p beyond domain : List UInt8) : ∃ q r,
    dnsEncodeNameAt (p ++ beyond) p.length domain = some (q ++ beyond, r) ∧ q.length = p.length ∧
    (r.isSome ↔ ∃ labels, Spells labels domain ∧ wireLength labels ≤ p.length) ∧
    ∀ n, r = some n → ∃ labels, Spells labels domain ∧ n = wireLength labels ∧ q.take n =
    (rooted labels).encode ∧
      [dot].intercalate (readLabels n q) = domain ∧ dnsSkipName (q.take n) 0 = some (some n) := by
  have hcollects : ∃ q, dnsEncodeNameAt ([] ++ (p ++ beyond)) p.length domain =
      some (q ++ beyond, (dnsEncodeName p.length domain).map List.length) ∧
      q.length = p.length ∧ ∀ v, dnsEncodeName p.length domain = some v → v <+: q :=
    encodeLabelsAt_collects (Nat.lt_succ_self _) (Nat.zero_add _)
  -- What is left in the block starts with what the encoder without memory returns.
  obtain ⟨q, hrun, hlen, hleaves⟩ := hcollects
  refine ⟨q, _, hrun, hlen, ?_, fun n hn ↦ ?_⟩
  · rw [Option.isSome_map]
    constructor
    · intro hsome
      obtain ⟨v, hv⟩ := Option.isSome_iff_exists.mp hsome
      obtain ⟨labels, hs, rfl, hcap⟩ := dnsEncodeName_some_iff.mp hv
      exact ⟨labels, hs, rooted_encode_length labels ▸ hcap⟩
    · rintro ⟨labels, hs, hcap⟩
      rw [← rooted_encode_length] at hcap
      exact Option.isSome_iff_exists.mpr
        ⟨_, dnsEncodeName_some_iff.mpr ⟨labels, hs, rfl, hcap⟩⟩
  · obtain ⟨v, hv, rfl⟩ := Option.map_eq_some_iff.mp hn
    obtain ⟨labels, hs, rfl, -⟩ := dnsEncodeName_some_iff.mp hv
    obtain ⟨q', rfl⟩ := hleaves _ hv
    have htake : ((rooted labels).encode ++ q').take (rooted labels).encode.length =
        (rooted labels).encode :=
      List.take_left' rfl
    refine ⟨labels, hs, rooted_encode_length labels, htake, ?_, ?_⟩
    · rw [readLabels_rooted q' (by rw [rooted_encode_length]; exact length_lt_wireLength labels),
        hs.joined]
    · have hskip : dnsSkipName (rooted labels).encode 0 =
          some (some (0 + (rooted labels).encode.length)) :=
        dnsSkipName_name (q := []) (by rw [List.drop_zero, List.append_nil]) (Nat.zero_le _)
      rw [htake, hskip, Nat.zero_add]

/-- `wiz.net` takes nine bytes: it fits in ten and not in eight. -/
example : dnsEncodeNameAt (List.replicate 10 7) 10 wizNet =
    some ([3, 119, 105, 122, 3, 110, 101, 116, 0, 7], some 9) ∧
    (dnsEncodeNameAt (List.replicate 10 7) 8 wizNet).map Prod.snd = some none := by
  decide

end WsmDriver.Dns
