import WsmDriver.Toe.Types
import Mathlib.Data.List.Basic

/-!
# Descriptors and hardware sockets

The functions of `wiznet_toe.c` that only touch the two tables. None of them reaches the chip, so
they are plain functions on `Tables`.
-/

namespace WsmDriver

variable (cfg : ToeConfig)

/-- `toe_tables_init`. Zero-initialised statics would read as "descriptor 0 owns every hardware
socket", so both tables get an explicit first touch from the allocation entry points. -/
def toeTablesInit (t : Tables) : Tables :=
  if t.tablesInit then t
  else
    { desc := fun fd ↦
        if 0 ≤ fd ∧ fd < cfg.maxDesc then { t.desc fd with sn := -1 } else t.desc fd
      owner := fun sn ↦ if 0 ≤ sn ∧ sn < cfg.maxSock then toeSnFree else t.owner sn
      tablesInit := true }

/-- `toe_desc_clear`: `sn == 0` is a valid hardware socket, so the cleared descriptor is put back to
"holds none" explicitly. -/
def toeDescClear (fd : ℤ) (t : Tables) : Tables := t.upd fd fun _ ↦ { sn := -1 }

/-- `toe_fd_valid`. -/
def toeFdValid (t : Tables) (fd : ℤ) : Prop :=
  0 ≤ fd ∧ fd < cfg.maxDesc ∧ (t.desc fd).used = true

instance (t : Tables) (fd : ℤ) : Decidable (toeFdValid cfg t fd) := by
  unfold toeFdValid; infer_instance

/-- `toe_fd_ready`: valid and holding a hardware socket. -/
def toeFdReady (t : Tables) (fd : ℤ) : Prop := toeFdValid cfg t fd ∧ 0 ≤ (t.desc fd).sn

instance (t : Tables) (fd : ℤ) : Decidable (toeFdReady cfg t fd) := by
  unfold toeFdReady; infer_instance

/-- `toe_sn`. -/
def toeSn (t : Tables) (fd : ℤ) : ℤ := uint8 (t.desc fd).sn

/-- `toe_desc_alloc`: the first unused descriptor, cleared and marked used. -/
def toeDescAlloc (t : Tables) : ℤ × Tables :=
  match (List.range cfg.maxDesc).find? fun fd : ℕ ↦ !(t.desc fd).used with
  | some fd => (fd, (toeDescClear fd t).upd fd fun d ↦ { d with used := true })
  | none => (-1, t)

/-- `toe_sn_alloc`: claim the first free hardware socket for `fd`. -/
def toeSnAlloc (fd : ℤ) (t : Tables) : ℤ × Tables :=
  match (List.range cfg.maxSock).find? fun sn : ℕ ↦ t.owner sn == toeSnFree with
  | some sn => (sn, t.setOwner sn (int8 fd))
  | none => (-1, t)

/-- `toe_sn_release`. -/
def toeSnRelease (sn : ℤ) (t : Tables) : Tables :=
  if 0 ≤ sn ∧ sn < cfg.maxSock then t.setOwner sn toeSnFree else t

/-- `toe_listener_disarm`: give up the hardware socket a listener is holding. -/
def toeListenerDisarm (fd : ℤ) (t : Tables) : Tables :=
  (if 0 ≤ (t.desc fd).sn then toeSnRelease cfg (t.desc fd).sn t else t).upd fd fun d ↦
    { d with sn := -1, opened := false }

/-- The table part of `wiztoe_socket_reserve`. -/
def toeSnReserve (t : Tables) : ℤ × Tables :=
  match (List.range cfg.maxSock).find? fun sn : ℕ ↦ t.owner sn == toeSnFree with
  | some sn => (sn, t.setOwner sn toeSnRaw)
  | none => (-1, t)

variable {cfg}

/-! ## The first touch -/

theorem toeTablesInit_of_init {t : Tables} (hi : t.tablesInit = true) : toeTablesInit cfg t =
    t := by
  rw [toeTablesInit, if_pos hi]

@[simp] theorem toeTablesInit_tablesInit (cfg : ToeConfig) (t : Tables) :
    (toeTablesInit cfg t).tablesInit = true := by
  rw [toeTablesInit]
  split
  · assumption
  · rfl

theorem toeTablesInit_owner {t : Tables} (hi : t.tablesInit = false) {sn : ℤ} (h₀ : 0 ≤ sn)
    (h₁ : sn < cfg.maxSock) : (toeTablesInit cfg t).owner sn = toeSnFree := by
  simp [toeTablesInit, hi, h₀, h₁]

theorem toeTablesInit_desc {t : Tables} (hi : t.tablesInit = false) {fd : ℤ} (h₀ : 0 ≤ fd)
    (h₁ : fd < cfg.maxDesc) : (toeTablesInit cfg t).desc fd = { t.desc fd with sn := -1 } := by
  simp [toeTablesInit, hi, h₀, h₁]

theorem toeTablesInit_used (cfg : ToeConfig) (t : Tables) (fd : ℤ) :
    ((toeTablesInit cfg t).desc fd).used = (t.desc fd).used := by
  rw [toeTablesInit]
  split
  · rfl
  · dsimp only
    split <;> rfl

/-! ## What the allocators find -/

/-- A hardware socket number inside the table that nobody holds. -/
def IsFree (cfg : ToeConfig) (t : Tables) (sn : ℤ) : Prop :=
  0 ≤ sn ∧ sn < cfg.maxSock ∧ t.owner sn = toeSnFree

/-- The hardware socket `toe_sn_alloc` hands out: the first one nobody holds. -/
structure IsNextFree (cfg : ToeConfig) (t : Tables) (sn : ℤ) : Prop where
  free : IsFree cfg t sn
  le : ∀ {s}, IsFree cfg t s → sn ≤ s

/-- A descriptor index inside the table that is not in use. -/
def IsUnused (cfg : ToeConfig) (t : Tables) (fd : ℤ) : Prop :=
  0 ≤ fd ∧ fd < cfg.maxDesc ∧ (t.desc fd).used = false

private theorem find_range_cases (n : ℕ) (p : ℕ → Bool) :
    (∃ i, i < n ∧ p i = true ∧ (∀ j < i, p j = false) ∧ (List.range n).find? p = some i) ∨
      ((List.range n).find? p = none ∧ ∀ i, i < n → p i = false) := by
  cases h : (List.range n).find? p with
  | some i =>
    obtain ⟨hp, hm, hlt⟩ := List.find?_range_eq_some.mp h
    exact Or.inl ⟨i, List.mem_range.mp hm, hp, fun j hj ↦ by simpa using hlt j hj, rfl⟩
  | none =>
    refine Or.inr ⟨rfl, fun i hi ↦ ?_⟩
    have := List.find?_eq_none.mp h i (List.mem_range.mpr hi)
    simpa using this

/-- The two outcomes of `toe_desc_alloc`. -/
theorem toeDescAlloc_cases (cfg : ToeConfig) (t : Tables) :
    (∃ c, IsUnused cfg t c ∧
      toeDescAlloc cfg t = (c, t.upd c fun _ ↦ { used := true, sn := -1 })) ∨
    (toeDescAlloc cfg t = (-1, t) ∧ ∀ fd, ¬IsUnused cfg t fd) := by
  rcases find_range_cases cfg.maxDesc fun fd : ℕ ↦ !(t.desc fd).used with
    ⟨i, hi, hp, -, hf⟩ | ⟨hf, hnone⟩
  · refine Or.inl ⟨i, ⟨by omega, by omega, by simpa using hp⟩, ?_⟩
    rw [toeDescAlloc, hf]
    simp [toeDescClear, Tables.upd]
  · refine Or.inr ⟨by rw [toeDescAlloc, hf], ?_⟩
    rintro fd ⟨h₀, h₁, hu⟩
    have := hnone fd.toNat (by omega)
    rw [Int.toNat_of_nonneg h₀, hu] at this
    exact absurd this (by simp)

private theorem find_free_cases (cfg : ToeConfig) (t : Tables) :
    (∃ sn, IsNextFree cfg t sn ∧
      ((List.range cfg.maxSock).find? fun sn : ℕ ↦ t.owner sn == toeSnFree) = some sn.toNat) ∨
    (((List.range cfg.maxSock).find? fun sn : ℕ ↦ t.owner sn == toeSnFree) = none ∧
      ∀ sn, ¬IsFree cfg t sn) := by
  rcases find_range_cases cfg.maxSock fun sn : ℕ ↦ t.owner sn == toeSnFree with
    ⟨i, hi, hp, hlt, hf⟩ | ⟨hf, hnone⟩
  · refine Or.inl ⟨i, ⟨⟨by omega, by omega, by simpa using hp⟩, fun {s} hs ↦ ?_⟩,
      by simpa using hf⟩
    obtain ⟨hs₀, -, ho⟩ := hs
    by_contra hlt'
    have := hlt s.toNat (by omega)
    rw [Int.toNat_of_nonneg hs₀, ho] at this
    exact absurd this (by simp)
  · refine Or.inr ⟨hf, ?_⟩
    rintro sn ⟨h₀, h₁, hu⟩
    have := hnone sn.toNat (by omega)
    rw [Int.toNat_of_nonneg h₀, hu] at this
    exact absurd this (by simp)

/-- The two outcomes of `toe_sn_alloc`. -/
theorem toeSnAlloc_next (cfg : ToeConfig) (fd : ℤ) (t : Tables) :
    (∃ sn, IsNextFree cfg t sn ∧ toeSnAlloc cfg fd t = (sn, t.setOwner sn (int8 fd))) ∨
    (toeSnAlloc cfg fd t = (-1, t) ∧ ∀ sn, ¬IsFree cfg t sn) := by
  rcases find_free_cases cfg t with ⟨sn, hsn, hf⟩ | ⟨hf, hnone⟩
  · refine Or.inl ⟨sn, hsn, ?_⟩
    rw [toeSnAlloc, hf]
    simp [Int.toNat_of_nonneg hsn.free.1]
  · exact Or.inr ⟨by rw [toeSnAlloc, hf], hnone⟩

theorem toeSnAlloc_cases (cfg : ToeConfig) (fd : ℤ) (t : Tables) :
    (∃ sn, IsFree cfg t sn ∧ toeSnAlloc cfg fd t = (sn, t.setOwner sn (int8 fd))) ∨
    (toeSnAlloc cfg fd t = (-1, t) ∧ ∀ sn, ¬IsFree cfg t sn) :=
  (toeSnAlloc_next cfg fd t).imp_left fun ⟨sn, hs, heq⟩ ↦ ⟨sn, hs.free, heq⟩

/-- The two outcomes of the search in `wiztoe_socket_reserve`. -/
theorem toeSnReserve_cases (cfg : ToeConfig) (t : Tables) :
    (∃ sn, IsFree cfg t sn ∧ toeSnReserve cfg t = (sn, t.setOwner sn toeSnRaw)) ∨
    (toeSnReserve cfg t = (-1, t) ∧ ∀ sn, ¬IsFree cfg t sn) := by
  rcases find_free_cases cfg t with ⟨sn, hsn, hf⟩ | ⟨hf, hnone⟩
  · refine Or.inl ⟨sn, hsn.free, ?_⟩
    rw [toeSnReserve, hf]
    simp [Int.toNat_of_nonneg hsn.free.1]
  · exact Or.inr ⟨by rw [toeSnReserve, hf], hnone⟩

theorem toeSnRelease_of_mem {sn : ℤ} (h₀ : 0 ≤ sn) (h₁ : sn < cfg.maxSock) (t : Tables) :
    toeSnRelease cfg sn t = t.setOwner sn toeSnFree := by
  rw [toeSnRelease, if_pos ⟨h₀, h₁⟩]

@[simp] theorem toeSnRelease_desc (sn : ℤ) (t : Tables) :
    (toeSnRelease cfg sn t).desc = t.desc := by
  rw [toeSnRelease]; split <;> rfl

@[simp] theorem toeSnRelease_tablesInit (sn : ℤ) (t : Tables) :
    (toeSnRelease cfg sn t).tablesInit = t.tablesInit := by
  rw [toeSnRelease]; split <;> rfl

end WsmDriver
