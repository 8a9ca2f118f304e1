import WsmDriver.Toe.Tasks

/-!
# Runs of several tasks

What every call does for itself (`Call.prog_terms`) decides what a run of several tasks does. The
tables agree as long as every call that goes on finds what it counts on, and a suspended transfer
goes on with the descriptor it was called on as long as nobody takes the hardware socket from under
it.
-/

namespace WsmDriver

open Effect

variable {cfg : ToeConfig} {ι E A : Type} [DecidableEq ι] {U : Env Tables E ChipOp.Ans}
    {fd sn x : ℤ}

/-- What the tasks share, and the call each of them has suspended. -/
abbrev TaskSched (ι E A : Type) := Sched ι Call Tables E A ChipOp.Ans .toeYield1ms

/-- The zero-initialised tables, and nothing suspended. -/
def TaskSched.start (e : E) (a : A) : TaskSched ι E A := ⟨.zero, e, a, fun _ ↦ none⟩

omit [DecidableEq ι] in
/-- The turn of a task that lets no hardware socket be released under its descriptor, and that
finds, if it goes on with a suspended call, what that call counts on. -/
def FindsItsOwn (cfg : ToeConfig) (σ : TaskSched ι E A) (i : ι) (o : Origin Call Tables A) : Prop :=
  o.call.ReleasesUnheld cfg σ.store ∧
    ((σ.paused i).isSome = true → o.call.GoesOn cfg o.store σ.store)

omit [DecidableEq ι] in
theorem FindsItsOwn.of_call {σ : TaskSched ι E A} {i : ι} {o : Origin Call Tables A}
    (hi : (σ.paused i).isNone = true) (hc : ∀ sn, o.call ≠ .socketRelease sn) :
    FindsItsOwn cfg σ i o :=
  ⟨fun _ heq ↦ absurd heq (hc _), fun h ↦ absurd h (by simp_all)⟩

omit [DecidableEq ι] in
theorem FindsItsOwn.of_goesOn {σ : TaskSched ι E A} {i : ι} {o : Origin Call Tables A}
    (hw : o.call.waits = true) (hgo : o.call.GoesOn cfg o.store σ.store) :
    FindsItsOwn cfg σ i o := by
  refine ⟨fun sn heq ↦ ?_, fun _ ↦ hgo⟩
  rw [heq] at hw
  exact absurd hw (by simp [Call.waits])

/-- The induction over a run, for what is said of the tables in addition to that they agree. -/
theorem TaskSched.invariant {ok : TaskSched ι E A → ι → Origin Call Tables A → Tables → Prop}
    {enter : Tables → Tables → A → A} {K : TaskSched ι E A → Prop} {e₀ : E} {a₀ : A}
    {σ : TaskSched ι E A} (hfit : cfg.Fits)
    (hok : ∀ {σ i o s}, ok σ i o s → FindsItsOwn cfg σ i o)
    (h₀ : K (TaskSched.start e₀ a₀))
    (hdrift : ∀ σ e', K σ → U.drift σ.env e' → K { σ with env := e' })
    (hreturn : ∀ {σ : TaskSched ι E A} {i o p e s' e'}, WellOwned cfg σ.store → K σ →
      σ.Begins U (Call.prog cfg) i o p e → ok σ i o s' →
      Leaves cfg o.call.TakesFrom σ.store s' →
      K (σ.next enter i o none s' e'))
    (hyield : ∀ {σ : TaskSched ι E A} {i o p e k s' e'}, WellOwned cfg σ.store → K σ →
      σ.Begins U (Call.prog cfg) i o p e → ok σ i o s' →
      Leaves cfg o.call.TakesFrom σ.store s' →
      (∀ fd, o.call.transfers? = some fd → toeFdReady cfg o.store fd) →
        K (σ.next enter i o (some k) s' e'))
    (h : Interleaved U (Call.prog cfg) enter ok (TaskSched.start e₀ a₀) σ) :
    (WellOwned cfg σ.store ∧ K σ) ∧ σ.Ready U (Call.terms cfg) := by
  refine Interleaved.invariant (T := Call.terms cfg) (I := fun σ ↦ WellOwned cfg σ.store ∧ K σ)
    ⟨.zero cfg, h₀⟩ (fun _ ↦ rfl) ?_ ?_ ?_ ?_ ?_ h
  · exact fun σ e' hI hd ↦ ⟨hI.1, hdrift σ e' hI.2 hd⟩
  · exact fun σ i c s' hI _ ho ↦ Call.prog_terms hfit hI.1 (hok ho).1
  · exact fun σ i k s' hI hk ho ↦ ⟨hI.1, (hok ho).2 (by rw [hk]; rfl)⟩
  · exact fun σ i o p e s' e' hI hb ho hr ↦ ⟨hr.owned, hreturn hI.1 hI.2 hb ho hr⟩
  · exact fun σ i o p e k s' e' hI hb ho hy ↦ ⟨hy.1.owned, hyield hI.1 hI.2 hb ho hy.1 hy.2⟩

/-- **Tables that agree.** In every run of the tasks in which no hardware socket is released under
its descriptor and every call that goes on finds what it counts on, the tables agree from their
first touch on, and no descriptor is in use before. -/
theorem tables_agree {e₀ : E} {σ : TaskSched ι E Unit} (hfit : cfg.Fits)
    (h : Interleaved U (Call.prog cfg) (fun _ _ a ↦ a) (fun σ i o _ ↦ FindsItsOwn cfg σ i o)
      (TaskSched.start e₀ ()) σ) :
    (σ.store.tablesInit = true → Owned cfg σ.store) ∧
    (σ.store.tablesInit = false → Untouched cfg σ.store) := by
  have hw := (TaskSched.invariant (K := fun _ ↦ True) hfit id trivial (fun _ _ _ _ ↦ trivial)
    (fun _ _ _ _ _ ↦ trivial) (fun _ _ _ _ _ _ ↦ trivial) h).1.1
  refine ⟨hw.of_init, fun hi ↦ ?_⟩
  rcases hw with hu | hw
  · exact hu
  · exact absurd hw.1 (by simp [hi])

/-! ## Suspended transfers -/

/-- How often each descriptor has been given up. -/
def givenUp (t t' : Tables) (n : ℤ → ℕ) (x : ℤ) : ℕ :=
  if (t.desc x).used = true ∧ (t'.desc x).used = false then n x + 1 else n x

omit [DecidableEq ι] in
/-- The turn takes no hardware socket from a descriptor on which a transfer is suspended. -/
def SparesTransfers (σ : TaskSched ι E A) (o : Origin Call Tables A) (s : Tables) : Prop :=
  ∀ fd, o.call.TakesFrom fd → (∃ i k, σ.paused i = some k ∧ k.call.transfers? = some fd) →
    (s.desc fd).used = (σ.store.desc fd).used ∧ (s.desc fd).sn = (σ.store.desc fd).sn

/-- The descriptor of every suspended transfer holds the hardware socket it held when the call was
made, and has not been given up since. -/
def TaskSched.Attached (cfg : ToeConfig) (σ : TaskSched ι E (ℤ → ℕ)) : Prop :=
  ∀ i k fd, σ.paused i = some k → k.call.transfers? = some fd →
    Holds cfg σ.store fd (toeSn k.store fd) ∧ σ.account fd = k.account fd

theorem Call.not_takesFrom {c : Call} (hc : c.transfers? = some fd) (x : ℤ) : ¬c.TakesFrom x := by
  rintro (rfl | rfl)
  · exact absurd hc (by simp [Call.transfers?])
  · exact absurd hc (by simp [Call.transfers?])

theorem givenUp_of_holds {t t' : Tables} (n : ℤ → ℕ) (h : Holds cfg t' fd sn) :
    givenUp t t' n fd = n fd := by
  rw [givenUp, if_neg]
  rw [h.1.1.2.2]
  simp

namespace TaskSched.Attached

variable {σ : TaskSched ι E (ℤ → ℕ)} {i : ι} {o : Origin Call Tables (ℤ → ℕ)}
    {p : Toe Unit} {e' : E} {s' : Tables}

omit [DecidableEq ι] in
/-- A turn of one task leaves the suspended transfers of the others attached. -/
theorem others (h : σ.Attached cfg) (hspare : SparesTransfers σ o s')
    (hl : Leaves cfg o.call.TakesFrom σ.store s') {j : ι}
    {k : Paused Call Tables (ℤ → ℕ) ChipOp.Ans .toeYield1ms} (hk : σ.paused j = some k)
    (hc : k.call.transfers? = some fd) :
    Holds cfg s' fd (toeSn k.store fd) ∧ givenUp σ.store s' σ.account fd = k.account fd := by
  obtain ⟨hh, hacc⟩ := h j k fd hk hc
  have hh' : Holds cfg s' fd (toeSn k.store fd) := by
    by_cases ht : o.call.TakesFrom fd
    · obtain ⟨hu, hs⟩ := hspare fd ht ⟨j, k, hk, hc⟩
      exact hh.of_desc hu.symm hs.symm
    · exact hl.holds ht hh
  exact ⟨hh', (givenUp_of_holds _ hh').trans hacc⟩

omit [DecidableEq ι] in
/-- A transfer that suspends itself is attached. -/
theorem own (hfit : cfg.Fits) (hw : WellOwned cfg σ.store) (h : σ.Attached cfg)
    (hb : σ.Begins U (Call.prog cfg) i o p e') (hl : Leaves cfg o.call.TakesFrom σ.store s')
    (hr : toeFdReady cfg o.store fd) (hc : o.call.transfers? = some fd) :
    Holds cfg s' fd (toeSn o.store fd) ∧ givenUp σ.store s' σ.account fd = o.account fd := by
  have hbefore : Holds cfg σ.store fd (toeSn o.store fd) ∧ σ.account fd = o.account fd := by
    cases hb with
    | call c hi => exact ⟨⟨hr, (hw.toeSn_eq hfit hr).symm⟩, rfl⟩
    | resume k hk ha => exact h i k fd hk hc
  have hh' := hl.holds (Call.not_takesFrom hc fd) hbefore.1
  exact ⟨hh', (givenUp_of_holds _ hh').trans hbefore.2⟩

theorem run {e₀ : E} (hfit : cfg.Fits)
    (h : Interleaved U (Call.prog cfg) givenUp (fun σ i o s ↦ FindsItsOwn cfg σ i o ∧
      SparesTransfers σ o s) (TaskSched.start e₀ fun _ ↦ 0) σ) :
    (WellOwned cfg σ.store ∧ σ.Attached cfg) ∧ σ.Ready U (Call.terms cfg) := by
  refine TaskSched.invariant (K := Attached cfg) hfit (fun ho ↦ ho.1)
    (fun _ _ _ hk ↦ absurd hk (by simp [start])) (fun _ _ hK _ ↦ hK) ?_ ?_ h
  · intro σ i o p e s' e' hw hK hb ho hl j k fd hk hc
    rw [Sched.next_paused] at hk
    split at hk
    · exact absurd hk (by simp)
    · exact hK.others ho.2 hl hk hc
  · intro σ i o p e k s' e' hw hK hb ho hl hr j k' fd hk hc
    rw [Sched.next_paused] at hk
    split at hk
    · obtain rfl := Option.some_inj.mp hk
      exact hK.own hfit hw hb hl (hr fd hc) hc
    · exact hK.others ho.2 hl hk hc

end TaskSched.Attached

/-- **A suspended transfer goes on with its own connection.** In every run in which the calls find
what they count on and no turn takes the hardware socket of a descriptor on which a transfer is
suspended: where a suspended transfer on `fd` goes on and sends or receives on `sn`, the descriptor
`fd` is in use and was not given up since the call, and it owns `sn`. -/
theorem transfer_attached {e₀ : E} {σ : TaskSched ι E (ℤ → ℕ)} (hfit : cfg.Fits)
    (h : Interleaved U (Call.prog cfg) givenUp (fun σ i o s ↦ FindsItsOwn cfg σ i o ∧
      SparesTransfers σ o s) (TaskSched.start e₀ fun _ ↦ 0) σ)
    {i : ι} {k : Paused Call Tables (ℤ → ℕ) ChipOp.Ans .toeYield1ms} {op : ChipOp} {e e' : E}
    {t' : Tables} (hk : σ.paused i = some k) (hc : k.call.transfers? = some fd)
    (ha : U.answer .toeYield1ms σ.store σ.env () e) (hop : op.data? = some sn)
    (hp : Performs (U.without .toeYield1ms) (k.rest ()) σ.store e op t' e') :
    toeFdValid cfg t' fd ∧ σ.account fd = k.account fd ∧ t'.owner sn = fd := by
  obtain ⟨⟨hw, hatt⟩, hready⟩ := TaskSched.Attached.run hfit h
  -- A transfer asks nothing of the tables it finds when it goes on; `accept` and `close` do.
  have hfinds : k.call.GoesOn cfg k.store σ.store := by
    cases hcall : k.call with
    | accept fd => exact absurd hc (by simp [hcall, Call.transfers?])
    | close fd => exact absurd hc (by simp [hcall, Call.transfers?])
    | _ => trivial
  obtain ⟨rfl, hl⟩ := hready.performs hk ⟨hw, hfinds⟩ ha hp fd sn hc hop
  obtain ⟨hh, hacc⟩ := hatt i k fd hk hc
  have hh' := hl.holds (Call.not_takesFrom hc fd) hh
  exact ⟨hh'.1.1, hacc, hh'.owner hl.owned⟩

/-! ## Runs against a handler -/

/-- A run of two tasks with the tables of the W5500. -/
abbrev TwoTasks (enter : Tables → Tables → A → A)
    (ok : TaskSched Bool Unit A → Bool → Origin Call Tables A → Tables → Prop) (a₀ : A) :
    TaskSched Bool Unit A → Prop :=
  Interleaved .any (Call.prog w5500) enter ok (TaskSched.start () a₀)

namespace TaskSched

variable {enter : Tables → Tables → A → A} {a₀ : A}
  {ok : TaskSched Bool Unit A → Bool → Origin Call Tables A → Tables → Prop}
  {σ : TaskSched Bool Unit A}

/-- The task `i` makes the call `c`, while the hardware sockets report the status `sr`. -/
def calls (enter : Tables → Tables → A → A) (sr : SnSR) (i : Bool) (c : Call)
    (σ : TaskSched Bool Unit A) :
    TaskSched Bool Unit A := Sched.call (Call.prog w5500) enter (placidChip sr) 40 σ i c

/-- The task `i` goes on with its suspended call. -/
def goesOn (enter : Tables → Tables → A → A) (sr : SnSR) (i : Bool)
    (σ : TaskSched Bool Unit A) : TaskSched Bool Unit A := Sched.resume enter (placidChip sr) 40 σ i

theorem calls_run (sr : SnSR) (i : Bool) (c : Call) (hσ : TwoTasks enter ok a₀ σ)
    (hi : (σ.paused i).isNone = true)
    (hn : (runTo .toeYield1ms (placidChip sr) 40 ⟨c.prog w5500, σ.store, σ.env⟩).ends
      .toeYield1ms = true)
    (hok : ok σ i ⟨c, σ.store, σ.account⟩ (calls enter sr i c σ).store) :
    TwoTasks enter ok a₀ (calls enter sr i c σ) :=
  Interleaved.call hσ (fun _ _ _ ↦ trivial) hi hn hok

theorem goesOn_run (sr : SnSR) (i : Bool) (hσ : TwoTasks enter ok a₀ σ)
    (hi : (σ.paused i).isSome = true) (hn : (runTo .toeYield1ms (placidChip sr) 40
      ⟨((σ.paused i).get hi).rest (), σ.store, σ.env⟩).ends .toeYield1ms = true)
    (hok : ok σ i ((σ.paused i).get hi).toOrigin (goesOn enter sr i σ).store) :
    TwoTasks enter ok a₀ (goesOn enter sr i σ) :=
  Interleaved.resume hσ (fun _ _ _ ↦ trivial) (Option.some_get hi).symm hn hok

/-- A TCP socket is made a listener, and a blocking `accept` on it is suspended. -/
def accepting : TaskSched Bool Unit Unit :=
  calls (fun _ _ a ↦ a) .listen false (.accept 0) (calls (fun _ _ a ↦ a) .listen false
    (.listen 0 1) (calls (fun _ _ a ↦ a) .listen false (.socket 2 1 0) (start () ())))

theorem accepting_run : TwoTasks (fun _ _ a ↦ a) (fun σ i o _ ↦ FindsItsOwn w5500 σ i o) ()
      accepting := by
  have hsocket := calls_run .listen false (.socket 2 1 0)
    (.start : TwoTasks (fun _ _ a ↦ a) (fun σ i o _ ↦ FindsItsOwn w5500 σ i o) () _) rfl
      (by decide)
    (.of_call rfl fun _ heq ↦ by cases heq)
  have hlisten := calls_run .listen false (.listen 0 1) hsocket rfl (by decide)
    (.of_call rfl fun _ heq ↦ by cases heq)
  exact calls_run .listen false (.accept 0) hlisten rfl (by decide)
    (.of_call rfl fun _ heq ↦ by cases heq)

end TaskSched

/-- The listener is closed by the other task; the suspended call goes on, and takes a hardware
socket for a descriptor that is not in use. -/
theorem not_tables_agree_closed :
    ¬∀ σ, TwoTasks (fun _ _ a ↦ a) (fun _ _ _ _ ↦ True) () σ → σ.store.tablesInit =
    true → Agree w5500 σ.store := by
  intro h
  have hclose := TaskSched.calls_run .listen true (.close 0)
    (TaskSched.accepting_run.mono fun _ _ _ _ _ ↦ trivial) rfl (by decide) trivial
  have hrun := TaskSched.goesOn_run .listen false hclose (by decide) (by decide)
    trivial
  have hdesc : w5500.IsDesc 0 := ⟨le_rfl, by decide⟩
  have hsock : w5500.IsSock 0 := ⟨le_rfl, by decide⟩
  have hagree := (h _ hrun (by decide)).owner_iff hdesc hsock
  exact absurd (hagree.mp (by decide)).1 (by decide)

/-- The other task makes a socket of its own instead. -/
theorem tables_agree_accepting :
    Owned w5500 (TaskSched.goesOn (fun _ _ a ↦ a) .listen false
      (TaskSched.calls (fun _ _ a ↦ a) .listen true (.socket 2 1 0)
        TaskSched.accepting)).store := by
  have hsocket := TaskSched.calls_run .listen true (.socket 2 1 0) TaskSched.accepting_run rfl
    (by decide) (.of_call rfl fun _ heq ↦ by cases heq)
  have hrun := TaskSched.goesOn_run .listen false hsocket (by decide) (by decide)
    (.of_goesOn (by decide) (.inl (by decide)))
  exact (tables_agree w5500_fits hrun).1 (by decide)

/-! ## A receive that goes on -/

/-- Data has arrived. -/
def dataChip : (o : ChipOp) → Unit → o.Ans × Unit
  | .getSnRxRsr _, _ => (1, ())
  | o, e => placidChip .established o e

namespace TaskSched

/-- A `recv` waits for data on a TCP socket. -/
def receiving : TaskSched Bool Unit (ℤ → ℕ) :=
  calls givenUp .established false (.recv 0 1) (calls givenUp .established false (.socket 2 1 0)
    (start () fun _ ↦ 0))

/-- The socket is closed by the other task, which makes one of its own. -/
def replaced : TaskSched Bool Unit (ℤ → ℕ) :=
  calls givenUp .closed true (.socket 2 1 0) (calls givenUp .closed true (.close 0) receiving)

theorem receiving_run {ok : TaskSched Bool Unit (ℤ → ℕ) → Bool →
      Origin Call Tables (ℤ → ℕ) → Tables → Prop}
    (hok : ∀ {σ i o s}, (σ.paused i).isNone = true → (∀ sn, o.call ≠ .socketRelease sn) →
      (∀ fd, ¬o.call.TakesFrom fd) → ok σ i o s) :
      TwoTasks givenUp ok (fun _ ↦ 0) receiving := by
  have hsocket := calls_run .established false (.socket 2 1 0)
    (.start : TwoTasks givenUp ok (fun _ ↦ 0) _) rfl (by decide)
    (hok rfl (fun _ heq ↦ by cases heq) (by rintro _ (h | h) <;> cases h))
  exact calls_run .established false (.recv 0 1) hsocket rfl (by decide)
    (hok rfl (fun _ heq ↦ by cases heq) (by rintro _ (h | h) <;> cases h))

end TaskSched

/-- The call that goes on when data has arrived. -/
def resumed (σ : TaskSched Bool Unit (ℤ → ℕ)) (h : (σ.paused false).isSome = true) :
    Config Tables Unit ChipOp.Ans Unit :=
  runTo .toeYield1ms dataChip 2 ⟨((σ.paused false).get h).rest (), σ.store, ()⟩

/-- The suspended call receives on the connection of the other task. -/
theorem not_transfer_attached_replaced :
    ¬∀ (σ : TaskSched Bool Unit (ℤ → ℕ)) (i : Bool)
    (k : Paused Call Tables (ℤ → ℕ) ChipOp.Ans .toeYield1ms)
      (fd sn : ℤ) (op : ChipOp) (t' : Tables), TwoTasks givenUp (fun _ _ _ _ ↦ True)
      (fun _ ↦ 0) σ →
      σ.paused i = some k → k.call.transfers? = some fd → op.data? = some sn →
      Performs (Env.any.without .toeYield1ms) (k.rest ()) σ.store () op t' () →
      σ.account fd = k.account fd ∧ t'.owner sn = fd := by
  intro h
  have hclose := TaskSched.calls_run .closed true (.close 0)
    (TaskSched.receiving_run fun _ _ _ ↦ trivial) rfl (by decide) trivial
  have hsocket := TaskSched.calls_run .closed true (.socket 2 1 0) hclose rfl (by decide)
    trivial
  have hperf := performs_runTo (y := .toeYield1ms) (V := .any) (h := dataChip) (n := 2)
    (o := .recv 0 1) (e := ())
    (p := ((TaskSched.replaced.paused false).get (by decide)).rest ())
      (s := TaskSched.replaced.store)
    (fun _ _ _ ↦ trivial) (by decide)
  have hacc :=
    (h TaskSched.replaced false _ 0 0 _ _ hsocket (Option.some_get (by decide)).symm
    (by decide) rfl hperf).1
  exact absurd hacc (by decide)

/-- Without the other task the call receives on its own connection. -/
theorem transfer_attached_receiving :
    toeFdValid w5500 (resumed TaskSched.receiving (by decide)).store 0 ∧
      (resumed TaskSched.receiving (by decide)).store.owner 0 = 0 := by
  have hperf := performs_runTo (y := .toeYield1ms) (V := .any) (h := dataChip) (n := 2)
    (o := .recv 0 1) (e := ())
    (p := ((TaskSched.receiving.paused false).get (by decide)).rest ())
      (s := TaskSched.receiving.store)
    (fun _ _ _ ↦ trivial) (by decide)
  have hrun : TwoTasks givenUp (fun σ i o s ↦ FindsItsOwn w5500 σ i o ∧ SparesTransfers σ o s)
      (fun _ ↦ 0) TaskSched.receiving :=
    TaskSched.receiving_run fun hi hrel htakes ↦
      ⟨.of_call hi hrel, fun _ ht ↦ absurd ht (htakes _)⟩
  have hcall : (((TaskSched.receiving.paused false).get (by decide)).call.transfers?) =
      some 0 := by
    decide
  have h :=
    transfer_attached w5500_fits hrun (Option.some_get (by decide)).symm hcall trivial rfl hperf
  exact ⟨h.1, h.2.2⟩

end WsmDriver
