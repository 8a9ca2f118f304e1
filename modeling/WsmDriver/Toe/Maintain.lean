import WsmDriver.Toe.Lifecycle

/-!
# Conditions kept by every call

`Maintains` collects what a condition on the tables and the chip has to satisfy to be kept by a
call, and `Maintains.prog` is the analysis of the whole interface: a call made where the condition
holds keeps it, and addresses hardware sockets only on behalf of the descriptors it is about. A
condition that speaks about the tables alone is maintained as soon as every move keeps it
(`TablesInv`).
-/

namespace WsmDriver

open Effect

variable {cfg : ToeConfig} {E : Type} {V : Env Tables E ChipOp.Ans} {J I : Tables → E → Prop}
  {P : List ℕ → Tables → E → Prop} {A : ℤ → Prop} {α : Type} {t : Tables} {e : E}
  {c : Call}

/-! ## The calls that leave the pool alone -/

/-- The calls that give no hardware socket to a descriptor and take none away. -/
def Call.settled : Call → Bool
  | .socket .. | .accept _ | .socketRelease _ | .close _ => false
  | _ => true

/-- What a condition has to satisfy to be kept by such a call made with the tables `t`. `P` licenses
the retunings of a descriptor. -/
structure Settles (cfg : ToeConfig) (V : Env Tables E ChipOp.Ans) (J : Tables → E → Prop)
    (P : ℤ → Desc → Desc → Prop) (c : Call) (t : Tables) : Prop extends Stable cfg V J where
  tune : ∀ {fd t e f}, J t e → toeFdValid cfg t fd → SameRole (t.desc fd) (f (t.desc fd)) →
    P fd (t.desc fd) (f (t.desc fd)) → J (t.upd fd f) e
  licenses : ∀ fd, LicensesRest (P fd)
  binds : ∀ {fd port}, c = .bind fd port → toeFdReady cfg t fd →
    P fd (t.desc fd) { t.desc fd with port := port }
  connects : ∀ {fd ip port}, c = .connect fd ip port → (t.desc fd).port = 0 →
    ∀ lport, P fd (t.desc fd) { t.desc fd with port := lport }
  init : ∀ {t e}, J t e → J (toeTablesInit cfg t) e
  listening : ∀ {t e fd} (b : Bool), J t e → toeFdReady cfg t fd → (t.desc fd).isUdp = false →
    J (t.upd fd fun d ↦ { d with listening := b }) e
  reserves : c = .socketReserve → ∀ {t e sn}, t.tablesInit = true → IsFree cfg t sn → J t e →
    J (t.setOwner sn toeSnRaw) e
  opens : ∀ fd, Opens cfg V J fd
  defers : ∀ fd, c.fd? = some fd → Defers cfg V J fd

namespace Settles

variable {P : ℤ → Desc → Desc → Prop}

/-- The analysis of a function is the analysis of the call that discards its result. -/
theorem own (M : Settles cfg V J P c t) (hA : ∀ fd, A fd → c.fd? = some fd) {p : Toe α}
    (h : wlp V (Touch cfg J A) p (fun _ ↦ J) t e) :
    wlp V (Touch cfg J fun fd ↦ c.fd? = some fd) (discard p) (fun _ ↦ J) t e :=
  pre_discard ((h.guard fun _ _ _ hT ↦ ⟨hT.1, hT.2.mono hA⟩).imp fun _ _ _ hJ _ he ↦
    M.drifts hJ he)

theorem on (M : Settles cfg V J P c t) {fd : ℤ} (hc : c.fd? = some fd) {p : Toe α}
    (h : wlp V (Touch cfg J (· = fd)) p (fun _ ↦ J) t e) :
    wlp V (Touch cfg J fun fd ↦ c.fd? = some fd) (discard p) (fun _ ↦ J) t e :=
  M.own (fun fd' hfd ↦ by rw [hfd, hc]) h

theorem other (M : Settles cfg V J P c t) {p : Toe α}
    (h : wlp V (Touch cfg J fun _ ↦ False) p (fun _ ↦ J) t e) :
    wlp V (Touch cfg J fun fd ↦ c.fd? = some fd) (discard p) (fun _ ↦ J) t e :=
  M.own (fun _ hf ↦ hf.elim) h

theorem prog (M : Settles cfg V J P c t) (hc : c.settled = true) (hJ : J t e) :
    wlp V (Touch cfg J fun fd ↦ c.fd? = some fd) (c.prog cfg) (fun _ ↦ J) t e := by
  have hS := M.toStable
  have hT : ∀ fd, Retunes cfg V J (P fd) fd := fun fd ↦ { hS with tune := M.tune }
  have hL := M.licenses
  cases c with
  | networkInit ip mask gw mac =>
    exact (wiztoeNetworkInit_keeps (A := fun _ ↦ False) hS ip mask gw mac (M.init hJ)).guard
      fun _ _ _ hT ↦ ⟨hT.1, hT.2.mono fun _ hf ↦ hf.elim⟩
  | isUdp fd => exact M.on rfl (wiztoeIsUdp_keeps hS hJ)
  | snOfFd fd => exact M.on rfl (wiztoeSnOfFd_keeps hS hJ)
  | setNonblocking fd enable =>
    exact M.on rfl (wiztoeSetNonblocking_keeps (hT fd) (hL fd) enable hJ)
  | getNonblocking fd => exact M.on rfl (wiztoeGetNonblocking_keeps hS hJ)
  | available fd => exact M.on rfl (wiztoeAvailable_keeps hS hJ)
  | shutdown fd shutRd shutWr =>
    exact M.on rfl (wiztoeShutdown_keeps (hT fd) (hL fd) shutRd shutWr hJ)
  | bind fd port => exact M.on rfl (wiztoeBind_keeps (hT fd) (M.opens fd) port (M.binds rfl) hJ)
  | listen fd backlog =>
    exact M.on rfl (wiztoeListen_keeps hS M.listening (M.opens fd) (M.defers fd rfl) backlog hJ)
  | connect fd ip port =>
    exact M.on rfl (wiztoeConnect_keeps (hT fd) (hL fd) (M.connects rfl) (M.opens fd) ip port hJ)
  | send fd buf => exact M.on rfl (wiztoeSend_keeps hS buf hJ)
  | recv fd len => exact M.on rfl (wiztoeRecv_keeps hS len hJ)
  | sendto fd buf ip port => exact M.on rfl (wiztoeSendto_keeps hS (M.opens fd) buf ip port hJ)
  | recvfrom fd len => exact M.on rfl (wiztoeRecvfrom_keeps hS len hJ)
  | peer fd => exact M.on rfl (wiztoePeer_keeps hS hJ)
  | getsockname fd => exact M.on rfl (wiztoeGetsockname_keeps hS hJ)
  | localIp => exact M.other (wiztoeLocalIp_keeps hS hJ)
  | localMac => exact M.other (wiztoeLocalMac_keeps hS hJ)
  | socketReserve => exact M.other (wiztoeSocketReserve_keeps hS (M.reserves rfl) (M.init hJ))
  | setsockopt fd opt val => exact M.on rfl (wiztoeSetsockopt_keeps (hT fd) (hL fd) opt val hJ)
  | getsockopt fd opt room => exact M.on rfl (wiztoeGetsockopt_keeps hS opt room hJ)
  | socket => exact absurd hc (by simp [Call.settled])
  | accept => exact absurd hc (by simp [Call.settled])
  | socketRelease => exact absurd hc (by simp [Call.settled])
  | close => exact absurd hc (by simp [Call.settled])

end Settles

/-! ## All calls -/

/-- What holds at each operation of a call made with the tables `t`. It is performed for the call's
own descriptor, or for a listener in `A` that is being served, or it is the `close` of
`wiztoe_socket_release`. -/
inductive Call.Guard (cfg : ToeConfig) (J : Tables → E → Prop)
    (P : List ℕ → Tables → E → Prop) (A : ℤ → Prop) (c : Call) (t : Tables) :
    ChipOp → Tables → E → Prop
  | own {o : ChipOp} {t' : Tables} {e : E} (h : Touch cfg J (fun fd ↦ c.fd? = some fd) o t' e) :
      Call.Guard cfg J P A c t o t' e
  | serve {o : ChipOp} {t' : Tables} {e : E}
      (hc : (∃ fd, c = .close fd) ∨ ∃ sn, c = .socketRelease sn)
      (h : Touch cfg (fun t e ↦ ∃ l, P l t e) A o t' e) : Call.Guard cfg J P A c t o t' e
  | release {sn : ℤ} {e : E} (hc : c = .socketRelease sn) (hsn : 0 ≤ sn ∧ sn < cfg.maxSock)
      (hJ : J t e) : Call.Guard cfg J P A c t (.close (uint8 sn)) t e

/-- What a condition has to satisfy to be kept by the call `c` made with the tables `t`. -/
structure Maintains (cfg : ToeConfig) (V : Env Tables E ChipOp.Ans) (J : Tables → E → Prop)
    (P : List ℕ → Tables → E → Prop) (A : ℤ → Prop) (c : Call) (t : Tables) : Prop where
  keeps : Keeps cfg V J
  opens : ∀ fd, Opens cfg V J fd
  listens : ∀ fd, Listens cfg V J fd
  defers : ∀ fd, c.fd? = some fd → Defers cfg V J fd
  handsOver : ∀ fd, HandsOver cfg J J fd
  reserves : c = .socketReserve → ∀ {t e sn}, t.tablesInit = true → IsFree cfg t sn → J t e →
    J (t.setOwner sn toeSnRaw) e
  serves : Serves cfg V P
  served : ∀ {t e}, P [] t e → J t e
  serving : ∀ {fd : ℕ} {l t e}, P (fd :: l) t e → Waiting t fd → A fd
  frees : ∀ fd, c = .close fd → Frees cfg V J (P (List.range cfg.maxDesc)) t fd
  releases : ∀ {sn}, c = .socketRelease sn → 0 ≤ sn ∧ sn < cfg.maxSock → ∀ {e a e'},
    J t e →
    V.answer (.close (uint8 sn)) t e a e' → P (List.range cfg.maxDesc) (toeSnRelease cfg sn t) e'

namespace Maintains

theorem settles (M : Maintains cfg V J P A c t) : Settles cfg V J (fun _ _ _ ↦ True) c t :=
  { M.keeps.toStable with
    tune := fun {_ _ _ _} hJ hv hf _ ↦ M.keeps.move rfl hJ (.tune hv hf)
    licenses := fun _ _ _ _ _ ↦ trivial
    binds := fun _ _ ↦ trivial
    connects := fun _ _ _ ↦ trivial
    init := fun hJ ↦ M.keeps.move rfl hJ (.init _)
    listening := fun b hJ hr htcp ↦ M.keeps.move rfl hJ (.listening b hr htcp)
    reserves := M.reserves
    opens := M.opens
    defers := M.defers }

/-- **Every call keeps the condition**, and every operation it performs is guarded. -/
theorem prog (M : Maintains cfg V J P A c t) (hfit : cfg.Fits) (hJ : J t e) :
    wlp V (Call.Guard cfg J P A c t) (c.prog cfg) (fun _ ↦ J) t e := by
  have hK := M.keeps
  have hS := hK.toStable
  by_cases hc : c.settled = true
  · exact (M.settles.prog hc hJ).guard fun _ _ _ ↦ .own
  -- Four calls change who holds what.
  cases c with
  | socket domain type protocol =>
    refine (M.settles.other ((wiztoeSocket_keeps hfit hK.untuned domain type protocol hJ).imp
      ?_)).guard fun _ _ _ ↦ .own
    exact fun _ _ _ h ↦ h.1
  | accept fd =>
    have hA := Accepts.of_keeps hK (M.opens fd) (M.listens fd) (M.defers fd rfl) (M.handsOver fd)
    refine (M.settles.on rfl ((wiztoeAccept_keeps hfit hA hJ).imp fun r _ _ h ↦ ?_)).guard
      fun _ _ _ ↦ .own
    exact (lt_or_ge r 0).elim h.1 h.2
  | socketRelease sn =>
    by_cases hsn : 0 ≤ sn ∧ sn < cfg.maxSock
    · refine (wiztoeSocketRelease_serves hfit hS M.serves (M.releases rfl hsn) M.serving
        (.release rfl hsn) (.serve (.inr ⟨sn, rfl⟩)) hsn hJ).imp ?_
      exact fun _ _ _ ↦ M.served
    · exact wiztoeSocketRelease_invalid hS hsn hJ
  | close fd =>
    refine pre_discard (pre.imp ?_ fun _ _ _ hJ _ he ↦ hS.drifts hJ he)
    by_cases hv : toeFdValid cfg t fd
    · refine (wiztoeClose_serves hfit hS M.serves (M.frees fd rfl) M.serving
        (fun {o t e} hT ↦ .own ⟨hT.1, hT.2.mono fun fd' hfd ↦ by rw [hfd]; rfl⟩)
        (.serve (.inl ⟨fd, rfl⟩)) hv hJ).imp ?_
      exact fun _ _ _ ↦ M.served
    · exact wiztoeClose_invalid hS hv hJ
  | _ => exact absurd rfl hc

end Maintains

/-! ## Conditions on the tables alone -/

/-- A condition on the tables kept by the moves of the kinds in `K`. -/
structure KeptBy (cfg : ToeConfig) (K : Kind → Prop) (T : Tables → Prop) : Prop where
  range : ∀ {t fd}, T t → toeFdValid cfg t fd → (t.desc fd).sn < cfg.maxSock
  idle : ∀ {t fd}, T t → toeFdValid cfg t fd → (t.desc fd).sn < 0 → (t.desc fd).opened = false
  move : ∀ {k t t'}, K k → T t → Move cfg k t t' → T t'

namespace KeptBy

variable {K : Kind → Prop} {T : Tables → Prop} {P' : ℤ → Desc → Desc → Prop}

theorem stable (h : KeptBy cfg K T) : Stable cfg V fun t _ ↦ T t where
  range := h.range
  idle := h.idle
  drift hT _ := hT
  answer _ hT _ := hT

theorem untuned (h : KeptBy cfg K T) (hK : ∀ k, k.calm = true → k ≠ .tune → K k) :
    Untuned cfg V fun t _ ↦ T t :=
  { h.stable with move := fun {_ _ _ _} hk ht hT hm ↦ h.move (hK _ hk ht) hT hm }

theorem opens (h : KeptBy cfg K T) (ho : K .opened) (fd : ℤ) : Opens cfg V (fun t _ ↦ T t) fd where
  refused hT _ _ _ := hT
  granted hT hr _ := h.move ho hT (.opened true hr)

theorem listens (h : KeptBy cfg K T) (hd : K .disarm) (fd : ℤ) :
    Listens cfg V (fun t _ ↦ T t) fd where
  unopened hT hr hl _ _ := h.move hd hT (.disarm hr hl)
  unlistened hT hr hl _ _ := h.move hd hT (.disarm hr hl)

theorem defers (h : KeptBy cfg K T) (ho : K .opened) (fd : ℤ) : Defers cfg V (fun t _ ↦ T t) fd :=
  fun hT hr _ ↦ h.move ho hT (.opened false hr)

theorem handsOver (h : KeptBy cfg K T) (hh : K .handover) (ha : K .arm) (fd : ℤ) :
    HandsOver cfg (fun t (_ : E) ↦ T t) (fun t _ ↦ T t) fd where
  armed hT hr hl hc hs := by
    have hlis := IsListener.handover ⟨hr.1, hl⟩ hc
    have hT' := h.move hh hT (.handover hr hl hc)
    exact h.move ha hT' (.arm hlis.1 hlis.2 (by simp [Tables.handover]) hs.free)
  unarmed hT hr hl hc _ := h.move hh hT (.handover hr hl hc)

theorem serves (h : KeptBy cfg K T) (ha : K .arm) (ho : K .opened) (hd : K .disarm) :
    Serves cfg V fun _ t _ ↦ T t where
  stable _ := h.stable
  opens _ := h.opens ho _
  listens _ _ _ := h.listens hd _
  skip hT _ := hT
  arm _ hT hv hw hs := h.move ha hT (.arm hv hw.2.1 hw.2.2 hs.free)
  none hT _ _ := hT

/-- A condition that survives all moves but the retuning of descriptors, closing one, and reserving
and releasing hardware sockets, is kept by every call for which these are harmless as well. -/
theorem prog (h : KeptBy cfg K T) (hfit : cfg.Fits)
    (hK : ∀ k, k ≠ .tune → k ≠ .close → k ≠ .reserve → k ≠ .release → K k)
    (M : Settles cfg V (fun t _ ↦ T t) P' c t)
    (hclose : ∀ fd, c = .close fd → toeFdValid cfg t fd → ∀ {t'}, T t' →
      toeFdValid cfg t' fd → T (t'.closed cfg fd))
    (hrel : ∀ sn, c = .socketRelease sn → 0 ≤ sn ∧ sn < cfg.maxSock → T t →
      T (toeSnRelease cfg sn t)) (hT : T t) :
    wlp V (fun _ t _ ↦ T t) (c.prog cfg) (fun _ t _ ↦ T t) t e := by
  -- The analyses that address a descriptor are more than is needed.
  have hweak : ∀ {q : Toe Unit} {A : ℤ → Prop},
      wlp V (Touch cfg (fun t _ ↦ T t) A) q (fun _ t _ ↦ T t) t e →
        wlp V (fun _ t _ ↦ T t) q (fun _ t _ ↦ T t) t e :=
    fun hq ↦ hq.guard fun _ _ _ hT ↦ hT.1
  have ha := hK .arm (by decide) (by decide) (by decide) (by decide)
  have ho := hK .opened (by decide) (by decide) (by decide) (by decide)
  have hd := hK .disarm (by decide) (by decide) (by decide) (by decide)
  have hh := hK .handover (by decide) (by decide) (by decide) (by decide)
  by_cases hset : c.settled = true
  · exact hweak (M.prog hset hT)
  cases c with
  | socket domain type protocol =>
    have hcalm : ∀ k : Kind, k.calm = true → k ≠ .tune → K k := fun k hk ht ↦
      hK k ht (by rintro rfl; exact absurd hk (by decide))
        (by rintro rfl; exact absurd hk (by decide)) (by rintro rfl; exact absurd hk (by decide))
    exact hweak (M.other ((wiztoeSocket_keeps hfit (h.untuned hcalm) domain type protocol hT).imp
      fun _ _ _ h ↦ h.1))
  | accept fd =>
    have hA : Accepts cfg V (fun t _ ↦ T t) (fun t _ ↦ T t) (fun t _ ↦ T t) fd :=
      { stable := h.stable
        arm := fun hT hl hn hs ↦ h.move ha hT (.arm hl.1 hl.2 hn hs.free)
        opens := h.opens ho fd
        listens := h.listens hd fd
        defers := h.defers ho fd
        handsOver := h.handsOver hh ha fd
        stable' := h.stable
        opens' := h.opens ho fd
        listens' := h.listens hd fd
        le := id
        le' := id }
    exact hweak (M.on rfl ((wiztoeAccept_keeps hfit hA hT).imp fun r _ _ hr ↦ (lt_or_ge r 0).elim
      hr.1 hr.2))
  | socketRelease sn =>
    by_cases hsn : 0 ≤ sn ∧ sn < cfg.maxSock
    · exact wiztoeSocketRelease_serves (A := fun _ ↦ True) hfit h.stable (h.serves ha ho hd)
        (fun hT _ ↦ hrel sn rfl hsn hT) (fun _ _ ↦ trivial) id (fun ⟨⟨_, hT⟩, _⟩ ↦ hT)
          hsn hT
    · exact wiztoeSocketRelease_invalid h.stable hsn hT
  | close fd =>
    refine pre_discard (pre.imp ?_ fun _ _ _ hT _ _ ↦ hT)
    by_cases hv : toeFdValid cfg t fd
    · have hfrees : Frees cfg V (fun t _ ↦ T t) (fun t _ ↦ T t) t fd :=
        ⟨fun hT hv _ ↦ hclose fd rfl hv hT hv, fun hT hr _ ↦ hclose fd rfl hv hT hr.1⟩
      exact wiztoeClose_serves (A := fun _ ↦ True) hfit h.stable (h.serves ha ho hd) hfrees
        (fun _ _ ↦ trivial) (fun hT ↦ hT.1) (fun ⟨⟨_, hT⟩, _⟩ ↦ hT) hv hT
    · exact wiztoeClose_invalid h.stable hv hT
  | _ => exact absurd rfl hset

end KeptBy

/-- A condition on the tables kept by every move but those that reserve and release hardware
sockets. -/
structure TablesInv (cfg : ToeConfig) (T : Tables → Prop) : Prop where
  range : ∀ {t fd}, T t → toeFdValid cfg t fd → (t.desc fd).sn < cfg.maxSock
  idle : ∀ {t fd}, T t → toeFdValid cfg t fd → (t.desc fd).sn < 0 → (t.desc fd).opened = false
  move : ∀ {k t t'}, k ≠ .reserve → k ≠ .release → T t → Move cfg k t t' → T t'

namespace TablesInv

variable {T : Tables → Prop}

theorem keptBy (h : TablesInv cfg T) : KeptBy cfg (fun k ↦ k ≠ .reserve ∧ k ≠ .release) T :=
  ⟨h.range, h.idle, fun hk ↦ h.move hk.1 hk.2⟩

/-- Whatever else a condition asks of the tables, it is stable if it includes one of these. -/
theorem stable_of (h : TablesInv cfg T) {T' : Tables → Prop} (hle : ∀ t, T' t → T t) :
    Stable cfg V fun t _ ↦ T' t where
  range hT hv := h.range (hle _ hT) hv
  idle hT hv := h.idle (hle _ hT) hv
  drift hT _ := hT
  answer _ hT _ := hT

theorem stable (h : TablesInv cfg T) : Stable cfg V fun t _ ↦ T t := h.stable_of fun _ ↦ id

theorem and (h : TablesInv cfg T) {T' : Tables → Prop}
    (hmove : ∀ {k t t'}, T t → T' t → Move cfg k t t' → T' t') :
    TablesInv cfg fun t ↦ T t ∧ T' t where
  range hT hv := h.range hT.1 hv
  idle hT hv := h.idle hT.1 hv
  move hres hrel hT hm := ⟨h.move hres hrel hT.1 hm, hmove hT.1 hT.2 hm⟩

theorem keeps (h : TablesInv cfg T) : Keeps cfg V fun t _ ↦ T t :=
  { h.stable with
    move := fun {_ _ _ _} hk hT hm ↦ h.move (by rintro rfl; exact absurd hk (by decide))
      (by rintro rfl; exact absurd hk (by decide)) hT hm }

theorem opens (h : TablesInv cfg T) (fd : ℤ) : Opens cfg V (fun t _ ↦ T t) fd :=
  h.keptBy.opens (by decide) fd

theorem listens (h : TablesInv cfg T) (fd : ℤ) : Listens cfg V (fun t _ ↦ T t) fd :=
  h.keptBy.listens (by decide) fd

theorem closed (h : TablesInv cfg T) {fd : ℤ} (hT : T t) (hv : toeFdValid cfg t fd) :
    T (t.closed cfg fd) :=
  h.move (by decide) (by decide) hT (.close hv)

theorem handover (h : TablesInv cfg T) (fd : ℤ) :
    HandsOver cfg (fun t (_ : E) ↦ T t) (fun t _ ↦ T t) fd :=
  h.keptBy.handsOver (by decide) (by decide) fd

/-- A condition that is kept by the moves is maintained in any environment. What is left to ask of
it are the calls about reserved hardware sockets. -/
theorem maintains (h : TablesInv cfg T)
    (hres : c = .socketReserve → ∀ {t sn}, t.tablesInit = true → IsFree cfg t sn → T t →
      T (t.setOwner sn toeSnRaw))
    (hrel : ∀ sn, c = .socketRelease sn → 0 ≤ sn ∧ sn < cfg.maxSock → T t →
      T (toeSnRelease cfg sn t)) :
    Maintains cfg V (fun t _ ↦ T t) (fun _ t _ ↦ T t) (fun _ ↦ True) c t where
  keeps := h.keeps
  opens := h.opens
  listens := h.listens
  defers fd _ := h.keptBy.defers (by decide) fd
  handsOver := h.handover
  reserves hc _ _ _ hi hs hT := hres hc hi hs hT
  serves := h.keptBy.serves (by decide) (by decide) (by decide)
  served hT := hT
  serving _ _ := trivial
  frees fd _ :=
    { idle := fun hT hv _ ↦ h.closed hT hv
      closed := fun hT hr _ ↦ h.closed hT hr.1 }
  releases hc hsn _ _ _ hT _ := hrel _ hc hsn hT

end TablesInv

end WsmDriver
