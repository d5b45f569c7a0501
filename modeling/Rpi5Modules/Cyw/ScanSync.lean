import Rpi5Modules.Cyw.Scan

/-!
# The ids of the escan requests

`cyw_do_escan` numbers its START with `escan_sync_id++`, the value before the increment, and `cyw_abort_escan` its
ABORT with `escan_sync_id`, the value behind it. So an ABORT has the id that the next START will get.

- `SyncScan` is the life of a scan with a record of how many scans had been begun when an ABORT got its id;
- an ABORT names the last START that was sent only if exactly one START (or 65537, ...) more had been sent by then
  than scans begun when it got its id (`abort_ids_iff`);
- an ABORT of the only scan there is names another one (`abort_first_scan`).
-/

namespace Cyw

open Function Transition

/-! ## Requests -/

/-- The `sync_id` of the START that was sent last; the newest request comes first. -/
def lastStart (l : List CywEscanParams) : Option UInt16 :=
  (l.find? fun p => p.action = cywEscanActionStart).map CywEscanParams.syncId

/-- The number of STARTs that were sent. -/
def startsSent (l : List CywEscanParams) : Nat := l.countP fun p => p.action = cywEscanActionStart

/-- Each ABORT has the `sync_id` of the START that was sent last before it. -/
def AbortsOk : List CywEscanParams → Prop
  | [] => True
  | p :: l => AbortsOk l ∧ (p.action = cywEscanActionAbort → lastStart l = some p.syncId)

section Requests

variable (id : UInt16) (ssid : List UInt8) (l : List CywEscanParams)

@[simp] theorem lastStart_start : lastStart (startParams id ssid :: l) = some id := rfl

@[simp] theorem lastStart_abort : lastStart (abortParams id :: l) = lastStart l := rfl

@[simp] theorem startsSent_start : startsSent (startParams id ssid :: l) = startsSent l + 1 :=
  List.countP_cons_of_pos (decide_eq_true rfl)

@[simp] theorem startsSent_abort : startsSent (abortParams id :: l) = startsSent l :=
  List.countP_cons_of_neg (show ¬decide (cywEscanActionAbort = cywEscanActionStart) = true by decide)

@[simp] theorem abortsOk_start : AbortsOk (startParams id ssid :: l) ↔ AbortsOk l :=
  and_iff_left fun h => absurd (show cywEscanActionStart = cywEscanActionAbort from h) (by decide)

@[simp] theorem abortsOk_abort : AbortsOk (abortParams id :: l) ↔ AbortsOk l ∧ lastStart l = some id :=
  and_congr_right fun _ => imp_iff_right rfl

end Requests

/-! ## The record -/

/-- The life of a scan, and for each caller how many scans had been begun when its ABORT got its id. -/
structure SyncScan where
  scan : Scan
  begun : ScanCaller → Nat

namespace SyncScan

def attached : SyncScan := ⟨Scan.attached, fun _ => 0⟩

/-- The record after a step: the second section of `cyw_abort_escan` reads `escan_sync_id`. -/
def note (s : SyncScan) : Scan.ScanAct → ScanCaller → Nat
  | .next t _ =>
    match s.scan.pc t with
    | .clear => update s.begun t s.scan.started
    | _ => s.begun
  | _ => s.begun

def step (s : SyncScan) (a : Scan.ScanAct) : Option SyncScan := (s.scan.step a).map fun s' => ⟨s', s.note a⟩

theorem step_erase (s : SyncScan) (a : Scan.ScanAct) : (s.step a).map scan = s.scan.step a := by
  rw [step, Option.map_map]
  exact Option.map_id'

/-- The STARTs that were sent are one more, modulo 65536, than the scans begun when the ABORT got its id. -/
def SyncOk (s : SyncScan) : Scan.ScanAct → Prop
  | .next t _ =>
    match s.scan.pc t with
    | .abort _ =>
      0 < startsSent s.scan.requests ∧ startsSent s.scan.requests % 65536 = (s.begun t + 1) % 65536
    | _ => True
  | _ => True

/-! ## The ids -/

/-- The task is at the IOVAR of a START. -/
def Issuing (pc : EscanPc) : Prop := ∃ k p, pc = .issue k p

/-- **The invariant**: the counter counts the scans begun; all of them have been sent, but for the one whose START is
not out yet. -/
structure SyncInv (s : SyncScan) : Prop where
  aborts : AbortsOk s.scan.requests
  counter : s.scan.escanSyncId = UInt16.ofNat s.scan.started
  last : lastStart s.scan.requests =
    if startsSent s.scan.requests = 0 then none else some (UInt16.ofNat (startsSent s.scan.requests - 1))
  sent : ¬Issuing (s.scan.pc .task) → startsSent s.scan.requests = s.scan.started
  issue : ∀ t k p, s.scan.pc t = .issue k p → t = .task ∧ startsSent s.scan.requests + 1 = s.scan.started ∧
    ∃ ssid, p = startParams (UInt16.ofNat (startsSent s.scan.requests)) ssid
  abort : ∀ t p, s.scan.pc t = .abort p → p = abortParams (UInt16.ofNat (s.begun t))

theorem syncInv_attached : SyncInv attached :=
  ⟨trivial, rfl, rfl, fun _ => rfl, nofun, nofun⟩

variable {s s' : SyncScan} {t : ScanCaller} {a : Scan.ScanAct}

theorem not_issuing_clear : ¬Issuing .clear := by
  rintro ⟨k, p, h⟩
  cases h

theorem not_issuing_idle : ¬Issuing .idle := by
  rintro ⟨k, p, h⟩
  cases h

/-- A caller goes to a place that is not before the IOVAR of a START. -/
theorem SyncInv.goto {pc : EscanPc} {b : ScanCaller → Nat} (h : SyncInv s) (hi : ¬Issuing pc)
    (hsent : t = .task → startsSent s.scan.requests = s.scan.started) (hb : ∀ u, u ≠ t → b u = s.begun u)
    (ha : ∀ p, pc = .abort p → p = abortParams (UInt16.ofNat (b t))) : SyncInv ⟨s.scan.goto t pc, b⟩ where
  aborts := h.aborts
  counter := h.counter
  last := h.last
  sent hn := by
    cases t with
    | task => exact hsent rfl
    | auth => exact h.sent hn
  issue u k p hu := by
    by_cases hut : u = t
    · subst hut
      rw [Scan.goto_pc_self] at hu
      exact (hi ⟨k, p, hu⟩).elim
    · exact h.issue u k p ((update_of_ne hut _ _).symm.trans hu)
  abort u p hu := by
    by_cases hut : u = t
    · subst hut
      rw [Scan.goto_pc_self] at hu
      exact ha p hu
    · rw [h.abort u p ((update_of_ne hut _ _).symm.trans hu)]
      exact congrArg (fun n => abortParams (UInt16.ofNat n)) (hb u hut).symm

/-- Unless the task is at the IOVAR of a START, all STARTs have been sent. -/
theorem SyncInv.sent_of (h : SyncInv s) {pc : EscanPc} (hpc : s.scan.pc t = pc) (hi : ¬Issuing pc) :
    t = .task → startsSent s.scan.requests = s.scan.started := by
  rintro rfl
  exact h.sent (hpc ▸ hi)

theorem syncInv_start {ssid : List UInt8} (h : SyncInv s) (hpc : s.scan.pc .task = .idle) :
    SyncInv ⟨s.scan.start ssid, s.begun⟩ := by
  have hsent := h.sent (hpc ▸ not_issuing_idle)
  refine ⟨h.aborts, ?_, h.last, fun hn => (hn ⟨_, _, rfl⟩).elim, ?_, ?_⟩
  · show s.scan.escanSyncId + 1 = UInt16.ofNat (s.scan.started + 1)
    rw [h.counter, UInt16.ofNat_add]
    rfl
  · intro u k p hu
    cases u with
    | task =>
      have he : EscanPc.issue s.scan.started (startParams s.scan.escanSyncId ssid) = .issue k p := hu
      cases he
      refine ⟨rfl, congrArg (· + 1) hsent, ssid, ?_⟩
      show startParams s.scan.escanSyncId ssid = startParams (UInt16.ofNat (startsSent s.scan.requests)) ssid
      rw [h.counter, hsent]
    | auth => cases (h.issue .auth k p hu).1
  · intro u p hu
    cases u with
    | task =>
      have he : EscanPc.issue s.scan.started (startParams s.scan.escanSyncId ssid) = .abort p := hu
      cases he
    | auth => exact h.abort .auth p hu

/-- The START of the task goes out. -/
theorem syncInv_issue {k : Nat} {p : CywEscanParams} {pc : EscanPc} (h : SyncInv s) (hpc : s.scan.pc t = .issue k p)
    (hi : ¬Issuing pc) (ha : ∀ p, pc ≠ .abort p) :
    SyncInv ⟨{ s.scan with requests := p :: s.scan.requests }.goto t pc, s.begun⟩ := by
  obtain ⟨rfl, hsent, ssid, rfl⟩ := h.issue t k p hpc
  refine ⟨?_, h.counter, ?_, fun _ => ?_, ?_, ?_⟩
  · exact (abortsOk_start _ ssid _).2 h.aborts
  · show lastStart (_ :: _) = if startsSent (_ :: _) = 0 then none else some (UInt16.ofNat (startsSent (_ :: _) - 1))
    rw [lastStart_start, startsSent_start, if_neg (Nat.succ_ne_zero _), Nat.add_sub_cancel]
  · exact (startsSent_start _ ssid _).trans hsent
  · intro u j q hu
    cases u with
    | task => exact (hi ⟨j, q, (Scan.goto_pc_self _ _ _).symm.trans hu⟩).elim
    | auth => cases (h.issue .auth j q hu).1
  · intro u q hu
    cases u with
    | task => exact (ha q ((Scan.goto_pc_self _ _ _).symm.trans hu)).elim
    | auth => exact h.abort .auth q hu

/-- The ids of the last START and of an ABORT are the same exactly if the counts behind them are. -/
theorem lastStart_eq_iff (h : SyncInv s) (n : Nat) :
    lastStart s.scan.requests = some (UInt16.ofNat n) ↔
      0 < startsSent s.scan.requests ∧ startsSent s.scan.requests % 65536 = (n + 1) % 65536 := by
  rw [h.last]
  split
  next h0 =>
    rw [h0]
    exact iff_of_false nofun fun h => Nat.lt_irrefl 0 h.1
  next h0 =>
    rw [Option.some_inj, ← UInt16.toNat_inj, UInt16.toNat_ofNat', UInt16.toNat_ofNat']
    have : (2 : Nat) ^ 16 = 65536 := rfl
    omega

/-- An ABORT goes out. -/
theorem syncInv_abort {p : CywEscanParams} (h : SyncInv s) (hpc : s.scan.pc t = .abort p)
    (hok : 0 < startsSent s.scan.requests ∧ startsSent s.scan.requests % 65536 = (s.begun t + 1) % 65536) :
    SyncInv ⟨{ s.scan with requests := p :: s.scan.requests }.goto t .idle, s.begun⟩ := by
  obtain rfl := h.abort t p hpc
  have hsent := h.sent_of hpc nofun
  have h' : SyncInv ⟨{ s.scan with requests := abortParams (UInt16.ofNat (s.begun t)) :: s.scan.requests }, s.begun⟩ :=
    { aborts := (abortsOk_abort _ _).2 ⟨h.aborts, (lastStart_eq_iff h _).2 hok⟩
      counter := h.counter
      last := by
        show lastStart (_ :: _) =
          if startsSent (_ :: _) = 0 then none else some (UInt16.ofNat (startsSent (_ :: _) - 1))
        rw [lastStart_abort, startsSent_abort, h.last]
      sent := fun hn => (startsSent_abort _ _).trans (h.sent hn)
      issue := fun u k q hu => by
        show u = .task ∧ startsSent (_ :: _) + 1 = _ ∧ ∃ ssid, q = startParams (UInt16.ofNat (startsSent (_ :: _))) ssid
        rw [startsSent_abort]
        exact h.issue u k q hu
      abort := h.abort }
  exact h'.goto nofun (fun ht => (startsSent_abort _ _).trans (hsent ht)) (fun _ _ => rfl) nofun

/-- The next step of a caller. -/
theorem syncInv_next {err : Errno} {scan : Scan} (h : SyncInv s) (hok : s.SyncOk (.next t err))
    (hscan : s.scan.next t err = some scan) : SyncInv ⟨scan, s.note (.next t err)⟩ := by
  unfold Scan.next at hscan
  cases hpc : s.scan.pc t with
  | idle =>
    rw [hpc] at hscan
    cases hscan
  | issue k p =>
    simp only [hpc, Option.some_inj] at hscan
    subst hscan
    simp only [note, hpc]
    split
    · exact syncInv_issue h hpc nofun nofun
    · exact syncInv_issue h hpc nofun nofun
  | failed k =>
    simp only [hpc, Option.some_inj] at hscan
    subst hscan
    simp only [note, hpc]
    have h' : SyncInv ⟨s.scan.finish k, s.begun⟩ := { h with }
    exact h'.goto nofun (h.sent_of hpc nofun) (fun _ _ => rfl) nofun
  | clear =>
    simp only [hpc, Option.some_inj] at hscan
    subst hscan
    simp only [note, hpc]
    have h' : SyncInv ⟨{ s.scan with scanActive := false, ended := true }, s.begun⟩ := { h with }
    refine h'.goto nofun (h.sent_of hpc nofun) (fun u hu => update_of_ne hu _ _) fun p hp => ?_
    cases hp
    rw [update_self, h.counter]
  | abort p =>
    simp only [hpc, Option.some_inj] at hscan
    subst hscan
    simp only [SyncOk, hpc] at hok
    simp only [note, hpc]
    exact syncInv_abort h hpc hok

theorem syncInv_step (h : SyncInv s) (hok : s.SyncOk a) (hs : s.step a = some s') : SyncInv s' := by
  obtain ⟨scan, hscan, rfl⟩ := Option.map_eq_some_iff.1 hs
  cases a with
  | start ssid =>
    simp only [Scan.step] at hscan
    split at hscan
    next hpc =>
      cases hscan
      exact syncInv_start h hpc
    · cases hscan
  | abort t =>
    simp only [Scan.step] at hscan
    split at hscan
    next hpc =>
      cases hscan
      split
      · apply h.goto not_issuing_clear (h.sent_of hpc not_issuing_idle) (fun _ _ => rfl)
        intro p hp
        cases hp
      · exact h
    · cases hscan
  | next t err => exact syncInv_next h hok hscan
  | event status k =>
    simp only [Scan.step, Option.ite_none_right_eq_some, Option.some_inj] at hscan
    obtain ⟨-, rfl⟩ := hscan
    unfold Scan.event
    split
    · exact { h with }
    · exact h
  | scanDone vap =>
    simp only [Scan.step, Option.map_eq_some_iff] at hscan
    obtain ⟨k, -, rfl⟩ := hscan
    exact { h with }

/-- An ABORT with a wrong id is one of the requests. -/
theorem syncOk_of_abortsOk (h : SyncInv s) (hs : s.step a = some s') (hok : AbortsOk s'.scan.requests) :
    s.SyncOk a := by
  obtain ⟨scan, hscan, rfl⟩ := Option.map_eq_some_iff.1 hs
  cases a with
  | next t err =>
    unfold SyncOk
    dsimp only
    split
    next p hpc =>
      simp only [Scan.step, Scan.next, hpc, Option.some_inj] at hscan
      subst hscan
      obtain rfl := h.abort t p hpc
      exact (lastStart_eq_iff h _).1 ((abortsOk_abort _ _).1 hok).2
    · trivial
  | _ => trivial

/-- **When the ABORTs name the scan they abort**: for every interleaving of `cyw_do_escan`, `cyw_abort_escan` from both
callers and the events, over any number of scans, each ABORT that is sent has the `sync_id` of the START that was sent
last if and only if each is sent when the STARTs sent are one more, modulo 65536, than the scans begun when it got its
id: so only where the START of a scan begun behind this comes between. -/
theorem abort_ids_iff (as : List Scan.ScanAct) :
    AllStates Scan.step (fun s => AbortsOk s.requests) Scan.attached as ↔ AllSteps step SyncOk attached as := by
  have herase : AllStates Scan.step (fun s => AbortsOk s.requests) Scan.attached as ↔
      AllStates step (fun s => AbortsOk s.scan.requests) attached as :=
    allStates_erase (f := scan) (t := attached) step_erase
  rw [herase]
  refine allStates_iff (I := SyncInv) ?_ (fun s h => h.aborts) ?_ syncInv_attached
  · intro s a s' h hok hs
    exact syncInv_step h hok hs
  · intro s a s' h hs hok
    exact syncOk_of_abortsOk h hs hok

/-- The first scan is begun and its START sent; then it is aborted on entry to AUTH, and nothing else happens. -/
theorem abort_first_scan : ∃ s, run Scan.step Scan.attached
    [.start [], .next .task 0, .abort .auth, .next .auth 0, .next .auth 0] = some s ∧
      s.requests.map (fun p => (p.action, p.syncId)) = [(cywEscanActionAbort, 1), (cywEscanActionStart, 0)] ∧
      ¬AbortsOk s.requests := by
  refine ⟨_, rfl, rfl, ?_⟩
  intro h
  exact absurd (h.2 rfl) (by decide)

end SyncScan

end Cyw
