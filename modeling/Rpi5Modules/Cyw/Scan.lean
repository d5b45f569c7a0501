import Mathlib.Logic.Function.Basic
import Rpi5Modules.Cyw.Chanspec
import Rpi5Modules.Cyw.Escan
import Rpi5Modules.Lib.Transition

/-!
# The life of a scan

Scans are started by a task of `scan_tq` (`cyw_do_escan`) and aborted by that task or on entry to AUTH
(`cyw_abort_escan`); the firmware reports the end of each, perhaps long after, to `cyw_escan_result_handler` on `rx_tq`.

A step is a section under `sc->mtx`, a command, or a call of `ieee80211_scan_done`. The scans are numbered as they are
started; an event comes with the number of the scan whose `sync_id` it carries, which the handler does not read.

- `scan_active` is the state of the newest scan, and `ieee80211_scan_done` is called for that one only, exactly as long
  as no end of an earlier scan is reported while a later one runs, or with a VAP present (`scan_life_iff`).
-/

namespace Cyw

open Function Transition

/-! ## Requests -/

def cywEscanReqVersion : UInt32 := 1
def cywEscanActionStart : UInt16 := 1
def cywEscanActionAbort : UInt16 := 3
def cywDot11BsstypeAny : Int8 := 2

/-- `struct cyw_scan_params_le`. -/
structure CywScanParams where
  ssid : List UInt8
  bssid : Bssid
  bssType : Int8
  scanType : UInt8
  nprobes : UInt32
  activeTime : UInt32
  passiveTime : UInt32
  homeTime : UInt32
  channelNum : UInt32

/-- `struct cyw_escan_params_le`. -/
structure CywEscanParams where
  version : UInt32
  action : UInt16
  syncId : UInt16
  params : CywScanParams

/-- The START of `cyw_do_escan`; `ssid` is that of a directed scan, else empty. -/
def startParams (syncId : UInt16) (ssid : List UInt8) : CywEscanParams where
  version := cywEscanReqVersion
  action := cywEscanActionStart
  syncId := syncId
  params :=
    { ssid := ssid
      bssid := 0xffffffffffff
      bssType := cywDot11BsstypeAny
      scanType := 0
      nprobes := 0xffffffff
      activeTime := 0xffffffff
      passiveTime := 0xffffffff
      homeTime := 0xffffffff
      channelNum := 0 }

/-- The ABORT of `cyw_abort_escan`. -/
def abortParams (syncId : UInt16) : CywEscanParams where
  version := cywEscanReqVersion
  action := cywEscanActionAbort
  syncId := syncId
  params :=
    { ssid := []
      bssid := 0xffffffffffff
      bssType := 0
      scanType := 0
      nprobes := 0
      activeTime := 0
      passiveTime := 0
      homeTime := 0
      channelNum := 0 }

/-! ## State -/

/-- Who calls: the task of `scan_tq`, or `cyw_newstate` on entry to AUTH. -/
inductive ScanCaller where
  | task
  | auth
deriving DecidableEq

/-- In neither function; in `cyw_do_escan` for scan `k`, before its IOVAR or before the section that follows a failure;
in `cyw_abort_escan` before its second section or its IOVAR. -/
inductive EscanPc where
  | idle
  | issue (k : Nat) (p : CywEscanParams)
  | failed (k : Nat)
  | clear
  | abort (p : CywEscanParams)

/-- A call of `ieee80211_scan_done`: the scan whose end was reported, and how many had been started. -/
structure DoneRecord where
  scan : Nat
  started : Nat

/-- `scan_active` and `escan_sync_id`, the two callers, and the handler between its section and its call of
`ieee80211_scan_done`. `started` counts the scans, `ended` says that the newest has failed, was aborted or has ended. -/
structure Scan where
  scanActive : Bool
  escanSyncId : UInt16
  pc : ScanCaller → EscanPc
  handler : Option Nat
  started : Nat
  ended : Bool
  requests : List CywEscanParams
  done : List DoneRecord

namespace Scan

/-- After `cyw_scan_attach`. -/
def attached : Scan where
  scanActive := false
  escanSyncId := 0
  pc := fun _ => .idle
  handler := none
  started := 0
  ended := true
  requests := []
  done := []

/-- Scan `k` is the newest. -/
def Newest (s : Scan) (k : Nat) : Prop := k + 1 = s.started

instance (s : Scan) (k : Nat) : Decidable (s.Newest k) := inferInstanceAs (Decidable (k + 1 = s.started))

def goto (s : Scan) (t : ScanCaller) (pc : EscanPc) : Scan := { s with pc := update s.pc t pc }

/-- Scan `k` is over. -/
def finish (s : Scan) (k : Nat) : Scan := { s with scanActive := false, ended := s.ended || s.Newest k }

/-! ## Steps -/

/-- `cyw_do_escan` up to its IOVAR. -/
def start (s : Scan) (ssid : List UInt8) : Scan :=
  { s with
    escanSyncId := s.escanSyncId + 1
    scanActive := true
    started := s.started + 1
    ended := false }.goto .task (.issue s.started (startParams s.escanSyncId ssid))

/-- The second section of `cyw_abort_escan`. -/
def clear (s : Scan) (t : ScanCaller) : Scan :=
  { s with scanActive := false, ended := true }.goto t (.abort (abortParams s.escanSyncId))

/-- The next step of a caller; `err` is what the IOVAR returns, where there is one. -/
def next (s : Scan) (t : ScanCaller) (err : Errno) : Option Scan :=
  match s.pc t with
  | .idle => none
  | .issue k p =>
    some ({ s with requests := p :: s.requests }.goto t (if err = 0 then .idle else .failed k))
  | .failed k => some ((s.finish k).goto t .idle)
  | .clear => some (s.clear t)
  | .abort p => some ({ s with requests := p :: s.requests }.goto t .idle)

/-- `cyw_escan_result_handler` for an event of scan `k`, up to `ieee80211_scan_done`; a PARTIAL one brings results
(`cywEscanResultHandler`). -/
def event (s : Scan) (status : UInt32) (k : Nat) : Scan :=
  if status ≠ cywEStatusPartial then { s.finish k with handler := some k } else s

/-- The call of `ieee80211_scan_done`; `vap` says whether there is a VAP. -/
def scanDone (s : Scan) (k : Nat) (vap : Bool) : Scan :=
  { s with handler := none, done := if vap then ⟨k, s.started⟩ :: s.done else s.done }

inductive ScanAct where
  | start (ssid : List UInt8)
  | abort (t : ScanCaller)
  | next (t : ScanCaller) (err : Errno)
  | event (status : UInt32) (k : Nat)
  | scanDone (vap : Bool)

def step (s : Scan) : ScanAct → Option Scan
  | .start ssid =>
    match s.pc .task with
    | .idle => some (s.start ssid)
    | _ => none
  | .abort t =>
    match s.pc t with
    | .idle => some (if s.scanActive then s.goto t .clear else s)
    | _ => none
  | .next t err => s.next t err
  | .event status k => if s.handler = none ∧ k < s.started then some (s.event status k) else none
  | .scanDone vap => s.handler.map fun k => s.scanDone k vap

/-! ## The newest scan -/

/-- `scan_active` is the state of the newest scan, and `ieee80211_scan_done` was called for the newest only. -/
structure LifeOk (s : Scan) : Prop where
  active : s.scanActive = !s.ended
  done : ∀ r ∈ s.done, r.scan + 1 = r.started

/-- The end of a scan is reported while it is the newest, or the newest is over; and if there is a VAP it is still the
newest when `ieee80211_scan_done` is called. -/
def EndOk (s : Scan) : ScanAct → Prop
  | .event status k => status ≠ cywEStatusPartial → s.Newest k ∨ s.ended = true
  | .scanDone vap => vap = true → ∀ k, s.handler = some k → s.Newest k
  | _ => True

/-- **The invariant**: only the task starts scans, and the one it is starting is the newest. -/
structure LifeInv (s : Scan) : Prop where
  life : s.LifeOk
  issue : ∀ t k p, s.pc t = .issue k p → t = .task ∧ s.Newest k
  failed : ∀ t k, s.pc t = .failed k → t = .task ∧ s.Newest k

variable {s s' : Scan} {t : ScanCaller} {k : Nat} {err : Errno}

@[simp] theorem goto_pc_self (s : Scan) (t : ScanCaller) (pc : EscanPc) : (s.goto t pc).pc t = pc :=
  update_self ..

theorem lifeInv_attached : LifeInv attached := by
  refine ⟨⟨rfl, ?_⟩, nofun, nofun⟩
  intro r hr
  cases hr

/-- A caller that is not at the IOVAR of a START, nor behind it. -/
theorem LifeInv.goto {pc : EscanPc} (h : LifeInv s) (hi : ∀ k p, pc ≠ .issue k p) (hf : ∀ k, pc ≠ .failed k) :
    LifeInv (s.goto t pc) := by
  refine ⟨⟨h.life.active, h.life.done⟩, ?_, ?_⟩
  · intro u k p hu
    by_cases hut : u = t
    · subst hut
      rw [goto_pc_self] at hu
      exact (hi k p hu).elim
    · exact h.issue u k p ((update_of_ne hut _ _).symm.trans hu)
  · intro u k hu
    by_cases hut : u = t
    · subst hut
      rw [goto_pc_self] at hu
      exact (hf k hu).elim
    · exact h.failed u k ((update_of_ne hut _ _).symm.trans hu)

theorem LifeInv.finish (h : LifeInv s) (hk : s.Newest k ∨ s.ended = true) : LifeInv (s.finish k) := by
  refine ⟨⟨?_, h.life.done⟩, h.issue, h.failed⟩
  rcases hk with hk | hk <;> simp [Scan.finish, hk]

theorem lifeInv_start {ssid : List UInt8} (h : LifeInv s) : LifeInv (s.start ssid) := by
  refine ⟨⟨rfl, h.life.done⟩, ?_, ?_⟩
  · intro u k p hu
    cases u with
    | task =>
      have he : EscanPc.issue s.started (startParams s.escanSyncId ssid) = .issue k p := hu
      cases he
      exact ⟨rfl, rfl⟩
    | auth => cases (h.issue .auth k p hu).1
  · intro u k hu
    cases u with
    | task =>
      have he : EscanPc.issue s.started (startParams s.escanSyncId ssid) = .failed k := hu
      cases he
    | auth => cases (h.failed .auth k hu).1

theorem lifeInv_next (h : LifeInv s) (hs : s.next t err = some s') : LifeInv s' := by
  unfold next at hs
  cases hc : s.pc t with
  | idle =>
    rw [hc] at hs
    cases hs
  | issue k p =>
    rw [hc] at hs
    cases hs
    have hk := h.issue t k p hc
    have h' : LifeInv { s with requests := p :: s.requests } := ⟨⟨h.life.active, h.life.done⟩, h.issue, h.failed⟩
    split
    · exact h'.goto nofun nofun
    · refine ⟨⟨h.life.active, h.life.done⟩, ?_, ?_⟩
      · intro u j q hu
        by_cases hut : u = t
        · subst hut
          rw [goto_pc_self] at hu
          cases hu
        · exact h.issue u j q ((update_of_ne hut _ _).symm.trans hu)
      · intro u j hu
        by_cases hut : u = t
        · subst hut
          rw [goto_pc_self] at hu
          cases hu
          exact hk
        · exact h.failed u j ((update_of_ne hut _ _).symm.trans hu)
  | failed k =>
    rw [hc] at hs
    cases hs
    exact (h.finish (.inl (h.failed t k hc).2)).goto nofun nofun
  | clear =>
    rw [hc] at hs
    cases hs
    have h' : LifeInv { s with scanActive := false, ended := true } := ⟨⟨rfl, h.life.done⟩, h.issue, h.failed⟩
    exact h'.goto nofun nofun
  | abort p =>
    rw [hc] at hs
    cases hs
    have h' : LifeInv { s with requests := p :: s.requests } := ⟨⟨h.life.active, h.life.done⟩, h.issue, h.failed⟩
    exact h'.goto nofun nofun

theorem lifeInv_step {a : ScanAct} (h : LifeInv s) (hok : EndOk s a) (hs : s.step a = some s') : LifeInv s' := by
  cases a with
  | start ssid =>
    simp only [step] at hs
    split at hs
    · cases hs
      exact lifeInv_start h
    · cases hs
  | abort t =>
    simp only [step] at hs
    split at hs
    · cases hs
      split
      · exact h.goto nofun nofun
      · exact h
    · cases hs
  | next t err => exact lifeInv_next h hs
  | event status k =>
    simp only [step, Option.ite_none_right_eq_some, Option.some.injEq] at hs
    obtain ⟨-, rfl⟩ := hs
    unfold event
    split
    · next hst =>
      have h' := h.finish (hok hst)
      exact ⟨⟨h'.life.active, h'.life.done⟩, h'.issue, h'.failed⟩
    · exact h
  | scanDone vap =>
    simp only [step, Option.map_eq_some_iff] at hs
    obtain ⟨k, hk, rfl⟩ := hs
    refine ⟨⟨h.life.active, ?_⟩, h.issue, h.failed⟩
    intro r hr
    cases vap with
    | false => exact h.life.done r hr
    | true =>
      rcases List.mem_cons.1 hr with rfl | hr
      · exact hok rfl k hk
      · exact h.life.done r hr

/-- An end attributed to the wrong scan shows in the state it leaves. -/
theorem endOk_of_lifeOk {a : ScanAct} (h : LifeOk s') (hs : s.step a = some s') : EndOk s a := by
  cases a with
  | event status k =>
    simp only [step, Option.ite_none_right_eq_some, Option.some.injEq] at hs
    obtain ⟨-, rfl⟩ := hs
    intro hst
    have ha := h.active
    unfold event at ha
    rw [if_pos hst] at ha
    cases ho : s.ended with
    | true => exact .inr rfl
    | false => exact .inl (by simpa [Scan.finish, ho] using ha)
  | scanDone vap =>
    intro hv k hk
    subst hv
    simp only [step, hk, Option.map_some, Option.some.injEq] at hs
    subst hs
    exact h.done ⟨k, s.started⟩ List.mem_cons_self
  | _ => trivial

/-- **`scan_active` follows the newest scan exactly as long as no other one is reported to end.** For every
interleaving of `cyw_do_escan`, `cyw_abort_escan` from both callers and the events, with any results of the IOVARs:
`scan_active` is set while the newest scan has neither failed nor been aborted nor ended, and only then, and
`ieee80211_scan_done` is called for the newest scan only, if and only if the end of a scan is reported while it is the
newest or the newest is over, and while it is the newest where there is a VAP. -/
theorem scan_life_iff (as : List ScanAct) : AllStates step LifeOk attached as ↔ AllSteps step EndOk attached as := by
  refine allStates_iff (I := LifeInv) ?_ (fun s h => h.life) ?_ lifeInv_attached
  · intro s a s' h hok hs
    exact lifeInv_step h hok hs
  · intro s a s' _ hs h
    exact endOk_of_lifeOk h hs

/-- A scan is aborted, another one started, and then the end of the first is reported. -/
theorem scan_late_end : ∃ t, run step attached
    [.start [], .next .task 0, .abort .auth, .next .auth 0, .next .auth 0, .start [], .next .task 0,
      .event 4 0, .scanDone true] = some t ∧
      t.scanActive = false ∧ t.ended = false ∧ t.done.map DoneRecord.scan = [0] ∧ ¬t.LifeOk := by
  refine ⟨_, rfl, rfl, rfl, rfl, ?_⟩
  intro h
  cases h.active

end Scan

end Cyw
