import Rpi5Modules.Cyw.OneCaller

/-!
# The credit ceiling across the attach

`sdpcm_rx_max` is written in three places: `cyw_attach` seeds it with 4, `cyw_sdpcm_recv_one` stores the credit byte of
each frame it accepts, and `cyw_sdpcm_attach`, after all transactions of the boot, stores 4 once more. The model runs
`cyw_attach` from its seed on, one `cyw_sdpcm_recv_one` at a time (`Boot`), and then the system of `Runtime`.

The last store throws away what the firmware granted during the boot (`ceiling_reset`), so the ceiling is the
firmware's throughout exactly if the firmware grants 4 just then (`ceiling_iff`).
-/

namespace Cyw

open BufProg Transition

/-! ## The boot -/

/-- `sdpcm_rx_max` as `cyw_attach` and `cyw_sdpcm_attach` set it. -/
def sdpcmRxMaxSeed : UInt8 := 4

/-- Where `cyw_attach` is. -/
inductive AttachPc where
  /-- Outside `cyw_fil_txrx`. -/
  | between
  /-- In the drain loop of a transaction, at its test in round `i`. -/
  | drain (c : Call) (i : Nat)
  /-- The same, at `cyw_sdpcm_recv_one`. -/
  | drainRecv (c : Call) (i : Nat)
  | write (c : Call)
  /-- In the polling loop, at `cyw_sdpcm_recv_one` of round `i`. -/
  | poll (c : Call) (i : Nat)
  /-- It failed. -/
  | failed
  /-- It is done: `sdpcm_running` is set. -/
  | running

/-- The driver during and after `cyw_attach`. `last` is the credit byte of the frame accepted last. -/
structure Boot (ι : Type) where
  rt : Runtime ι
  attach : AttachPc
  last : Option UInt8

inductive BootAct (ι : Type) where
  /-- `cyw_fil_txrx` is called. -/
  | txrx (r : Req) (buf : Nat)
  /-- The test of the drain loop, and the one after it. -/
  | test
  /-- `cyw_sdpcm_recv_one` in one of the two loops. -/
  | recv (o : Recv)
  | write (err : Errno)
  /-- `cyw_sdpcm_attach`, up to `sdpcm_running = true`, or up to a queue that cannot be created. -/
  | sdpcmAttach (ok : Bool)
  /-- Something else fails. -/
  | fail
  | rt (a : Action ι)

namespace Boot

variable {ι : Type} [DecidableEq ι]

omit [DecidableEq ι] in
/-- After the seed of `cyw_attach`. -/
def init (ι : Type) (slot : IoctlSlot) : Boot ι :=
  ⟨Runtime.init ι slot 0 0 sdpcmRxMaxSeed, .between, none⟩

omit [DecidableEq ι] in
/-- A frame is accepted; `cyw_attach` goes on at `pc`. -/
def accept (s : Boot ι) (f : RxFrame) (pc : AttachPc) : Boot ι :=
  ⟨{ s.rt with sc := s.rt.sc.recvCredit f }, pc, some (sdpcmCredit.result f.buf)⟩

omit [DecidableEq ι] in
def recv (s : Boot ι) (o : Recv) : Option (Boot ι) :=
  match s.attach, o with
  | .drainRecv c i, .error e => some { s with attach := if e ≠ eagain then .between else .drain c (i + 1) }
  | .drainRecv c i, .ok f => some (s.accept f (.drain c (i + 1)))
  | .poll c i, .error e => some { s with attach := if e = eagain ∧ i + 1 < 300 then .poll c (i + 1) else .between }
  | .poll c i, .ok f =>
    let out := (cywFilTxrxPoll c.req c.id f.flen).result f.buf
    some (s.accept f (if out.isNone ∧ i + 1 < 300 then .poll c (i + 1) else .between))
  | _, _ => none

def step (s : Boot ι) : BootAct ι → Option (Boot ι)
  | .txrx r buf =>
    match s.attach with
    | .between =>
      let c := s.rt.sc.newCall r buf
      some { s with rt := { s.rt with sc := s.rt.sc.start c }, attach := .drain c 0 }
    | _ => none
  | .test =>
    match s.attach with
    | .drain c i =>
      if s.rt.sc.credit > 0 then some { s with attach := .write c }
      else some { s with attach := if i < 100 then .drainRecv c i else .between }
    | _ => none
  | .recv o => s.recv o
  | .write err =>
    match s.attach with
    | .write c =>
      let sc := { s.rt.sc with sdpcmTxSeq := s.rt.sc.sdpcmTxSeq + 1 }
      some { s with rt := { s.rt with sc := sc }, attach := if err ≠ 0 then .between else .poll c 0 }
    | _ => none
  | .sdpcmAttach ok =>
    match s.attach with
    | .between =>
      let sc := { s.rt.sc with sdpcmRxMax := sdpcmRxMaxSeed }
      some { s with rt := { s.rt with sc := sc }, attach := if ok then .running else .failed }
    | _ => none
  | .fail =>
    match s.attach with
    | .between => some { s with attach := .failed }
    | _ => none
  | .rt a =>
    match s.attach with
    | .running =>
      (s.rt.step a).map fun rt =>
        { s with
          rt := rt
          last := match a with
            | .recv f => some (sdpcmCredit.result f.buf)
            | _ => s.last }
    | _ => none

/-! ## Whose the ceiling is -/

omit [DecidableEq ι] in
/-- `sdpcm_rx_max` is the credit byte of the frame accepted last, and the seed before the first. -/
def Ceiling (s : Boot ι) : Prop := s.rt.sc.sdpcmRxMax = s.last.getD sdpcmRxMaxSeed

/-- `cyw_sdpcm_attach` comes before any frame, or when the last one granted just what it stores. -/
def SeedOk (s : Boot ι) : BootAct ι → Prop
  | .sdpcmAttach _ => s.last = none ∨ s.last = some sdpcmRxMaxSeed
  | _ => True

end Boot

/-- At run time `sdpcm_rx_max` moves with the frames that are accepted, and with nothing else. -/
theorem Core.Step.rxMax {c c' : Core} {a : Action Unit} (h : Core.Step c a c') :
    c'.sc.sdpcmRxMax = match a with
      | .recv f => sdpcmCredit.result f.buf
      | _ => c.sc.sdpcmRxMax := by
  cases h with
  | detach hp =>
    simp only [Softc.detach]
    split <;> rfl
  | _ => rfl

namespace Boot

variable {ι : Type} [DecidableEq ι] {s s' : Boot ι} {a : BootAct ι}

/-- The ceiling, and that the run-time system is one of those `Core` speaks of. -/
structure BootInv (s : Boot ι) : Prop where
  models : ∃ c, Core.Models s.rt c
  ceiling : s.Ceiling

theorem BootInv.with_sc (hi : s.BootInv) (sc : Softc) : ∃ c, Core.Models { s.rt with sc := sc } c := by
  obtain ⟨c, hm⟩ := hi.models
  exact ⟨_, hm.with_sc sc⟩

theorem bootInv_init (slot : IoctlSlot) : (Boot.init ι slot).BootInv := ⟨⟨_, Core.models_init slot 0 0 _⟩, rfl⟩

theorem bootInv_accept (hi : s.BootInv) (f : RxFrame) (pc : AttachPc) : (s.accept f pc).BootInv :=
  ⟨hi.with_sc _, rfl⟩

theorem bootInv_recv {o : Recv} (hi : s.BootInv) (hs : s.recv o = some s') : s'.BootInv := by
  unfold recv at hs
  split at hs
  · cases hs
    exact ⟨hi.models, hi.ceiling⟩
  · cases hs
    exact bootInv_accept hi _ _
  · cases hs
    exact ⟨hi.models, hi.ceiling⟩
  · cases hs
    exact bootInv_accept hi _ _
  · cases hs

theorem bootInv_rt {b : Action ι} (hi : s.BootInv) (hs : s.step (.rt b) = some s') : s'.BootInv := by
  simp only [step] at hs
  split at hs
  · obtain ⟨rt, h, rfl⟩ := Option.map_eq_some_iff.1 hs
    obtain ⟨c, hm⟩ := hi.models
    obtain ⟨c', hstep, hm'⟩ := Core.step_refines hm h
    refine ⟨⟨c', hm'⟩, ?_⟩
    have hrx := hstep.rxMax
    rw [← hm'.sc_eq, ← hm.sc_eq] at hrx
    have hc := hi.ceiling
    cases b with
    | recv f => exact hrx
    | _ => exact hrx.trans hc
  · cases hs

theorem bootInv_step (hi : s.BootInv) (hok : s.SeedOk a) (hs : s.step a = some s') : s'.BootInv := by
  cases a with
  | recv o => exact bootInv_recv hi hs
  | rt b => exact bootInv_rt hi hs
  | txrx r buf =>
    simp only [step] at hs
    split at hs
    · cases hs
      exact ⟨hi.with_sc _, hi.ceiling⟩
    · cases hs
  | test =>
    simp only [step] at hs
    split at hs
    · split at hs <;> cases hs <;> exact ⟨hi.models, hi.ceiling⟩
    · cases hs
  | write err =>
    simp only [step] at hs
    split at hs
    · cases hs
      exact ⟨hi.with_sc _, hi.ceiling⟩
    · cases hs
  | sdpcmAttach ok =>
    simp only [step] at hs
    split at hs
    · cases hs
      refine ⟨hi.with_sc _, ?_⟩
      rcases hok with h | h <;> simp [Ceiling, h]
    · cases hs
  | fail =>
    simp only [step] at hs
    split at hs
    · cases hs
      exact ⟨hi.models, hi.ceiling⟩
    · cases hs

/-- A store that leaves the ceiling right stores what the firmware granted. -/
theorem seedOk_of_ceiling (hc : s'.Ceiling) (hs : s.step a = some s') : s.SeedOk a := by
  cases a with
  | sdpcmAttach ok =>
    simp only [step] at hs
    split at hs
    · cases hs
      have hc : sdpcmRxMaxSeed = s.last.getD sdpcmRxMaxSeed := hc
      cases hl : s.last with
      | none => exact .inl hl
      | some b =>
        rw [hl] at hc
        exact .inr (hl.trans (congrArg some hc.symm))
    · cases hs
  | _ => trivial

/-- **The ceiling is the firmware's exactly if the firmware grants 4 when `cyw_sdpcm_attach` stores it.** In every run
of `cyw_attach` from its seed on and of the driver after it: all states have `sdpcm_rx_max` equal to the credit byte of
the frame accepted last (to the seed, before the first one) if and only if `cyw_sdpcm_attach` is reached with no frame
accepted before it, or with the last one granting 4. -/
theorem ceiling_iff (ι : Type) [DecidableEq ι] (slot : IoctlSlot) (as : List (BootAct ι)) :
    AllStates step Ceiling (Boot.init ι slot) as ↔ AllSteps step SeedOk (Boot.init ι slot) as := by
  refine allStates_iff (I := BootInv) ?_ (fun s hi => hi.ceiling) ?_ (bootInv_init slot)
  · intro s a s' hi hok hs
    exact bootInv_step hi hok hs
  · intro s a s' _ hs hc
    exact seedOk_of_ceiling hc hs

/-- A frame of zeros but for its credit byte. -/
def creditFrame (credit : UInt8) : RxFrame := ⟨28, fun i => if i = 9 then credit else 0⟩

/-- One transaction at boot, answered with ten credits; then `cyw_sdpcm_attach` takes the ceiling back to 4. -/
theorem ceiling_reset : ∃ s, run step (Boot.init Unit ⟨false, 0, none, 0, false, 0, 0⟩)
    [.txrx ⟨true, 4, 0⟩ 0, .test, .write 0, .recv (.ok (creditFrame 10)), .recv (.error eio), .sdpcmAttach true] =
      some s ∧ s.last = some 10 ∧ s.rt.sc.sdpcmRxMax = 4 ∧ ¬s.Ceiling := by
  refine ⟨_, rfl, rfl, rfl, ?_⟩
  intro h
  exact absurd (show (4 : UInt8) = 10 from h) (by decide)

end Boot

end Cyw
