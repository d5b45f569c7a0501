import Rpi5Modules.Gpio.Defs
import Rpi5Modules.Lib.Components

/-!
# Pins are independent

A pin is its CTRL and pad registers and its bits in OE and OUT of its bank. `Pin.step` says what a call does to the pin
it is about, without banks, offsets and aliases; the driver takes each pin through the run of that machine, whatever is
done to the others in between (`pins_local`).
-/

namespace Gpio

open Flags Function Components

/-! ## Stores to SYS_RIO -/

section Rio

variable {rio : Nat → U32} {bank reg : Nat} {val : U32}

/-- A store at an alias changes the register behind it. -/
theorem rioStore_alias (rio : Nat → U32) (bank : Nat) (val : U32) (hr : reg < 0x1000) (k : Nat) (hk : k < 4) :
    rioStore rio (rp1RioOff bank (k * 0x1000) reg) val = update rio (rp1RioOff bank rp1RioRw reg)
      (if k = 0 then val
      else if k = 1 then rio (rp1RioOff bank rp1RioRw reg) ^^^ val
      else if k = 2 then rio (rp1RioOff bank rp1RioRw reg) ||| val
      else rio (rp1RioOff bank rp1RioRw reg) &&& ~~~val) := by
  have hoff : rp1RioOff bank (k * 0x1000) reg / 0x4000 * 0x4000 + rp1RioOff bank (k * 0x1000) reg % 0x1000 =
      rp1RioOff bank rp1RioRw reg := by
    unfold rp1RioOff rp1BankOffset rp1RioRw
    omega
  have hal : rp1RioOff bank (k * 0x1000) reg % 0x4000 / 0x1000 = k := by
    unfold rp1RioOff rp1BankOffset
    omega
  unfold rioStore
  dsimp only
  rw [hoff, hal]

theorem rioStore_xor (hr : reg < 0x1000) : rioStore rio (rp1RioOff bank rp1RioXor reg) val =
    update rio (rp1RioOff bank rp1RioRw reg) (rio (rp1RioOff bank rp1RioRw reg) ^^^ val) :=
  rioStore_alias rio bank val hr 1 (by decide)

theorem rioStore_set (hr : reg < 0x1000) : rioStore rio (rp1RioOff bank rp1RioSet reg) val =
    update rio (rp1RioOff bank rp1RioRw reg) (rio (rp1RioOff bank rp1RioRw reg) ||| val) :=
  rioStore_alias rio bank val hr 2 (by decide)

theorem rioStore_clr (hr : reg < 0x1000) : rioStore rio (rp1RioOff bank rp1RioClr reg) val =
    update rio (rp1RioOff bank rp1RioRw reg) (rio (rp1RioOff bank rp1RioRw reg) &&& ~~~val) :=
  rioStore_alias rio bank val hr 3 (by decide)

/-- The bit of a pin in a register of SYS_RIO. -/
def rioBit (rio : Nat → U32) (pin : U32) (reg : Nat) : Prop :=
  HasFlag (rio (rp1RioOff (rp1GpioBank pin) rp1RioRw reg)) (rp1GpioPinInBank pin)

instance (rio : Nat → U32) (pin : U32) (reg : Nat) : Decidable (rioBit rio pin reg) :=
  inferInstanceAs (Decidable (HasFlag _ _))

variable {pin p : U32} {reg' : Nat}

theorem rioBit_update (hr : reg < 0x1000) (hr' : reg' < 0x1000) :
    rioBit (update rio (rp1RioOff (rp1GpioBank pin) rp1RioRw reg) val) p reg' ↔
      if rp1GpioBank p = rp1GpioBank pin ∧ reg' = reg then HasFlag val (rp1GpioPinInBank p) else rioBit rio p reg' := by
  have hoff : rp1RioOff (rp1GpioBank p) rp1RioRw reg' = rp1RioOff (rp1GpioBank pin) rp1RioRw reg ↔
      rp1GpioBank p = rp1GpioBank pin ∧ reg' = reg := by
    unfold rp1RioOff rp1BankOffset rp1RioRw
    omega
  unfold rioBit
  rw [update_apply]
  by_cases h : rp1GpioBank p = rp1GpioBank pin ∧ reg' = reg
  · rw [if_pos (hoff.2 h), if_pos h]
  · rw [if_neg (mt hoff.1 h), if_neg h]

theorem hasFlag_pinBit (hp : p < rp1NumGpios) :
    HasFlag (pinBit pin) (rp1GpioPinInBank p) ↔ rp1GpioPinInBank pin = rp1GpioPinInBank p := by
  have hlt := pinInBank_lt hp
  unfold pinBit
  rw [hasFlag_twoPow]
  exact and_iff_left (by omega)

/-- The bit that is written is the pin's own exactly if it is in the pin's bank. -/
theorem own_bit_iff (hp : p < rp1NumGpios) (hb : rp1GpioBank p = rp1GpioBank pin) :
    HasFlag (pinBit pin) (rp1GpioPinInBank p) ↔ p = pin := by
  rw [hasFlag_pinBit hp]
  exact ⟨fun h => pin_inj hb h.symm, fun h => h ▸ rfl⟩

/-- A register of the pin's bank of which only the pin's own bit changes. -/
theorem rioBit_update_own {q : Prop} (hr : reg < 0x1000) (hr' : reg' < 0x1000)
    (hval : rp1GpioBank p = rp1GpioBank pin → reg' = reg →
      (HasFlag val (rp1GpioPinInBank p) ↔ if p = pin then q else rioBit rio p reg')) :
    rioBit (update rio (rp1RioOff (rp1GpioBank pin) rp1RioRw reg) val) p reg' ↔
      if p = pin ∧ reg' = reg then q else rioBit rio p reg' := by
  rw [rioBit_update hr hr']
  by_cases h : rp1GpioBank p = rp1GpioBank pin ∧ reg' = reg
  · rw [if_pos h, hval h.1 h.2]
    simp only [h.2, and_true]
  · rw [if_neg h, if_neg fun h' => h ⟨congrArg rp1GpioBank h'.1, h'.2⟩]

/-- SET and CLR put the pin's own bit to a value. -/
theorem rioBit_put (b : Prop) [Decidable b] (hp : p < rp1NumGpios) (hr : reg < 0x1000) (hr' : reg' < 0x1000) :
    rioBit (rioStore rio (rp1RioOff (rp1GpioBank pin) (if b then rp1RioSet else rp1RioClr) reg) (pinBit pin)) p reg' ↔
      if p = pin ∧ reg' = reg then b else rioBit rio p reg' := by
  by_cases hb : b
  · rw [if_pos hb, rioStore_set hr]
    apply rioBit_update_own hr hr'
    intro hbank hreg
    rw [hasFlag_or, own_bit_iff hp hbank, ← hbank, ← hreg]
    by_cases hq : p = pin <;> simp [hq, hb, rioBit]
  · rw [if_neg hb, rioStore_clr hr]
    apply rioBit_update_own hr hr'
    intro hbank hreg
    rw [hasFlag_and_not, own_bit_iff hp hbank, ← hbank, ← hreg]
    by_cases hq : p = pin <;> simp [hq, hb, rioBit]

/-- XOR toggles it. -/
theorem rioBit_xor (hp : p < rp1NumGpios) (hr : reg < 0x1000) (hr' : reg' < 0x1000) :
    rioBit (rioStore rio (rp1RioOff (rp1GpioBank pin) rp1RioXor reg) (pinBit pin)) p reg' ↔
      if p = pin ∧ reg' = reg then ¬rioBit rio p reg' else rioBit rio p reg' := by
  rw [rioStore_xor hr]
  apply rioBit_update_own hr hr'
  intro hbank hreg
  rw [hasFlag_xor, own_bit_iff hp hbank, ← hbank, ← hreg]
  by_cases hq : p = pin <;> simp [hq, rioBit]

end Rio

/-! ## One pin -/

/-- A call of a method. -/
inductive Call where
  | getflags (pin : U32)
  | setflags (pin flags : U32)
  | get (pin : U32)
  | set (pin val : U32)
  | toggle (pin : U32)

def Call.pin : Call → U32
  | .getflags pin | .setflags pin _ | .get pin | .set pin _ | .toggle pin => pin

/-- The state a call returns with. -/
def exec (sc : Rp1GpioSoftc) : Call → Rp1GpioSoftc
  | .getflags pin => (rp1GpioPinGetflags sc pin).2.2
  | .setflags pin flags => (rp1GpioPinSetflags sc pin flags).2
  | .get pin => (rp1GpioPinGet sc pin).2.2
  | .set pin val => (rp1GpioPinSet sc pin val).2
  | .toggle pin => (rp1GpioPinToggle sc pin).2

/-- What the hardware has of a pin. -/
structure Pin where
  ctrl : U32
  pad : U32
  oe : Bool
  out : Bool
deriving DecidableEq

namespace Pin

/-- A call on the pin. -/
def step (x : Pin) : Call → Pin
  | .setflags _ flags =>
    if flags &&& (gpioPinInput ||| gpioPinOutput) = 0 then x
    else
      { x with
        ctrl := x.ctrl &&& ~~~(rp1CtrlFuncselMask ||| rp1CtrlOutoverMask ||| rp1CtrlOeoverMask) ||| rp1FselGpio
        pad := x.pad ||| rp1PadIe
        oe := flags &&& gpioPinOutput ≠ 0 }
  | .set _ val => { x with out := val ≠ 0 }
  | .toggle _ => { x with out := !x.out }
  | .getflags _ | .get _ => x

/-- What `rp1_gpio_pin_getflags` makes of the pin. -/
def flags (x : Pin) : U32 :=
  if x.ctrl &&& rp1CtrlFuncselMask = rp1FselGpio then if x.oe then gpioPinOutput else gpioPinInput else 0

end Pin

namespace Rp1GpioSoftc

/-- A pin as it is in the registers. -/
def pin (sc : Rp1GpioSoftc) (p : U32) : Pin where
  ctrl := sc.io (ctrlOff p)
  pad := sc.pad (padOff p)
  oe := rioBit sc.rio p rp1RioOe
  out := rioBit sc.rio p rp1RioOut

end Rp1GpioSoftc

section Calls

variable {sc : Rp1GpioSoftc} {c : Call} {pin p flags val : U32}

theorem setflags_eq (sc : Rp1GpioSoftc) (h : pin < rp1NumGpios) (hf : flags &&& (gpioPinInput ||| gpioPinOutput) ≠ 0) :
    ∃ al, (al = if flags &&& gpioPinOutput ≠ 0 then rp1RioSet else rp1RioClr) ∧
      exec sc (.setflags pin flags) =
        { io := update sc.io (ctrlOff pin) (sc.io (ctrlOff pin) &&&
            ~~~(rp1CtrlFuncselMask ||| rp1CtrlOutoverMask ||| rp1CtrlOeoverMask) ||| rp1FselGpio)
          rio := rioStore sc.rio (rp1RioOff (rp1GpioBank pin) al rp1RioOe) (pinBit pin)
          pad := update sc.pad (padOff pin) (sc.pad (padOff pin) ||| rp1PadIe)
          gpFlags := update sc.gpFlags pin
            (flags &&& (gpioPinInput ||| gpioPinOutput ||| gpioPinPullup ||| gpioPinPulldown))
          accesses := (.pad, padOff pin) :: (.pad, padOff pin) ::
            (.rio, rp1RioOff (rp1GpioBank pin) al rp1RioOe) :: (.io, ctrlOff pin) :: (.io, ctrlOff pin) ::
              sc.accesses } := by
  refine ⟨_, rfl, ?_⟩
  unfold exec rp1GpioPinSetflags
  dsimp only
  rw [if_neg (BitVec.not_le.2 h), if_neg hf]
  by_cases ho : flags &&& gpioPinOutput ≠ 0
  · simp only [if_pos ho, rp1IoRead, rp1IoWrite, rp1RioWrite, rp1PadRead, rp1PadWrite, Rp1GpioSoftc.access,
      Rp1GpioSoftc.setFlags]
  · simp only [if_neg ho, rp1IoRead, rp1IoWrite, rp1RioWrite, rp1PadRead, rp1PadWrite, Rp1GpioSoftc.access,
      Rp1GpioSoftc.setFlags]

/-- A call beyond the pins does nothing. -/
theorem exec_of_ge (h : ¬c.pin < rp1NumGpios) : exec sc c = sc := by
  cases c with
  | getflags q =>
    have hge : q ≥ rp1NumGpios := BitVec.not_lt.1 h
    unfold exec rp1GpioPinGetflags
    dsimp only
    rw [if_pos hge]
  | setflags q f =>
    have hge : q ≥ rp1NumGpios := BitVec.not_lt.1 h
    unfold exec rp1GpioPinSetflags
    dsimp only
    rw [if_pos hge]
  | get q =>
    have hge : q ≥ rp1NumGpios := BitVec.not_lt.1 h
    unfold exec rp1GpioPinGet
    dsimp only
    rw [if_pos hge]
  | set q v =>
    have hge : q ≥ rp1NumGpios := BitVec.not_lt.1 h
    unfold exec rp1GpioPinSet
    dsimp only
    rw [if_pos hge]
  | toggle q =>
    have hge : q ≥ rp1NumGpios := BitVec.not_lt.1 h
    unfold exec rp1GpioPinToggle
    dsimp only
    rw [if_pos hge]

/-- `rp1_gpio_pin_getflags` returns what there is of the pin, and changes nothing of any. -/
theorem getflags_eq (sc : Rp1GpioSoftc) (h : pin < rp1NumGpios) : (rp1GpioPinGetflags sc pin).1 = 0 ∧
    (rp1GpioPinGetflags sc pin).2.1 = some (sc.pin pin).flags ∧
      ∀ p, (rp1GpioPinGetflags sc pin).2.2.pin p = sc.pin p := by
  unfold rp1GpioPinGetflags
  rw [if_neg (BitVec.not_le.2 h)]
  by_cases hg : sc.io (ctrlOff pin) &&& rp1CtrlFuncselMask = rp1FselGpio
  · have hflags : (sc.pin pin).flags = if rioBit sc.rio pin rp1RioOe then gpioPinOutput else gpioPinInput := by
      unfold Pin.flags
      rw [if_pos (show (sc.pin pin).ctrl &&& rp1CtrlFuncselMask = rp1FselGpio from hg)]
      simp only [Rp1GpioSoftc.pin, decide_eq_true_eq]
    rw [hflags]
    dsimp only
    rw [if_pos (show (rp1IoRead sc pin).1 &&& rp1CtrlFuncselMask = rp1FselGpio from hg)]
    exact ⟨rfl, rfl, fun _ => rfl⟩
  · have hflags : (sc.pin pin).flags = 0 := if_neg hg
    rw [hflags]
    dsimp only
    rw [if_neg (show ¬(rp1IoRead sc pin).1 &&& rp1CtrlFuncselMask = rp1FselGpio from hg)]
    exact ⟨rfl, rfl, fun _ => rfl⟩

theorem get_eq (h : pin < rp1NumGpios) : exec sc (.get pin) =
    sc.access .rio (rp1RioOff (rp1GpioBank pin) rp1RioRw rp1RioInSync) := by
  unfold exec rp1GpioPinGet
  dsimp only
  rw [if_neg (BitVec.not_le.2 h)]
  rfl

theorem set_eq (h : pin < rp1NumGpios) : exec sc (.set pin val) =
    rp1RioWrite sc (rp1GpioBank pin) (if val ≠ 0 then rp1RioSet else rp1RioClr) rp1RioOut (pinBit pin) := by
  unfold exec rp1GpioPinSet
  dsimp only
  rw [if_neg (BitVec.not_le.2 h)]

theorem toggle_eq (h : pin < rp1NumGpios) : exec sc (.toggle pin) =
    rp1RioWrite sc (rp1GpioBank pin) rp1RioXor rp1RioOut (pinBit pin) := by
  unfold exec rp1GpioPinToggle
  dsimp only
  rw [if_neg (BitVec.not_le.2 h)]

/-- A pin is known by its registers and bits. -/
theorem pin_ext {sc' : Rp1GpioSoftc} {x : Pin} (hctrl : sc'.io (ctrlOff p) = x.ctrl) (hpad : sc'.pad (padOff p) = x.pad)
    (hoe : rioBit sc'.rio p rp1RioOe ↔ x.oe = true) (hout : rioBit sc'.rio p rp1RioOut ↔ x.out = true) :
    sc'.pin p = x := by
  obtain ⟨ctrl, pad, oe, out⟩ := x
  unfold Rp1GpioSoftc.pin
  rw [hctrl, hpad]
  simp only [hoe, hout, Bool.decide_eq_true]

theorem rio_rp1RioWrite (bank al reg : Nat) :
    (rp1RioWrite sc bank al reg val).rio = rioStore sc.rio (rp1RioOff bank al reg) val := rfl

theorem reg_lt : rp1RioOe < 0x1000 ∧ rp1RioOut < 0x1000 ∧ rp1RioOe ≠ rp1RioOut := by decide

/-- A store to OUT of the pin's bank that puts the pin's own bit to `b`. -/
theorem pin_rioWrite_out (al : Nat) (b : Bool)
    (h : ∀ reg', reg' < 0x1000 →
      (rioBit (rioStore sc.rio (rp1RioOff (rp1GpioBank pin) al rp1RioOut) (pinBit pin)) p reg' ↔
        if p = pin ∧ reg' = rp1RioOut then b = true else rioBit sc.rio p reg')) :
    (rp1RioWrite sc (rp1GpioBank pin) al rp1RioOut (pinBit pin)).pin p =
      if pin = p then { sc.pin p with out := b } else sc.pin p := by
  obtain ⟨hr, hr', hne⟩ := reg_lt
  by_cases hq : pin = p
  · rw [if_pos hq]
    refine pin_ext rfl rfl ?_ ?_
    · rw [rio_rp1RioWrite, h _ hr]
      simp [hne, Rp1GpioSoftc.pin]
    · rw [rio_rp1RioWrite, h _ hr']
      simp [hq]
  · rw [if_neg hq]
    refine pin_ext rfl rfl ?_ ?_
    · rw [rio_rp1RioWrite, h _ hr]
      simp [hne, Rp1GpioSoftc.pin]
    · rw [rio_rp1RioWrite, h _ hr']
      simp [Ne.symm hq, Rp1GpioSoftc.pin]

theorem pin_set (hp : p < rp1NumGpios) (h : pin < rp1NumGpios) : (exec sc (.set pin val)).pin p =
    if pin = p then (sc.pin p).step (.set pin val) else sc.pin p := by
  rw [set_eq h]
  apply pin_rioWrite_out _ (decide (val ≠ 0))
  intro reg' hr'
  rw [decide_eq_true_iff]
  exact rioBit_put _ hp reg_lt.2.1 hr'

theorem pin_toggle (hp : p < rp1NumGpios) (h : pin < rp1NumGpios) : (exec sc (.toggle pin)).pin p =
    if pin = p then (sc.pin p).step (.toggle pin) else sc.pin p := by
  rw [toggle_eq h]
  apply pin_rioWrite_out _ (!(sc.pin p).out)
  intro reg' hr'
  rw [rioBit_xor hp reg_lt.2.1 hr']
  by_cases hown : p = pin ∧ reg' = rp1RioOut
  · rw [if_pos hown, if_pos hown, hown.2]
    simp [Rp1GpioSoftc.pin]
  · rw [if_neg hown, if_neg hown]

theorem pin_setflags (hp : p < rp1NumGpios) (h : pin < rp1NumGpios) : (exec sc (.setflags pin flags)).pin p =
    if pin = p then (sc.pin p).step (.setflags pin flags) else sc.pin p := by
  obtain ⟨hr, hr', hne⟩ := reg_lt
  by_cases hf : flags &&& (gpioPinInput ||| gpioPinOutput) = 0
  · have hsame : exec sc (.setflags pin flags) = sc := by
      unfold exec rp1GpioPinSetflags
      dsimp only
      rw [if_neg (BitVec.not_le.2 h), if_pos hf]
    have hstep : (sc.pin p).step (.setflags pin flags) = sc.pin p := if_pos hf
    rw [hsame, hstep, ite_self]
  · obtain ⟨al, rfl, heq⟩ := setflags_eq sc h hf
    rw [heq]
    by_cases hq : pin = p
    · subst hq
      have hstep : (sc.pin pin).step (.setflags pin flags) = _ := if_neg hf
      rw [if_pos rfl, hstep]
      refine pin_ext ?_ ?_ ?_ ?_
      · dsimp only
        rw [update_self]
        rfl
      · dsimp only
        rw [update_self]
        rfl
      · rw [rioBit_put _ hp hr hr]
        simp
      · rw [rioBit_put _ hp hr hr']
        simp [hne.symm, Rp1GpioSoftc.pin]
    · rw [if_neg hq]
      have hctrl : ctrlOff p ≠ ctrlOff pin := fun h' => hq ((ctrlOff_inj hp h).1 h').symm
      have hpad : padOff p ≠ padOff pin := fun h' => hq ((padOff_inj hp h).1 h').symm
      refine pin_ext ?_ ?_ ?_ ?_
      · dsimp only
        rw [update_of_ne hctrl]
        rfl
      · dsimp only
        rw [update_of_ne hpad]
        rfl
      · rw [rioBit_put _ hp hr hr]
        simp [Ne.symm hq, Rp1GpioSoftc.pin]
      · rw [rioBit_put _ hp hr hr']
        simp [hne.symm, Rp1GpioSoftc.pin]

/-- **Each pin is a machine of its own.** -/
theorem pins_local (hp : p < rp1NumGpios) : Local exec (fun c => c.pin = p) (fun sc => sc.pin p) Pin.step := by
  intro sc c
  dsimp only
  by_cases hc : c.pin < rp1NumGpios
  · cases c with
    | getflags q =>
      rw [show exec sc (.getflags q) = (rp1GpioPinGetflags sc q).2.2 from rfl]
      rw [(getflags_eq sc (show q < rp1NumGpios from hc)).2.2 p]
      exact (ite_self _).symm
    | get q =>
      rw [get_eq (show q < rp1NumGpios from hc)]
      exact (ite_self _).symm
    | setflags q f => exact pin_setflags hp hc
    | set q v => exact pin_set hp hc
    | toggle q => exact pin_toggle hp hc
  · rw [exec_of_ge hc, if_neg]
    rintro rfl
    exact hc hp

/-- What one call does to a pin. -/
theorem pin_exec (hp : p < rp1NumGpios) (sc : Rp1GpioSoftc) (c : Call) :
    (exec sc c).pin p = if c.pin = p then (sc.pin p).step c else sc.pin p :=
  pins_local hp sc c

/-! ## Accesses -/

/-- An access that is for a pin: its CTRL, its pad, or a register of its bank in SYS_RIO, at any alias. -/
def OfPin (pin : U32) : Window × Nat → Prop
  | (.io, off) => off = ctrlOff pin
  | (.rio, off) => ∃ al reg, off = rp1RioOff (rp1GpioBank pin) al reg ∧ al ≤ rp1RioClr ∧ reg ≤ rp1RioInSync
  | (.pad, off) => off = padOff pin

/-- Such an access is inside its window. -/
theorem OfPin.inside (h : pin < rp1NumGpios) {a : Window × Nat} (ha : OfPin pin a) : a.2 + 4 ≤ rp1GpioRegionSize := by
  have hb := bank_lt pin
  have hi := pinInBank_lt h
  obtain ⟨w, off⟩ := a
  cases w with
  | io =>
    have hoff : off = ctrlOff pin := ha
    unfold ctrlOff rp1BankOffset rp1IoCtrl at hoff
    unfold rp1GpioRegionSize
    dsimp only
    omega
  | rio =>
    obtain ⟨al, reg, hoff, hal, hreg⟩ := ha
    unfold rp1RioOff rp1BankOffset at hoff
    unfold rp1RioClr at hal
    unfold rp1RioInSync at hreg
    unfold rp1GpioRegionSize
    dsimp only
    omega
  | pad =>
    have hoff : off = padOff pin := ha
    unfold padOff rp1PadOff rp1BankOffset at hoff
    unfold rp1GpioRegionSize
    dsimp only
    omega

/-- A call makes accesses for its own pin, if there is such a pin. -/
theorem exec_accesses (sc : Rp1GpioSoftc) (c : Call) :
    ∃ new, (exec sc c).accesses = new ++ sc.accesses ∧ ∀ a ∈ new, c.pin < rp1NumGpios ∧ OfPin c.pin a := by
  by_cases hc : c.pin < rp1NumGpios
  · have hrio : ∀ {al reg : Nat}, al ≤ rp1RioClr → reg ≤ rp1RioInSync →
        OfPin c.pin (.rio, rp1RioOff (rp1GpioBank c.pin) al reg) := fun hal hreg => ⟨_, _, rfl, hal, hreg⟩
    have hput : ∀ (b : Prop) [Decidable b], (if b then rp1RioSet else rp1RioClr) ≤ rp1RioClr := by
      intro b _
      split <;> decide
    cases c with
    | getflags q =>
      have hacc : (rp1GpioPinGetflags sc q).2.2.accesses = [(.io, ctrlOff q)] ++ sc.accesses ∨
          (rp1GpioPinGetflags sc q).2.2.accesses =
            [(.rio, rp1RioOff (rp1GpioBank q) rp1RioRw rp1RioOe), (.io, ctrlOff q)] ++ sc.accesses := by
        unfold rp1GpioPinGetflags
        rw [if_neg (BitVec.not_le.2 (show q < rp1NumGpios from hc))]
        dsimp only
        split
        · exact .inr rfl
        · exact .inl rfl
      rcases hacc with h | h
      · exact ⟨_, h, List.forall_mem_singleton.2 ⟨hc, rfl⟩⟩
      · exact ⟨_, h, List.forall_mem_cons.2 ⟨⟨hc, hrio (by decide) (by decide)⟩,
          List.forall_mem_singleton.2 ⟨hc, rfl⟩⟩⟩
    | setflags q f =>
      by_cases hf : f &&& (gpioPinInput ||| gpioPinOutput) = 0
      · refine ⟨[], ?_, List.forall_mem_nil _⟩
        unfold exec rp1GpioPinSetflags
        dsimp only
        rw [if_neg (BitVec.not_le.2 (show q < rp1NumGpios from hc)), if_pos hf]
        rfl
      · obtain ⟨al, rfl, heq⟩ := setflags_eq sc (show q < rp1NumGpios from hc) hf
        refine ⟨[_, _, _, _, _], congrArg Rp1GpioSoftc.accesses heq, ?_⟩
        simp only [List.forall_mem_cons]
        exact ⟨⟨hc, rfl⟩, ⟨hc, rfl⟩, ⟨hc, hrio (hput _) (by decide)⟩, ⟨hc, rfl⟩, ⟨hc, rfl⟩, List.forall_mem_nil _⟩
    | get q =>
      exact ⟨[_], congrArg Rp1GpioSoftc.accesses (get_eq (show q < rp1NumGpios from hc)),
        List.forall_mem_singleton.2 ⟨hc, hrio (by decide) (by decide)⟩⟩
    | set q v =>
      exact ⟨[_], congrArg Rp1GpioSoftc.accesses (set_eq (show q < rp1NumGpios from hc)),
        List.forall_mem_singleton.2 ⟨hc, hrio (hput _) (by decide)⟩⟩
    | toggle q =>
      exact ⟨[_], congrArg Rp1GpioSoftc.accesses (toggle_eq (show q < rp1NumGpios from hc)),
        List.forall_mem_singleton.2 ⟨hc, hrio (by decide) (by decide)⟩⟩
  · exact ⟨[], by rw [exec_of_ge hc]; rfl, List.forall_mem_nil _⟩

theorem foldl_accesses (calls : List Call) (sc : Rp1GpioSoftc) : ∀ a ∈ (calls.foldl exec sc).accesses,
    a ∈ sc.accesses ∨ ∃ c ∈ calls, c.pin < rp1NumGpios ∧ OfPin c.pin a := by
  induction calls generalizing sc with
  | nil => exact fun a ha => .inl ha
  | cons c calls ih =>
    intro a ha
    obtain ⟨new, heq, hnew⟩ := exec_accesses sc c
    rcases ih (exec sc c) a ha with h | ⟨b, hb, hbp⟩
    · rw [heq, List.mem_append] at h
      rcases h with h | h
      · exact .inr ⟨c, List.mem_cons_self, hnew a h⟩
      · exact .inl h
    · exact .inr ⟨b, List.mem_cons_of_mem c hb, hbp⟩

/-! ## The direction -/

/-- The direction an effective call of `rp1_gpio_pin_setflags` on the pin asks for. -/
def Call.direction (p : U32) : Call → Option U32
  | .setflags pin flags =>
    if pin = p ∧ flags &&& (gpioPinInput ||| gpioPinOutput) ≠ 0 then
      some (if flags &&& gpioPinOutput ≠ 0 then gpioPinOutput else gpioPinInput)
    else none
  | _ => none

/-- The function select that `rp1_gpio_pin_setflags` writes can be read back. -/
theorem funcsel_set (ctrl : U32) :
    (ctrl &&& ~~~(rp1CtrlFuncselMask ||| rp1CtrlOutoverMask ||| rp1CtrlOeoverMask) ||| rp1FselGpio) &&&
      rp1CtrlFuncselMask = rp1FselGpio := by
  have hmask : rp1FselGpio &&& rp1CtrlFuncselMask = rp1FselGpio := by decide
  apply eq_of_hasFlag
  intro k
  have hk : HasFlag rp1FselGpio k → HasFlag rp1CtrlFuncselMask k := fun h => (hasFlag_and.1 (hmask ▸ h)).2
  simp only [hasFlag_and (y := rp1CtrlFuncselMask), hasFlag_or, hasFlag_and_not]
  constructor
  · rintro ⟨⟨-, hno⟩ | h, hm⟩
    · exact (hno (.inl (.inl hm))).elim
    · exact h
  · exact fun h => ⟨.inr h, hk h⟩

/-- Only an effective call of `rp1_gpio_pin_setflags` on the pin changes what `rp1_gpio_pin_getflags` makes of it. -/
theorem flags_exec (hp : p < rp1NumGpios) (sc : Rp1GpioSoftc) (c : Call) :
    ((exec sc c).pin p).flags = (c.direction p).getD (sc.pin p).flags := by
  rw [pin_exec hp]
  cases c with
  | setflags q f =>
    unfold Call.pin Call.direction
    dsimp only
    by_cases hq : q = p
    · by_cases hf : f &&& (gpioPinInput ||| gpioPinOutput) = 0
      · rw [if_pos hq, if_neg fun h => h.2 hf]
        exact congrArg Pin.flags (if_pos hf)
      · rw [if_pos hq, if_pos ⟨hq, hf⟩]
        have hstep : (sc.pin p).step (.setflags q f) = _ := if_neg hf
        unfold Pin.flags
        rw [hstep]
        dsimp only
        rw [if_pos (funcsel_set _)]
        simp
    · rw [if_neg hq, if_neg fun h => hq h.1]
      rfl
  | getflags q | get q | set q v | toggle q =>
    unfold Call.direction
    split <;> rfl

end Calls

/-! ## Sequences of calls -/

/-- The driver as attach leaves it, whatever is in the registers. -/
def started (io rio pad : Nat → U32) (gpFlags : U32 → U32) : Rp1GpioSoftc := ⟨io, rio, pad, gpFlags, []⟩

/-- **GPIO pins are independent.** After any sequence of calls, on any pins: CTRL (with the function select and the
overrides) and the pad (with the input enable) of a pin, its direction and its output level are those after the calls on
that pin alone; every access was inside its window, at an address of the pin of some call; the CTRL and pad addresses of
two pins differ; and `rp1_gpio_pin_getflags` returns the direction of the last effective call of
`rp1_gpio_pin_setflags` on the pin. -/
theorem pins_independent (io rio pad : Nat → U32) (gpFlags : U32 → U32) (calls : List Call) :
    (∀ p, p < rp1NumGpios → (calls.foldl exec (started io rio pad gpFlags)).pin p =
      ((calls.filter fun c => c.pin = p).foldl exec (started io rio pad gpFlags)).pin p) ∧
      (∀ a ∈ (calls.foldl exec (started io rio pad gpFlags)).accesses, a.2 + 4 ≤ rp1GpioRegionSize ∧
        ∃ c ∈ calls, c.pin < rp1NumGpios ∧ OfPin c.pin a) ∧
      (∀ p q, p < rp1NumGpios → q < rp1NumGpios → p ≠ q → ctrlOff p ≠ ctrlOff q ∧ padOff p ≠ padOff q) ∧
      ∀ p, p < rp1NumGpios → ∀ dir, last (Call.direction p) calls = some dir →
        (rp1GpioPinGetflags (calls.foldl exec (started io rio pad gpFlags)) p).1 = 0 ∧
          (rp1GpioPinGetflags (calls.foldl exec (started io rio pad gpFlags)) p).2.1 = some dir := by
  refine ⟨fun p hp => (pins_local hp).view_filter calls _, ?_, ?_, ?_⟩
  · intro a ha
    rcases foldl_accesses calls _ a ha with h | ⟨c, hc, hpin, hof⟩
    · cases h
    · exact ⟨hof.inside hpin, c, hc, hpin, hof⟩
  · intro p q hp hq hne
    exact ⟨mt (ctrlOff_inj hp hq).1 hne, mt (padOff_inj hp hq).1 hne⟩
  · intro p hp dir hdir
    obtain ⟨hrc, hflags, -⟩ := getflags_eq (calls.foldl exec (started io rio pad gpFlags)) hp
    have hlast := get_foldl (fun sc : Rp1GpioSoftc => (sc.pin p).flags) (flags_exec hp) calls
      (started io rio pad gpFlags)
    rw [hdir] at hlast
    exact ⟨hrc, hflags.trans (congrArg some hlast)⟩

end Gpio
