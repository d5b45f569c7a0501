import Rpi5Modules.Gpio.Defs
import Rpi5Modules.Lib.CString

/-!
# Names of the pins

`rp1_gpio_parse_pin_names` walks over the strings of the property `gpio-line-names` with a bounded `strnlen`, but
compares and copies them with `strcmp` and `strlcpy`, which stop at a NUL only. A last string without its NUL that is
some pin's makes it read behind the property; otherwise each pin gets its string (`line_names_iff`).
-/

namespace Gpio

open BufProg CString

def gpioMaxName : Nat := 64

/-- `"-"`. -/
def dash : List UInt8 := [0x2d]

/-- `"pin%d"`. -/
def pinName (i : Nat) : List UInt8 := [0x70, 0x69, 0x6e] ++ (Nat.toDigits 10 i).map fun c => UInt8.ofNat c.toNat

/-- `p >= end || *p == '\0' || strcmp(p, "-") == 0`, with `p` at offset `p` and `end` at `slen`. -/
def unnamedAt (slen p : Nat) : BufProg Bool :=
  if p ≥ slen then pure true
  else do
    let c ← byte p
    if c = 0 then pure true else strcmpEq p dash

/-- The name of the pin `i`. -/
def nameAt (fuel slen i p : Nat) : BufProg (List UInt8) := do
  let unnamed ← unnamedAt slen p
  if unnamed then pure (pinName i) else strlcpy fuel p (gpioMaxName - 1)

/-- `if (p < end) p += strnlen(p, end - p) + 1;` -/
def advance (slen p : Nat) : BufProg Nat :=
  if p < slen then do
    let k ← strnlen p (slen - p)
    pure (p + (k + 1))
  else pure p

/-- The loop, for the `n` pins from `i` on. -/
def parseLoop (fuel slen : Nat) : (n i p : Nat) → BufProg (List (List UInt8))
  | 0, _, _ => pure []
  | n + 1, i, p => do
    let name ← nameAt fuel slen i p
    let p ← advance slen p
    let names ← parseLoop fuel slen n (i + 1) p
    pure (name :: names)

/-- `rp1_gpio_parse_pin_names(sc, node)` on the buffer of `OF_getprop_alloc`, with what that returned: the names of the
pins. A `strlcpy` that finds no NUL is followed for `fuel` bytes. -/
def rp1GpioParsePinNames (fuel : Nat) (slen : Int) : BufProg (List (List UInt8)) :=
  if slen > 0 then parseLoop fuel slen.toNat rp1NumGpios.toNat 0 0
  else pure ((List.range rp1NumGpios.toNat).map pinName)

/-! ## What the names are to be -/

/-- The name of the pin `i` for its string, if there is one. -/
def lineName (i : Nat) : Option (List UInt8) → List UInt8
  | none => pinName i
  | some s => if s = [] ∨ s = dash then pinName i else s.take (gpioMaxName - 1)

/-- The names of the `n` pins from `i` on, for the strings there are for them. -/
def lineNames : (n i : Nat) → List (List UInt8) → List (List UInt8)
  | 0, _, _ => []
  | n + 1, i, strings => lineName i strings.head? :: lineNames n (i + 1) strings.tail

theorem getElem?_lineNames {n i j : Nat} (strings : List (List UInt8)) (hj : j < n) :
    (lineNames n i strings)[j]? = some (lineName (i + j) strings[j]?) := by
  induction n generalizing i j strings with
  | zero => exact absurd hj (Nat.not_lt_zero j)
  | succ n ih =>
    cases j with
    | zero =>
      rw [lineNames, List.getElem?_cons_zero, List.head?_eq_getElem?]
      rfl
    | succ j =>
      rw [lineNames, List.getElem?_cons_succ, ih _ (Nat.lt_of_succ_lt_succ hj), List.getElem?_tail, Nat.add_right_comm]
      rfl

/-! ## One name -/

variable {b : Nat → UInt8} {fuel slen n i p : Nat} {r s : List UInt8}

theorem zero_not_mem_dash : (0 : UInt8) ∉ dash := by decide

/-- A terminated string is read up to its NUL, and is the name. -/
theorem nameAt_terminated (h : Lies b p (s ++ [0])) (hs : 0 ∉ s) (hslen : p + s.length < slen) (hf : s.length < fuel) :
    (nameAt fuel slen i p).result b = lineName i (some s) ∧ (nameAt fuel slen i p).Within b slen := by
  have hp : p < slen := by omega
  obtain ⟨hcmp, hcmp'⟩ := strcmpEq_terminated (n := slen) h hs zero_not_mem_dash
  obtain ⟨hcpy, hcpy'⟩ := strlcpy_terminated (n := slen) (gpioMaxName - 1) h hs hf
  unfold nameAt unnamedAt lineName
  rw [if_neg (Nat.not_le.2 hp)]
  cases s with
  | nil =>
    have h₀ : b p = 0 := lies_singleton.1 h
    simp only [result_bind, result_byte, h₀, if_true, result_pure, within_bind, within_byte, within_pure, and_true,
      true_or]
    exact ⟨trivial, hp⟩
  | cons x s =>
    have hx : b p ≠ 0 := by
      rw [List.cons_append, lies_cons] at h
      rw [h.1]
      exact fun hx => hs (hx ▸ List.mem_cons_self)
    simp only [result_bind, result_byte, hx, if_false, within_bind, within_byte, hcmp' hslen]
    by_cases hd : x :: s = dash
    · rw [if_pos (hcmp.2 hd), if_pos (.inr hd)]
      exact ⟨rfl, ⟨hp, trivial⟩, within_pure _⟩
    · rw [if_neg (mt hcmp.1 hd), if_neg (not_or.2 ⟨List.cons_ne_nil x s, hd⟩)]
      exact ⟨hcpy, ⟨hp, trivial⟩, hcpy' hslen⟩

/-- Of a string without its NUL the byte behind the property is read. -/
theorem not_within_nameAt (h : Lies b p s) (hs : 0 ∉ s) (hne : s ≠ []) (hf : s.length < fuel) :
    ¬(nameAt fuel (p + s.length) i p).Within b (p + s.length) := by
  obtain ⟨x, t, rfl⟩ := List.exists_cons_of_ne_nil hne
  have hcpy := not_within_strlcpy (gpioMaxName - 1) h hs hf
  have hp : ¬p ≥ p + (x :: t).length := by
    rw [List.length_cons]
    omega
  rw [lies_cons] at h
  have hx : b p ≠ 0 := by
    rw [h.1]
    exact fun hx => hs (hx ▸ List.mem_cons_self)
  intro hw
  obtain ⟨hunnamed, hname⟩ := within_bind.1 hw
  unfold unnamedAt at hunnamed hname
  rw [if_neg hp] at hunnamed hname
  obtain ⟨-, hcmp⟩ := within_bind.1 hunnamed
  rw [result_byte, if_neg hx] at hcmp
  rw [result_bind, result_byte, if_neg hx] at hname
  have hdiff : (strcmpEq p dash).result b = false := by
    by_cases hd : b p = 0x2d
    · simp only [strcmpEq, dash, within_bind, within_byte, result_byte, hd, if_true] at hcmp
      simp only [strcmpEq, dash, result_bind, result_byte, hd, if_true, result_pure]
      cases t with
      | nil => exact absurd hcmp.2.1 (Nat.lt_irrefl _)
      | cons y t =>
        have hy : b (p + 1) ≠ 0 := by
          rw [(lies_cons.1 h.2).1]
          exact fun hy => hs (hy ▸ List.mem_cons_of_mem x List.mem_cons_self)
        exact decide_eq_false hy
    · simp only [strcmpEq, dash, result_bind, result_byte, hd, if_false, result_pure]
  rw [hdiff] at hname
  exact hcpy hname

/-! ## The loop -/

/-- Behind the property every pin gets its default name. -/
theorem parseLoop_end (fuel n i : Nat) (hp : slen ≤ p) : (parseLoop fuel slen n i p).result b = lineNames n i [] ∧
    (parseLoop fuel slen n i p).Within b slen := by
  induction n generalizing i with
  | zero => exact ⟨rfl, within_pure _⟩
  | succ n ih =>
    obtain ⟨hr, hw⟩ := ih (i + 1)
    have hname : nameAt fuel slen i p = pure (pinName i) := by
      unfold nameAt unnamedAt
      rw [if_pos hp]
      rfl
    have hadvance : advance slen p = pure p := if_neg (Nat.not_lt.2 hp)
    simp only [parseLoop, hname, hadvance, result_bind, result_pure, hr, within_bind, within_pure, hw, and_self]
    exact ⟨rfl, trivial⟩

/-- One round over a terminated string. -/
theorem parseLoop_terminated (n i : Nat) (h : Lies b p (s ++ [0])) (hs : 0 ∉ s) (hslen : p + s.length < slen)
    (hf : s.length < fuel) : (parseLoop fuel slen (n + 1) i p).result b =
      lineName i (some s) :: (parseLoop fuel slen n (i + 1) (p + (s.length + 1))).result b ∧
        ((parseLoop fuel slen (n + 1) i p).Within b slen ↔
          (parseLoop fuel slen n (i + 1) (p + (s.length + 1))).Within b slen) := by
  obtain ⟨hname, hname'⟩ := nameAt_terminated (i := i) h hs hslen hf
  obtain ⟨hlen, hlen'⟩ := strnlen_terminated (n := slen) h hs (show s.length < slen - p by omega)
  have hadvance : advance slen p = strnlen p (slen - p) >>= fun k => pure (p + (k + 1)) := if_pos (by omega)
  simp only [parseLoop, hadvance, result_bind, hname, hlen, result_pure, within_bind, hname', hlen'.2 hslen,
    within_pure, and_true, true_and]

/-- The pins' strings have their NULs: the rest of the property ends with one, or has one for each pin. -/
def Closed (n : Nat) (r : List UInt8) : Prop := r = [] ∨ r.getLast? = some 0 ∨ n ≤ r.count 0

instance (n : Nat) (r : List UInt8) : Decidable (Closed n r) := inferInstanceAs (Decidable (_ ∨ _))

/-- A string without its NUL is not there, or nobody's. -/
theorem Closed.zero_mem (h : Closed (n + 1) r) (hr : r ≠ []) : 0 ∈ r := by
  rcases h with h | h | h
  · exact (hr h).elim
  · exact List.mem_of_getLast? h
  · exact List.count_pos_iff.1 (Nat.lt_of_lt_of_le (Nat.succ_pos n) h)

theorem closed_succ {ys : List UInt8} (hs : 0 ∉ s) : Closed (n + 1) (s ++ 0 :: ys) ↔ Closed n ys := by
  have hcount : (s ++ 0 :: ys).count 0 = ys.count 0 + 1 := by
    rw [List.count_append, List.count_eq_zero_of_not_mem hs, List.count_cons_self, Nat.zero_add]
  unfold Closed
  rw [hcount, Nat.add_le_add_iff_right]
  cases ys with
  | nil => simp
  | cons y ys => simp

/-- **The loop gives each pin its string exactly if the pins' strings have their NULs.** -/
theorem parseLoop_iff (hb : Lies b p r) (hslen : slen = p + r.length) (hf : r.length < fuel) :
    (parseLoop fuel slen n i p).Within b slen ∧
      (parseLoop fuel slen n i p).result b = lineNames n i (r.splitOn 0) ↔ Closed n r := by
  induction n generalizing i p r with
  | zero => exact iff_of_true ⟨within_pure _, rfl⟩ (.inr (.inr (Nat.zero_le _)))
  | succ n ih =>
    by_cases hr : r = []
    · subst hr
      obtain ⟨hres, hw⟩ := parseLoop_end (b := b) fuel (n + 1) i (Nat.le_of_eq hslen)
      exact iff_of_true ⟨hw, hres⟩ (.inl rfl)
    rcases split_cases r with ⟨h0, -⟩ | ⟨s, ys, rfl, hs, hsplit⟩
    · refine iff_of_false (fun hw => ?_) fun hc => h0 (hc.zero_mem hr)
      subst hslen
      exact not_within_nameAt hb h0 hr hf (within_bind.1 hw.1).1
    · obtain ⟨hbs, hbys⟩ := lies_append.1 hb
      rw [lies_cons] at hbys
      rw [List.length_append, List.length_cons] at hslen hf
      have hterm : Lies b p (s ++ [0]) := lies_append.2 ⟨hbs, lies_singleton.2 hbys.1⟩
      have hlies : Lies b (p + (s.length + 1)) ys := hbys.2
      obtain ⟨hres, hw⟩ := parseLoop_terminated n i hterm hs (show p + s.length < slen by omega)
        (show s.length < fuel by omega)
      rw [hres, hw, hsplit, closed_succ hs, ← ih (i := i + 1) hlies (by omega) (by omega)]
      apply and_congr_right
      intro _
      exact List.cons_inj_right _

/-! ## The property -/

/-- The buffer of the property, with what lies behind it. -/
def buffer (prop : List UInt8) (beyond : Nat → UInt8) (i : Nat) : UInt8 :=
  if h : i < prop.length then prop.get ⟨i, h⟩ else beyond i

theorem lies_buffer (prop : List UInt8) (beyond : Nat → UInt8) : Lies (buffer prop beyond) 0 prop := by
  intro k hk
  unfold buffer
  rw [Nat.zero_add, dif_pos hk]

/-- `rp1_gpio_parse_pin_names` reads nothing from `slen` on and gives each pin its string, or the default name. -/
structure LineNamesOk (fuel : Nat) (prop : List UInt8) (beyond : Nat → UInt8) : Prop where
  within : (rp1GpioParsePinNames fuel prop.length).Within (buffer prop beyond) prop.length
  names : ∀ i, i < rp1NumGpios.toNat →
    ((rp1GpioParsePinNames fuel prop.length).result (buffer prop beyond))[i]? =
      some (lineName i (prop.splitOn 0)[i]?)

theorem length_parseLoop (b : Nat → UInt8) : ((parseLoop fuel slen n i p).result b).length = n := by
  induction n generalizing i p with
  | zero => rfl
  | succ n ih => simp [parseLoop, ih]

theorem length_lineNames (n i : Nat) (strings : List (List UInt8)) : (lineNames n i strings).length = n := by
  induction n generalizing i strings with
  | zero => rfl
  | succ n ih => simp [lineNames, ih]

/-- **Pins get their names exactly if their strings have their NULs.** For every property and whatever lies behind it:
nothing from its end on is read, and each of the 54 pins gets its string, cut to the size of a name, or the default name
for a string that is missing, empty or a dash, if and only if the property is empty, ends with a NUL or has at least 54
of them. -/
theorem line_names_iff (prop : List UInt8) (beyond : Nat → UInt8) (rest : Nat) :
    LineNamesOk (prop.length + 1 + rest) prop beyond ↔ Closed rp1NumGpios.toNat prop := by
  have hlies := lies_buffer prop beyond
  by_cases hp : prop = []
  · subst hp
    refine iff_of_true ⟨within_pure _, fun i hi => ?_⟩ (.inl rfl)
    have hdefault : lineName i (([] : List UInt8).splitOn 0)[i]? = pinName i := by
      cases i with
      | zero => rfl
      | succ i => rfl
    rw [hdefault]
    show ((List.range rp1NumGpios.toNat).map pinName)[i]? = some (pinName i)
    rw [List.getElem?_map, List.getElem?_range hi]
    rfl
  · have hpos : (prop.length : Int) > 0 := Int.natCast_pos.2 (List.length_pos_iff.2 hp)
    have hparse : rp1GpioParsePinNames (prop.length + 1 + rest) prop.length =
        parseLoop (prop.length + 1 + rest) prop.length rp1NumGpios.toNat 0 0 := if_pos hpos
    rw [← parseLoop_iff (i := 0) hlies (Nat.zero_add _).symm (show prop.length < prop.length + 1 + rest by omega)]
    constructor
    · rintro ⟨hw, hn⟩
      rw [hparse] at hw hn
      refine ⟨hw, List.ext_getElem? fun i => ?_⟩
      by_cases hi : i < rp1NumGpios.toNat
      · rw [hn i hi, getElem?_lineNames _ hi, Nat.zero_add]
      · rw [List.getElem?_eq_none (by rw [length_parseLoop]; exact Nat.not_lt.1 hi),
          List.getElem?_eq_none (by rw [length_lineNames]; exact Nat.not_lt.1 hi)]
    · rintro ⟨hw, hn⟩
      refine ⟨hparse ▸ hw, fun i hi => ?_⟩
      rw [hparse, hn, getElem?_lineNames _ hi, Nat.zero_add]

/-- `"GPIO0"` without its NUL: `strlcpy` reads behind it. -/
theorem line_names_open : ¬LineNamesOk 6 [0x47, 0x50, 0x49, 0x4f, 0x30] fun _ => 0 := by
  intro h
  exact absurd h.within (by decide +kernel)

end Gpio
