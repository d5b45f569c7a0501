import Rpi5Modules.Eth.Fdt

/-!
# The first compatible node

A `compatible` property of at most 255 bytes is in `buf` with a NUL behind it, and the scan compares its strings one by
one (`scanCompat_spec`), so `rp1_eth_node_is_compatible` says whether the name is one of them, whatever was on the stack
(`compatCall_spec`). The search is depth-first, and finds the first such node in preorder.
-/

namespace Eth

open BufProg CString Forest

/-- The `compatible` property of a node; one that is missing is like one that is empty. -/
def DeviceTree.compatible (t : DeviceTree) (node : Phandle) : List UInt8 := (t.prop node "compatible").getD []

/-- Whether the name is a string of the `compatible` property. -/
def DeviceTree.hasName (t : DeviceTree) (name : List UInt8) (node : Phandle) : Bool :=
  name ∈ (t.compatible node).splitOn 0

variable {b : Nat → UInt8} {t : DeviceTree} {stack : Stack} {node : Phandle} {name r x : List UInt8} {s len fuel : Nat}

/-! ## The scan -/

theorem scanCompat_end (hs : len ≤ s) : scanCompat name len fuel s = pure false := by
  cases fuel with
  | zero => rfl
  | succ fuel => exact if_neg (Nat.not_lt.2 hs)

/-- One round over a string with its NUL. -/
theorem scanCompat_succ (fuel : Nat) (h0 : 0 ∉ name) (hb : Lies b s (x ++ [0])) (hx : 0 ∉ x) (hs : s < len)
    (hlen : s + x.length ≤ len) :
    (scanCompat name len (fuel + 1) s).result b =
      (if x = name then true else (scanCompat name len fuel (s + (x.length + 1))).result b) ∧
    ((scanCompat name len fuel (s + (x.length + 1))).Within b (len + 1) →
      (scanCompat name len (fuel + 1) s).Within b (len + 1)) := by
  obtain ⟨heq, heq'⟩ := strcmpEq_terminated (n := len + 1) hb hx h0
  obtain ⟨hk, hk'⟩ := strnlen_terminated (n := len + 1) hb hx (show x.length < len + 1 by omega)
  rw [scanCompat, if_pos hs]
  by_cases hname : x = name
  · simp only [result_bind, heq.2 hname, if_true, result_pure, within_bind, heq' (Nat.lt_succ_of_le hlen), within_pure,
      and_self, hname, implies_true]
  · have hne : (strcmpEq s name).result b = false := Bool.eq_false_iff.2 (mt heq.1 hname)
    simp only [result_bind, hne, Bool.false_eq_true, if_false, hk, within_bind, heq' (Nat.lt_succ_of_le hlen),
      hk'.2 (Nat.lt_succ_of_le hlen), true_and, hname, imp_self, and_self]

/-- **The scan of what is left of the property says whether the name is one of its strings**, and reads nothing behind
the NUL at its end. -/
theorem scanCompat_spec (hne : name ≠ []) (h0 : 0 ∉ name) (hb : Lies b s (r ++ [0])) (hlen : len = s + r.length)
    (hf : r.length ≤ fuel) : ((scanCompat name len fuel s).result b = true ↔ name ∈ r.splitOn 0) ∧
      (scanCompat name len fuel s).Within b (len + 1) := by
  induction fuel generalizing s r with
  | zero =>
    obtain rfl : r = [] := List.length_eq_zero_iff.1 (Nat.le_zero.1 hf)
    exact ⟨by simp [scanCompat, hne], within_pure _⟩
  | succ fuel ih =>
    by_cases hr : r = []
    · subst hr
      have hend : scanCompat name len (fuel + 1) s = pure false := scanCompat_end (Nat.le_of_eq hlen)
      rw [hend]
      exact ⟨by simp [hne], within_pure _⟩
    have hpos : 0 < r.length := List.length_pos_iff.2 hr
    rcases split_cases r with ⟨hr0, hsplit⟩ | ⟨x, ys, rfl, hx, hsplit⟩
    · -- the last string, which ends at the NUL behind the property
      obtain ⟨hres, hw⟩ := scanCompat_succ fuel h0 hb hr0 (show s < len by omega) (Nat.le_of_eq hlen.symm)
      rw [scanCompat_end (show len ≤ s + (r.length + 1) by omega)] at hres hw
      rw [hres, hsplit, List.mem_singleton]
      exact ⟨by simp [eq_comm], hw (within_pure _)⟩
    · rw [List.append_assoc, lies_append, List.cons_append, lies_cons] at hb
      rw [List.length_append, List.length_cons] at hlen hf
      have hterm : Lies b s (x ++ [0]) := lies_append.2 ⟨hb.1, lies_singleton.2 hb.2.1⟩
      obtain ⟨hres, hw⟩ := scanCompat_succ fuel h0 hterm hx (show s < len by omega) (by omega)
      obtain ⟨hrest, hrest'⟩ := ih (s := s + (x.length + 1)) hb.2.2 (by omega) (by omega)
      rw [hres, hsplit, List.mem_cons]
      refine ⟨?_, hw hrest'⟩
      by_cases hname : x = name
      · simp [hname]
      · simp only [hname, if_false, hrest, Ne.symm hname, false_or]

/-! ## One node -/

/-- `buf` with the NUL, when the property is `p`. -/
def compatBuf (stack : Nat → UInt8) (p : List UInt8) : Nat → UInt8 :=
  Function.update (fun i => (p.take 255)[i]?.getD (stack i)) p.length 0

/-- A property of at most 255 bytes is in `buf`, with the NUL behind it. -/
theorem lies_compatBuf (stack : Nat → UInt8) {p : List UInt8} (hp : p.length ≤ 255) :
    Lies (compatBuf stack p) 0 (p ++ [0]) := by
  rw [lies_append, lies_singleton, Nat.zero_add]
  refine ⟨fun k hk => ?_, Function.update_self ..⟩
  rw [compatBuf, Nat.zero_add, Function.update_of_ne (Nat.ne_of_lt hk), List.take_of_length_le hp,
    List.getElem?_eq_getElem hk]
  rfl

/-- Without a property, or with an empty one, `buf` is left alone. -/
theorem compatCall_of_nil (h : t.compatible node = []) : compatCall t stack name node = ⟨false, [], []⟩ := by
  unfold compatCall rp1EthNodeIsCompatible
  unfold DeviceTree.compatible at h
  cases hp : t.prop node "compatible" with
  | none => rfl
  | some p =>
    rw [hp, Option.getD_some] at h
    subst h
    rfl

theorem compatCall_of_ne_nil (h : t.compatible node ≠ []) : compatCall t stack name node =
    let p := t.compatible node
    let scan := scanCompat name p.length p.length 0
    let buf := compatBuf (stack node name) p
    ⟨scan.result buf, List.range (min p.length 255) ++ [p.length], scan.touched buf⟩ := by
  unfold compatCall rp1EthNodeIsCompatible
  unfold DeviceTree.compatible at h ⊢
  cases hp : t.prop node "compatible" with
  | none =>
    rw [hp] at h
    exact absurd rfl h
  | some p =>
    rw [hp, Option.getD_some] at h
    have hpos : ¬(p.length : Int) ≤ 0 := Int.not_le.2 (Int.natCast_pos.2 (List.length_pos_iff.2 h))
    exact if_neg hpos

/-- **A node is compatible exactly if the name is a string of its property**, whatever was on the stack; and the scan
stays in `buf`. -/
theorem compatCall_spec (stack : Stack) (hne : name ≠ []) (h0 : 0 ∉ name) (hlen : (t.compatible node).length ≤ 255) :
    (compatCall t stack name node).result = t.hasName name node ∧
      ∀ i ∈ (compatCall t stack name node).reads, i < 256 := by
  by_cases hnil : t.compatible node = []
  · rw [compatCall_of_nil hnil, DeviceTree.hasName, hnil]
    exact ⟨(decide_eq_false (by simpa using hne)).symm, fun i hi => absurd hi List.not_mem_nil⟩
  · rw [compatCall_of_ne_nil hnil]
    obtain ⟨hres, hw⟩ := scanCompat_spec hne h0 (lies_compatBuf (stack node name) hlen) (Nat.zero_add _).symm
      (Nat.le_refl _)
    exact ⟨Bool.eq_iff_iff.2 (hres.trans decide_eq_true_iff.symm), hw.mono (Nat.succ_le_succ hlen)⟩

/-! ## The tree -/

/-- The search asks the nodes in preorder, up to the first that says yes. -/
theorem findCompat_eq (hf : 2 * t.nodes.length < fuel) : rp1EthFdtFindCompat t stack fuel t.root name =
    some (firstMatch (fun node => (compatCall t stack name node).result) 0 t.nodes) := by
  rw [DeviceTree.nodes, List.length_cons] at hf
  exact find_eq t.denotes (by omega)

/-- **The search finds the first node in preorder that has the name**, or 0 if none has. -/
theorem find_compat_first (t : DeviceTree) (stack : Stack) (name : List UInt8) (hne : name ≠ []) (h0 : 0 ∉ name)
    (hlen : ∀ node ∈ t.nodes, (t.compatible node).length ≤ 255) (fuel : Nat) (hf : 2 * t.nodes.length < fuel) :
    (rp1EthFdtFindCompat t stack fuel t.root name).map Prod.fst = some ((t.nodes.find? (t.hasName name)).getD 0) := by
  rw [findCompat_eq hf]
  have hagree : ∀ node ∈ upTo (t.hasName name) t.nodes, (compatCall t stack name node).result = t.hasName name node :=
    fun node hmem => (compatCall_spec stack hne h0 (hlen node (mem_of_mem_upTo hmem))).1
  obtain ⟨-, hfind⟩ := upTo_congr hagree
  show some ((t.nodes.find? _).getD 0) = _
  rw [hfind]

/-- A tree of a root and one node below it, with their `compatible` properties. -/
def smallTree (top below : List UInt8) : DeviceTree where
  root := 1
  child node := if node = 1 then 2 else 0
  peer _ := 0
  prop node name := if name = "compatible" then some (if node = 1 then top else below) else none
  nodeFromXref _ := 0
  forest := .node 2 .nil .nil
  denotes := ⟨rfl, by decide, rfl, rfl⟩

/-- The second string of a property, without its NUL; the string of the root is a prefix only. -/
theorem find_compat_first_second : (rp1EthFdtFindCompat (smallTree (cstr "raspberrypi,rp1")
    (cstr "cdns,macb\x00raspberrypi,rp1-gem")) (fun _ _ _ => 1) 5 1 rp1EthCompatPrimary).map Prod.fst = some 2 := by
  have hlen : ∀ node ∈ (smallTree (cstr "raspberrypi,rp1") (cstr "cdns,macb\x00raspberrypi,rp1-gem")).nodes,
      ((smallTree (cstr "raspberrypi,rp1") (cstr "cdns,macb\x00raspberrypi,rp1-gem")).compatible node).length ≤ 255 :=
    List.forall_mem_cons.2 ⟨by decide +kernel, List.forall_mem_singleton.2 (by decide +kernel)⟩
  have hfirst := find_compat_first _ (fun _ _ _ => 1) rp1EthCompatPrimary (by decide) (by decide) hlen 5 (by decide)
  exact hfirst.trans (by decide +kernel)

end Eth
