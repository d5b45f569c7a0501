import Rpi5Modules.Cyw.Newstate

/-!
# What a failed command leaves of a join

On entry to AUTH `cyw_newstate` sets the security values, joins by the "join" IOVAR or else by WLC_SET_SSID, and stops
net80211's timeout; whichever command fails, it goes on.

- a join is issued under its network's settings in every run exactly as long as `cyw_set_security` fails only where the
  values left unset are those accepted before (`join_security_decides`);
- the timeout is stopped only for a join that was accepted exactly as long as an AUTH entry finds a node and has one of
  its two joins accepted, and an ASSOC entry follows such an AUTH entry (`mgtsend_decides`).
-/

namespace Cyw

open Transition

/-- What is in force where the AUTH case has got to. -/
def NewstatePc.Secured (fw : FwSecurity) : NewstatePc → Prop
  | setWsec _ => fw.auth = some 0
  | setWpaAuth n => fw.auth = some 0 ∧ fw.wsec = some n.sec.wsec
  | storeBssid n => n.sec.InForce fw
  | join n => n.sec.InForce fw
  | setSsid n _ => n.sec.InForce fw
  | _ => True

namespace Vap

variable {s s' : Vap} {err : Errno}

/-! ## Security -/

/-- Every join was issued with the settings of its network in force. -/
def Secured (s : Vap) : Prop := ∀ r ∈ s.joins, r.sec.InForce r.fw

/-- A command of `cyw_set_security` fails only if the values that it and the commands behind it would set are those the
firmware accepted last. -/
def SecurityOk (s : Vap) : VapAct → Prop
  | .next err =>
    err ≠ 0 →
      match s.pc with
      | .setAuth n => n.sec.InForce s.fw
      | .setWsec n => s.fw.wsec = some n.sec.wsec ∧ s.fw.wpaAuth = some n.sec.wpaAuth
      | .setWpaAuth n => s.fw.wpaAuth = some n.sec.wpaAuth
      | _ => True
  | _ => True

/-- **The invariant** of the security settings. -/
structure SecureInv (s : Vap) : Prop where
  joins : s.Secured
  pc : s.pc.Secured s.fw

theorem Secured.issue {n : Net} {cmd : JoinCmd} (h : s.Secured) (hn : n.sec.InForce s.fw) :
    (s.issue n cmd).Secured := by
  intro r hr
  rcases List.mem_cons.1 hr with rfl | hr
  · exact hn
  · exact h r hr

theorem secureInv_next (h : SecureInv s) (hok : SecurityOk s (.next err)) (hs : s.next err = some s') :
    SecureInv s' := by
  obtain ⟨hj, hpc⟩ := h
  unfold SecurityOk at hok
  cases next_cases hs with
  | auth hc he => exact ⟨hj, rfl⟩
  | noAuth hc he =>
    rw [hc] at hok
    exact ⟨hj, hok he⟩
  | wsec hc he =>
    rw [hc] at hpc
    exact ⟨hj, hpc, rfl⟩
  | noWsec hc he =>
    rw [hc] at hok hpc
    exact ⟨hj, hpc, hok he⟩
  | wpaAuth hc he =>
    rw [hc] at hpc
    exact ⟨hj, hpc.1, hpc.2, rfl⟩
  | noWpaAuth hc he =>
    rw [hc] at hok hpc
    exact ⟨hj, hpc.1, hpc.2, hok he⟩
  | storeBssid hc =>
    rw [hc] at hpc
    exact ⟨hj, hpc⟩
  | join hc he =>
    rw [hc] at hpc
    exact ⟨hj.issue hpc, trivial⟩
  | noJoin hc he =>
    rw [hc] at hpc
    exact ⟨hj.issue hpc, hpc⟩
  | setSsid hc he =>
    rw [hc] at hpc
    exact ⟨hj.issue hpc, trivial⟩
  | noSetSsid hc he =>
    rw [hc] at hpc
    exact ⟨hj.issue hpc, trivial⟩
  | _ => exact ⟨hj, trivial⟩

theorem secureInv_step {a : VapAct} (h : SecureInv s) (hok : SecurityOk s a) (hs : s.step a = some s') :
    SecureInv s' := by
  rcases step_cases hs with ⟨nstate, rfl, -, rfl⟩ | ⟨err, rfl, hs⟩ | ⟨arms, nstate, bssid, rfl, -, rfl⟩ | hb
  · refine ⟨h.joins, ?_⟩
    cases nstate <;> trivial
  · exact secureInv_next h hok hs
  · exact ⟨h.joins, trivial⟩
  · refine ⟨?_, ?_⟩
    · unfold Secured
      rw [hb.joins]
      exact h.joins
    · rw [hb.pc, hb.fw]
      exact h.pc

theorem secureInv_created (bss : Option Bss) (ivFlags : UInt32) : SecureInv (created bss ivFlags) := by
  refine ⟨?_, trivial⟩
  intro r hr
  cases hr

/-- Behind `cyw_set_security`, the join goes out as it is. -/
theorem unsecured_of_store {n : Net} (hc : s.pc = .storeBssid n) (hn : ¬n.sec.InForce s.fw) :
    ∃ bs t, run step s bs = some t ∧ ¬t.Secured := by
  let cmd : JoinCmd := .join (n.extJoinParams (cywChanspecForJoin s.cache n.bssid n.ieeeChan))
  refine ⟨[.next 0, .next 0], ({ s with joinBssid := n.bssid, pc := .join n }.issue n cmd).accept n, ?_, ?_⟩
  · simp [step, next, hc, cmd]
  · intro h
    exact hn (h ⟨cmd, n.sec, s.fw⟩ List.mem_cons_self)

theorem unsecured_of_break (h : SecureInv s) (hok : ¬SecurityOk s (.next err)) (hs : s.next err = some s') :
    ∃ bs t, run step s' bs = some t ∧ ¬t.Secured := by
  have hpc := h.pc
  unfold SecurityOk at hok
  unfold next at hs
  obtain ⟨he, hok⟩ := Classical.not_imp.1 hok
  cases hc : s.pc with
  | setAuth n =>
    rw [hc] at hs hok
    cases hs
    rw [if_neg he]
    exact unsecured_of_store rfl hok
  | setWsec n =>
    rw [hc] at hs hok
    cases hs
    rw [if_neg he]
    exact unsecured_of_store rfl fun hn => hok hn.2
  | setWpaAuth n =>
    rw [hc] at hs hok
    cases hs
    rw [if_neg he]
    exact unsecured_of_store rfl fun hn => hok hn.2.2
  | _ =>
    rw [hc] at hok
    exact (hok trivial).elim

/-- **Joins are made under their network's security settings exactly as long as no rejected command leaves another
network's in force.** For every sequence of state changes, with any networks, flags and results of the commands: if each
command of `cyw_set_security` that fails would have set, with those skipped behind it, what the firmware has accepted
before, every join IOVAR and WLC_SET_SSID is issued with the settings of its network in force; a failure of another
kind can be followed by a join without. -/
theorem join_security_decides (bss : Option Bss) (ivFlags : UInt32) (as : List VapAct) :
    Decides step (fun _ _ => True) SecurityOk Secured (created bss ivFlags) as := by
  refine decides_of_inv (I := SecureInv) ?_ (fun s h => h.joins) ?_ (secureInv_created bss ivFlags) as
  · intro s a s' h hok hs
    exact secureInv_step h hok hs
  · intro s a s' h hok hs
    cases a with
    | next err => exact unsecured_of_break h hok hs
    | _ => exact (hok trivial).elim

/-- Joined to a WPA2 network, then to an open one with `auth` rejected: the second join goes out under AES and
WPA2-PSK. -/
theorem join_security_stale : ∃ t, run step (created (some ⟨0x0a0000000001, [0x61], some 1⟩) ieee80211FWpa2)
    [.newstate .auth, .next 0, .next 0, .next 0, .next 0, .next 0, .next 0, .finish true,
      .config (some ⟨0x0a0000000002, [0x62], some 1⟩) 0, .newstate .auth, .next 0, .next eio, .next 0, .next 0]
      = some t ∧ ¬t.Secured := by
  refine ⟨_, rfl, ?_⟩
  intro h
  have hr : Security.InForce ⟨cywWsecNone, cywWpaAuthDisabled⟩ ⟨some 0, some cywAesEnabled, some cywWpa2AuthPsk⟩ :=
    h _ List.mem_cons_self
  exact absurd hr.2.1 (by decide)

/-! ## The timeout -/

/-- Wherever `iv_mgtsend` was stopped, a join for the current BSSID had been accepted in the attempt. -/
def StoppedJoined (s : Vap) : Prop := ∀ r ∈ s.stops, ∃ b, r.current = some b ∧ r.accepted = some b

/-- An AUTH entry finds a node, and one of its two joins is accepted, or was before; an ASSOC entry finds a node that a
join was accepted for. -/
def AttemptOk (s : Vap) : VapAct → Prop
  | .next err =>
    match s.pc with
    | .authBss => s.ivBss ≠ none
    | .setSsid n _ => err = 0 ∨ s.accepted = some n.bssid
    | _ => True
  | .finish _ =>
    match s.pc with
    | .finish .assoc _ => ∃ bss, s.ivBss = some bss ∧ s.accepted = some bss.bssid
    | _ => True
  | _ => True

/-- An AUTH entry gets to its end with a join accepted. -/
structure AttemptInv (s : Vap) : Prop where
  stops : s.StoppedJoined
  pc : ∀ bssid, s.pc = .finish .auth bssid → ∃ b, bssid = some b ∧ s.accepted = some b

theorem attemptInv_created (bss : Option Bss) (ivFlags : UInt32) : AttemptInv (created bss ivFlags) := by
  refine ⟨?_, nofun⟩
  intro r hr
  cases hr

/-- The steps of `cyw_newstate` that do not reach the end of an AUTH entry. -/
theorem AttemptInv.of_ne (h : AttemptInv s) (hst : s'.stops = s.stops) (hne : ∀ bssid, s'.pc ≠ .finish .auth bssid) :
    AttemptInv s' := by
  refine ⟨?_, fun bssid hc => (hne bssid hc).elim⟩
  unfold StoppedJoined
  rw [hst]
  exact h.stops

theorem AttemptInv.accept {n : Net} (h : AttemptInv s) : AttemptInv (s.accept n) := by
  refine ⟨h.stops, ?_⟩
  intro bssid hc
  cases hc
  exact ⟨n.bssid, rfl, rfl⟩

theorem attemptInv_next (h : AttemptInv s) (hok : AttemptOk s (.next err)) (hs : s.next err = some s') :
    AttemptInv s' := by
  unfold AttemptOk at hok
  cases next_cases hs with
  | noBss hc hb =>
    rw [hc] at hok
    exact (hok hb).elim
  | join hc he =>
    refine AttemptInv.accept (h.of_ne rfl ?_)
    intro bssid hj
    cases hc.symm.trans hj
  | setSsid hc he =>
    refine AttemptInv.accept (h.of_ne rfl ?_)
    intro bssid hj
    cases hc.symm.trans hj
  | noSetSsid hc he =>
    rw [hc] at hok
    refine ⟨h.stops, ?_⟩
    intro bssid hj
    cases hj
    exact ⟨_, rfl, hok.resolve_left he⟩
  | _ => exact h.of_ne rfl nofun

theorem attemptInv_finish {nstate : VapState} {bssid : Option Bssid} {arms : Bool} (h : AttemptInv s)
    (hc : s.pc = .finish nstate bssid) (hok : AttemptOk s (.finish arms)) :
    AttemptInv (s.finish nstate bssid arms) := by
  unfold AttemptOk at hok
  rw [hc] at hok
  refine ⟨?_, nofun⟩
  intro r hr
  cases nstate with
  | auth =>
    rcases List.mem_cons.1 hr with rfl | hr
    · exact h.pc bssid hc
    · exact h.stops r hr
  | assoc =>
    rcases List.mem_cons.1 hr with rfl | hr
    · obtain ⟨bss, hb, ha⟩ := hok
      refine ⟨bss.bssid, ?_, ha⟩
      simp [current, hb]
    · exact h.stops r hr
  | _ => exact h.stops r hr

theorem attemptInv_step {a : VapAct} (h : AttemptInv s) (hok : AttemptOk s a) (hs : s.step a = some s') :
    AttemptInv s' := by
  rcases step_cases hs with ⟨nstate, rfl, -, rfl⟩ | ⟨err, rfl, hs⟩ | ⟨arms, nstate, bssid, rfl, hc, rfl⟩ | hb
  · refine h.of_ne rfl ?_
    cases nstate <;> nofun
  · exact attemptInv_next h hok hs
  · exact attemptInv_finish h hc hok
  · refine ⟨?_, ?_⟩
    · unfold StoppedJoined
      rw [hb.stops]
      exact h.stops
    · rw [hb.pc, hb.accepted]
      exact h.pc

/-- The end of the entry records what has become of the attempt. -/
theorem stopped_of_finish {nstate : VapState} {bssid : Option Bssid} (hj : nstate.joining = true)
    (hn : ¬∃ b, s.current nstate bssid = some b ∧ s.accepted = some b) (arms : Bool) :
    ¬(s.finish nstate bssid arms).StoppedJoined := by
  intro h
  have hmem : ⟨s.current nstate bssid, s.accepted⟩ ∈ (s.finish nstate bssid arms).stops := by
    simp [finish, hj]
  exact hn (h _ hmem)

theorem stopped_of_auth {bssid : Option Bssid} (hc : s.pc = .finish .auth bssid)
    (hn : ¬∃ b, bssid = some b ∧ s.accepted = some b) : ∃ bs t, run step s bs = some t ∧ ¬t.StoppedJoined := by
  refine ⟨[.finish true], s.finish .auth bssid true, by simp [step, hc], ?_⟩
  exact stopped_of_finish rfl (by simpa [current] using hn) true

theorem stopped_of_next (hok : ¬AttemptOk s (.next err)) (hs : s.next err = some s') :
    ∃ bs t, run step s' bs = some t ∧ ¬t.StoppedJoined := by
  unfold AttemptOk at hok
  unfold next at hs
  cases hc : s.pc with
  | authBss =>
    rw [hc] at hs hok
    dsimp only at hs hok
    rw [not_not.1 hok] at hs
    cases hs
    exact stopped_of_auth rfl (by simp)
  | setSsid n chanspec =>
    rw [hc] at hs hok
    cases hs
    obtain ⟨he, ha⟩ := not_or.1 hok
    rw [if_neg he]
    apply stopped_of_auth rfl
    rintro ⟨b, hb, hab⟩
    cases hb
    exact ha hab
  | _ =>
    rw [hc] at hok
    exact (hok trivial).elim

theorem stopped_of_assoc {arms : Bool} (hok : ¬AttemptOk s (.finish arms)) (hs : s.step (.finish arms) = some s') :
    ¬s'.StoppedJoined := by
  unfold AttemptOk at hok
  unfold step at hs
  cases hc : s.pc with
  | finish nstate bssid =>
    rw [hc] at hs hok
    cases hs
    cases nstate with
    | assoc =>
      refine stopped_of_finish rfl ?_ arms
      rintro ⟨b, hb, ha⟩
      obtain ⟨bss, hbss, rfl⟩ := Option.map_eq_some_iff.1 hb
      exact hok ⟨bss, hbss, ha⟩
    | _ => exact (hok trivial).elim
  | _ =>
    rw [hc] at hok
    exact (hok trivial).elim

/-- **The timeout is stopped for an accepted join exactly as long as the joins are accepted.** For every sequence of
state changes and every result of each command: if every AUTH entry finds a node and has the join or its fallback
accepted, unless a join for that BSSID was already accepted in the attempt, and every ASSOC entry finds a node that a
join of the attempt was accepted for, `iv_mgtsend` is only ever stopped with a join for the current BSSID accepted; a
step of another kind can be followed by a stop without. -/
theorem mgtsend_decides (bss : Option Bss) (ivFlags : UInt32) (as : List VapAct) :
    Decides step (fun _ _ => True) AttemptOk StoppedJoined (created bss ivFlags) as := by
  refine decides_of_inv (I := AttemptInv) ?_ (fun s h => h.stops) ?_ (attemptInv_created bss ivFlags) as
  · intro s a s' h hok hs
    exact attemptInv_step h hok hs
  · intro s a s' _ hok hs
    cases a with
    | next err => exact stopped_of_next hok hs
    | finish arms => exact ⟨[], s', rfl, stopped_of_assoc hok hs⟩
    | _ => exact (hok trivial).elim

/-- Both joins are rejected, and the timeout is stopped. -/
theorem mgtsend_stopped : ∃ t, run step (created (some ⟨0x0a0000000001, [0x61], some 1⟩) ieee80211FWpa2)
    [.newstate .auth, .next 0, .next 0, .next 0, .next 0, .next 0, .next eio, .next eio, .finish true] = some t ∧
      t.ivState = .auth ∧ t.mgtsend = false ∧ ¬t.StoppedJoined := by
  refine ⟨_, rfl, rfl, rfl, ?_⟩
  intro h
  obtain ⟨b, -, hb⟩ := h _ List.mem_cons_self
  cases hb

end Vap

end Cyw
