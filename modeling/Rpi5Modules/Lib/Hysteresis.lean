/-!
# Hysteresis

A level with hysteresis has two thresholds: it goes up when a sample reaches the upper one, and stays up until a sample
is below the lower one. Here a level is any property of the samples so far.

- `Reacts` and `Retains` are the two halves of this;
- `LastReaches` is the plain comparison of the last sample with the upper threshold: it reacts (`reacts_lastReaches`),
  and it retains exactly along the sequences where no sample falls from the upper threshold into the band between the
  two (`retains_lastReaches_iff`).
-/

universe u

namespace Hysteresis

variable {α : Type u} [LE α] (lo hi : α)

/-- The level goes up with every sample that reaches `hi`. -/
def Reacts (up : List α → Prop) (ts : List α) : Prop :=
  ∀ pre t post, ts = pre ++ t :: post → hi ≤ t → up (pre ++ [t])

/-- Once up, the level stays up as long as the samples are at least `lo`. -/
def Retains (up : List α → Prop) (ts : List α) : Prop :=
  ∀ pre mid post, ts = pre ++ mid ++ post → up pre → (∀ t ∈ mid, lo ≤ t) → up (pre ++ mid)

/-- The last sample reaches `hi`. -/
def LastReaches (ts : List α) : Prop := ∃ pre t, ts = pre ++ [t] ∧ hi ≤ t

/-- Somewhere a sample that reaches `hi` is followed by one that does not, but is still at least `lo`. -/
def FallsIntoBand (ts : List α) : Prop :=
  ∃ pre t' t post, ts = pre ++ t' :: t :: post ∧ hi ≤ t' ∧ lo ≤ t ∧ ¬hi ≤ t

variable {lo hi} {ts : List α} {up up' : List α → Prop}

theorem not_lastReaches_nil : ¬LastReaches hi ([] : List α) := by
  rintro ⟨pre, t, h, -⟩
  simp at h

@[simp] theorem lastReaches_concat {t : α} : LastReaches hi (ts ++ [t]) ↔ hi ≤ t := by
  constructor
  · rintro ⟨pre, t', h, ht⟩
    obtain ⟨-, h⟩ := List.append_inj' h rfl
    cases h
    exact ht
  · intro ht
    exact ⟨ts, t, rfl, ht⟩

/-- Both halves speak of the level only. -/
theorem Retains.congr (h : ∀ ts, up ts ↔ up' ts) : Retains lo up ts ↔ Retains lo up' ts := by
  have heq : up = up' := funext fun ts => propext (h ts)
  rw [heq]

theorem Reacts.congr (h : ∀ ts, up ts ↔ up' ts) : Reacts hi up ts ↔ Reacts hi up' ts := by
  have heq : up = up' := funext fun ts => propext (h ts)
  rw [heq]

theorem reacts_lastReaches (ts : List α) : Reacts hi (LastReaches hi) ts := by
  intro pre t post _ ht
  exact lastReaches_concat.2 ht

/-- A level that is up is lost in one step only by a fall into the band, if the sample is not below it. -/
theorem lastReaches_next (hband : ¬FallsIntoBand lo hi ts) {pre post : List α} {t : α} (hts : ts = pre ++ t :: post)
    (hup : LastReaches hi pre) (ht : lo ≤ t) : LastReaches hi (pre ++ [t]) := by
  obtain ⟨pre', t', rfl, ht'⟩ := hup
  rw [lastReaches_concat]
  refine Classical.byContradiction fun hlt => hband ⟨pre', t', t, post, ?_, ht', ht, hlt⟩
  rw [hts, List.append_assoc]
  rfl

/-- **The plain comparison keeps the hysteresis** exactly where no sample falls into the band. -/
theorem retains_lastReaches_iff : Retains lo (LastReaches hi) ts ↔ ¬FallsIntoBand lo hi ts := by
  constructor
  · rintro h ⟨pre, t', t, post, hts, ht', hlo, hhi⟩
    have hup := h (pre ++ [t']) [t] post (by simp [hts]) (lastReaches_concat.2 ht') (by simpa using hlo)
    exact hhi (lastReaches_concat.1 hup)
  · intro hband pre mid
    -- from the sample the level is up at, one sample after the other
    induction mid generalizing pre with
    | nil =>
      intro post _ hup _
      rw [List.append_nil]
      exact hup
    | cons t mid ih =>
      intro post hts hup hmid
      have hts' : ts = pre ++ t :: (mid ++ post) := by simp [hts]
      have hup' := lastReaches_next hband hts' hup (hmid t List.mem_cons_self)
      have h := ih (pre ++ [t]) post (by simp [hts]) hup' fun x hx => hmid x (List.mem_cons_of_mem t hx)
      rwa [List.append_assoc] at h

end Hysteresis
