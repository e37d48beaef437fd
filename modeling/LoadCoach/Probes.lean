import LoadCoach.CircuitBreaker
import LoadCoach.Foundations.Transition

/-! # Who holds a probe

The registry of `domain/circuit_breaker.py` under any number of workers.  A worker that comes to a
candidate asks for its probe (`holds_probe = allow_probe(…)`), which overwrites what it held
before; one that is cancelled gives its probe back (`if holds_probe: release_probe(…)`); any other
way on drops the mark in the worker and leaves the registry alone.

A probe in the registry has no owner, so a release frees whatever is in flight.  `grants`,
`grantEra` and `eras` are history variables: how many probes of a subject were granted, how many
of its cool-downs had ended at the last grant, and how many have ended by now.  The probe is held
by one worker at a time, and freed by its own holder alone, exactly in the runs in which no worker
releases a probe after the cool-down it was granted in (`single_probe_iff`). -/

namespace LoadCoach

open Foundations

/-- A worker's probe: its subject, its number among the grants, and the cool-downs that had ended
when it was granted. -/
structure Hold where
  subject : String
  grant : ℕ
  era : ℕ
deriving DecidableEq, Repr

/-- The registry and its users. -/
structure Probes (W : Type) where
  breakers : CircuitBreakers := {}
  holds : W → Option Hold := fun _ => none
  grants : String → ℕ := fun _ => 0
  grantEra : String → ℕ := fun _ => 0
  eras : String → ℕ := fun _ => 0

/-- What happens next. -/
inductive ProbeAct (W : Type) where
  | update (samples : String → Option (List AttemptSample)) (now : Instant)
  /-- A worker comes to a candidate. -/
  | allow (w : W) (subject : String) (now : Instant)
  | release (w : W)
  /-- A worker leaves its candidate in any other way. -/
  | finish (w : W)

/-- A probe of the subject is in flight. -/
def CircuitBreakers.inFlight (breakers : CircuitBreakers) (subject : String) : Bool :=
  (breakers.verdicts subject).any BreakerVerdict.probeInFlight

namespace Probes

variable {W : Type} [DecidableEq W]

/-- What a worker holds from now on. -/
def hold (s : Probes W) (w : W) (held : Option Hold) : Probes W :=
  { s with holds := Function.update s.holds w held }

/-- Whether a cool-down of the subject ends in an update. -/
def expires (s : Probes W) (subject : String) (now : Instant) : Bool :=
  ((s.breakers.verdicts subject).getD {}).expired s.breakers.thresholds.cooldown now

/-- The registry and its users after an act. -/
def after (s : Probes W) : ProbeAct W → Probes W
  | .update samples now =>
      { s with
        breakers := s.breakers.update samples now
        eras := fun subject =>
          if s.expires subject now then s.eras subject + 1 else s.eras subject }
  | .allow w subject now =>
      let (granted, breakers) := s.breakers.allowProbe subject now
      if granted then
        { s.hold w (some ⟨subject, s.grants subject + 1, s.eras subject⟩) with
          breakers
          grants := Function.update s.grants subject (s.grants subject + 1)
          grantEra := Function.update s.grantEra subject (s.eras subject) }
      else
        s.hold w none
  | .release w =>
      match s.holds w with
      | some held =>
          { s.hold w none with breakers := (s.breakers.releaseProbe held.subject).2 }
      | none => s
  | .finish w => s.hold w none

/-- Only a worker that holds a probe releases one. -/
def Enabled (s : Probes W) : ProbeAct W → Prop
  | .release w => (s.holds w).isSome
  | _ => True

/-- **The users of a registry.** -/
def system (W : Type) [DecidableEq W] (thresholds : Thresholds) : System (Probes W) (ProbeAct W) :=
  .guarded Enabled after { breakers := { thresholds } }

/-! ### The property and the condition -/

/-- Between two ends of a cool-down, one worker at most holds the probe of a subject. -/
def SingleHolder (s : Probes W) : Prop :=
  ∀ w w' held held', s.holds w = some held → s.holds w' = some held' →
    held.subject = held'.subject → held.era = held'.era → w = w'

/-- A release that frees a probe frees the one that was granted to the releasing worker. -/
def ReleasesOwn (e : Step (Probes W) (ProbeAct W)) : Prop :=
  match e.act with
  | .release w => ∀ held, e.pre.holds w = some held →
      (e.pre.breakers.releaseProbe held.subject).1 = true →
        held.grant = e.pre.grants held.subject
  | _ => True

/-- A release finds no probe in flight, or no cool-down of the subject has ended since the
releasing worker was granted its probe. -/
def Timely (e : Step (Probes W) (ProbeAct W)) : Prop :=
  match e.act with
  | .release w => ∀ held, e.pre.holds w = some held →
      e.pre.breakers.inFlight held.subject = true → held.era = e.pre.eras held.subject
  | _ => True

/-! ### What every run keeps -/

/-- A hold is one of the grants, and a probe in flight was granted in the present era. -/
structure Sound (s : Probes W) : Prop where
  grantEra_le : ∀ subject, s.grantEra subject ≤ s.eras subject
  flight : ∀ subject, s.breakers.inFlight subject = true → s.grantEra subject = s.eras subject
  held : ∀ w h, s.holds w = some h → h.grant ≤ s.grants h.subject ∧ h.era ≤ s.grantEra h.subject ∧
    (h.grant = s.grants h.subject → h.era = s.grantEra h.subject)

/-- A probe held in the present era is in flight while the breaker is half-open, and it is the
last one granted. -/
structure Exclusive (s : Probes W) : Prop where
  single : s.SingleHolder
  flight : ∀ w h, s.holds w = some h → h.era = s.eras h.subject →
    (s.breakers.verdicts h.subject).any (fun v => v.state == .halfOpen) = true →
      s.breakers.inFlight h.subject = true
  last : ∀ w h, s.holds w = some h → h.era = s.eras h.subject → h.grant = s.grants h.subject

end Probes

/-! ### The operations of the registry -/

namespace BreakerVerdict

theorem probeInFlight_of_evaluate {thresholds : Thresholds} {samples : List AttemptSample}
    {now : Instant} {previous : Option BreakerVerdict}
    (h : (evaluate thresholds samples now previous).probeInFlight = true) :
    (previous.getD {}).probeInFlight = true ∧
      (previous.getD {}).expired thresholds.cooldown now = false := by
  have htrip : ∀ (v : BreakerVerdict) (counted : List AttemptSample),
      (v.trip thresholds counted).probeInFlight = true → v.probeInFlight = true := by
    intro v counted hv
    unfold trip at hv
    split at hv
    · split at hv
      · cases hv
      · exact hv
    · exact hv
  have hreport : ∀ (v : BreakerVerdict) (counted : List AttemptSample),
      (v.report thresholds.cooldown counted).1.probeInFlight = true → v.probeInFlight = true := by
    intro v counted hv
    unfold report at hv
    split at hv
    · split at hv
      · exact hv
      · split at hv <;> cases hv
    · exact hv
  have hcooled := hreport _ _ (htrip _ _ h)
  cases hexpired : (previous.getD {}).expired thresholds.cooldown now with
  | true =>
      rw [cooled_of_expired hexpired] at hcooled
      cases hcooled
  | false =>
      rw [cooled_of_not_expired hexpired] at hcooled
      exact ⟨hcooled, rfl⟩

end BreakerVerdict

namespace CircuitBreakers

variable {breakers : CircuitBreakers} {subject subject' : String} {now : Instant}

theorem inFlight_of_update {samples : String → Option (List AttemptSample)}
    (h : (breakers.update samples now).inFlight subject = true) :
    breakers.inFlight subject = true ∧
      ((breakers.verdicts subject).getD {}).expired breakers.thresholds.cooldown now = false := by
  simp only [inFlight, update] at h
  split at h
  · obtain ⟨hflight, hexpired⟩ := BreakerVerdict.probeInFlight_of_evaluate h
    refine ⟨?_, hexpired⟩
    unfold inFlight
    cases hverdict : breakers.verdicts subject with
    | none =>
        rw [hverdict] at hflight
        cases hflight
    | some v =>
        rw [hverdict] at hflight
        exact hflight
  · cases h

/-- A breaker that an update leaves half-open, no cool-down having ended, was half-open and has
its probe as it was. -/
theorem halfOpen_of_update {samples : String → Option (List AttemptSample)}
    (h : ((breakers.update samples now).verdicts subject).any
      (fun v => v.state == .halfOpen) = true)
    (hexpired : ((breakers.verdicts subject).getD {}).expired breakers.thresholds.cooldown now =
      false) :
    (breakers.verdicts subject).any (fun v => v.state == .halfOpen) = true ∧
      (breakers.update samples now).inFlight subject = breakers.inFlight subject := by
  simp only [inFlight, update] at h ⊢
  split at h
  · rename_i hknown
    have hstate := beq_iff_eq.1 h
    rcases BreakerVerdict.evaluate_halfOpen hstate with ⟨htrue, -⟩ | ⟨-, hhalf, hflight⟩
    · rw [hexpired] at htrue
      cases htrue
    · rw [if_pos hknown]
      cases hverdict : breakers.verdicts subject with
      | none =>
          rw [hverdict] at hhalf
          cases hhalf
      | some v =>
          rw [hverdict] at hhalf hflight
          exact ⟨beq_iff_eq.2 hhalf, hflight⟩
  · cases h

theorem allowProbe_of_not_probeable (h : breakers.probeable subject = false) :
    breakers.allowProbe subject now = (false, breakers) := by
  rw [allowProbe, h]
  rfl

theorem allowProbe_of_probeable (h : breakers.probeable subject = true) :
    breakers.allowProbe subject now = (true, breakers.modify subject fun v =>
      { v with probeInFlight := true, probeStartedAt := some now }) := by
  rw [allowProbe, if_pos h]

theorem probeable_iff : breakers.probeable subject = true ↔
    (breakers.verdicts subject).any (fun v => v.state == .halfOpen) = true ∧
      breakers.inFlight subject = false := by
  unfold probeable inFlight
  cases breakers.verdicts subject <;> simp

theorem releaseProbe_fst : (breakers.releaseProbe subject).1 = breakers.inFlight subject := by
  unfold releaseProbe inFlight
  split <;> rename_i h
  · exact h.symm
  · simpa using h

theorem releaseProbe_verdicts (breakers : CircuitBreakers) (subject subject' : String) :
    ((breakers.releaseProbe subject).2.verdicts subject').any (fun v => v.state == .halfOpen) =
        (breakers.verdicts subject').any (fun v => v.state == .halfOpen) ∧
      (breakers.releaseProbe subject).2.inFlight subject' =
        (breakers.inFlight subject' && decide (subject' ≠ subject)) := by
  unfold releaseProbe
  split <;> rename_i h
  · by_cases hsubject : subject' = subject
    · subst hsubject
      simp only [modify, inFlight, Function.update_self]
      cases breakers.verdicts subject' <;> simp
    · simp [modify, inFlight, hsubject]
  · refine ⟨rfl, ?_⟩
    by_cases hsubject : subject' = subject
    · subst hsubject
      simpa [inFlight] using h
    · simp [hsubject]

end CircuitBreakers

/-! ### The invariants -/

namespace Probes

variable {W : Type} [DecidableEq W] {s : Probes W} {thresholds : Thresholds}

theorem hold_holds (s : Probes W) (w w' : W) (held : Option Hold) :
    (s.hold w held).holds w' = if w' = w then held else s.holds w' := by
  simp [hold, Function.update_apply]

theorem holds_of_hold_none {w w' : W} {h : Hold} (hh : (s.hold w none).holds w' = some h) :
    s.holds w' = some h ∧ w' ≠ w := by
  rw [hold_holds] at hh
  split at hh <;> rename_i hw
  · cases hh
  · exact ⟨hh, hw⟩

theorem after_allow (s : Probes W) (w : W) (subject : String) (now : Instant) :
    (s.breakers.probeable subject = false ∧ s.after (.allow w subject now) = s.hold w none) ∨
      (s.breakers.probeable subject = true ∧ s.after (.allow w subject now) =
        { s.hold w (some ⟨subject, s.grants subject + 1, s.eras subject⟩) with
          breakers := s.breakers.modify subject fun v =>
            { v with probeInFlight := true, probeStartedAt := some now }
          grants := Function.update s.grants subject (s.grants subject + 1)
          grantEra := Function.update s.grantEra subject (s.eras subject) }) := by
  cases hprobeable : s.breakers.probeable subject with
  | false =>
      refine .inl ⟨rfl, ?_⟩
      rw [after, CircuitBreakers.allowProbe_of_not_probeable hprobeable]
      rfl
  | true =>
      refine .inr ⟨rfl, ?_⟩
      rw [after, CircuitBreakers.allowProbe_of_probeable hprobeable]
      rfl

theorem after_release {w : W} {held : Hold} (h : s.holds w = some held) :
    s.after (.release w) =
      { s.hold w none with breakers := (s.breakers.releaseProbe held.subject).2 } := by
  rw [after, h]

theorem Sound.forget (hs : s.Sound) (w : W) : (s.hold w none).Sound where
  grantEra_le := hs.grantEra_le
  flight := hs.flight
  held := fun _ _ hh => hs.held _ _ (holds_of_hold_none hh).1

theorem Sound.update (hs : s.Sound) (samples : String → Option (List AttemptSample))
    (now : Instant) : (s.after (.update samples now)).Sound := by
  have hmono : ∀ subject, s.eras subject ≤ (s.after (.update samples now)).eras subject := by
    intro subject
    simp only [after]
    split <;> omega
  refine ⟨fun subject => (hs.grantEra_le subject).trans (hmono subject), ?_, hs.held⟩
  intro subject hflight
  obtain ⟨hbefore, hexpired⟩ := CircuitBreakers.inFlight_of_update hflight
  have heras : (s.after (.update samples now)).eras subject = s.eras subject := by
    simp [after, expires, hexpired]
  rw [heras]
  exact hs.flight subject hbefore

theorem Sound.allow (hs : s.Sound) (w : W) (subject : String) (now : Instant) :
    (s.after (.allow w subject now)).Sound := by
  rcases s.after_allow w subject now with ⟨-, heq⟩ | ⟨-, heq⟩ <;> rw [heq]
  · exact hs.forget w
  · refine ⟨?_, ?_, ?_⟩
    · intro subject'
      by_cases hsubject : subject' = subject
      · simp [hsubject, hold]
      · simpa [hsubject, hold] using hs.grantEra_le subject'
    · intro subject' hflight
      by_cases hsubject : subject' = subject
      · simp [hsubject, hold]
      · simp only [hold, Function.update_of_ne hsubject] at hflight ⊢
        refine hs.flight subject' ?_
        simpa [CircuitBreakers.inFlight, CircuitBreakers.modify, hsubject] using hflight
    · intro w' h hh
      have hh' : (if w' = w then
          some ⟨subject, s.grants subject + 1, s.eras subject⟩ else s.holds w') = some h := by
        rw [← hold_holds]
        exact hh
      split at hh'
      · cases hh'
        simp
      · obtain ⟨hgrant, hera, hlast⟩ := hs.held w' h hh'
        have hle := hs.grantEra_le h.subject
        by_cases hsubject : h.subject = subject
        · rw [hsubject] at hgrant hera hle
          simp only [hsubject, Function.update_self]
          omega
        · simp only [Function.update_of_ne hsubject]
          exact ⟨hgrant, hera, hlast⟩

theorem Sound.release (hs : s.Sound) {w : W} {held : Hold} (hheld : s.holds w = some held) :
    (s.after (.release w)).Sound := by
  rw [after_release hheld]
  refine ⟨hs.grantEra_le, ?_, (hs.forget w).held⟩
  intro subject hflight
  rw [(CircuitBreakers.releaseProbe_verdicts s.breakers held.subject subject).2] at hflight
  exact hs.flight subject (by simp_all)

theorem Sound.step (hs : s.Sound) {a : ProbeAct W} (henabled : s.Enabled a) :
    (s.after a).Sound := by
  cases a with
  | update samples now => exact hs.update samples now
  | allow w subject now => exact hs.allow w subject now
  | release w =>
      obtain ⟨held, hheld⟩ := Option.isSome_iff_exists.1 henabled
      exact hs.release hheld
  | finish w => exact hs.forget w

omit [DecidableEq W] in
theorem sound_start : Sound ({ breakers := { thresholds } } : Probes W) := by
  refine ⟨fun _ => le_rfl, fun _ _ => rfl, ?_⟩
  intro w h hh
  cases hh

theorem sound {h : List (Step (Probes W) (ProbeAct W))} (hrun : Run (system W thresholds) h s) :
    s.Sound := by
  refine hrun.invariant ?_ ?_
  · rintro _ rfl
    exact sound_start
  · rintro s a _ ⟨henabled, rfl⟩ hs
    exact hs.step henabled

theorem Exclusive.forget (hs : s.Exclusive) (w : W) : (s.hold w none).Exclusive where
  single := fun _ _ _ _ hh hh' =>
    hs.single _ _ _ _ (holds_of_hold_none hh).1 (holds_of_hold_none hh').1
  flight := fun _ _ hh => hs.flight _ _ (holds_of_hold_none hh).1
  last := fun _ _ hh => hs.last _ _ (holds_of_hold_none hh).1

theorem Exclusive.update (hs : s.Exclusive) (hsound : s.Sound)
    (samples : String → Option (List AttemptSample)) (now : Instant) :
    (s.after (.update samples now)).Exclusive := by
  have heras : ∀ h w, s.holds w = some h →
      h.era = (s.after (.update samples now)).eras h.subject →
        s.expires h.subject now = false ∧ h.era = s.eras h.subject := by
    intro h w hh hera
    obtain ⟨-, hle, -⟩ := hsound.held w h hh
    have hle' := hsound.grantEra_le h.subject
    simp only [after] at hera
    split at hera <;> rename_i hexpires
    · omega
    · exact ⟨by simpa using hexpires, hera⟩
  refine ⟨hs.single, ?_, ?_⟩
  · intro w h hh hera hhalf
    obtain ⟨hexpires, hera⟩ := heras h w hh hera
    obtain ⟨hbefore, hsame⟩ := CircuitBreakers.halfOpen_of_update hhalf hexpires
    simp only [after]
    rw [hsame]
    exact hs.flight w h hh hera hbefore
  · intro w h hh hera
    exact hs.last w h hh (heras h w hh hera).2

theorem Exclusive.allow (hs : s.Exclusive) (w : W) (subject : String) (now : Instant) :
    (s.after (.allow w subject now)).Exclusive := by
  rcases s.after_allow w subject now with ⟨-, heq⟩ | ⟨hprobeable, heq⟩ <;> rw [heq]
  · exact hs.forget w
  · obtain ⟨hhalf, hflight⟩ := CircuitBreakers.probeable_iff.1 hprobeable
    -- nobody holds the subject's probe in the present era, or it would be in flight
    have hnone : ∀ w' h, s.holds w' = some h → h.subject = subject →
        h.era ≠ s.eras subject := by
      rintro w' h hh rfl hera
      rw [hs.flight w' h hh hera hhalf] at hflight
      cases hflight
    have hcases : ∀ w' h, (if w' = w then
        some ⟨subject, s.grants subject + 1, s.eras subject⟩ else s.holds w') = some h →
          (w' = w ∧ h = ⟨subject, s.grants subject + 1, s.eras subject⟩) ∨
            s.holds w' = some h := by
      intro w' h hh
      split at hh <;> rename_i hw
      · exact .inl ⟨hw, (Option.some.inj hh).symm⟩
      · exact .inr hh
    refine ⟨?_, ?_, ?_⟩
    · intro w₁ w₂ h₁ h₂ hh₁ hh₂ hsubject hera
      rcases hcases w₁ h₁ (by rw [← hold_holds]; exact hh₁) with ⟨rfl, rfl⟩ | hold₁ <;>
        rcases hcases w₂ h₂ (by rw [← hold_holds]; exact hh₂) with ⟨rfl, rfl⟩ | hold₂
      · rfl
      · exact absurd hera.symm (hnone w₂ h₂ hold₂ hsubject.symm)
      · exact absurd hera (hnone w₁ h₁ hold₁ hsubject)
      · exact hs.single w₁ w₂ h₁ h₂ hold₁ hold₂ hsubject hera
    · intro w' h hh hera hhalf'
      rcases hcases w' h (by rw [← hold_holds]; exact hh) with ⟨rfl, rfl⟩ | hold'
      · simp only [CircuitBreakers.inFlight, CircuitBreakers.modify, Function.update_self]
        cases hverdict : s.breakers.verdicts subject with
        | none =>
            rw [hverdict] at hhalf
            cases hhalf
        | some v => rfl
      · have hsubject : h.subject ≠ subject := fun hsubject =>
          hnone w' h hold' hsubject (hsubject ▸ hera)
        have hbefore := hs.flight w' h hold' hera (by
          simpa [CircuitBreakers.modify, hsubject] using hhalf')
        simpa [CircuitBreakers.inFlight, CircuitBreakers.modify, hsubject] using hbefore
    · intro w' h hh hera
      rcases hcases w' h (by rw [← hold_holds]; exact hh) with ⟨rfl, rfl⟩ | hold'
      · simp
      · have hsubject : h.subject ≠ subject := fun hsubject =>
          hnone w' h hold' hsubject (hsubject ▸ hera)
        simp only [Function.update_of_ne hsubject]
        exact hs.last w' h hold' hera

theorem Exclusive.release (hs : s.Exclusive) {w : W} {held : Hold}
    (hheld : s.holds w = some held)
    (htimely : s.breakers.inFlight held.subject = true → held.era = s.eras held.subject) :
    (s.after (.release w)).Exclusive := by
  rw [after_release hheld]
  refine ⟨(hs.forget w).single, ?_, (hs.forget w).last⟩
  intro w' h hh hera hhalf
  obtain ⟨hh, hw⟩ := holds_of_hold_none hh
  obtain ⟨hstate, hflight⟩ :=
    CircuitBreakers.releaseProbe_verdicts s.breakers held.subject h.subject
  rw [hstate] at hhalf
  have hbefore := hs.flight w' h hh hera hhalf
  simp only [hflight, hbefore, Bool.true_and, decide_eq_true_eq]
  -- a probe of the present era is in flight, so a release of it is by its one holder
  intro hsubject
  have hown : held.era = s.eras held.subject := htimely (hsubject ▸ hbefore)
  have hera' : h.era = held.era := by
    rw [hown, ← hsubject]
    exact hera
  exact hw (hs.single w' w h held hh hheld hsubject hera')

/-- The step lemma: a timely step keeps the probe with one worker. -/
theorem Exclusive.step (hs : s.Exclusive) (hsound : s.Sound) {a : ProbeAct W}
    (henabled : s.Enabled a) (htimely : Timely ⟨s, a, s.after a⟩) : (s.after a).Exclusive := by
  cases a with
  | update samples now => exact hs.update hsound samples now
  | allow w subject now => exact hs.allow w subject now
  | release w =>
      obtain ⟨held, hheld⟩ := Option.isSome_iff_exists.1 henabled
      exact hs.release hheld (htimely held hheld)
  | finish w => exact hs.forget w

omit [DecidableEq W] in
theorem exclusive_start : Exclusive ({ breakers := { thresholds } } : Probes W) := by
  refine ⟨?_, ?_, ?_⟩
  · intro w w' h h' hh
    cases hh
  · intro w h hh
    cases hh
  · intro w h hh
    cases hh

theorem exclusive {h : List (Step (Probes W) (ProbeAct W))}
    (hrun : Run (system W thresholds) h s) (htimely : ∀ e ∈ h, Timely e) : s.Exclusive := by
  induction hrun with
  | start hs =>
      rw [Set.mem_singleton_iff.1 hs]
      exact exclusive_start
  | step hpast hnext ih =>
      obtain ⟨henabled, rfl⟩ := hnext
      rw [List.forall_mem_cons] at htimely
      exact (ih htimely.2).step (sound hpast) henabled htimely.1

/-! ### The main result -/

theorem timely_of_releasesOwn (hsound : s.Sound) {a : ProbeAct W}
    (hown : ReleasesOwn ⟨s, a, s.after a⟩) : Timely ⟨s, a, s.after a⟩ := by
  cases a with
  | release w =>
      intro held hheld hflight
      have hgrant := hown held hheld (by
        rw [CircuitBreakers.releaseProbe_fst]
        exact hflight)
      rw [(hsound.held w held hheld).2.2 hgrant]
      exact hsound.flight held.subject hflight
  | _ => trivial

/-- **Who holds a probe.**  In a run of a registry, the probe of a subject is held by one worker
at most between two ends of a cool-down, and every release that frees a probe frees the one its
worker was granted, if and only if every release comes before a cool-down of the subject has ended
since the grant, or finds no probe in flight. -/
theorem single_probe_iff {h : List (Step (Probes W) (ProbeAct W))}
    (hrun : Run (system W thresholds) h s) :
    (∀ e ∈ h, SingleHolder e.post ∧ ReleasesOwn e) ↔ ∀ e ∈ h, Timely e := by
  constructor
  · intro hholds e he
    obtain ⟨h₂, hpast, henabled, hpost⟩ := hrun.past_of_mem he
    obtain ⟨s₀, a, s₁⟩ := e
    obtain rfl : s₁ = s₀.after a := hpost
    exact timely_of_releasesOwn (sound hpast) (hholds _ he).2
  · intro htimely e he
    obtain ⟨h₁, h₂, rfl⟩ := List.append_of_mem he
    obtain ⟨hpast, hnext, hnow⟩ := hrun.past
    have htimely₂ : ∀ e' ∈ h₂, Timely e' := fun e' he' =>
      htimely e' (List.mem_append_right _ (List.mem_cons_of_mem _ he'))
    have hpre := exclusive hpast htimely₂
    refine ⟨(exclusive hnow fun e' he' => htimely e' (List.mem_append_right _ he')).single, ?_⟩
    obtain ⟨s₀, a, s₁⟩ := e
    cases a with
    | release w =>
        intro held hheld hfreed
        rw [CircuitBreakers.releaseProbe_fst] at hfreed
        exact hpre.last w held hheld (htimely _ he held hheld hfreed)
    | _ => trivial

/-! ### A late release -/

/-- Five failures in the first second. -/
def failures (subject : String) : Option (List AttemptSample) :=
  if subject = "m" then some (List.replicate 5 ⟨seconds 1, false⟩) else none

/-- A breaker trips and cools down, the first worker's probe is presumed lost, and the second
worker is granted another. -/
def secondProbe : List (ProbeAct ℕ) :=
  [.update failures (seconds 1), .update failures (seconds 301), .allow 1 "m" (seconds 301),
   .update failures (seconds 601), .allow 2 "m" (seconds 601)]

/-- The first worker is cancelled and gives back the second one's probe. -/
def lateRelease : List (ProbeAct ℕ) := secondProbe ++ [.release 1]

theorem lateRelease_run : Run (system ℕ {}) (trace after { breakers := {} } lateRelease)
    (lateRelease.foldl after { breakers := {} }) := by
  refine .replay ⟨trivial, trivial, trivial, trivial, trivial, ?_, trivial⟩
  show (Option.isSome _) = true
  decide +kernel

/-- The late release frees a probe the releasing worker was not granted. -/
theorem lateRelease_frees_other : ¬ ∀ h s, Run (system ℕ {}) h s →
    ∀ e ∈ h, SingleHolder e.post ∧ ReleasesOwn e := by
  intro hclaim
  have hlast : (⟨secondProbe.foldl after { breakers := {} }, .release 1,
      lateRelease.foldl after { breakers := {} }⟩ : Step (Probes ℕ) (ProbeAct ℕ)) ∈
        trace after { breakers := {} } lateRelease := List.mem_cons_self
  have hown := (hclaim _ _ lateRelease_run _ hlast).2 ⟨"m", 1, 1⟩
    (by decide +kernel) (by decide +kernel)
  exact absurd hown (by decide +kernel)

/-- The equivalence at that run. -/
theorem single_probe_iff_lateRelease :
    (∀ e ∈ trace after { breakers := {} } lateRelease, SingleHolder e.post ∧ ReleasesOwn e) ↔
      ∀ e ∈ trace after { breakers := {} } lateRelease, Timely e :=
  single_probe_iff lateRelease_run

end Probes

end LoadCoach
