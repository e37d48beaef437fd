import LoadCoach.BreakerUpdates
import LoadCoach.Foundations.Sorting

/-! # What decides a half-open breaker

A breaker whose cool-down has passed lets one probe through, and the first attempt after the opening
is to decide.  The evaluation reads the samples of a batch, and of those after the opening it takes
the last one.

* `evaluate_state_of_coolDownOver`: the state after an evaluation is the outcome of the newest
  attempt that counts.
* `followsProbe_iff_newest_agrees`: so the earliest attempt decides exactly when that newest attempt
  ended the same way. -/

namespace LoadCoach

open Foundations

namespace BreakerVerdict

variable {thresholds : Thresholds} {samples : List AttemptSample} {now openedAt : Instant}
  {v : BreakerVerdict}

/-- The cool-down of a breaker has passed by an instant. -/
def CoolDownOver (now : Instant) (v : BreakerVerdict) : Prop :=
  v.state = .halfOpen ∨ v.state = .opened ∧ ∃ t ∈ v.expiresAt, t ≤ now

/-- The state an outcome leads a half-open breaker to: success closes, failure re-opens. -/
def stateFor (s : AttemptSample) : BreakerState := if s.succeeded then .closed else .opened

/-- The earliest attempt after the opening, among those up to now. -/
def probe (samples : List AttemptSample) (openedAt now : Instant) : Option AttemptSample :=
  (samples.filter fun s => decide (openedAt < s.instant) && decide (s.instant ≤ now)).minOn?
    AttemptSample.instant

/-- The horizon of a verdict: the start of the window, or the last closing where that is later. -/
def origin (thresholds : Thresholds) (now : Instant) (v : BreakerVerdict) : Instant :=
  (v.closedAt.map fun t => max (now - thresholds.window) t).getD (now - thresholds.window)

/-- The newest attempt after the opening, among those in the window and after the last closing; of
several at one instant, the last of the list. -/
def newest (thresholds : Thresholds) (samples : List AttemptSample) (openedAt now : Instant)
    (v : BreakerVerdict) : Option AttemptSample :=
  ((samples.filter fun s => decide (v.origin thresholds now < s.instant) &&
      decide (s.instant ≤ now) && decide (openedAt < s.instant)).reverse).maxOn?
    AttemptSample.instant

/-! ### The newest attempt decides -/

theorem getLast?_counted :
    ((counted thresholds samples now v).filter fun s => decide (openedAt < s.instant)).getLast? =
      newest thresholds samples openedAt now v := by
  have hcounted : counted thresholds samples now v = sortBy AttemptSample.instant
      (samples.filter fun s => decide (v.origin thresholds now < s.instant) &&
        decide (s.instant ≤ now)) := rfl
  have hfilter := filter_insertionSort (r := fun a b : AttemptSample => a.instant ≤ b.instant)
    (fun s => decide (openedAt < s.instant))
    (samples.filter fun s => decide (v.origin thresholds now < s.instant) &&
      decide (s.instant ≤ now))
  rw [hcounted, sortBy, hfilter, List.filter_filter]
  refine (getLast?_sortBy AttemptSample.instant _).trans ?_
  unfold newest
  congr 2
  exact List.filter_congr fun s _ => Bool.and_comm ..

theorem counted_after_newest {last : AttemptSample} (hv : openedAt < last.instant)
    (hlast : newest thresholds samples openedAt now v = some last) :
    ((counted thresholds samples now v).filter fun s => decide (last.instant < s.instant)) = [] := by
  rw [List.filter_eq_nil_iff]
  intro s hs hlater
  have hlater := of_decide_eq_true hlater
  obtain ⟨hmem, hwindow, hclosed, hnow⟩ := mem_counted.1 hs
  have horigin : v.origin thresholds now < s.instant := by
    unfold origin
    cases hat : v.closedAt with
    | none => exact hwindow
    | some t => exact max_lt hwindow (hclosed t (by simp [hat]))
  have hlate : s ∈ (samples.filter fun s => decide (v.origin thresholds now < s.instant) &&
      decide (s.instant ≤ now) && decide (openedAt < s.instant)).reverse := by
    simp [hmem, horigin, hnow, hv.trans hlater]
  have hle : s.instant ≤ last.instant := le_of_maxOn? hlate hlast
  exact absurd hlater (not_lt.2 hle)

theorem cooled_of_coolDownOver (cooldown : ℤ) (h : v.CoolDownOver now) :
    (v.cooled cooldown now).state = .halfOpen ∧ (v.cooled cooldown now).openedAt = v.openedAt := by
  have hcool : (v.cool now).state = .halfOpen ∧ (v.cool now).openedAt = v.openedAt := by
    rcases h with hhalf | ⟨hopened, t, ht, hle⟩
    · rw [cool_of_halfOpen hhalf]
      exact ⟨hhalf, rfl⟩
    · have hexpires : v.expiresAt.any (fun t => decide (t ≤ now)) = true := by
        rw [ht]
        exact decide_eq_true hle
      rw [cool_of_opened hopened hexpires]
      exact ⟨rfl, rfl⟩
  unfold cooled presumeLost
  split
  · exact hcool
  · exact hcool

theorem openedAt_lt_newest {last : AttemptSample}
    (hlast : newest thresholds samples openedAt now v = some last) : openedAt < last.instant := by
  have hmem := List.maxOn?_mem hlast
  simp only [List.mem_reverse, List.mem_filter, Bool.and_eq_true, decide_eq_true_eq] at hmem
  exact hmem.2.2

/-- The last of the samples after the opening decides a half-open breaker, where none of them is
later. -/
theorem trip_report_state {l : List AttemptSample} {o : Option AttemptSample}
    (hstate : v.state = .halfOpen) (hopened : v.openedAt = some openedAt)
    (hlast : (l.filter fun s => decide (openedAt < s.instant)).getLast? = o)
    (hnil : ∀ last ∈ o, (l.filter fun s => decide (last.instant < s.instant)) = []) :
    ((v.report thresholds.cooldown l).1.trip thresholds (v.report thresholds.cooldown l).2).state =
      o.elim .halfOpen stateFor := by
  have hreport : v.report thresholds.cooldown l = match o with
      | none => (v, l)
      | some last =>
          if last.succeeded then
            ({ v with
                state := .closed, closedAt := some last.instant, openedAt := none
                expiresAt := none, probeInFlight := false, probeStartedAt := none },
              l.filter fun s => decide (last.instant < s.instant))
          else
            ({ v with
                state := .opened, openedAt := some last.instant
                expiresAt := some (last.instant + thresholds.cooldown), probeInFlight := false
                probeStartedAt := none },
              l) := by
    simp only [report, hstate, hopened, hlast]
    cases o <;> rfl
  rw [hreport]
  cases o with
  | none => simp [trip, hstate]
  | some last =>
      cases hsucceeded : last.succeeded with
      | false => simp [trip, stateFor, hsucceeded]
      | true => simp [hnil last rfl, trip_nil, stateFor, hsucceeded]

/-- **The newest attempt that counts decides a breaker whose cool-down has passed**; where none
counts, it stays half-open. -/
theorem evaluate_state_of_coolDownOver (hcool : v.CoolDownOver now)
    (hopened : v.openedAt = some openedAt) :
    (evaluate thresholds samples now (some v)).state =
      (newest thresholds samples openedAt now v).elim .halfOpen stateFor := by
  obtain ⟨hstate, hat⟩ := cooled_of_coolDownOver thresholds.cooldown hcool
  rw [hopened] at hat
  exact trip_report_state hstate hat getLast?_counted fun last hlast =>
    counted_after_newest (openedAt_lt_newest hlast) hlast

/-- The breaker closes or re-opens according to the probe. -/
def FollowsProbe (thresholds : Thresholds) (samples : List AttemptSample) (openedAt now : Instant)
    (v : BreakerVerdict) : Prop :=
  ∃ first, probe samples openedAt now = some first ∧
    (evaluate thresholds samples now (some v)).state = stateFor first

/-- **The probe decides exactly when the newest attempt ended as it did.** -/
theorem followsProbe_iff_newest_agrees (hcool : v.CoolDownOver now)
    (hopened : v.openedAt = some openedAt)
    (hattempts : ∃ s ∈ samples, openedAt < s.instant ∧ s.instant ≤ now) :
    FollowsProbe thresholds samples openedAt now v ↔
      (newest thresholds samples openedAt now v).map AttemptSample.succeeded =
        (probe samples openedAt now).map AttemptSample.succeeded := by
  obtain ⟨first, hfirst⟩ : ∃ first, probe samples openedAt now = some first := by
    obtain ⟨s, hs, hlate, hnow⟩ := hattempts
    have hmem : s ∈ samples.filter fun s => decide (openedAt < s.instant) &&
        decide (s.instant ≤ now) := by
      simp [hs, hlate, hnow]
    exact Option.isSome_iff_exists.1 (List.isSome_minOn?_of_mem hmem)
  unfold FollowsProbe
  rw [evaluate_state_of_coolDownOver hcool hopened, hfirst]
  cases newest thresholds samples openedAt now v with
  | none => cases hs : first.succeeded <;> simp [stateFor, hs]
  | some last =>
      cases hs : first.succeeded <;> cases hl : last.succeeded <;> simp [stateFor, hs, hl]

/-- A breaker that opened at zero for ten seconds. -/
def openedAtZero : BreakerVerdict :=
  { state := .opened, openedAt := some 0, expiresAt := some (seconds 10) }

/-- A probe that succeeds, and an attempt that fails after it. -/
def probeThenFailure : List AttemptSample := [⟨seconds 12, false⟩, ⟨seconds 11, true⟩]

theorem followsProbe_iff_newest_agrees_single :
    FollowsProbe {} [⟨seconds 11, true⟩] 0 (seconds 15) openedAtZero :=
  (followsProbe_iff_newest_agrees (.inr ⟨rfl, seconds 10, rfl, by decide⟩) rfl
    ⟨_, List.mem_singleton_self _, by decide⟩).2 (by decide +kernel)

/-- The probe succeeded, and the breaker opens again. -/
theorem probe_overruled :
    openedAtZero.CoolDownOver (seconds 15) ∧ openedAtZero.openedAt = some 0 ∧
      probe probeThenFailure 0 (seconds 15) = some ⟨seconds 11, true⟩ ∧
      (evaluate {} probeThenFailure (seconds 15) (some openedAtZero)).state = .opened ∧
      ¬ FollowsProbe {} probeThenFailure 0 (seconds 15) openedAtZero := by
  have hprobe : probe probeThenFailure 0 (seconds 15) = some ⟨seconds 11, true⟩ := by
    decide +kernel
  have hstate : (evaluate {} probeThenFailure (seconds 15) (some openedAtZero)).state = .opened := by
    decide +kernel
  refine ⟨.inr ⟨rfl, seconds 10, rfl, by decide⟩, rfl, hprobe, hstate, ?_⟩
  rintro ⟨first, hfirst, hfollows⟩
  rw [hprobe, Option.some.injEq] at hfirst
  subst hfirst
  rw [hstate] at hfollows
  cases hfollows

end BreakerVerdict

end LoadCoach
