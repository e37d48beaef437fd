import LoadCoach.CircuitBreaker
import LoadCoach.Foundations.Exceptions
import LoadCoach.Foundations.Transition

/-! # The update of every breaker

`evaluate` ends with the line of text of its verdict.  The line of an open breaker prints the
failure rate, which is `None` where no attempt counts, and `None` has no percent format: there the
evaluation raises.  `CircuitBreakers.update` stores each verdict as it goes through the subjects, in
the order of a `set`, so an evaluation that raises leaves the subjects before it with new verdicts
and the others with old ones (`updateLoop_error`).

* `evaluateLine_eq_ok_iff`: an evaluation returns exactly when the breaker does not stay open, or
  an attempt counts.
* `updates_total_iff`: so the updates of a run are total and all-or-nothing exactly when every
  breaker an update finds open has cooled down by then or has an attempt that counts. -/

namespace LoadCoach

open Foundations

/-! ### The line of a verdict -/

/-- How the standard library prints a rate as a percentage and an instant. -/
structure VerdictTexts where
  percent : ℚ → String
  instant : Option Instant → String

namespace BreakerVerdict

variable {texts : VerdictTexts} {thresholds : Thresholds} {samples : List AttemptSample}
  {now : Instant} {v : BreakerVerdict} {previous : Option BreakerVerdict}

/-- `f"{rate:.0%}"`, which `None` does not support. -/
def formatRate (texts : VerdictTexts) : Option ℚ → Except Raised String
  | some rate => .ok (texts.percent rate)
  | none => .error .typeError

/-- The line for the page and the explanation, of a verdict over so many failures. -/
def line (texts : VerdictTexts) (window : ℤ) (failures : ℕ) (v : BreakerVerdict) :
    Except Raised String :=
  match v.state with
  | .opened => do
      let rate ← formatRate texts v.failureRate
      return s!"{failures} of {v.samples} attempts in the last {window.tdiv (seconds 1)} s failed" ++
        s!" ({rate}); excluded until {texts.instant v.expiresAt}"
  | .halfOpen =>
      return if v.probeInFlight then "cool-down elapsed; probe in flight"
        else "cool-down elapsed; one probe allowed"
  | .closed =>
      match v.failureRate with
      | none => return "closed"
      | some rate =>
          return s!"{failures} of {v.samples} attempts failed ({texts.percent rate})"

/-- The samples a verdict is about, once an outcome may have closed the breaker. -/
def judged (thresholds : Thresholds) (samples : List AttemptSample) (now : Instant)
    (v : BreakerVerdict) : List AttemptSample :=
  ((v.cooled thresholds.cooldown now).report thresholds.cooldown
    (counted thresholds samples now v)).2

/-- `evaluate`: the next verdict and its line. -/
def evaluateLine (texts : VerdictTexts) (thresholds : Thresholds) (samples : List AttemptSample)
    (now : Instant) (previous : Option BreakerVerdict) : Except Raised (BreakerVerdict × String) :=
  let v := evaluate thresholds samples now previous
  let failures := ((judged thresholds samples now (previous.getD {})).filter fun s =>
    !s.succeeded).length
  (v.line texts thresholds.window failures).map fun text => (v, text)

/-! ### When an evaluation returns -/

/-- A sample counts for a breaker: in the window, after the last closing, not after now. -/
def Counts (thresholds : Thresholds) (now : Instant) (v : BreakerVerdict) (s : AttemptSample) :
    Prop :=
  now - thresholds.window < s.instant ∧ (∀ t ∈ v.closedAt, t < s.instant) ∧ s.instant ≤ now

theorem mem_counted {s : AttemptSample} :
    s ∈ counted thresholds samples now v ↔ s ∈ samples ∧ v.Counts thresholds now s := by
  have hsorted : ∀ origin, s ∈ recent samples origin now ↔
      s ∈ samples ∧ origin < s.instant ∧ s.instant ≤ now := by
    intro origin
    simp [recent, List.mem_insertionSort]
  unfold counted Counts
  cases hclosed : v.closedAt with
  | none => simp [hsorted]
  | some t => simp [hsorted, and_assoc]

theorem rateOf_eq_none_iff {l : List AttemptSample} : rateOf l = none ↔ l = [] := by
  unfold rateOf
  cases l <;> simp

theorem trip_nil : v.trip thresholds [] = v := by
  unfold trip
  have hrate : rateOf [] = none := rateOf_eq_none_iff.2 rfl
  rw [hrate]
  cases v.state <;> rfl

theorem report_opened {cooldown : ℤ} {l : List AttemptSample}
    (hstate : (v.report cooldown l).1.state = .opened) (hnil : (v.report cooldown l).2 = []) :
    v.state = .opened ∧ l = [] := by
  cases hv : v.state with
  | halfOpen =>
      cases hopened : v.openedAt with
      | none =>
          simp only [report, hv, hopened] at hstate
          cases hstate
      | some openedAt =>
          simp only [report, hv, hopened] at hstate hnil
          cases hlast : (l.filter fun s => decide (openedAt < s.instant)).getLast? with
          | none =>
              simp only [hlast, hv] at hstate
              cases hstate
          | some last =>
              simp only [hlast] at hstate hnil
              split at hstate
              · cases hstate
              · rename_i hfailed
                rw [if_neg hfailed] at hnil
                subst hnil
                cases hlast
  | closed =>
      simp only [report, hv] at hstate
      cases hstate
  | opened =>
      simp only [report, hv] at hnil
      exact ⟨rfl, hnil⟩

theorem cooled_halfOpen {cooldown : ℤ} (h : v.expired cooldown now = true) :
    (v.cooled cooldown now).state = .halfOpen := by
  simp only [expired, Bool.or_eq_true, Bool.and_eq_true, beq_iff_eq] at h
  unfold cooled
  rcases h with ⟨hstate, hexpires⟩ | ⟨⟨hstate, hflight⟩, hstarted⟩
  · rw [cool_of_opened hstate hexpires]
    simp [presumeLost]
  · rw [cool_of_halfOpen hstate, presumeLost, if_pos ⟨hstate, hflight, hstarted⟩]
    exact hstate

theorem line_eq_ok_iff {window : ℤ} {failures : ℕ} :
    (∃ text, v.line texts window failures = .ok text) ↔
      (v.state = .opened → v.failureRate ≠ none) := by
  unfold line
  cases hstate : v.state with
  | opened =>
      cases hrate : v.failureRate with
      | none => simp [formatRate, bind, Except.bind]
      | some rate => simp [formatRate, bind, Except.bind, pure, Except.pure]
  | halfOpen => simp [pure, Except.pure]
  | closed =>
      cases hrate : v.failureRate <;> simp [pure, Except.pure]

/-- A breaker stays open without a rate exactly when it was open, has not cooled down and no
attempt counts. -/
theorem evaluate_unrated_iff :
    ((evaluate thresholds samples now previous).state = .opened ∧
        (evaluate thresholds samples now previous).failureRate = none) ↔
      (previous.getD {}).state = .opened ∧
        (previous.getD {}).expired thresholds.cooldown now = false ∧
          counted thresholds samples now (previous.getD {}) = [] := by
  have hrate : (evaluate thresholds samples now previous).failureRate =
      rateOf (judged thresholds samples now (previous.getD {})) := rfl
  have hstate : judged thresholds samples now (previous.getD {}) = [] →
      (evaluate thresholds samples now previous).state =
        (((previous.getD {}).cooled thresholds.cooldown now).report thresholds.cooldown
          (counted thresholds samples now (previous.getD {}))).1.state := by
    intro hnil
    unfold judged at hnil
    unfold evaluate
    dsimp only
    rw [hnil, trip_nil]
  rw [hrate, rateOf_eq_none_iff]
  constructor
  · rintro ⟨hopened, hnil⟩
    rw [hstate hnil] at hopened
    obtain ⟨hcooled, hcounted⟩ := report_opened hopened hnil
    cases hexpired : (previous.getD {}).expired thresholds.cooldown now with
    | false =>
        rw [cooled_of_not_expired hexpired] at hcooled
        exact ⟨hcooled, rfl, hcounted⟩
    | true =>
        rw [cooled_halfOpen hexpired] at hcooled
        cases hcooled
  · rintro ⟨hopened, hexpired, hcounted⟩
    have hreport : ((previous.getD {}).cooled thresholds.cooldown now).report thresholds.cooldown
        (counted thresholds samples now (previous.getD {})) = (previous.getD {}, []) := by
      rw [cooled_of_not_expired hexpired, hcounted]
      simp only [report, hopened]
    have hnil : judged thresholds samples now (previous.getD {}) = [] := by
      rw [judged, hreport]
    rw [hstate hnil, hreport]
    exact ⟨hopened, hnil⟩

/-- A breaker that is open has cooled down by now, or an attempt counts for it. -/
def Rated (thresholds : Thresholds) (samples : List AttemptSample) (now : Instant)
    (v : BreakerVerdict) : Prop :=
  v.state = .opened →
    (∃ t ∈ v.expiresAt, t ≤ now) ∨ ∃ s ∈ samples, v.Counts thresholds now s

theorem rated_iff : v.Rated thresholds samples now ↔
    ¬ (v.state = .opened ∧ v.expired thresholds.cooldown now = false ∧
      counted thresholds samples now v = []) := by
  have hexpired : v.state = .opened → (v.expired thresholds.cooldown now = true ↔
      ∃ t ∈ v.expiresAt, t ≤ now) := by
    intro hopened
    simp [expired, hopened, Option.any_eq_true]
  have hcounted : counted thresholds samples now v ≠ [] ↔
      ∃ s ∈ samples, v.Counts thresholds now s := by
    constructor
    · intro hne
      obtain ⟨s, hs⟩ := List.exists_mem_of_ne_nil _ hne
      exact ⟨s, mem_counted.1 hs⟩
    · rintro ⟨s, hs⟩
      exact List.ne_nil_of_mem (mem_counted.2 hs)
  constructor
  · rintro hrated ⟨hopened, hnot, hnil⟩
    rcases hrated hopened with hcool | hcounts
    · rw [(hexpired hopened).2 hcool] at hnot
      cases hnot
    · exact hcounted.2 hcounts hnil
  · intro hnot hopened
    by_cases hcool : v.expired thresholds.cooldown now = true
    · exact .inl ((hexpired hopened).1 hcool)
    · exact .inr (hcounted.1 fun hnil => hnot ⟨hopened, by simpa using hcool, hnil⟩)

/-- **When an evaluation returns.** -/
theorem evaluateLine_eq_ok_iff :
    (∃ r, evaluateLine texts thresholds samples now previous = .ok r) ↔
      (previous.getD {}).Rated thresholds samples now := by
  have hline := @line_eq_ok_iff texts (evaluate thresholds samples now previous) thresholds.window
    ((judged thresholds samples now (previous.getD {})).filter fun s => !s.succeeded).length
  rw [rated_iff, ← evaluate_unrated_iff, not_and, ← Ne.eq_def, ← hline]
  unfold evaluateLine
  constructor
  · rintro ⟨r, hr⟩
    obtain ⟨text, htext, -⟩ := map_eq_ok.1 hr
    exact ⟨text, htext⟩
  · rintro ⟨text, htext⟩
    exact ⟨_, map_eq_ok.2 ⟨text, htext, rfl⟩⟩

theorem evaluateLine_eq_ok {r : BreakerVerdict × String}
    (h : evaluateLine texts thresholds samples now previous = .ok r) :
    r.1 = evaluate thresholds samples now previous := by
  obtain ⟨text, -, rfl⟩ := map_eq_ok.1 h
  rfl

end BreakerVerdict

/-! ### The update -/

namespace CircuitBreakers

variable {texts : VerdictTexts} {samples : String → Option (List AttemptSample)} {now : Instant}
  {breakers : CircuitBreakers} {names : List String} {name : String}

/-- What `update` computes for one subject. -/
def reevaluate (texts : VerdictTexts) (samples : String → Option (List AttemptSample))
    (now : Instant) (breakers : CircuitBreakers) (name : String) :
    Except Raised (BreakerVerdict × String) :=
  BreakerVerdict.evaluateLine texts breakers.thresholds ((samples name).getD []) now
    (breakers.verdicts name)

/-- `self._verdicts[canonical_id] = …`. -/
def store (breakers : CircuitBreakers) (name : String) (verdict : BreakerVerdict) :
    CircuitBreakers :=
  { breakers with verdicts := Function.update breakers.verdicts name (some verdict) }

/-- The loop of `update` over the subjects, and what it raises; the verdicts stored so far stay. -/
def updateLoop (texts : VerdictTexts) (samples : String → Option (List AttemptSample))
    (now : Instant) : List String → CircuitBreakers → CircuitBreakers × Option Raised
  | [], breakers => (breakers, none)
  | name :: names, breakers =>
      match breakers.reevaluate texts samples now name with
      | .error e => (breakers, some e)
      | .ok (verdict, _) =>
          updateLoop texts samples now names (breakers.store name verdict)

variable {verdict : BreakerVerdict}

@[simp] theorem store_thresholds : (breakers.store name verdict).thresholds =
    breakers.thresholds := rfl

theorem store_verdicts_self : (breakers.store name verdict).verdicts name = some verdict :=
  Function.update_self ..

theorem store_verdicts_ne {other : String} (h : other ≠ name) :
    (breakers.store name verdict).verdicts other = breakers.verdicts other :=
  Function.update_of_ne h ..

/-- A subject an update is about: it has samples, or it is known. -/
def Concerned (samples : String → Option (List AttemptSample)) (breakers : CircuitBreakers)
    (name : String) : Prop :=
  (samples name).isSome ∨ (breakers.verdicts name).isSome

/-- The verdict an update is to store for a subject. -/
def verdictFor (samples : String → Option (List AttemptSample)) (now : Instant)
    (breakers : CircuitBreakers) (name : String) : BreakerVerdict :=
  BreakerVerdict.evaluate breakers.thresholds ((samples name).getD []) now
    (breakers.verdicts name)

/-- Every subject of the loop is rated. -/
def AllRated (samples : String → Option (List AttemptSample)) (now : Instant)
    (breakers : CircuitBreakers) (names : List String) : Prop :=
  ∀ name ∈ names, ((breakers.verdicts name).getD {}).Rated breakers.thresholds
    ((samples name).getD []) now

theorem reevaluate_eq_ok_iff : (∃ r, breakers.reevaluate texts samples now name = .ok r) ↔
    ((breakers.verdicts name).getD {}).Rated breakers.thresholds ((samples name).getD []) now :=
  BreakerVerdict.evaluateLine_eq_ok_iff

theorem allRated_store (h : name ∉ names) :
    AllRated samples now (breakers.store name verdict) names ↔
      AllRated samples now breakers names := by
  refine forall₂_congr fun other hother => ?_
  have hne : other ≠ name := fun heq => h (heq ▸ hother)
  rw [store_verdicts_ne hne, store_thresholds]

/-- **The loop raises nothing exactly when every subject is rated.** -/
theorem updateLoop_total_iff (hnodup : names.Nodup) :
    (updateLoop texts samples now names breakers).2 = none ↔
      AllRated samples now breakers names := by
  induction names generalizing breakers with
  | nil => simp [updateLoop, AllRated]
  | cons name names ih =>
      obtain ⟨hfresh, hnodup⟩ := List.nodup_cons.1 hnodup
      have hhead := @reevaluate_eq_ok_iff texts samples now breakers name
      rw [updateLoop, AllRated, List.forall_mem_cons, ← hhead]
      cases hname : breakers.reevaluate texts samples now name with
      | error e => simp
      | ok r =>
          simp only [Except.ok.injEq, exists_eq', true_and]
          exact (ih hnodup).trans (allRated_store hfresh)

theorem updateLoop_of_notMem (h : name ∉ names) :
    (updateLoop texts samples now names breakers).1.verdicts name = breakers.verdicts name := by
  induction names generalizing breakers with
  | nil => rfl
  | cons first names ih =>
      obtain ⟨hne, hrest⟩ := not_or.1 (mt List.mem_cons.2 h)
      rw [updateLoop]
      split
      · rfl
      · rw [ih hrest, store_verdicts_ne hne]

/-- **A loop that raises nothing stores the new verdict of each subject.** -/
theorem updateLoop_verdicts (hnodup : names.Nodup)
    (htotal : (updateLoop texts samples now names breakers).2 = none) (hname : name ∈ names) :
    (updateLoop texts samples now names breakers).1.verdicts name =
      some (breakers.verdictFor samples now name) := by
  induction names generalizing breakers with
  | nil => cases hname
  | cons first names ih =>
      obtain ⟨hfresh, hnodup⟩ := List.nodup_cons.1 hnodup
      rw [updateLoop] at htotal ⊢
      cases hfirst : breakers.reevaluate texts samples now first with
      | error e =>
          simp only [hfirst] at htotal
          cases htotal
      | ok r =>
          simp only [hfirst] at htotal ⊢
          by_cases heq : name = first
          · rw [heq, updateLoop_of_notMem hfresh, store_verdicts_self,
              BreakerVerdict.evaluateLine_eq_ok hfirst, verdictFor]
          · rw [ih hnodup htotal ((List.mem_cons.1 hname).resolve_left heq), verdictFor,
              store_verdicts_ne heq, store_thresholds, verdictFor]

/-- **A loop that raises stops half-way**: the subjects before have their new verdicts, the others
their old ones. -/
theorem updateLoop_error {e : Raised} (hnodup : names.Nodup)
    (hraised : (updateLoop texts samples now names breakers).2 = some e) :
    ∃ before name after, names = before ++ name :: after ∧
      ¬ ((breakers.verdicts name).getD {}).Rated breakers.thresholds ((samples name).getD []) now ∧
      (∀ n ∈ before, (updateLoop texts samples now names breakers).1.verdicts n =
        some (breakers.verdictFor samples now n)) ∧
      ∀ n ∉ before,
        (updateLoop texts samples now names breakers).1.verdicts n = breakers.verdicts n := by
  induction names generalizing breakers with
  | nil => cases hraised
  | cons first names ih =>
      obtain ⟨hfresh, hnodup⟩ := List.nodup_cons.1 hnodup
      rw [updateLoop] at hraised ⊢
      cases hfirst : breakers.reevaluate texts samples now first with
      | error x =>
          refine ⟨[], first, names, rfl, ?_, by simp, fun _ _ => rfl⟩
          rw [← reevaluate_eq_ok_iff, hfirst]
          rintro ⟨r, hr⟩
          cases hr
      | ok r =>
          simp only [hfirst] at hraised ⊢
          obtain ⟨before, name, after, rfl, hrated, hnew, hold⟩ := ih hnodup hraised
          have hne : ∀ n ∈ before ++ name :: after, n ≠ first := fun n hn heq =>
            hfresh (heq ▸ hn)
          refine ⟨first :: before, name, after, rfl, ?_, ?_, ?_⟩
          · have hname := hne name (by simp)
            rwa [store_verdicts_ne hname] at hrated
          · intro n hn
            rcases List.mem_cons.1 hn with rfl | hn
            · rw [updateLoop_of_notMem hfresh, store_verdicts_self,
                BreakerVerdict.evaluateLine_eq_ok hfirst, verdictFor]
            · rw [hnew n hn, verdictFor, store_verdicts_ne (hne n (by simp [hn])),
                store_thresholds, verdictFor]
          · intro n hn
            obtain ⟨hn₁, hn₂⟩ := not_or.1 (mt List.mem_cons.2 hn)
            rw [hold n hn₂, store_verdicts_ne hn₁]

/-- Where nothing is raised, the loop is the update of every subject at once. -/
theorem updateLoop_eq_update (hnodup : names.Nodup)
    (hnames : ∀ name, name ∈ names ↔ Concerned samples breakers name)
    (htotal : (updateLoop texts samples now names breakers).2 = none) (name : String) :
    (updateLoop texts samples now names breakers).1.verdicts name =
      (breakers.update samples now).verdicts name := by
  by_cases hname : name ∈ names
  · have hconcerned := (hnames name).1 hname
    rw [updateLoop_verdicts hnodup htotal hname, update]
    dsimp only
    rw [if_pos (by simpa [Concerned] using hconcerned), verdictFor]
  · have hunconcerned := mt (hnames name).2 hname
    rw [updateLoop_of_notMem hname, update]
    dsimp only
    rw [if_neg (by simpa [Concerned] using hunconcerned)]
    simpa using (not_or.1 hunconcerned).2

end CircuitBreakers

/-! ### Runs of calls -/

/-- A call of the registry; an update goes through its subjects in some order. -/
inductive BreakerCall where
  | update (samples : String → Option (List AttemptSample)) (now : Instant) (order : List String)
  | allowProbe (name : String) (now : Instant)
  | releaseProbe (name : String)

namespace BreakerCall

variable {texts : VerdictTexts} {thresholds : Thresholds} {b : CircuitBreakers}
  {h : List (Step CircuitBreakers BreakerCall)}

/-- What a call raises. -/
def raised (texts : VerdictTexts) (b : CircuitBreakers) : BreakerCall → Option Raised
  | .update samples now order => (CircuitBreakers.updateLoop texts samples now order b).2
  | _ => none

/-- The registry after a call. -/
def after (texts : VerdictTexts) (b : CircuitBreakers) : BreakerCall → CircuitBreakers
  | .update samples now order => (CircuitBreakers.updateLoop texts samples now order b).1
  | .allowProbe name now => (b.allowProbe name now).2
  | .releaseProbe name => (b.releaseProbe name).2

/-- The order of an update is one of the set of its subjects. -/
def Enabled (b : CircuitBreakers) : BreakerCall → Prop
  | .update samples _ order =>
      order.Nodup ∧ ∀ name, name ∈ order ↔ CircuitBreakers.Concerned samples b name
  | _ => True

/-- **The calls of a registry**, from an empty one, at any instants. -/
def system (texts : VerdictTexts) (thresholds : Thresholds) : System CircuitBreakers BreakerCall :=
  .guarded Enabled (after texts) { thresholds }

/-- An update is total and all-or-nothing: it raises nothing, and it leaves each of its subjects
with its new verdict. -/
def Total (texts : VerdictTexts) (e : Step CircuitBreakers BreakerCall) : Prop :=
  match e.act with
  | .update samples now order =>
      (BreakerCall.update samples now order).raised texts e.pre = none ∧
        ∀ name, CircuitBreakers.Concerned samples e.pre name →
          e.post.verdicts name = some (e.pre.verdictFor samples now name)
  | _ => True

/-- Every breaker an update finds open has cooled down, or an attempt counts for it. -/
def Rates (e : Step CircuitBreakers BreakerCall) : Prop :=
  match e.act with
  | .update samples now _ =>
      ∀ name v, e.pre.verdicts name = some v →
        v.Rated e.pre.thresholds ((samples name).getD []) now
  | _ => True

theorem total_iff_rates {e : Step CircuitBreakers BreakerCall}
    (hnext : (system texts thresholds).next e.pre e.act e.post) : Total texts e ↔ Rates e := by
  obtain ⟨b, a, b'⟩ := e
  obtain ⟨henabled, hafter⟩ := hnext
  dsimp only at henabled hafter
  subst hafter
  cases a with
  | allowProbe name now | releaseProbe name => exact Iff.rfl
  | update samples now order =>
      obtain ⟨hnodup, horder⟩ := henabled
      have hloop := @CircuitBreakers.updateLoop_total_iff texts samples now b order hnodup
      have hrates : CircuitBreakers.AllRated samples now b order ↔
          Rates ⟨b, .update samples now order, after texts b (.update samples now order)⟩ := by
        constructor
        · intro hrated name v hname
          have hmem := (horder name).2 (.inr (Option.isSome_iff_exists.2 ⟨v, hname⟩))
          have h := hrated name hmem
          rwa [hname] at h
        · intro hrates name _
          cases hname : b.verdicts name with
          | some v => exact hrates name v hname
          | none =>
              intro hopened
              cases hopened
      rw [← hrates, ← hloop]
      constructor
      · exact fun htotal => htotal.1
      · intro hnone
        exact ⟨hnone, fun name hname =>
          CircuitBreakers.updateLoop_verdicts hnodup hnone ((horder name).2 hname)⟩

/-- **The updates of a run are total and all-or-nothing** exactly when each finds every open
breaker cooled down or with an attempt that counts. -/
theorem updates_total_iff (hrun : Run (system texts thresholds) h b) :
    (∀ e ∈ h, Total texts e) ↔ ∀ e ∈ h, Rates e :=
  forall₂_congr fun _ he => total_iff_rates (hrun.next_of_mem he)

/-! ### A sample that is missing -/

/-- Texts that print nothing. -/
def noTexts : VerdictTexts := ⟨fun _ => "", fun _ => ""⟩

/-- Five failures of a model, one a second. -/
def fiveFailures : List AttemptSample := (List.range 5).map fun n => ⟨seconds n, false⟩

/-- The samples of one model. -/
def samplesOf (name : String) (samples : List AttemptSample) (other : String) :
    Option (List AttemptSample) :=
  if other = name then some samples else none

/-- Five failures open the breaker of the model. -/
def opening : BreakerCall := .update (samplesOf "m" fiveFailures) (seconds 5) ["m"]

/-- An update a second later without samples of that model, and with one of another. -/
def forgetting : BreakerCall :=
  .update (samplesOf "n" [⟨seconds 6, true⟩]) (seconds 6) ["n", "m"]

theorem concerned_samplesOf {name other : String} {samples : List AttemptSample}
    {b : CircuitBreakers} : CircuitBreakers.Concerned (samplesOf name samples) b other ↔
      other = name ∨ (b.verdicts other).isSome := by
  unfold CircuitBreakers.Concerned samplesOf
  split <;> simp_all

theorem opening_enabled : opening.Enabled {} :=
  ⟨by simp, fun name => by simp [concerned_samplesOf]⟩

theorem run_opening : Run (system noTexts {})
    [⟨{}, opening, opening.after noTexts {}⟩] (opening.after noTexts {}) :=
  (Run.start rfl).step ⟨opening_enabled, rfl⟩

theorem updates_total_opening : Total noTexts ⟨{}, opening, opening.after noTexts {}⟩ :=
  (updates_total_iff run_opening).2 (by
    simp only [List.mem_singleton, forall_eq]
    intro name v hname
    cases hname) _ (List.mem_singleton_self _)

theorem forgetting_enabled : forgetting.Enabled (opening.after noTexts {}) := by
  refine ⟨by simp, fun name => ?_⟩
  rw [concerned_samplesOf]
  have hknown : ((opening.after noTexts {}).verdicts name).isSome ↔ name = "m" := by
    by_cases hm : name = "m"
    · rw [hm]
      decide +kernel
    · rw [opening, after, CircuitBreakers.updateLoop_of_notMem (by simpa using hm)]
      simp [hm]
  rw [hknown]
  simp

/-- The second update raises half-way: one subject has its new verdict, the other its old one. -/
theorem update_stops_half_way :
    ∃ h b e, Run (system noTexts {}) (e :: h) b ∧ ¬ Total noTexts e ∧
      (e.act.raised noTexts e.pre).isSome ∧
      e.post.verdicts "n" ≠ e.pre.verdicts "n" ∧ e.post.verdicts "m" = e.pre.verdicts "m" := by
  have hraised : (forgetting.raised noTexts (opening.after noTexts {})).isSome := by
    decide +kernel
  refine ⟨_, _, ⟨opening.after noTexts {}, forgetting,
    forgetting.after noTexts (opening.after noTexts {})⟩,
    run_opening.step ⟨forgetting_enabled, rfl⟩, ?_, hraised, ?_, ?_⟩
  · rintro ⟨hnone, -⟩
    change forgetting.raised noTexts (opening.after noTexts {}) = none at hnone
    exact Option.isSome_iff_ne_none.1 hraised hnone
  · decide +kernel
  · decide +kernel

end BreakerCall

end LoadCoach
