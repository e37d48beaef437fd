import LoadCoach.Foundations.Transition
import LoadCoach.RateLimit.Middleware
import Mathlib.Data.Nat.Digits.Defs

/-! # The rate limit over a run

In an interval a key is admitted as often as the burst and the rate allow, and once more the burst
for each time its bucket was dropped to make room for that of another key
(`admitted_add_allowance_le`, by what one step leaves of the key's allowance). -/

namespace LoadCoach.RateLimit

open Foundations

/-! ### Runs of the middleware -/

/-- What happens at the middleware: a request comes, or an answer to an address was a `401`. -/
inductive LimiterAct where
  | request (scope : Scope) (clock : Readings)
  | unauthorized (address : Option String) (clock : Readings)

/-- The instant of an action. -/
def LimiterAct.now : LimiterAct → ℚ
  | request _ clock => clock.now
  | unauthorized _ clock => clock.now

/-- A limiter, and the instant of the last action. -/
structure Clocked where
  limiter : Limiter := {}
  now : ℚ

section Runs

variable (sha256 : String → String) (limits : Limits)

/-- The key of a request. -/
def keyOf (scope : Scope) : String :=
  (credentialKey sha256 scope.headers
    (resolveClientAddress scope.client scope.headers limits.trustedProxies)).1

/-- The limiter after an action. -/
def Limiter.after (limiter : Limiter) : LimiterAct → Limiter
  | .request scope clock => (limiter.call sha256 limits scope clock).1
  | .unauthorized address clock => limiter.unauthorized limits address clock

/-- Actions at instants that do not decrease, from a limiter without buckets on. -/
def limiterSystem : System Clocked LimiterAct where
  init := {st | st.limiter = {}}
  next st a st' := st.now ≤ a.now ∧ st' = ⟨st.limiter.after sha256 limits a, a.now⟩

/-- A limited request of a key that is admitted. -/
def admits (key : String) (e : Step Clocked LimiterAct) : Bool :=
  match e.act with
  | .request scope clock => scope.isLimited && keyOf sha256 limits scope == key &&
      (e.pre.limiter.call sha256 limits scope clock).2 == .admitted
  | .unauthorized _ _ => false

/-- A step that drops the bucket of a key. -/
def dropsBucket (key : String) (e : Step Clocked LimiterAct) : Bool :=
  e.pre.limiter.drops e.post.limiter key

/-- The steps of an interval. -/
def within (first last : ℚ) (h : List (Step Clocked LimiterAct)) :
    List (Step Clocked LimiterAct) :=
  h.filter fun e => decide (first ≤ e.act.now ∧ e.act.now ≤ last)

variable {sha256 limits} {h : List (Step Clocked LimiterAct)} {st st' : Clocked} {a : LimiterAct}
  {key : String}

theorem sound_of_next (hlimit : 0 < limits.perMinute)
    (hnext : (limiterSystem sha256 limits).next st a st')
    (hsound : st.limiter.Sound limits st.now) : st'.limiter.Sound limits st'.now := by
  obtain ⟨hle, rfl⟩ := hnext
  have hlater : st.limiter.Sound limits a.now :=
    ⟨hsound.buckets.mono hle, hsound.failures.mono hle⟩
  cases a with
  | request scope clock =>
      change (st.limiter.call sha256 limits scope clock).1.Sound limits clock.now
      rw [Limiter.call]
      split
      · exact Limiter.Sound.underLock hlimit hlater
      · exact hlater
  | unauthorized address clock => exact (Limiter.Sound.brake hlater).2

theorem sound_of_run (hlimit : 0 < limits.perMinute)
    (hrun : Run (limiterSystem sha256 limits) h st) : st.limiter.Sound limits st.now := by
  refine @Run.invariant _ _ _ _ _ (fun st => st.limiter.Sound limits st.now) ?_
    (fun s a s' hnext => sound_of_next hlimit hnext) hrun
  rintro ⟨_, now⟩ rfl
  have hempty : ∀ capacity rate, Buckets.Sound capacity rate now ∅ := by
    intro capacity rate key bucket hbucket
    cases hbucket
  exact ⟨hempty _ _, hempty _ _⟩

variable (key) in
/-- **One step**: what a key is admitted and has to spend after it, and what it had before. -/
theorem allowance_of_next (hlimit : 0 < limits.perMinute)
    (hnext : (limiterSystem sha256 limits).next st a st')
    (hsound : st.limiter.Sound limits st.now) :
    (if admits sha256 limits key ⟨st, a, st'⟩ then 1 else 0) +
        st'.limiter.allowance limits key a.now ≤
      st.limiter.allowance limits key a.now +
        if dropsBucket key ⟨st, a, st'⟩ then (limits.burst : ℚ) else 0 := by
  obtain ⟨hle, rfl⟩ := hnext
  have hlater : st.limiter.Sound limits a.now :=
    ⟨hsound.buckets.mono hle, hsound.failures.mono hle⟩
  have hsame : ∀ limiter : Limiter, limiter.buckets = st.limiter.buckets →
      limiter.allowance limits key a.now ≤ st.limiter.allowance limits key a.now +
        if st.limiter.drops limiter key then (limits.burst : ℚ) else 0 := by
    intro limiter hbuckets
    rw [Limiter.allowance, Limiter.allowance, Limiter.drops, hbuckets]
    cases st.limiter.buckets.lookup key <;> simp
  cases a with
  | request scope clock =>
      by_cases hlimited : scope.isLimited = true
      · have hcall : st.limiter.call sha256 limits scope clock =
            st.limiter.underLock limits (keyOf sha256 limits scope)
              (resolveClientAddress scope.client scope.headers limits.trustedProxies) clock :=
          if_pos hlimited
        have hstep := @Limiter.allowance_underLock_le limits st.limiter (keyOf sha256 limits scope) key
          (resolveClientAddress scope.client scope.headers limits.trustedProxies) clock hlimit hlater
        simpa only [admits, dropsBucket, Limiter.after, LimiterAct.now, hcall, hlimited,
          Bool.true_and, Bool.and_eq_true, beq_iff_eq, eq_comm (b := key)] using hstep
      · have hcall : st.limiter.call sha256 limits scope clock = (st.limiter, .admitted) :=
          if_neg hlimited
        simpa only [admits, dropsBucket, Limiter.after, hcall, hlimited, Bool.false_and,
          Bool.false_eq_true, if_false, zero_add] using hsame st.limiter rfl
  | unauthorized address clock =>
      rw [if_neg (by simp [admits]), zero_add]
      exact hsame _ Limiter.buckets_brake.2

theorem countP_within_cons (p : Step Clocked LimiterAct → Bool) (first last : ℚ)
    (e : Step Clocked LimiterAct) :
    (within first last (e :: h)).countP p = (within first last h).countP p +
      if first ≤ e.act.now ∧ e.act.now ≤ last ∧ p e then 1 else 0 := by
  rw [within, List.filter_cons]
  by_cases hin : first ≤ e.act.now ∧ e.act.now ≤ last
  · rw [if_pos (decide_eq_true hin), List.countP_cons]
    simp only [hin, true_and]
    rfl
  · rw [if_neg (by simpa using hin), if_neg fun h => hin ⟨h.1, h.2.1⟩]
    rfl

variable (key) in
theorem admitted_add_allowance_le (hlimit : 0 < limits.perMinute)
    (hrun : Run (limiterSystem sha256 limits) h st) (first last : ℚ) :
    (st.now < first → (within first last h).countP (admits sha256 limits key) = 0) ∧
    (∀ now, st.now ≤ now → first ≤ now → now ≤ last →
      ((within first last h).countP (admits sha256 limits key) : ℚ) +
          st.limiter.allowance limits key now ≤
        limits.burst * (1 + (within first last h).countP (dropsBucket key)) +
          (now - first) * (limits.perMinute / 60)) ∧
    (first ≤ last → ((within first last h).countP (admits sha256 limits key) : ℚ) ≤
      limits.burst * (1 + (within first last h).countP (dropsBucket key)) +
        (last - first) * (limits.perMinute / 60)) := by
  have hrate := rate_nonneg limits.perMinute
  have hburst : (0 : ℚ) ≤ limits.burst := Nat.cast_nonneg _
  induction hrun with
  | @start st hstart =>
      have hsound := sound_of_run hlimit (Run.start (S := limiterSystem sha256 limits) hstart)
      refine ⟨fun _ => rfl, fun now _ hfirst _ => ?_, fun hle => ?_⟩
      · have hallowance := hsound.buckets.allowance_le now key
        have hgrown := mul_nonneg (sub_nonneg.2 hfirst) hrate
        simp only [within, List.filter_nil, List.countP_nil, Limiter.allowance, Nat.cast_zero]
        linarith
      · have hgrown := mul_nonneg (sub_nonneg.2 hle) hrate
        simp only [within, List.filter_nil, List.countP_nil, Nat.cast_zero]
        linarith
  | @step h st st' a hpast hnext ih =>
      obtain ⟨hearly, hpre, htotal⟩ := ih
      have hbefore := sound_of_run hlimit hpast
      have hafter := sound_of_next hlimit hnext hbefore
      have hstep := allowance_of_next key hlimit hnext hbefore
      obtain ⟨hle, hpost⟩ := hnext
      have hnow : st'.now = a.now := by rw [hpost]
      rw [hnow] at hafter ⊢
      rw [countP_within_cons, countP_within_cons]
      by_cases hin : first ≤ a.now ∧ a.now ≤ last
      · have hat : (((within first last h).countP (admits sha256 limits key) +
              if admits sha256 limits key ⟨st, a, st'⟩ then 1 else 0 : ℕ) : ℚ) +
            st'.limiter.allowance limits key a.now ≤
            limits.burst * (1 + ((within first last h).countP (dropsBucket key) +
              if dropsBucket key ⟨st, a, st'⟩ then 1 else 0 : ℕ)) +
              (a.now - first) * (limits.perMinute / 60) := by
          have hbound := hpre a.now hle hin.1 hin.2
          push_cast
          by_cases hdrop : dropsBucket key ⟨st, a, st'⟩ = true
          · simp only [hdrop, if_true] at hstep ⊢
            linarith
          · simp only [hdrop, Bool.false_eq_true, if_false] at hstep ⊢
            linarith
        simp only [hin, true_and]
        refine ⟨fun hlt => absurd hin.1 (not_le.2 hlt), fun now hnow hfirst hlast => ?_, fun _ => ?_⟩
        · have hgrows := hafter.buckets.allowance_le_add key hrate hnow
          simp only [Limiter.allowance] at hat ⊢
          linarith
        · have hnonneg := hafter.buckets.allowance_nonneg key
          have hgrown := mul_nonneg (sub_nonneg.2 hin.2) hrate
          simp only [Limiter.allowance] at hat ⊢
          linarith
      · have hout : ∀ p : Step Clocked LimiterAct → Bool,
            ¬ (first ≤ a.now ∧ a.now ≤ last ∧ p ⟨st, a, st'⟩ = true) :=
          fun p h => hin ⟨h.1, h.2.1⟩
        rw [if_neg (hout _), if_neg (hout _), add_zero, add_zero]
        refine ⟨fun hlt => hearly (hle.trans_lt hlt), fun now hnow hfirst hlast => ?_, htotal⟩
        have hlt : a.now < first := by
          by_contra hge
          exact hin ⟨not_lt.1 hge, hnow.trans hlast⟩
        -- nothing was admitted yet, and no key has more than the burst
        rw [hearly (hle.trans_lt hlt)]
        have hallowance := hafter.buckets.allowance_le now key
        have hgrown := mul_nonneg (sub_nonneg.2 hfirst) hrate
        have hdrops := mul_nonneg hburst
          (@Nat.cast_nonneg ℚ _ _ _ ((within first last h).countP (dropsBucket key)))
        simp only [Limiter.allowance, Nat.cast_zero]
        linarith

end Runs

/-- **The middleware over a run.**  In an interval a key is admitted at most as often as the burst
and the rate allow, and once more the burst for each time its bucket was dropped; a refused request
that is made again when its wait is over is admitted, unless the brake refused it and the key's own
bucket has no token yet. -/
theorem rateLimit_over_run {sha256 : String → String} {limits : Limits}
    {h : List (Step Clocked LimiterAct)} {st : Clocked} (hlimit : 0 < limits.perMinute)
    (hrun : Run (limiterSystem sha256 limits) h st) :
    (∀ (key : String) (first : ℚ) (length : ℚ≥0),
      ((within first (first + length) h).countP (admits sha256 limits key) : ℚ) ≤
        limits.burst * (1 + (within first (first + length) h).countP (dropsBucket key)) +
          length * limits.perMinute / 60) ∧
    ∀ scope clock clock' limiter' wait reason, st.now ≤ clock.now →
      st.limiter.call sha256 limits scope clock = (limiter', .rejected wait reason) →
      clock.now + retryAfter wait ≤ clock'.now →
      ((limiter'.call sha256 limits scope clock').2 = .admitted ↔
        (reason = "too many failed authentications" →
          1 ≤ limiter'.allowance limits (keyOf sha256 limits scope) clock'.now)) := by
  constructor
  · intro key first length
    obtain ⟨-, -, hbound⟩ := admitted_add_allowance_le key hlimit hrun first (first + length)
    refine (hbound (le_add_of_nonneg_right length.2)).trans (le_of_eq ?_)
    rw [add_sub_cancel_left, mul_div_assoc]
  · intro scope clock clock' limiter' wait reason hnow hrefused hlater
    have hsound := sound_of_run hlimit hrun
    have hthen : st.limiter.Sound limits clock.now :=
      ⟨hsound.buckets.mono hnow, hsound.failures.mono hnow⟩
    rw [Limiter.call] at hrefused ⊢
    split at hrefused
    · rename_i hlimited
      rw [if_pos hlimited]
      exact Limiter.underLock_after_wait hlimit hthen hrefused hlater
    · cases hrefused

/-! ### Clients that come once -/

/-- Addresses of different clients. -/
def hostOf : ℕ → String
  | 0 => "127.0.0.1"
  | n + 1 => "fd00::" ++ String.ofList ((Nat.digits 10 n).map Nat.digitChar)

theorem hostOf_injective : Function.Injective hostOf := by
  have hfirst : ∀ n, "127.0.0.1" ≠ hostOf (n + 1) := by
    intro n h
    have hlist := congrArg (fun s => s.toList.head?) h
    simp [hostOf] at hlist
  have hchar : ∀ d < 10, (Nat.digitChar d).toNat - 48 = d := by decide
  intro m n h
  cases m with
  | zero =>
      cases n with
      | zero => rfl
      | succ n => exact absurd h (hfirst n)
  | succ m =>
      cases n with
      | zero => exact absurd h.symm (hfirst m)
      | succ n =>
          have hread : ∀ k, ((Nat.digits 10 k).map Nat.digitChar).map (fun c => c.toNat - 48) =
              Nat.digits 10 k := by
            intro k
            rw [List.map_map]
            conv_rhs => rw [← List.map_id (Nat.digits 10 k)]
            refine List.map_congr_left fun d hd => ?_
            exact hchar d (Nat.digits_lt_base (by decide) hd)
          have hlist := congrArg String.toList h
          simp only [hostOf, String.toList_append, String.toList_ofList] at hlist
          have hdigits := congrArg (List.map fun c : Char => c.toNat - 48)
            (List.append_cancel_left hlist)
          rw [hread, hread] at hdigits
          rw [Nat.digits_inj_iff.1 hdigits]

/-- A request of an address. -/
def knock (host : String) : Scope := { path := "/api/v1/jobs", client := some host }

theorem isLimited_knock (host : String) : (knock host).isLimited = true := by
  have hlimited : (knock "").isLimited = true := by decide
  exact hlimited

/-- One request a minute. -/
def oneAMinute : Limits :=
  { perMinute := 1, burst := 1, failedLimit := 0, burst_pos := Nat.one_pos }

theorem keyOf_knock (host : String) (h : host ≠ "") (limits : Limits)
    (ht : limits.trustedProxies = []) :
    keyOf id limits (knock host) = "address:" ++ host := by
  have hcookie : cookieToken "" = none := by decide
  rw [keyOf, knock, resolveClientAddress, ht]
  simp only [List.isEmpty_nil, Bool.true_or, if_true]
  have hbearer : lower (partition ' ' "").1 ≠ "bearer" := by decide
  simp [credentialKey, Headers.get, hcookie, hbearer, Option.filter, h]

theorem hostOf_ne_empty (n : ℕ) : hostOf n ≠ "" := by
  cases n with
  | zero => decide
  | succ n =>
      intro h
      have hlist := congrArg String.toList h
      simp [hostOf] at hlist

/-- The key of an address. -/
def addressKey (n : ℕ) : String := "address:" ++ hostOf n

theorem addressKey_injective : Function.Injective addressKey := by
  intro m n h
  have hlist := congrArg String.toList h
  simp only [addressKey, String.toList_append] at hlist
  exact hostOf_injective (String.toList_injective (List.append_cancel_left hlist))

theorem keys_bucketOf {capacity : ℕ} {rate created : ℚ} {key : String} {t : Buckets}
    {b : TokenBucket ℚ} (h : key ∉ t) (hlength : t.keys.length ≤ maxBuckets) :
    ((bucketOf capacity rate created key t).2.put key b).keys = (key :: t.keys).take maxBuckets := by
  have hkeys : ∀ t : Buckets, (t.put key b).keys = t.keys := by
    intro t
    simp [Buckets.put, Table.mapRows, AList.keys, List.keys, Function.comp_def]
  rw [hkeys, bucketOf, AList.lookup_eq_none.2 h, Table.keys_enter h (by decide) hlength]

theorem call_knock (limiter : Limiter) (i : ℕ) :
    limiter.call id oneAMinute (knock (hostOf i)) { now := 0 } =
      limiter.spend oneAMinute (addressKey i) { now := 0 } := by
  have hkey := keyOf_knock (hostOf i) (hostOf_ne_empty i) oneAMinute rfl
  rw [keyOf] at hkey
  rw [Limiter.call, if_pos (isLimited_knock _)]
  dsimp only
  rw [hkey, Limiter.underLock, (Limiter.brake_of_off (.inr rfl)).1]
  rfl

theorem admits_knock {st st' : Clocked} {i : ℕ} (hfresh : addressKey i ∉ st.limiter.buckets) :
    admits id oneAMinute (addressKey i)
      ⟨st, .request (knock (hostOf i)) { now := 0 }, st'⟩ = true := by
  have hadmitted : (st.limiter.spend oneAMinute (addressKey i) { now := 0 }).2 = .admitted := by
    rw [Limiter.spend_admits_iff Nat.one_pos, Limiter.allowance, Buckets.allowance,
      AList.lookup_eq_none.2 hfresh]
    exact le_of_eq Nat.cast_one.symm
  rw [admits]
  simp only [call_knock, hadmitted, isLimited_knock,
    keyOf_knock (hostOf i) (hostOf_ne_empty i) oneAMinute rfl]
  simp [addressKey]

/-- **Ten thousand other addresses** push the bucket of the first one out of the table. -/
theorem exists_run_knocks (n : ℕ) : ∃ h st, Run (limiterSystem id oneAMinute) h st ∧ st.now = 0 ∧
    st.limiter.buckets.keys = (((List.range (n + 1)).map addressKey).reverse).take maxBuckets ∧
    1 ≤ (within 0 0 h).countP (admits id oneAMinute (addressKey 0)) := by
  have hkeys : ∀ (limiter : Limiter) (i : ℕ), addressKey i ∉ limiter.buckets →
      limiter.buckets.keys.length ≤ maxBuckets →
      (limiter.call id oneAMinute (knock (hostOf i)) { now := 0 }).1.buckets.keys =
        (addressKey i :: limiter.buckets.keys).take maxBuckets := by
    intro limiter i hfresh hlength
    rw [call_knock, Limiter.spend_eq Nat.one_pos]
    exact keys_bucketOf hfresh hlength
  induction n with
  | zero =>
      refine ⟨_, _, (Run.start (s := ⟨{}, 0⟩) rfl).step
        (a := .request (knock (hostOf 0)) { now := 0 }) ⟨le_rfl, rfl⟩, rfl, ?_, ?_⟩
      · change (Limiter.call id oneAMinute (knock (hostOf 0)) { now := 0 } {}).1.buckets.keys = _
        rw [hkeys _ _ (AList.notMem_empty _) (Nat.zero_le _)]
        rfl
      · rw [countP_within_cons, if_pos ⟨le_rfl, le_rfl, admits_knock (AList.notMem_empty _)⟩]
        exact Nat.le_add_left 1 _
  | succ n ih =>
      obtain ⟨h, st, hrun, hnow, hkeysOf, hadmitted⟩ := ih
      refine ⟨_, _, hrun.step (a := .request (knock (hostOf (n + 1))) { now := 0 })
        ⟨by rw [hnow]; exact le_rfl, rfl⟩, rfl, ?_, ?_⟩
      · change (st.limiter.call id oneAMinute (knock (hostOf (n + 1)))
          { now := 0 }).1.buckets.keys = _
        have hrange : ((List.range (n + 1 + 1)).map addressKey).reverse =
            addressKey (n + 1) :: ((List.range (n + 1)).map addressKey).reverse := by
          rw [List.range_succ, List.map_append, List.reverse_append]
          rfl
        rw [hkeys, hkeysOf, hrange]
        · rw [List.take_succ_cons, List.take_succ_cons, List.take_take]
          rfl
        · rw [AList.mem_keys, hkeysOf]
          intro hin
          obtain ⟨i, hi, hsame⟩ :=
            List.mem_map.1 (List.mem_reverse.1 (List.mem_of_mem_take hin))
          rw [addressKey_injective hsame, List.mem_range] at hi
          omega
        · rw [hkeysOf]
          exact List.length_take_le _ _
      · rw [countP_within_cons]
        exact le_add_right hadmitted

theorem exists_run_twice : ∃ h st, Run (limiterSystem id oneAMinute) h st ∧
    2 ≤ (within 0 0 h).countP (admits id oneAMinute (addressKey 0)) := by
  obtain ⟨h, st, hrun, hnow, hkeys, hadmitted⟩ := exists_run_knocks 10000
  have hfresh : addressKey 0 ∉ st.limiter.buckets := by
    rw [AList.mem_keys, hkeys, List.range_succ_eq_map, List.map_cons, List.reverse_cons,
      List.take_append_of_le_length (by simp)]
    intro hin
    obtain ⟨i, hi, hsame⟩ := List.mem_map.1 (List.mem_reverse.1 (List.mem_of_mem_take hin))
    obtain ⟨j, -, rfl⟩ := List.mem_map.1 hi
    exact absurd (addressKey_injective hsame) (Nat.succ_ne_zero j)
  refine ⟨_, _, hrun.step (a := .request (knock (hostOf 0)) { now := 0 })
    ⟨by rw [hnow]; exact le_rfl, rfl⟩, ?_⟩
  rw [countP_within_cons, if_pos ⟨le_rfl, le_rfl, admits_knock hfresh⟩]
  exact Nat.add_le_add_right hadmitted 1

/-- The limiter after one request. -/
def knockedOnce : Limiter :=
  (Limiter.call id oneAMinute (knock "127.0.0.1") { now := 0 } {}).1

/-- The same request at once: it is to wait a minute, and then it is admitted. -/
theorem rateLimit_after_one :
    (knockedOnce.call id oneAMinute (knock "127.0.0.1") { now := 0 }).2 =
        .rejected (some 60) "rate limit reached" ∧
      ((knockedOnce.call id oneAMinute (knock "127.0.0.1") { now := 0 }).1.call id oneAMinute
        (knock "127.0.0.1") { now := 60 }).2 = .admitted := by
  have hrefused : (knockedOnce.call id oneAMinute (knock "127.0.0.1") { now := 0 }).2 =
      .rejected (some 60) "rate limit reached" := by
    decide +kernel
  have hrun := (Run.start (S := limiterSystem id oneAMinute) (s := ⟨{}, 0⟩) rfl).step
    (a := .request (knock "127.0.0.1") { now := 0 }) ⟨le_rfl, rfl⟩
  refine ⟨hrefused, ?_⟩
  refine ((rateLimit_over_run (by decide) hrun).2 _ { now := 0 } { now := 60 } _ _ _ le_rfl
    (Prod.ext rfl hrefused) ?_).2 fun hbrake => ?_
  · decide +kernel
  · exact absurd hbrake (by decide)

/-- Without a limit. -/
def unlimited : Limits :=
  { perMinute := 0, burst := 1, failedLimit := 0, burst_pos := Nat.one_pos }

/-- With a brake that is faster than the limit. -/
def braked : Limits := { perMinute := 1, burst := 1, failedLimit := 2, burst_pos := Nat.one_pos }

/-- The limiter after a request and two answers of `401`. -/
def brakedLimiter : Limiter :=
  (((Limiter.call id braked (knock "127.0.0.1") { now := 0 } {}).1.unauthorized braked
    (some "127.0.0.1") { now := 0 }).unauthorized braked (some "127.0.0.1") { now := 0 })

/-- What the limit does not keep: a key whose bucket was dropped has a second burst at once, no limit
is none, and a request the brake refuses for 30 seconds is refused again after these. -/
theorem rateLimit_not_kept :
    (∃ h st, Run (limiterSystem id oneAMinute) h st ∧
      ¬ ((within 0 0 h).countP (admits id oneAMinute "address:127.0.0.1") : ℚ) ≤
        oneAMinute.burst + 0 * oneAMinute.perMinute / 60) ∧
    (∃ h st, Run (limiterSystem id unlimited) h st ∧
      ¬ ((within 0 0 h).countP (admits id unlimited "address:127.0.0.1") : ℚ) ≤
        unlimited.burst + 0 * unlimited.perMinute / 60) ∧
    (brakedLimiter.call id braked (knock "127.0.0.1") { now := 0 }).2 =
        .rejected (some 30) "too many failed authentications" ∧
      ((brakedLimiter.call id braked (knock "127.0.0.1") { now := 0 }).1.call id braked
        (knock "127.0.0.1") { now := 30 }).2 ≠ .admitted := by
  refine ⟨?_, ?_, ?_, ?_⟩
  · obtain ⟨h, st, hrun, htwice⟩ := exists_run_twice
    refine ⟨h, st, hrun, not_le.2 ?_⟩
    have hcast : (2 : ℚ) ≤ (within 0 0 h).countP (admits id oneAMinute "address:127.0.0.1") := by
      exact_mod_cast htwice
    refine lt_of_lt_of_le ?_ hcast
    norm_num [oneAMinute]
  · have hrun := ((Run.start (S := limiterSystem id unlimited) (s := ⟨{}, 0⟩) rfl).step
      (a := .request (knock "127.0.0.1") { now := 0 }) ⟨le_rfl, rfl⟩).step
      (a := .request (knock "127.0.0.1") { now := 0 }) ⟨le_rfl, rfl⟩
    refine ⟨_, _, hrun, ?_⟩
    decide +kernel
  · decide +kernel
  · decide +kernel

end LoadCoach.RateLimit
