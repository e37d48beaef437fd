import LoadCoach.Foundations.Eviction
import LoadCoach.Foundations.TokenBucket
import LoadCoach.RateLimit.Address
import Mathlib.Data.Rat.Floor

/-! # The rate limit

`web/rate_limit.py`, `RateLimitMiddleware`: a bucket for each presented credential, and for each
address a brake that failed authentications spend.  The clock and the buckets are exact.

A table of buckets has a bound; the bucket that was entered first is dropped past it, and a key that
comes again gets a full one.  `allowance_underLock_le` is what one request leaves of the allowances of
all keys, and `underLock_after_wait` what a refusal's `Retry-After` promises. -/

namespace LoadCoach.RateLimit

open Foundations

/-! ### Which requests are limited, and by which key -/

/-- What the middleware reads of a request. -/
structure Scope where
  type : String := "http"
  path : String
  headers : Headers := []
  client : Option String := none

/-- Only the API is limited, but for its version. -/
def Scope.isLimited (scope : Scope) : Bool :=
  scope.type == "http" && "/api/v1".toList.isPrefixOf scope.path.toList &&
    !decide (scope.path ∈ ["/api/v1/version"])

/-- The token of a cookie header. -/
def cookieToken (cookie : String) : Option String :=
  (split ';' cookie).findSome? fun part =>
    let (name, value) := partition '=' (strip part)
    if name = "loadcoach_token" ∧ value.getD "" ≠ "" then value else none

/-- `credential_key`: the digest of the bearer or of the cookie, else the address. -/
def credentialKey (sha256 : String → String) (headers : Headers) (clientHost : Option String) :
    String × Bool :=
  let (scheme, value) := partition ' ' (headers.get "authorization" "")
  let bearer := strip (value.getD "")
  let token :=
    if lower scheme = "bearer" ∧ bearer ≠ "" then some bearer
    else cookieToken (headers.get "cookie" "")
  match token with
  | some token => ("token:" ++ String.ofList ((sha256 token).toList.take 24), true)
  | none => ("address:" ++ (clientHost.filter (· ≠ "")).getD "unknown", false)

/-! ### The limiter -/

/-- The settings, as the constructor takes them over. -/
structure Limits where
  perMinute : ℕ
  burst : ℕ
  failedLimit : ℕ := 20
  trustedProxies : List IpNetwork := []
  burst_pos : 0 < burst

/-- `__init__`. -/
def Limits.of (perMinute burst failedAuthPerMinute : ℤ) (trustedProxies : List IpNetwork) :
    Limits where
  perMinute := (max perMinute 0).toNat
  burst := (max burst 1).toNat
  failedLimit := (max failedAuthPerMinute 0).toNat
  trustedProxies
  burst_pos := by omega

/-- Buckets by key, in the order they were made. -/
abbrev Buckets := Table String (TokenBucket ℚ)

/-- The buckets of the credentials, and those of the addresses. -/
structure Limiter where
  buckets : Buckets := ∅
  failures : Buckets := ∅

/-- How many buckets a table holds. -/
abbrev maxBuckets : ℕ := 10000

/-- `_bucket` and `_failure_bucket`: the bucket of a key; where there is none a full one is made at
the clock's reading, and past the bound the first entry is dropped. -/
def bucketOf (capacity : ℕ) (rate created : ℚ) (key : String) (t : Buckets) :
    TokenBucket ℚ × Buckets :=
  match t.lookup key with
  | some bucket => (bucket, t)
  | none =>
      let bucket := TokenBucket.full (capacity : ℚ) rate created
      (bucket, t.enter maxBuckets key bucket)

/-- A bucket after it was refilled or taken from. -/
def Buckets.put (key : String) (bucket : TokenBucket ℚ) (t : Buckets) : Buckets :=
  t.mapRows fun k b => if k = key then bucket else b

/-- What the middleware says to a request. -/
inductive Verdict where
  | admitted
  | rejected (wait : Option ℚ) (reason : String)
deriving DecidableEq

/-- The readings of the clock while a request is decided. -/
structure Readings where
  now : ℚ
  failureClock : ℚ := now
  bucketClock : ℚ := now

/-- The brake: whether an address has a token left for one more failure. -/
def Limiter.brake (limits : Limits) (address : Option String) (clock : Readings)
    (limiter : Limiter) : Limiter × Option Verdict :=
  match address with
  | some address =>
      if limits.failedLimit = 0 then (limiter, none)
      else
        let (bucket, failures) := bucketOf limits.failedLimit (limits.failedLimit / 60)
          clock.failureClock address limiter.failures
        let refilled := bucket.refill clock.now
        ({ limiter with failures := failures.put address refilled },
          if refilled.tokens < 1 then
            some (.rejected refilled.waitSeconds "too many failed authentications")
          else none)
  | none => (limiter, none)

/-- The bucket of a credential. -/
def Limiter.spend (limits : Limits) (key : String) (clock : Readings) (limiter : Limiter) :
    Limiter × Verdict :=
  if limits.perMinute = 0 then (limiter, .admitted)
  else
    let (bucket, buckets) := bucketOf limits.burst (limits.perMinute / 60) clock.bucketClock key
      limiter.buckets
    let (taken, wait) := bucket.take clock.now
    ({ limiter with buckets := buckets.put key taken },
      if wait = some 0 then .admitted else .rejected wait "rate limit reached")

/-- The part of `__call__` that holds the lock. -/
def Limiter.underLock (limits : Limits) (key : String) (address : Option String) (clock : Readings)
    (limiter : Limiter) : Limiter × Verdict :=
  match limiter.brake limits address clock with
  | (limiter, some verdict) => (limiter, verdict)
  | (limiter, none) => limiter.spend limits key clock

/-- The part of `send_wrapper` that holds the lock: an answer was a `401`. -/
def Limiter.unauthorized (limits : Limits) (address : Option String) (clock : Readings)
    (limiter : Limiter) : Limiter :=
  match address with
  | some address =>
      if limits.failedLimit = 0 then limiter
      else
        let (bucket, failures) := bucketOf limits.failedLimit (limits.failedLimit / 60)
          clock.failureClock address limiter.failures
        { limiter with failures := failures.put address (bucket.take clock.now).1 }
  | none => limiter

/-- The seconds of the header `Retry-After`. -/
def retryAfter (wait : Option ℚ) : ℤ := max 1 ⌈wait.getD 60⌉

/-- `__call__`, up to the request being passed on. -/
def Limiter.call (sha256 : String → String) (limits : Limits) (scope : Scope) (clock : Readings)
    (limiter : Limiter) : Limiter × Verdict :=
  if scope.isLimited then
    let address := resolveClientAddress scope.client scope.headers limits.trustedProxies
    limiter.underLock limits (credentialKey sha256 scope.headers address).1 address clock
  else (limiter, .admitted)

/-! ### Buckets that are in order -/

/-- The buckets of a table are those of its capacity and rate, and were last refilled by now. -/
def Buckets.Sound (capacity : ℕ) (rate now : ℚ) (t : Buckets) : Prop :=
  ∀ key bucket, t.lookup key = some bucket →
    bucket.capacity = capacity ∧ bucket.perSecond = rate ∧ bucket.Sound now

/-- What a key has to spend at an instant: a key without a bucket would get a full one. -/
def Buckets.allowance (capacity : ℕ) (key : String) (now : ℚ) (t : Buckets) : ℚ :=
  match t.lookup key with
  | some bucket => bucket.available now
  | none => capacity

section Buckets

variable {capacity : ℕ} {rate now now' created : ℚ} {key key' : String} {t : Buckets}
  {bucket : TokenBucket ℚ}

theorem Buckets.lookup_put :
    (Buckets.put key bucket t).lookup key' =
      (t.lookup key').map fun b => if key' = key then bucket else b := by
  rw [Buckets.put, Table.lookup_mapRows]

theorem Buckets.Sound.mono (h : t.Sound capacity rate now) (hle : now ≤ now') :
    t.Sound capacity rate now' := by
  intro key bucket hbucket
  obtain ⟨hcapacity, hrate, hsound⟩ := h key bucket hbucket
  exact ⟨hcapacity, hrate, hsound.mono hle⟩

variable (key) in
theorem Buckets.Sound.allowance_le_add (h : t.Sound capacity rate now) (hrate : 0 ≤ rate)
    (hle : now ≤ now') :
    t.allowance capacity key now' ≤ t.allowance capacity key now + (now' - now) * rate := by
  rw [Buckets.allowance, Buckets.allowance]
  cases hbucket : t.lookup key with
  | some bucket =>
      obtain ⟨-, hperSecond, hsound⟩ := h key bucket hbucket
      have hgrows := hsound.available_le_add hle
      rwa [hperSecond] at hgrows
  | none => exact le_add_of_nonneg_right (mul_nonneg (sub_nonneg.2 hle) hrate)

variable (key now') in
theorem Buckets.Sound.allowance_le (h : t.Sound capacity rate now) :
    t.allowance capacity key now' ≤ capacity := by
  rw [Buckets.allowance]
  cases hbucket : t.lookup key with
  | some bucket =>
      exact (h key bucket hbucket).1 ▸ TokenBucket.available_le_capacity
  | none => exact le_rfl

variable (key) in
theorem Buckets.Sound.allowance_nonneg (h : t.Sound capacity rate now) :
    0 ≤ t.allowance capacity key now := by
  rw [Buckets.allowance]
  cases hbucket : t.lookup key with
  | some bucket =>
      obtain ⟨hcapacity, -, hsound⟩ := h key bucket hbucket
      exact hsound.available_nonneg (hcapacity ▸ Nat.cast_nonneg _)
  | none => exact Nat.cast_nonneg _

/-- **The bucket a key gets**: its own or a full one; in the table it is put to its key, and every
other key keeps its own, unless it is the one that is dropped. -/
theorem lookup_put_bucketOf (key' : String) (b : TokenBucket ℚ) :
    ((bucketOf capacity rate created key t).2.put key b).lookup key' =
      if key' = key then some b
      else if t.lookup key = none ∧ t.dropped maxBuckets = some key' then none
      else t.lookup key' := by
  rw [Buckets.lookup_put, bucketOf]
  cases hbucket : t.lookup key with
  | some bucket =>
      by_cases hkey : key' = key
      · subst hkey
        simp [hbucket]
      · simp [hkey]
  | none =>
      rw [Table.lookup_enter (AList.lookup_eq_none.1 hbucket) (by decide)]
      by_cases hkey : key' = key
      · simp [hkey]
      · simp [hkey]

theorem available_bucketOf (hrate : 0 ≤ rate) :
    (bucketOf capacity rate created key t).1.available now' = t.allowance capacity key now' := by
  rw [bucketOf, Buckets.allowance]
  cases hbucket : t.lookup key with
  | some bucket => rfl
  | none => exact TokenBucket.available_full hrate

theorem take_bucketOf (hrate : 0 ≤ rate) :
    (bucketOf capacity rate created key t).1.take now =
      (bucketOf capacity rate now key t).1.take now := by
  rw [bucketOf, bucketOf]
  cases hbucket : t.lookup key with
  | some bucket => rfl
  | none => exact TokenBucket.take_full hrate

theorem refill_bucketOf (hrate : 0 ≤ rate) :
    (bucketOf capacity rate created key t).1.refill now =
      (bucketOf capacity rate now key t).1.refill now := by
  rw [bucketOf, bucketOf]
  cases hbucket : t.lookup key with
  | some bucket => rfl
  | none => exact (TokenBucket.refill_full hrate).trans (TokenBucket.refill_full hrate).symm

theorem sound_bucketOf (h : t.Sound capacity rate now) (hrate : 0 ≤ rate) :
    (bucketOf capacity rate now key t).1.capacity = capacity ∧
      (bucketOf capacity rate now key t).1.perSecond = rate ∧
      (bucketOf capacity rate now key t).1.Sound now := by
  rw [bucketOf]
  cases hbucket : t.lookup key with
  | some bucket => exact h key bucket hbucket
  | none => exact ⟨rfl, rfl, hrate, Nat.cast_nonneg _, le_rfl⟩

theorem Buckets.Sound.put_bucketOf (h : t.Sound capacity rate now) {b : TokenBucket ℚ}
    (hcapacity : b.capacity = capacity) (hrate : b.perSecond = rate) (hsound : b.Sound now) :
    ((bucketOf capacity rate created key t).2.put key b).Sound capacity rate now := by
  intro key' bucket hbucket
  rw [lookup_put_bucketOf] at hbucket
  split at hbucket
  · cases hbucket
    exact ⟨hcapacity, hrate, hsound⟩
  · split at hbucket
    · cases hbucket
    · exact h key' bucket hbucket

end Buckets

/-! ### One request -/

section Request

variable {limits : Limits} {limiter : Limiter} {key key' : String} {address : Option String}
  {clock : Readings}

theorem rate_nonneg (n : ℕ) : (0 : ℚ) ≤ n / 60 := by positivity

/-- A limiter whose two tables are in order. -/
structure Limiter.Sound (limits : Limits) (now : ℚ) (limiter : Limiter) : Prop where
  buckets : limiter.buckets.Sound limits.burst (limits.perMinute / 60) now
  failures : limiter.failures.Sound limits.failedLimit (limits.failedLimit / 60) now

/-- What a credential has to spend. -/
def Limiter.allowance (limits : Limits) (key : String) (now : ℚ) (limiter : Limiter) : ℚ :=
  limiter.buckets.allowance limits.burst key now

/-- The bucket of a key is dropped to make room for that of another. -/
def Limiter.drops (limiter limiter' : Limiter) (key : String) : Bool :=
  (limiter.buckets.lookup key).isSome && (limiter'.buckets.lookup key).isNone

theorem Limiter.spend_eq (h : 0 < limits.perMinute) :
    limiter.spend limits key clock =
      ({ limiter with
          buckets := (bucketOf limits.burst (limits.perMinute / 60) clock.bucketClock key
            limiter.buckets).2.put key
              ((bucketOf limits.burst (limits.perMinute / 60) clock.now key
                limiter.buckets).1.take clock.now).1 },
        if 1 ≤ limiter.allowance limits key clock.now then .admitted
        else .rejected ((bucketOf limits.burst (limits.perMinute / 60) clock.now key
          limiter.buckets).1.refill clock.now).waitSeconds "rate limit reached") := by
  have hrate := rate_nonneg limits.perMinute
  rw [Limiter.spend, if_neg h.ne']
  simp only [take_bucketOf hrate, TokenBucket.take_admits_iff, available_bucketOf hrate]
  refine Prod.ext rfl ?_
  by_cases hone : 1 ≤ limiter.allowance limits key clock.now
  · rw [if_pos hone]
    exact if_pos hone
  · have hlt := not_le.1 hone
    rw [Limiter.allowance, ← available_bucketOf hrate] at hlt
    rw [if_neg hone, TokenBucket.take_of_lt hlt]
    exact if_neg hone

theorem Limiter.spend_admits_iff (h : 0 < limits.perMinute) :
    (limiter.spend limits key clock).2 = .admitted ↔ 1 ≤ limiter.allowance limits key clock.now := by
  rw [Limiter.spend_eq h]
  by_cases hone : 1 ≤ limiter.allowance limits key clock.now <;> simp [hone]

theorem Limiter.Sound.spend (h : 0 < limits.perMinute) (hsound : limiter.Sound limits clock.now) :
    (limiter.spend limits key clock).1.Sound limits clock.now := by
  obtain ⟨hcapacity, hrate, hbucket⟩ :=
    @sound_bucketOf _ _ _ key _ hsound.buckets (rate_nonneg limits.perMinute)
  rw [Limiter.spend_eq h]
  refine ⟨hsound.buckets.put_bucketOf ?_ ?_ ?_, hsound.failures⟩
  · rw [TokenBucket.capacity_take, hcapacity]
  · rw [TokenBucket.perSecond_take, hrate]
  · exact hbucket.take (hcapacity ▸ Nat.cast_nonneg _)

theorem Limiter.lookup_spend (h : 0 < limits.perMinute) (key' : String) :
    (limiter.spend limits key clock).1.buckets.lookup key' =
      if key' = key then
        some ((bucketOf limits.burst (limits.perMinute / 60) clock.now key
          limiter.buckets).1.take clock.now).1
      else if limiter.buckets.lookup key = none ∧
          limiter.buckets.dropped maxBuckets = some key' then none
      else limiter.buckets.lookup key' := by
  rw [Limiter.spend_eq h, lookup_put_bucketOf]

theorem Limiter.allowance_spend_self (h : 0 < limits.perMinute)
    (hsound : limiter.Sound limits clock.now) :
    (limiter.spend limits key clock).1.allowance limits key clock.now =
      limiter.allowance limits key clock.now -
        if (limiter.spend limits key clock).2 = .admitted then 1 else 0 := by
  have hrate := rate_nonneg limits.perMinute
  obtain ⟨-, -, hbucket⟩ := @sound_bucketOf _ _ _ key _ hsound.buckets hrate
  have havailable := @available_bucketOf limits.burst (limits.perMinute / 60) clock.now clock.now
    key limiter.buckets hrate
  rw [Limiter.allowance, Limiter.allowance, Buckets.allowance, Limiter.lookup_spend h, if_pos rfl,
    ← havailable]
  by_cases hone : 1 ≤ limiter.allowance limits key clock.now
  · rw [if_pos ((Limiter.spend_admits_iff h).2 hone), ← TokenBucket.available_take_of_le]
    rw [havailable]
    exact hone
  · rw [if_neg (mt (Limiter.spend_admits_iff h).1 hone), sub_zero,
      TokenBucket.take_of_lt (by rw [havailable]; exact not_le.1 hone)]
    exact hbucket.available_refill le_rfl

theorem Limiter.allowance_spend_of_ne (h : 0 < limits.perMinute) (hkey : key' ≠ key) :
    (limiter.spend limits key clock).1.allowance limits key' clock.now =
      if limiter.drops (limiter.spend limits key clock).1 key' then (limits.burst : ℚ)
      else limiter.allowance limits key' clock.now := by
  rw [Limiter.allowance, Limiter.allowance, Buckets.allowance, Buckets.allowance, Limiter.drops,
    Limiter.lookup_spend h, if_neg hkey]
  by_cases hdropped : limiter.buckets.lookup key = none ∧
      limiter.buckets.dropped maxBuckets = some key'
  · rw [if_pos hdropped]
    cases limiter.buckets.lookup key' <;> rfl
  · rw [if_neg hdropped]
    cases limiter.buckets.lookup key' <;> simp

/-- **What a request leaves of the allowances.** -/
theorem Limiter.allowance_spend_le (h : 0 < limits.perMinute)
    (hsound : limiter.Sound limits clock.now) :
    (if key' = key ∧ (limiter.spend limits key clock).2 = .admitted then 1 else 0) +
        (limiter.spend limits key clock).1.allowance limits key' clock.now ≤
      limiter.allowance limits key' clock.now +
        if limiter.drops (limiter.spend limits key clock).1 key' then (limits.burst : ℚ) else 0 := by
  by_cases hkey : key' = key
  · subst hkey
    have hburst : (0 : ℚ) ≤
        if limiter.drops (limiter.spend limits key' clock).1 key' then (limits.burst : ℚ) else 0 := by
      split
      · exact Nat.cast_nonneg _
      · exact le_rfl
    rw [Limiter.allowance_spend_self h hsound]
    simp only [true_and]
    linarith
  · rw [Limiter.allowance_spend_of_ne h hkey, if_neg fun hboth => hkey hboth.1, zero_add]
    split
    · exact le_add_of_nonneg_left (hsound.buckets.allowance_nonneg _)
    · rw [add_zero]

theorem Limiter.brake_of_off (h : address = none ∨ limits.failedLimit = 0) :
    limiter.brake limits address clock = (limiter, none) ∧
      limiter.unauthorized limits address clock = limiter := by
  rcases h with rfl | h
  · exact ⟨rfl, rfl⟩
  · cases address with
    | none => exact ⟨rfl, rfl⟩
    | some address => exact ⟨if_pos h, if_pos h⟩

theorem Limiter.brake_eq (h : 0 < limits.failedLimit) (address : String) :
    limiter.brake limits (some address) clock =
      ({ limiter with
          failures := (bucketOf limits.failedLimit (limits.failedLimit / 60) clock.failureClock
            address limiter.failures).2.put address
              ((bucketOf limits.failedLimit (limits.failedLimit / 60) clock.now address
                limiter.failures).1.refill clock.now) },
        if limiter.failures.allowance limits.failedLimit address clock.now < 1 then
          some (.rejected ((bucketOf limits.failedLimit (limits.failedLimit / 60) clock.now address
            limiter.failures).1.refill clock.now).waitSeconds "too many failed authentications")
        else none) := by
  have hrate := rate_nonneg limits.failedLimit
  rw [← refill_bucketOf hrate, ← available_bucketOf hrate]
  exact if_neg h.ne'

theorem Limiter.unauthorized_eq (h : 0 < limits.failedLimit) (address : String) :
    limiter.unauthorized limits (some address) clock =
      { limiter with
        failures := (bucketOf limits.failedLimit (limits.failedLimit / 60) clock.failureClock
          address limiter.failures).2.put address
            ((bucketOf limits.failedLimit (limits.failedLimit / 60) clock.now address
              limiter.failures).1.take clock.now).1 } := by
  rw [← take_bucketOf (rate_nonneg limits.failedLimit)]
  exact if_neg h.ne'

/-- The brake and its failures leave the buckets of the credentials alone. -/
theorem Limiter.buckets_brake :
    (limiter.brake limits address clock).1.buckets = limiter.buckets ∧
      (limiter.unauthorized limits address clock).buckets = limiter.buckets := by
  by_cases hoff : address = none ∨ limits.failedLimit = 0
  · obtain ⟨hbrake, hfailure⟩ := @Limiter.brake_of_off limits limiter address clock hoff
    rw [hbrake, hfailure]
    exact ⟨rfl, rfl⟩
  · obtain ⟨haddress, hlimit⟩ := not_or.1 hoff
    obtain ⟨address, rfl⟩ := Option.ne_none_iff_exists'.1 haddress
    rw [Limiter.brake_eq (Nat.pos_of_ne_zero hlimit),
      Limiter.unauthorized_eq (Nat.pos_of_ne_zero hlimit)]
    exact ⟨rfl, rfl⟩

theorem Limiter.Sound.brake (h : limiter.Sound limits clock.now) :
    (limiter.brake limits address clock).1.Sound limits clock.now ∧
      (limiter.unauthorized limits address clock).Sound limits clock.now := by
  by_cases hoff : address = none ∨ limits.failedLimit = 0
  · obtain ⟨hbrake, hfailure⟩ := @Limiter.brake_of_off limits limiter address clock hoff
    rw [hbrake, hfailure]
    exact ⟨h, h⟩
  · obtain ⟨haddress, hlimit⟩ := not_or.1 hoff
    obtain ⟨address, rfl⟩ := Option.ne_none_iff_exists'.1 haddress
    obtain ⟨hcapacity, hrate, hbucket⟩ :=
      @sound_bucketOf _ _ _ address _ h.failures (rate_nonneg limits.failedLimit)
    have hnonneg : 0 ≤ (bucketOf limits.failedLimit (limits.failedLimit / 60) clock.now address
        limiter.failures).1.capacity := by
      rw [hcapacity]
      exact Nat.cast_nonneg _
    rw [Limiter.brake_eq (Nat.pos_of_ne_zero hlimit),
      Limiter.unauthorized_eq (Nat.pos_of_ne_zero hlimit)]
    refine ⟨⟨h.buckets, h.failures.put_bucketOf hcapacity hrate (hbucket.refill hnonneg)⟩,
      h.buckets, h.failures.put_bucketOf ?_ ?_ (hbucket.take hnonneg)⟩
    · rw [TokenBucket.capacity_take, hcapacity]
    · rw [TokenBucket.perSecond_take, hrate]

theorem Limiter.underLock_cases :
    (∃ wait reason, (limiter.brake limits address clock).2 = some (.rejected wait reason) ∧
      limiter.underLock limits key address clock =
        ((limiter.brake limits address clock).1, .rejected wait reason)) ∨
    (limiter.brake limits address clock).2 = none ∧
      limiter.underLock limits key address clock =
        (limiter.brake limits address clock).1.spend limits key clock := by
  rw [Limiter.underLock]
  rcases hbrake : limiter.brake limits address clock with ⟨limiter', _ | verdict⟩
  · exact .inr ⟨rfl, rfl⟩
  · cases verdict with
    | rejected wait reason => exact .inl ⟨wait, reason, rfl, rfl⟩
    | admitted =>
        by_cases hoff : address = none ∨ limits.failedLimit = 0
        · rw [(Limiter.brake_of_off hoff).1] at hbrake
          cases hbrake
        · obtain ⟨haddress, hlimit⟩ := not_or.1 hoff
          obtain ⟨address, rfl⟩ := Option.ne_none_iff_exists'.1 haddress
          rw [Limiter.brake_eq (Nat.pos_of_ne_zero hlimit)] at hbrake
          have hverdict := congrArg Prod.snd hbrake
          dsimp only at hverdict
          split at hverdict <;> cases hverdict

theorem Limiter.Sound.underLock (h : 0 < limits.perMinute) (hsound : limiter.Sound limits clock.now) :
    (limiter.underLock limits key address clock).1.Sound limits clock.now := by
  rcases @Limiter.underLock_cases limits limiter key address clock with ⟨_, _, -, heq⟩ | ⟨-, heq⟩
  · rw [heq]
    exact hsound.brake.1
  · rw [heq]
    exact hsound.brake.1.spend h

/-- **One request**, whatever becomes of it. -/
theorem Limiter.allowance_underLock_le (h : 0 < limits.perMinute)
    (hsound : limiter.Sound limits clock.now) :
    (if key' = key ∧ (limiter.underLock limits key address clock).2 = .admitted then 1 else 0) +
        (limiter.underLock limits key address clock).1.allowance limits key' clock.now ≤
      limiter.allowance limits key' clock.now +
        if limiter.drops (limiter.underLock limits key address clock).1 key' then
          (limits.burst : ℚ) else 0 := by
  have hkept := (@Limiter.buckets_brake limits limiter address clock).1
  rcases @Limiter.underLock_cases limits limiter key address clock with ⟨_, _, -, heq⟩ | ⟨-, heq⟩
  · rw [heq, Limiter.allowance, Limiter.allowance, Limiter.drops, hkept]
    cases limiter.buckets.lookup key' <;> simp
  · have hspend := @Limiter.allowance_spend_le limits _ key key' clock h
      (@Limiter.Sound.brake limits limiter address clock hsound).1
    rw [Limiter.drops, Limiter.allowance, Limiter.allowance, hkept] at hspend
    rw [heq]
    exact hspend

end Request

/-! ### After a refusal -/

section Wait

variable {limits : Limits} {limiter limiter' : Limiter} {key : String} {address : Option String}
  {clock clock' : Readings} {wait : Option ℚ} {reason : String}

theorem le_retryAfter (wait : ℚ) : wait ≤ retryAfter (some wait) := by
  have hceil := Int.le_ceil wait
  have hmax : (⌈wait⌉ : ℚ) ≤ retryAfter (some wait) := Int.cast_le.2 (le_max_right _ _)
  exact hceil.trans hmax

theorem retryAfter_pos : (0 : ℚ) ≤ retryAfter wait := by
  have hone : (1 : ℤ) ≤ retryAfter wait := le_max_left _ _
  have hcast : (1 : ℚ) ≤ retryAfter wait := by exact_mod_cast hone
  linarith

/-- **Once the header's seconds are over**, the key has a token. -/
theorem Buckets.Sound.allowance_after_wait {capacity : ℕ} {rate now now' : ℚ} {t : Buckets}
    (h : t.Sound capacity rate now) (hrate : 0 < rate) (hcapacity : 0 < capacity)
    (hwait : ((bucketOf capacity rate now key t).1.refill now).waitSeconds = wait)
    (hlater : now + retryAfter wait ≤ now') : 1 ≤ t.allowance capacity key now' := by
  obtain ⟨hcap, hperSecond, hbucket⟩ := @sound_bucketOf _ _ _ key _ h hrate.le
  have hone : (1 : ℚ) ≤ (bucketOf capacity rate now key t).1.capacity := by
    rw [hcap]
    exact_mod_cast hcapacity
  rw [← @available_bucketOf capacity rate now' now key t hrate.le]
  cases wait with
  | some wait =>
      refine hbucket.le_available_of_wait hwait hone ?_ ?_
      · have hle := le_retryAfter wait
        linarith
      · have hnonneg := @retryAfter_pos (some wait)
        linarith
  | none =>
      rw [TokenBucket.waitSeconds, TokenBucket.perSecond_refill, hperSecond, if_pos hrate] at hwait
      split at hwait <;> cases hwait

/-- What an address has left for failures; without a brake there is no end of it. -/
def Limiter.unbraked (limits : Limits) (address : Option String) (now : ℚ) (limiter : Limiter) :
    Prop :=
  limits.failedLimit = 0 ∨
    ∀ host ∈ address, 1 ≤ limiter.failures.allowance limits.failedLimit host now

theorem Limiter.brake_eq_none_iff :
    (limiter.brake limits address clock).2 = none ↔ limiter.unbraked limits address clock.now := by
  by_cases hoff : address = none ∨ limits.failedLimit = 0
  · rw [(Limiter.brake_of_off hoff).1]
    refine iff_of_true rfl ?_
    rcases hoff with rfl | hoff
    · exact .inr fun host hhost => by cases hhost
    · exact .inl hoff
  · obtain ⟨haddress, hlimit⟩ := not_or.1 hoff
    obtain ⟨address, rfl⟩ := Option.ne_none_iff_exists'.1 haddress
    rw [Limiter.brake_eq (Nat.pos_of_ne_zero hlimit), Limiter.unbraked]
    simp [hlimit]

theorem Limiter.unbraked_brake (h : limiter.Sound limits clock.now)
    (hlater : clock.now ≤ clock'.now) :
    (limiter.brake limits address clock).1.unbraked limits address clock'.now ↔
      limiter.unbraked limits address clock'.now := by
  by_cases hoff : address = none ∨ limits.failedLimit = 0
  · rw [(Limiter.brake_of_off hoff).1]
  · obtain ⟨haddress, hlimit⟩ := not_or.1 hoff
    obtain ⟨address, rfl⟩ := Option.ne_none_iff_exists'.1 haddress
    have hrate := rate_nonneg limits.failedLimit
    obtain ⟨-, -, hbucket⟩ := @sound_bucketOf _ _ _ address _ h.failures hrate
    have hsame : (limiter.brake limits (some address) clock).1.failures.allowance
        limits.failedLimit address clock'.now =
          limiter.failures.allowance limits.failedLimit address clock'.now := by
      rw [Limiter.brake_eq (Nat.pos_of_ne_zero hlimit), Buckets.allowance, lookup_put_bucketOf,
        if_pos rfl, ← @available_bucketOf _ _ _ clock.now _ _ hrate]
      exact hbucket.available_refill hlater
    rw [Limiter.unbraked, Limiter.unbraked]
    simp only [Option.mem_some_iff, forall_eq', hsame]

theorem Limiter.unbraked_mono (h : limiter.Sound limits clock.now)
    (hlater : clock.now ≤ clock'.now) (hpassed : limiter.unbraked limits address clock.now) :
    limiter.unbraked limits address clock'.now := by
  refine hpassed.imp_right fun hpassed host hhost => (hpassed host hhost).trans ?_
  have hrate := rate_nonneg limits.failedLimit
  obtain ⟨-, -, hbucket⟩ := @sound_bucketOf _ _ _ host _ h.failures hrate
  rw [← @available_bucketOf _ _ clock.now clock.now _ _ hrate,
    ← @available_bucketOf _ _ clock'.now clock.now _ _ hrate]
  exact hbucket.available_mono hlater

theorem Limiter.underLock_admits_iff (hlimit : 0 < limits.perMinute) :
    (limiter.underLock limits key address clock).2 = .admitted ↔
      limiter.unbraked limits address clock.now ∧ 1 ≤ limiter.allowance limits key clock.now := by
  rw [← Limiter.brake_eq_none_iff]
  rcases @Limiter.underLock_cases limits limiter key address clock with
    ⟨wait, reason, hbrake, heq⟩ | ⟨hbrake, heq⟩
  · rw [heq, hbrake]
    simp
  · rw [heq, hbrake, Limiter.spend_admits_iff hlimit, Limiter.allowance, Limiter.allowance,
      Limiter.buckets_brake.1]
    simp

theorem Limiter.host_of_brake
    (hbrake : (limiter.brake limits address clock).2 = some (.rejected wait reason)) :
    ∃ host, address = some host ∧ 0 < limits.failedLimit ∧
      reason = "too many failed authentications" ∧
      ((bucketOf limits.failedLimit (limits.failedLimit / 60) clock.now host
        limiter.failures).1.refill clock.now).waitSeconds = wait := by
  have hoff : ¬ (address = none ∨ limits.failedLimit = 0) := by
    intro hoff
    rw [(Limiter.brake_of_off hoff).1] at hbrake
    cases hbrake
  obtain ⟨haddress, hfailed⟩ := not_or.1 hoff
  obtain ⟨host, rfl⟩ := Option.ne_none_iff_exists'.1 haddress
  have hpos := Nat.pos_of_ne_zero hfailed
  rw [Limiter.brake_eq hpos] at hbrake
  dsimp only at hbrake
  split at hbrake
  · obtain ⟨hwait, hreason⟩ := Verdict.rejected.inj (Option.some.inj hbrake)
    exact ⟨host, rfl, hpos, hreason.symm, hwait⟩
  · cases hbrake

/-- **The same request again, when its wait is over**: it is admitted, unless the brake refused it
and the key's own bucket has no token yet. -/
theorem Limiter.underLock_after_wait (hlimit : 0 < limits.perMinute)
    (hsound : limiter.Sound limits clock.now)
    (hrefused : limiter.underLock limits key address clock = (limiter', .rejected wait reason))
    (hlater : clock.now + retryAfter wait ≤ clock'.now) :
    (limiter'.underLock limits key address clock').2 = .admitted ↔
      (reason = "too many failed authentications" →
        1 ≤ limiter'.allowance limits key clock'.now) := by
  have hnow : clock.now ≤ clock'.now := by
    have hnonneg := @retryAfter_pos wait
    linarith
  rw [Limiter.underLock_admits_iff hlimit]
  rcases @Limiter.underLock_cases limits limiter key address clock with
    ⟨wait, reason, hbrake, heq⟩ | ⟨hbrake, heq⟩
  · -- the brake refused: it is released, and the bucket decides
    rw [heq, Prod.mk.injEq, Verdict.rejected.injEq] at hrefused
    obtain ⟨rfl, rfl, rfl⟩ := hrefused
    obtain ⟨host, rfl, hpos, hreason, hwait⟩ := Limiter.host_of_brake hbrake
    have hreleased : limiter.unbraked limits (some host) clock'.now := by
      refine .inr fun host hhost => ?_
      cases hhost
      exact hsound.failures.allowance_after_wait (by positivity) hpos hwait hlater
    rw [Limiter.unbraked_brake hsound hnow]
    simp [hreleased, hreason]
  · -- the bucket refused: the brake stays released, and the bucket has a token
    rw [heq, Limiter.spend_eq hlimit, Prod.mk.injEq] at hrefused
    obtain ⟨hpost, hverdict⟩ := hrefused
    split at hverdict
    · cases hverdict
    · rename_i hempty
      obtain ⟨hwait, rfl⟩ := Verdict.rejected.inj hverdict
      have hbuckets := (@Limiter.buckets_brake limits limiter address clock).1
      have hrate : (0 : ℚ) < limits.perMinute / 60 := by positivity
      obtain ⟨-, -, hbucket⟩ := @sound_bucketOf _ _ _ key _ hsound.buckets hrate.le
      have hpassed := Limiter.unbraked_mono hsound hnow (Limiter.brake_eq_none_iff.1 hbrake)
      rw [hbuckets] at hwait
      have htoken := hsound.buckets.allowance_after_wait hrate limits.burst_pos hwait hlater
      have hspent : limiter'.allowance limits key clock'.now =
          limiter.allowance limits key clock'.now := by
        rw [Limiter.allowance, hbuckets, ← @available_bucketOf _ _ clock.now clock.now _ _ hrate.le,
          not_le] at hempty
        rw [← hpost, Limiter.allowance, Buckets.allowance, lookup_put_bucketOf, if_pos rfl, hbuckets,
          Limiter.allowance, ← @available_bucketOf _ _ clock'.now clock.now _ _ hrate.le,
          TokenBucket.take_of_lt hempty]
        exact hbucket.available_refill hnow
      have hunbraked : limiter'.unbraked limits address clock'.now := by
        rw [← Limiter.unbraked_brake hsound hnow, Limiter.unbraked] at hpassed
        rw [← hpost]
        exact hpassed
      simp only [hunbraked, true_and]
      rw [hspent]
      exact iff_of_true htoken fun h => htoken

end Wait

end LoadCoach.RateLimit
