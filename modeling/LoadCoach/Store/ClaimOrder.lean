import LoadCoach.Store.ClaimProgress

/-! # Claim order

A claim takes the first eligible row by priority and age, unless a row of the same priority has its
model resident (`Db.claim_order`).  The worker counts the claims it took that way in a row, and
stops at `max_affinity_streak`: no longer run of its claims passes the head of the queue by
(`claims_in_order`). -/

namespace LoadCoach

open Foundations

variable {rack : ModelRack}

namespace Db

variable {db db' : Db} {w : Owner} {now : Instant} {leaseSeconds pick : ℕ} {j : JobId} {job : Job}

/-! ### The order -/

/-- A row a claim may take. -/
def Eligible (now : Instant) (j : JobId) (job : Job) (db : Db) : Prop :=
  db.jobs.lookup j = some job ∧ eligible now job = true

/-- A row of the top priority. -/
structure Top (now : Instant) (j : JobId) (job : Job) (db : Db) : Prop where
  eligible : db.Eligible now j job
  le : ∀ k other, db.Eligible now k other → other.effectivePriority ≤ job.effectivePriority

/-- A row of the top priority whose model is resident. -/
structure Candidate (resident : List String) (now : Instant) (j : JobId) (job : Job) (db : Db) :
    Prop where
  top : db.Top now j job
  resident : ∃ id ∈ job.data.selectedModelId, id ∈ resident

/-- The head of the queue: the oldest row of the top priority. -/
structure Head (now : Instant) (j : JobId) (job : Job) (db : Db) : Prop where
  top : db.Top now j job
  oldest : ∀ k other, db.Top now k other → job.createdAt ≤ other.createdAt

theorem claimMatching_head {extra : Job → Bool} {chosen : JobId}
    (h : db.claimMatching w now leaseSeconds pick extra = some (chosen, db')) :
    ∃ job, db.Eligible now chosen job ∧ extra job = true ∧
      ∀ k other, db.Eligible now k other → extra other = true →
        claimKey other ≤ claimKey job := by
  unfold claimMatching at h
  dsimp only at h
  split at h
  · cases h
  · rename_i k hk
    cases h
    have hmem := List.mem_of_getElem? hk
    simp only [heads, List.mem_map, List.mem_filter, List.all_eq_true, Bool.not_eq_true',
      ← Bool.not_eq_true, claimedBefore_iff, not_lt] at hmem
    obtain ⟨⟨k, job⟩, ⟨hselect, hfirst⟩, rfl⟩ := hmem
    obtain ⟨hrow, hp⟩ := (Table.mem_select _ _ _ _).1 hselect
    simp only [Bool.and_eq_true] at hp
    refine ⟨job, ⟨hrow, hp.1⟩, hp.2, fun k other hother hextra => ?_⟩
    exact hfirst (k, other)
      ((Table.mem_select _ _ _ _).2 ⟨hother.1, by simp [hother.2, hextra]⟩)

theorem claimKey_le_iff (a b : Job) :
    claimKey a ≤ claimKey b ↔ a.effectivePriority ≤ b.effectivePriority ∧
      (a.effectivePriority = b.effectivePriority → b.createdAt ≤ a.createdAt) := by
  rw [claimKey, claimKey, Prod.Lex.toLex_le_toLex']
  simp

theorem max?_eq_some_iff {top : ℤ} :
    ((db.jobs.select fun _ job => eligible now job).map fun row => row.2.effectivePriority).max? =
        some top ↔
      (∃ j job, db.Eligible now j job ∧ job.effectivePriority = top) ∧
        ∀ j job, db.Eligible now j job → job.effectivePriority ≤ top := by
  rw [List.max?_eq_some_iff]
  simp only [List.mem_map, Prod.exists, Table.mem_select, Eligible]
  refine and_congr Iff.rfl ⟨fun hle j job hjob => hle _ ⟨j, job, hjob, rfl⟩, ?_⟩
  rintro hle _ ⟨j, job, hjob, rfl⟩
  exact hle j job hjob

theorem claimByAffinity_spec {affinity : Option AffinityHint} {chosen : JobId}
    (h : db.claimByAffinity w now leaseSeconds pick affinity = some (chosen, db')) :
    ∃ hint ∈ affinity, hint.streak < hint.maxStreak ∧
      ∃ job, db.Candidate hint.residentModelIds now chosen job ∧
        ∀ k other, db.Candidate hint.residentModelIds now k other →
          job.createdAt ≤ other.createdAt := by
  unfold claimByAffinity at h
  split at h
  · cases h
  · rename_i hint
    split_ifs at h with hallowed
    split at h
    · cases h
    · rename_i top htop
      obtain ⟨hreached, hle⟩ := max?_eq_some_iff.1 htop
      obtain ⟨job, heligible, hextra, hfirst⟩ := claimMatching_head h
      simp only [Bool.and_eq_true, decide_eq_true_eq, Option.any_eq_true] at hextra hfirst
      obtain ⟨hjob, id, hid, hresident⟩ := hextra
      refine ⟨hint, rfl, hallowed.2, job, ⟨⟨heligible, ?_⟩, id, hid, hresident⟩, ?_⟩
      · exact fun k other hother => hjob ▸ hle k other hother
      · rintro k other ⟨⟨hother, hotherTop⟩, id', hid', hresident'⟩
        have heq : other.effectivePriority = top := by
          refine le_antisymm (hle k other hother) ?_
          rw [← hjob]
          exact hotherTop chosen job heligible
        have hbehind := hfirst k other hother ⟨heq, id', hid', hresident'⟩
        exact ((claimKey_le_iff other job).1 hbehind).2 (heq.trans hjob.symm)

theorem claimByAffinity_eq_none {affinity : Option AffinityHint}
    (h : db.claimByAffinity w now leaseSeconds pick affinity = none) :
    ∀ hint ∈ affinity, hint.streak < hint.maxStreak → ∀ k other,
      ¬ db.Candidate hint.residentModelIds now k other := by
  rintro hint hhint hstreak k other ⟨⟨hother, hotherTop⟩, id, hid, hresident⟩
  rw [Option.mem_def.1 hhint] at h
  have hallowed : hint.residentModelIds ≠ [] ∧ hint.streak < hint.maxStreak :=
    ⟨List.ne_nil_of_mem hresident, hstreak⟩
  have htop := max?_eq_some_iff.2 ⟨⟨k, other, hother, rfl⟩, hotherTop⟩
  obtain ⟨found, hfound⟩ : ∃ found, db.claimMatching w now leaseSeconds pick (fun job =>
      decide (job.effectivePriority = other.effectivePriority) &&
        (job.data.selectedModelId.any fun id => decide (id ∈ hint.residentModelIds))) =
      some found := by
    refine claimMatching_isSome ⟨k, other, hother.1, hother.2, ?_⟩
    simp only [decide_true, Bool.true_and, Option.any_eq_true, decide_eq_true_eq]
    exact ⟨id, hid, hresident⟩
  simp only [claimByAffinity, if_pos hallowed, htop, hfound] at h
  cases h

theorem claimed_spec {byAffinity : Bool} {c : ClaimedJob}
    (h : claimed rack j byAffinity job = .ok c) : c.jobId = j ∧ c.byAffinity = byAffinity := by
  unfold claimed at h
  split at h
  · simp only [bind_eq_ok, pure_eq_ok] at h
    obtain ⟨submission, -, rfl⟩ := h
    exact ⟨rfl, rfl⟩
  · cases h

theorem claim_result {affinity : Option AffinityHint} {result : Option ClaimedJob}
    (h : db.claim rack w now leaseSeconds pick affinity = .ok (result, db')) :
    (result = none ∧ (db.claimByAffinity w now leaseSeconds pick affinity).or
      (db.claimMatching w now leaseSeconds pick fun _ => true) = none) ∨
    ∃ c leased, result = some c ∧ (db.claimByAffinity w now leaseSeconds pick affinity).or
        (db.claimMatching w now leaseSeconds pick fun _ => true) = some (c.jobId, leased) ∧
      c.byAffinity = (db.claimByAffinity w now leaseSeconds pick affinity).isSome := by
  unfold claim at h
  dsimp only at h
  split at h
  · rename_i hnone
    cases h
    exact .inl ⟨rfl, hnone⟩
  · rename_i chosen leased hfound
    split at h
    · cases h
    · simp only [bind_eq_ok, pure_eq_ok] at h
      obtain ⟨c, hclaimed, hresult⟩ := h
      cases hresult
      obtain ⟨rfl, hby⟩ := claimed_spec hclaimed
      exact .inr ⟨c, leased, rfl, hfound, hby⟩

/-- What a claim takes. -/
structure Takes (affinity : Option AffinityHint) (now : Instant) (c : ClaimedJob) (db : Db)
    (job : Job) : Prop where
  top : db.Top now c.jobId job
  affine : c.byAffinity = true → ∃ hint ∈ affinity, hint.streak < hint.maxStreak ∧
    db.Candidate hint.residentModelIds now c.jobId job ∧
      ∀ k other, db.Candidate hint.residentModelIds now k other → job.createdAt ≤ other.createdAt
  plain : c.byAffinity = false → db.Head now c.jobId job ∧
    ∀ hint ∈ affinity, hint.streak < hint.maxStreak → ∀ k other,
      ¬ db.Candidate hint.residentModelIds now k other

/-- **Claim order.**  A claim that finds nothing has nothing to find; one that takes a row takes it
from the top of the queue, its head unless a row of the top has its model resident. -/
theorem claim_order {affinity : Option AffinityHint} {result : Option ClaimedJob}
    (h : db.claim rack w now leaseSeconds pick affinity = .ok (result, db')) :
    (result = none → ∀ k other, ¬ db.Eligible now k other) ∧
      ∀ c ∈ result, ∃ job, db.Takes affinity now c job := by
  rcases claim_result h with ⟨rfl, hnone⟩ | ⟨c, leased, rfl, hfound, hby⟩
  · refine ⟨fun _ k other hother => ?_, by simp⟩
    obtain ⟨found, hplain⟩ : ∃ found,
        db.claimMatching w now leaseSeconds pick (fun _ => true) = some found :=
      claimMatching_isSome ⟨k, other, hother.1, hother.2, rfl⟩
    simp [hplain] at hnone
  · refine ⟨by simp, ?_⟩
    rintro c' hc'
    cases hc'
    cases haffine : db.claimByAffinity w now leaseSeconds pick affinity with
    | some affine =>
        rw [haffine, Option.some_or] at hfound
        cases hfound
        obtain ⟨hint, hhint, hstreak, job, hcandidate, holdest⟩ := claimByAffinity_spec haffine
        refine ⟨job, hcandidate.top, fun _ => ⟨hint, hhint, hstreak, hcandidate, holdest⟩, ?_⟩
        intro hplain
        rw [haffine, hplain] at hby
        cases hby
    | none =>
        rw [haffine, Option.none_or] at hfound
        obtain ⟨job, heligible, -, hfirst⟩ := claimMatching_head hfound
        have hbehind : ∀ k other, db.Eligible now k other →
            other.effectivePriority ≤ job.effectivePriority ∧
              (other.effectivePriority = job.effectivePriority →
                job.createdAt ≤ other.createdAt) :=
          fun k other hother => (claimKey_le_iff other job).1 (hfirst k other hother rfl)
        have htop : db.Top now c.jobId job :=
          ⟨heligible, fun k other hother => (hbehind k other hother).1⟩
        refine ⟨job, htop, ?_, fun _ => ⟨⟨htop, ?_⟩, claimByAffinity_eq_none haffine⟩⟩
        · intro haffinity
          rw [haffine, haffinity] at hby
          cases hby
        · intro k other hother
          exact (hbehind k other hother.eligible).2
            (le_antisymm (htop.le k other hother.eligible) (hother.le _ job heligible))

end Db

/-! ### One worker's claims -/

/-- The store, and how many claims in a row a worker has taken by affinity. -/
structure Claims where
  store : Store
  streak : ℕ := 0

/-- What happens next. -/
inductive ClaimsAct where
  /-- A transaction that is not this worker's claim. -/
  | store (op : Op)
  | claim (now : Instant) (leaseSeconds pick : ℕ) (resident : List String)

namespace Claims

variable (rack) (w : Owner) (maxStreak : ℕ)

/-- The hint of a claim: none if no model is resident. -/
def hint (s : Claims) (resident : List String) : Option AffinityHint :=
  if resident ≠ [] then some ⟨resident, s.streak, maxStreak⟩ else none

/-- The job an act claims. -/
def claimed (s : Claims) : ClaimsAct → Option ClaimedJob
  | .store _ => none
  | .claim now leaseSeconds pick resident =>
      match s.store.db.claim rack w now leaseSeconds pick (s.hint maxStreak resident) with
      | .ok (result, _) => result
      | .error _ => none

/-- The streak after a claim. -/
def streakAfter (s : Claims) : Option ClaimedJob → ℕ
  | none => s.streak
  | some c => if c.byAffinity then s.streak + 1 else 0

/-- The state after an act. -/
def after (s : Claims) (a : ClaimsAct) : Claims where
  store := match a with
    | .store op => s.store.after rack op
    | .claim now leaseSeconds pick resident =>
        s.store.after rack (.claim w now leaseSeconds pick (s.hint maxStreak resident))
  streak := s.streakAfter (s.claimed rack w maxStreak a)

/-- A transaction needs what it needs. -/
def Enabled (s : Claims) : ClaimsAct → Prop
  | .store op => op.Enabled rack s.store
  | .claim .. => True

/-- **One worker's claims**, among all other transactions, on a store as others left it. -/
def system (start : Store) : System Claims ClaimsAct :=
  .guarded (Enabled rack) (after rack w maxStreak) { store := start }

variable {rack w maxStreak} {start : Store} {s : Claims} {h : List (Step Claims ClaimsAct)}

/-- A claim that took the head of the queue. -/
def TakesHead (rack : ModelRack) (w : Owner) (maxStreak : ℕ) (e : Step Claims ClaimsAct) : Prop :=
  ∃ now leaseSeconds pick resident c job, e.act = .claim now leaseSeconds pick resident ∧
    e.pre.claimed rack w maxStreak e.act = some c ∧ e.pre.store.db.Head now c.jobId job

theorem takes_of_claimed {e : Step Claims ClaimsAct} {c : ClaimedJob}
    (hc : e.pre.claimed rack w maxStreak e.act = some c) :
    ∃ now leaseSeconds pick resident job, e.act = .claim now leaseSeconds pick resident ∧
      e.pre.store.db.Takes (e.pre.hint maxStreak resident) now c job := by
  cases hact : e.act with
  | store op =>
      rw [hact] at hc
      cases hc
  | claim now leaseSeconds pick resident =>
      rw [hact, claimed] at hc
      split at hc
      · rename_i result db hclaim
        obtain ⟨job, htakes⟩ := (Db.claim_order hclaim).2 c hc
        exact ⟨now, leaseSeconds, pick, resident, job, rfl, htakes⟩
      · cases hc

theorem takesHead_or_affine {e : Step Claims ClaimsAct} {c : ClaimedJob}
    (hc : e.pre.claimed rack w maxStreak e.act = some c) :
    TakesHead rack w maxStreak e ∧ c.byAffinity = false ∨
      c.byAffinity = true ∧ e.pre.streak < maxStreak := by
  obtain ⟨now, leaseSeconds, pick, resident, job, hact, htakes⟩ := takes_of_claimed hc
  cases hby : c.byAffinity with
  | false =>
      exact .inl ⟨⟨now, leaseSeconds, pick, resident, c, job, hact, hc, (htakes.plain hby).1⟩, rfl⟩
  | true =>
      obtain ⟨hint, hhint, hstreak, -⟩ := htakes.affine hby
      rw [Claims.hint, Option.mem_def, Option.ite_none_right_eq_some] at hhint
      obtain ⟨-, rfl⟩ := hhint.imp_right Option.some.inj
      exact .inr ⟨rfl, hstreak⟩

theorem streak_le (hrun : Run (system rack w maxStreak start) h s) : s.streak ≤ maxStreak := by
  refine hrun.invariant (P := fun s => s.streak ≤ maxStreak) ?_ ?_
  · rintro _ rfl
    exact Nat.zero_le _
  · rintro s a _ ⟨-, rfl⟩ hle
    simp only [after]
    cases hc : s.claimed rack w maxStreak a with
    | none => exact hle
    | some c =>
        rcases takesHead_or_affine (e := ⟨s, a, s⟩) hc with ⟨-, hby⟩ | ⟨hby, hlt⟩
        · simp [streakAfter, hby]
        · simpa [streakAfter, hby] using Nat.succ_le_of_lt hlt

theorem count_le_streak {h₁ h₂ : List (Step Claims ClaimsAct)}
    (hrun : Run (system rack w maxStreak start) (h₁ ++ h₂) s)
    (hpassed : ∀ e ∈ h₁, ¬ TakesHead rack w maxStreak e) :
    (h₁.countP fun e => (e.pre.claimed rack w maxStreak e.act).isSome) ≤ s.streak := by
  induction h₁ generalizing s with
  | nil => simp
  | cons e h₁ ih =>
      cases hrun with
      | @step _ pre _ a hpast hnext =>
          obtain ⟨-, rfl⟩ := hnext
          have hcount := ih hpast fun e he => hpassed e (List.mem_cons_of_mem _ he)
          have hthis := hpassed _ List.mem_cons_self
          rw [List.countP_cons]
          dsimp only
          cases hc : pre.claimed rack w maxStreak a with
          | none => simpa [after, streakAfter, hc] using hcount
          | some c =>
              rcases takesHead_or_affine (e := ⟨pre, a, _⟩) hc with ⟨hhead, -⟩ | ⟨hby, -⟩
              · exact absurd hhead hthis
              · simpa [after, streakAfter, hc, hby] using hcount

/-- **Claim order and affinity.**  In every run of a worker's claims among the transactions of all
others, every claim takes what the order of the queue says, and of any `max_affinity_streak + 1`
consecutive ones that took a job one took the head of the queue. -/
theorem claims_in_order (hrun : Run (system rack w maxStreak start) h s) :
    (∀ e ∈ h, ∀ now leaseSeconds pick resident, e.act = .claim now leaseSeconds pick resident →
      ∀ result db, e.pre.store.db.claim rack w now leaseSeconds pick
          (e.pre.hint maxStreak resident) = .ok (result, db) →
        (result = none → ∀ k other, ¬ e.pre.store.db.Eligible now k other) ∧
          ∀ c ∈ result, ∃ job, e.pre.store.db.Takes (e.pre.hint maxStreak resident) now c job) ∧
    ∀ h₁ span h₂, h = h₁ ++ span ++ h₂ →
      maxStreak < span.countP (fun e => (e.pre.claimed rack w maxStreak e.act).isSome) →
        ∃ e ∈ span, TakesHead rack w maxStreak e := by
  refine ⟨fun e _ now leaseSeconds pick resident _ result db => Db.claim_order, ?_⟩
  rintro h₁ h₀ h₂ rfl hlong
  by_contra hnone
  push Not at hnone
  cases h₀ with
  | nil => simp at hlong
  | cons e h₀ =>
      rw [List.append_assoc] at hrun
      have hpast := hrun.past.2.2
      have hcount : ((e :: h₀).countP fun e =>
          (e.pre.claimed rack w maxStreak e.act).isSome) ≤ e.post.streak :=
        count_le_streak hpast hnone
      have hle := streak_le hpast
      omega

/-- Three jobs, the younger ones for a resident model; the first claim passes the oldest by, the
second has to take it. -/
def twoClaims : List ClaimsAct :=
  [.store (.enqueue 7 (promptSubmission true) ("chat", "1") none 0 {}),
    .store (.enqueue 8 (promptSubmission true) ("chat", "1") (some "m") 1 {}),
    .store (.enqueue 9 (promptSubmission true) ("chat", "1") (some "m") 2 {}),
    .claim 3 60 0 ["m"], .claim 4 60 0 ["m"]]

theorem claims_in_order_two :
    ∃ e ∈ (trace (after documentedRack ⟨0, 0⟩ 1) { store := {} } twoClaims).take 2,
      TakesHead documentedRack ⟨0, 0⟩ 1 e := by
  have hadmissible : Admissible (Enabled documentedRack) (after documentedRack ⟨0, 0⟩ 1)
      { store := {} } twoClaims :=
    ⟨promptSubmission_accepted true, promptSubmission_accepted true,
      promptSubmission_accepted true, trivial, trivial, trivial⟩
  exact (claims_in_order (Run.replay hadmissible)).2 [] _ _ (List.take_append_drop 2 _).symm
    (by decide +kernel)

end Claims

end LoadCoach
