import Mathlib.Data.Finset.Card
import LoadCoach.Store.Submitters

/-! # Queue caps

An enqueue counts the active jobs, then those of its source, and inserts; the three statements are
three transactions.  The caps hold of what was counted.  They hold of what is inserted as long as,
between the count and the insert, fewer jobs become active than there are places that the count
found free or that have become free since (`capsKept_iff`).  They are broken as soon as two
submissions count the same free place. -/

namespace LoadCoach

open Foundations

/-- The caps an enqueue is counted against: the whole queue's, and its source's unless the setting
is zero. -/
def SubmitCall.caps (call : SubmitCall) : List (Option String × ℕ) :=
  match call.submission with
  | .enqueue s _ settings =>
      (none, settings.maxDepth) ::
        if settings.maxActivePerSource ≠ 0 then [(some s.source, settings.maxActivePerSource)]
        else []
  | .reserveSyncJob .. => []

theorem Db.activeCount_insertJob {db db' : Db} {jobId : JobId} {job : Job}
    (hinsert : db.insertJob jobId job = .ok db') (hactive : job.state ∈ activeStates)
    {source : Option String} (hsource : source.all fun source => job.source == source) :
    db'.activeCount source = db.activeCount source + 1 := by
  have hfresh := AList.lookup_eq_none.1 (track_insertJob hinsert).1
  unfold insertJob at hinsert
  split_ifs at hinsert
  cases hinsert
  unfold activeCount
  rw [Table.length_select_insert hfresh]
  simp [hactive, hsource]

namespace Submitters

variable {rack : ModelRack} {calls : ℕ → SubmitCall} {start : Store} {s : Submitters} {c : ℕ}
variable {h : List (Step Submitters SubmitAct)} {e : Step Submitters SubmitAct}

/-! ### Counts and inserts -/

/-- The point at which the jobs of one source, or all of them, are counted. -/
def countingOf : Option String → SubmitPoint
  | none => .counting
  | some _ => .countingSource

/-- The active jobs of one source, or all of them. -/
def activeIds (source : Option String) (s : Submitters) : Finset JobId :=
  ((s.store.db.jobs.select fun _ job =>
    decide (job.state ∈ activeStates) && source.all fun source => job.source == source).map
      Prod.fst).toFinset

/-- How many they are. -/
def active (source : Option String) (s : Submitters) : ℕ := s.store.db.activeCount source

/-- The jobs that are active now and were not then. -/
def arrived (source : Option String) (before now : Submitters) : ℕ :=
  (now.activeIds source \ before.activeIds source).card

/-- The jobs that were active then and no longer are. -/
def departed (source : Option String) (before now : Submitters) : ℕ :=
  (before.activeIds source \ now.activeIds source).card

/-- A step by which a call counts. -/
def Counts (c : ℕ) (source : Option String) (e : Step Submitters SubmitAct) : Prop :=
  (∃ jobId, e.act = .next c jobId) ∧ e.pre.point c = countingOf source

/-- A step by which a call creates its job. -/
def Creates (calls : ℕ → SubmitCall) (c : ℕ) (e : Step Submitters SubmitAct) : Prop :=
  ∃ jobId, e.act = .next c jobId ∧ e.pre.point c = .inserting ∧
    e.post.point c = .returned jobId (calls c).created true

/-- **The caps.**  No enqueue creates a job that makes the active jobs more than a cap allows. -/
def CapsKept (calls : ℕ → SubmitCall) (h : List (Step Submitters SubmitAct)) : Prop :=
  ∀ e ∈ h, ∀ c, Creates calls c e → ∀ cap ∈ (calls c).caps, e.post.active cap.1 ≤ cap.2

/-- Between a count and the insert that relied on it fewer jobs became active than the count found
places free and were freed since. -/
def RoomLeft (calls : ℕ → SubmitCall) (h : List (Step Submitters SubmitAct)) : Prop :=
  ∀ e ∈ h, ∀ c, Creates calls c e → ∀ cap ∈ (calls c).caps,
    ∀ e₀ ∈ h, Counts c cap.1 e₀ →
      arrived cap.1 e₀.pre e.pre <
        (cap.2 - e₀.pre.active cap.1) + departed cap.1 e₀.pre e.pre

theorem active_eq_card (source : Option String) (s : Submitters) :
    s.active source = (s.activeIds source).card := by
  rw [activeIds, List.toFinset_card_of_nodup (Table.keys_nodup_select _ _), List.length_map]
  rfl

theorem arrived_add_active (source : Option String) (s s' : Submitters) :
    arrived source s s' + s.active source = s'.active source + departed source s s' := by
  rw [arrived, departed, active_eq_card, active_eq_card, Finset.card_sdiff_add_card,
    Nat.add_comm, Finset.card_sdiff_add_card, Finset.union_comm]

theorem mem_caps {call : SubmitCall} {cap : Option String × ℕ} (hcap : cap ∈ call.caps) :
    ∃ sub pinned settings, call.submission = .enqueue sub pinned settings ∧
      (cap = (none, settings.maxDepth) ∨ settings.maxActivePerSource ≠ 0 ∧
        cap = (some sub.source, settings.maxActivePerSource)) := by
  unfold SubmitCall.caps at hcap
  cases hsub : call.submission with
  | enqueue sub pinned settings =>
      rw [hsub] at hcap
      refine ⟨sub, pinned, settings, rfl, ?_⟩
      rcases List.mem_cons.1 hcap with rfl | hcap
      · exact .inl rfl
      · split_ifs at hcap with hset
        · exact .inr ⟨hset, List.mem_singleton.1 hcap⟩
        · simp at hcap
  | reserveSyncJob =>
      rw [hsub] at hcap
      simp at hcap

/-- **A created job is one more active job** of its source and of the queue. -/
theorem active_of_creates (hnext : (system rack calls start).next e.pre e.act e.post)
    (hcreates : Creates calls c e) {cap : Option String × ℕ} (hcap : cap ∈ (calls c).caps) :
    e.post.active cap.1 = e.pre.active cap.1 + 1 := by
  obtain ⟨pre, act, post⟩ := e
  obtain ⟨jobId, rfl, hpoint, hreturned⟩ := hcreates
  obtain ⟨-, hpost⟩ := hnext
  obtain ⟨sub, pinned, settings, hsub, hkind⟩ := mem_caps hcap
  dsimp only at hpoint hreturned hpost ⊢
  subst hpost
  simp only [Submitters.after, goto, hpoint, SubmitCall.next, Function.update_self,
    SubmitCall.inserted] at hreturned
  cases hrun : ((calls c).insertOp jobId).run rack pre.store.db with
  | error raised =>
      rw [hrun] at hreturned
      cases raised <;> cases hreturned
  | ok db =>
      simp only [active, Submitters.after, hpoint, SubmitCall.op, Store.after, hrun]
      simp only [SubmitCall.insertOp, hsub, Op.run, Db.enqueue, bind_eq_ok, pure_eq_ok] at hrun
      obtain ⟨priority, -, requestJson, -, db₁, hinsert, rfl⟩ := hrun
      have hsource : cap.1.all fun source => sub.source == source := by
        rcases hkind with rfl | ⟨-, rfl⟩ <;> simp
      exact Db.activeCount_insertJob hinsert (show JobState.queued ∈ activeStates by decide) hsource

/-! ### Behind a count -/

/-- The points a call reaches only through the count. -/
def Behind : Option String → SubmitPoint → Prop
  | none, p => p = .countingSource ∨ p = .inserting
  | some _, p => p = .inserting

theorem Behind.counted {source : Option String} {p : SubmitPoint} (hp : Behind source p) :
    p = .countingSource ∨ p = .inserting := by
  cases source with
  | none => exact hp
  | some _ => exact .inr hp

theorem behind_inserting (source : Option String) : Behind source .inserting := by
  cases source with
  | none => exact .inr rfl
  | some _ => rfl

theorem point_after (s : Submitters) (a : SubmitAct) (c : ℕ) :
    (s.after rack calls a).point c = s.point c ∨ a = .start c ∨
      (∃ jobId, a = .next c jobId) ∨ ∃ raised, a = .fail c raised := by
  cases a with
  | store op => exact .inl rfl
  | start d =>
      by_cases hcd : c = d
      · exact .inr (.inl (hcd ▸ rfl))
      · exact .inl (Function.update_of_ne hcd _ _)
  | next d jobId =>
      by_cases hcd : c = d
      · exact .inr (.inr (.inl ⟨jobId, hcd ▸ rfl⟩))
      · exact .inl (Function.update_of_ne hcd _ _)
  | fail d raised =>
      by_cases hcd : c = d
      · exact .inr (.inr (.inr ⟨raised, hcd ▸ rfl⟩))
      · exact .inl (Function.update_of_ne hcd _ _)

theorem begin_uncounted {call : SubmitCall} {sub : JobSubmission} {pinned : Option String}
    {settings : QueueSettings} (hsub : call.submission = .enqueue sub pinned settings) :
    ¬ (call.begin = .countingSource ∨ call.begin = .inserting) := by
  simp only [SubmitCall.begin, SubmitCall.behindLookup, hsub]
  cases basePriority sub.jobClass sub.priority with
  | error raised => simp
  | ok priority =>
      dsimp only
      split_ifs <;> simp

theorem found_uncounted {otherwise : SubmitPoint} {result : Option (JobId × JobState)}
    (h : ¬ (otherwise = .countingSource ∨ otherwise = .inserting)) :
    ¬ (SubmitCall.found otherwise result = .countingSource ∨
      SubmitCall.found otherwise result = .inserting) := by
  cases result with
  | none => exact h
  | some found => simp [SubmitCall.found]

theorem counts_of_behind (hnext : (system rack calls start).next e.pre e.act e.post)
    {cap : Option String × ℕ} (hcap : cap ∈ (calls c).caps)
    (hbefore : ¬ Behind cap.1 (e.pre.point c)) (hafter : Behind cap.1 (e.post.point c)) :
    Counts c cap.1 e ∧ e.pre.active cap.1 < cap.2 := by
  obtain ⟨pre, act, post⟩ := e
  obtain ⟨-, hpost⟩ := hnext
  obtain ⟨sub, pinned, settings, hsub, hkind⟩ := mem_caps hcap
  have hbehind : (calls c).behindLookup = .counting := by
    simp only [SubmitCall.behindLookup, hsub]
  dsimp only at hbefore hafter hpost ⊢
  subst hpost
  rcases point_after pre act c with hsame | rfl | ⟨jobId, rfl⟩ | ⟨raised, rfl⟩
  · exact absurd (hsame ▸ hafter) hbefore
  · simp only [Submitters.after, goto, Function.update_self] at hafter
    exact absurd hafter.counted (begin_uncounted hsub)
  · simp only [Submitters.after, goto, Function.update_self] at hafter
    cases hpoint : pre.point c with
    | idle | returned | raised =>
        rw [hpoint] at hbefore hafter
        exact absurd hafter hbefore
    | looking =>
        rw [hpoint, SubmitCall.next, hbehind] at hafter
        exact absurd hafter.counted (found_uncounted (by simp))
    | lookingAgain =>
        rw [hpoint, SubmitCall.next] at hafter
        exact absurd hafter.counted (found_uncounted (by simp))
    | counting =>
        rw [hpoint, SubmitCall.next, SubmitCall.counted, hsub] at hafter
        dsimp only at hafter
        split_ifs at hafter with hfull hset
        · exact absurd hafter.counted (by simp)
        · rcases hkind with rfl | ⟨-, rfl⟩
          · exact ⟨⟨⟨jobId, rfl⟩, hpoint⟩, Nat.lt_of_not_le hfull⟩
          · cases hafter
        · rcases hkind with rfl | ⟨hcapped, rfl⟩
          · exact ⟨⟨⟨jobId, rfl⟩, hpoint⟩, Nat.lt_of_not_le hfull⟩
          · exact absurd hcapped hset
    | countingSource =>
        rcases hkind with rfl | ⟨-, rfl⟩
        · exact absurd (.inl hpoint) hbefore
        · rw [hpoint, SubmitCall.next, SubmitCall.countedSource, hsub] at hafter
          dsimp only at hafter
          split_ifs at hafter with hfull
          · cases hafter
          · exact ⟨⟨⟨jobId, rfl⟩, hpoint⟩, Nat.lt_of_not_le hfull⟩
    | inserting =>
        rw [hpoint] at hbefore
        exact absurd (behind_inserting _) hbefore
  · simp only [Submitters.after, goto, Function.update_self] at hafter
    exact absurd hafter.counted (by simp)

/-- **What stands at its insert has counted**, and found room. -/
theorem counted_of_inserting (hrun : Run (system rack calls start) h s)
    (hpoint : s.point c = .inserting) {cap : Option String × ℕ} (hcap : cap ∈ (calls c).caps) :
    ∃ e ∈ h, Counts c cap.1 e ∧ e.pre.active cap.1 < cap.2 := by
  have hinit : ∀ s ∈ (system rack calls start).init, ¬ Behind cap.1 (s.point c) := by
    rintro _ rfl hbehind
    exact absurd hbehind.counted (by simp)
  obtain ⟨h₁, e, h₂, rfl, hbefore, hafter, -⟩ :=
    hrun.since hinit (hpoint ▸ behind_inserting cap.1)
  have he : e ∈ h₁ ++ e :: h₂ := List.mem_append_right _ List.mem_cons_self
  exact ⟨e, he, counts_of_behind (hrun.next_of_mem he) hcap hbefore hafter⟩

/-! ### The caps -/

/-- **Queue caps.**  A run keeps the caps exactly if, between every count and the insert that
relied on it, fewer jobs became active than the count found places free and were freed since. -/
theorem capsKept_iff (hrun : Run (system rack calls start) h s) :
    CapsKept calls h ↔ RoomLeft calls h := by
  constructor
  · intro hkept e he c hcreates cap hcap e₀ he₀ hcounts
    have hactive := active_of_creates (hrun.next_of_mem he) hcreates hcap
    have hcapped := hkept e he c hcreates cap hcap
    have hmoved := arrived_add_active cap.1 e₀.pre e.pre
    omega
  · intro hroom e he c hcreates cap hcap
    obtain ⟨h₁, h₂, rfl⟩ := List.append_of_mem he
    have hactive := active_of_creates (hrun.next_of_mem he) hcreates hcap
    obtain ⟨-, -, hpoint, -⟩ := id hcreates
    obtain ⟨e₀, he₀, hcounts, hlt⟩ := counted_of_inserting hrun.past.1 hpoint hcap
    have hbelow := hroom e he c hcreates cap hcap e₀
      (List.mem_append_right _ (List.mem_cons_of_mem _ he₀)) hcounts
    have hmoved := arrived_add_active cap.1 e₀.pre e.pre
    omega

/-- Enqueues of one source, into a queue of some places. -/
def callsInto (places : ℕ) : ℕ → SubmitCall := fun _ =>
  ⟨.enqueue (promptSubmission true) none { maxDepth := places, maxActivePerSource := places },
    ("chat", "1"), 0⟩

theorem callsInto_accepted (places c : ℕ) : (callsInto places c).Accepted documentedRack :=
  promptSubmission_accepted true

/-- Two enqueues count before either inserts. -/
def crowd : List SubmitAct :=
  [.start 0, .start 1, .next 0 7, .next 1 8, .next 0 7, .next 1 8, .next 0 7, .next 1 8]

/-- Two places are enough for both. -/
theorem capsKept_iff_twoPlaces :
    CapsKept (callsInto 2) (trace (after documentedRack (callsInto 2)) { store := {} } crowd) := by
  have hadmissible : Admissible (Enabled documentedRack (callsInto 2))
      (after documentedRack (callsInto 2)) { store := {} } crowd := by
    refine ⟨⟨rfl, callsInto_accepted 2 0⟩, ⟨rfl, callsInto_accepted 2 1⟩, ?_, ?_, ?_, ?_, ?_, ?_,
      trivial⟩
    all_goals exact ⟨trivial, callsInto_accepted _ _, by decide +kernel⟩
  have hfew : ∀ e ∈ trace (after documentedRack (callsInto 2)) { store := {} } crowd,
      e.pre.active none ≤ 1 ∧ e.pre.active (some "anonymous") ≤ 1 := by
    refine forall_mem_trace ⟨?_, ?_, ?_, ?_, ?_, ?_, ?_, ?_, trivial⟩
    all_goals decide +kernel
  refine (capsKept_iff (Run.replay hadmissible)).2 fun e he c _ cap hcap e₀ he₀ _ => ?_
  have hcaps : cap ∈ [(none, 2), (some "anonymous", 2)] := hcap
  have hplaces : e.pre.active cap.1 ≤ 1 ∧ e₀.pre.active cap.1 ≤ 1 ∧ cap.2 = 2 := by
    simp only [List.mem_cons, List.not_mem_nil, or_false] at hcaps
    rcases hcaps with rfl | rfl
    · exact ⟨(hfew e he).1, (hfew e₀ he₀).1, rfl⟩
    · exact ⟨(hfew e he).2, (hfew e₀ he₀).2, rfl⟩
  have hmoved := arrived_add_active cap.1 e₀.pre e.pre
  omega

/-- Two enqueues find the one place of a queue free, and both take it. -/
theorem caps_broken :
    ∃ h s, Run (system documentedRack (callsInto 1) {}) h s ∧ ¬ CapsKept (callsInto 1) h := by
  have hadmissible : Admissible (Enabled documentedRack (callsInto 1))
      (after documentedRack (callsInto 1)) { store := {} } crowd := by
    refine ⟨⟨rfl, callsInto_accepted 1 0⟩, ⟨rfl, callsInto_accepted 1 1⟩, ?_, ?_, ?_, ?_, ?_, ?_,
      trivial⟩
    all_goals exact ⟨trivial, callsInto_accepted _ _, by decide +kernel⟩
  refine ⟨_, _, Run.replay hadmissible, fun hkept => ?_⟩
  have hcap : (none, 1) ∈ (callsInto 1 1).caps := List.mem_cons_self
  have hactive := hkept _ List.mem_cons_self 1
    ⟨8, rfl, rfl, SubmitPoint.result?_eq_some.1 (by decide +kernel)⟩ _ hcap
  exact absurd hactive (by decide +kernel)

end Submitters

end LoadCoach
