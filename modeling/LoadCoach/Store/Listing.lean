import Mathlib.Data.Prod.Lex
import LoadCoach.Foundations.Cursor
import LoadCoach.Foundations.Sweep
import LoadCoach.Foundations.Text
import LoadCoach.Store.Db

/-! # The listing of jobs

`GET /jobs` lists jobs newest first, and those of one instant by their identifiers
(`services/queue.py`).  The cursor of a page holds the instant and the identifier of its last job,
and the handler reads the instant alone (`web/routes/jobs.py`): the next page begins before it.

`listing_complete_iff`: who follows the cursors receives every matching job exactly when the jobs on
the two sides of each boundary between pages were created at different instants. -/

namespace LoadCoach

open Foundations

/-! ### Listing -/

/-- What a listing asks for. -/
structure JobFilter where
  states : Option (List JobState) := none
  jobClass : Option JobClass := none
  task : Option String := none
  source : Option String := none

/-- The `where` clauses of a filter. -/
def JobFilter.admits (filter : JobFilter) (job : Job) : Bool :=
  filter.states.all (job.state ∈ ·) && filter.jobClass.all (job.jobClass = ·) &&
    filter.task.all (job.taskProfileId = ·) && filter.source.all (job.source = ·)

/-- `order_by(created_at.desc(), id.desc())`. -/
def newerFirst (a b : JobId × Job) : Prop :=
  toLex (b.2.createdAt, b.1) ≤ toLex (a.2.createdAt, a.1)

instance : DecidableRel newerFirst := fun a b =>
  inferInstanceAs (Decidable (toLex (b.2.createdAt, b.1) ≤ toLex (a.2.createdAt, a.1)))

/-- The jobs a filter admits, newest first. -/
def Db.listed (db : Db) (filter : JobFilter) : List (JobId × Job) :=
  (db.jobs.select fun _ job => filter.admits job).insertionSort newerFirst

/-- `list_jobs`. -/
def Db.listJobs (db : Db) (filter : JobFilter) (limit : ℕ) (before : Option Instant) :
    List (JobId × Job) :=
  ((db.jobs.select fun _ job => filter.admits job && before.all (job.createdAt < ·)).insertionSort
    newerFirst).take limit

/-! ### Cursors -/

/-- The texts a cursor is made of. -/
structure CursorText where
  /-- `isoformat()` of an instant of UTC. -/
  isoformat : Instant → String
  fromisoformat : String → Option Instant
  urlsafeB64encode : String → String
  /-- Decoding, also from UTF-8; it may raise. -/
  urlsafeB64decode : String → Option String
  /-- A job's identifier. -/
  ulid : JobId → String

namespace CursorText

variable (text : CursorText)

/-- What a cursor says. -/
def raw (e : JobId × Job) : String :=
  s!"{text.isoformat e.2.createdAt}|{text.ulid e.1}"

/-- `_encode_cursor`. -/
def encodeCursor (e : JobId × Job) : String := text.urlsafeB64encode (text.raw e)

/-- `_decode_cursor`. -/
def decodeCursor (cursor : String) : Option Instant :=
  if cursor = "" then none
  else (text.urlsafeB64decode cursor).bind fun raw => text.fromisoformat (partition '|' raw).1

/-- `get_jobs`: a page of so many jobs, and the cursor of the next one. -/
def getJobs (db : Db) (filter : JobFilter) (effective : ℕ) (cursor : Option String) :
    List (JobId × Job) × Option String :=
  let records := db.listJobs filter (effective + 1) (cursor.bind text.decodeCursor)
  let page := records.take effective
  (page, if effective < records.length then page.getLast?.map text.encodeCursor else none)

/-- The texts of the jobs' cursors can be read again: the printing of an instant, which has no bar in
it, and the encoding of a text. -/
structure Lawful (db : Db) : Prop where
  stamp : ∀ j job, db.jobs.lookup j = some job →
    text.fromisoformat (text.isoformat job.createdAt) = some job.createdAt ∧
      '|' ∉ (text.isoformat job.createdAt).toList
  token : ∀ j job, db.jobs.lookup j = some job →
    text.urlsafeB64decode (text.encodeCursor (j, job)) = some (text.raw (j, job)) ∧
      text.encodeCursor (j, job) ≠ ""

end CursorText

section Listing

variable {text : CursorText} {db : Db} {filter : JobFilter} {n : ℕ}

/-- The key a cursor continues by. -/
def recency (e : JobId × Job) : ℤᵒᵈ := OrderDual.toDual e.2.createdAt

theorem partition_append {before rest : String} (h : '|' ∉ before.toList) :
    (partition '|' (before ++ "|" ++ rest)).1 = before := by
  have htake : (before.toList ++ '|' :: rest.toList).takeWhile (· != '|') = before.toList := by
    have hall : ∀ c ∈ before.toList, (c != '|') = true := by
      intro c hc
      rw [bne_iff_ne]
      rintro rfl
      exact h hc
    rw [List.takeWhile_append_of_pos hall]
    simp
  simp [partition, htake]

theorem CursorText.Lawful.decode_encode (hlawful : text.Lawful db) {e : JobId × Job}
    (he : e ∈ db.listed filter) :
    text.decodeCursor (text.encodeCursor e) = some e.2.createdAt := by
  obtain ⟨j, job⟩ := e
  have hrow : db.jobs.lookup j = some job :=
    ((Table.mem_select _ _ _ _).1 ((List.mem_insertionSort _).1 he)).1
  obtain ⟨hdecode, hnonempty⟩ := hlawful.token j job hrow
  obtain ⟨hstamp, hbar⟩ := hlawful.stamp j job hrow
  rw [CursorText.decodeCursor, if_neg hnonempty, hdecode, Option.bind_some]
  change text.fromisoformat
    (partition '|' (text.isoformat job.createdAt ++ "|" ++ text.ulid j)).1 = some job.createdAt
  rw [partition_append hbar, hstamp]

instance : Std.Total newerFirst := ⟨fun _ b => le_total (toLex (b.2.createdAt, b.1)) _⟩

instance : IsTrans (JobId × Job) newerFirst := ⟨fun _ _ _ hab hbc => le_trans hbc hab⟩

theorem listed_sorted : (db.listed filter).Pairwise fun a b => recency a ≤ recency b := by
  refine (List.pairwise_insertionSort newerFirst _).imp fun {a b} hab => ?_
  exact (Prod.Lex.toLex_le_toLex'.1 hab).1

/-- The key a cursor is read as. -/
def CursorText.decodeKey (text : CursorText) (cursor : String) : Option ℤᵒᵈ :=
  (text.decodeCursor cursor).map OrderDual.toDual

theorem getJobs_eq : text.getJobs db filter n =
    cursorPage recency text.encodeCursor text.decodeKey n (db.listed filter) := by
  funext cursor
  have hselect : (db.jobs.select fun _ job => filter.admits job &&
        (cursor.bind text.decodeCursor).all (job.createdAt < ·)).insertionSort newerFirst =
      beyond recency text.decodeKey (db.listed filter) cursor := by
    rw [beyond, Db.listed, filter_insertionSort, Table.select, Table.select, List.filter_filter]
    congr 1
    refine List.filter_congr fun e _ => ?_
    rw [Bool.and_comm]
    congr 1
    cases cursor with
    | none => rfl
    | some c =>
        rw [Option.bind_some, Option.bind_some, CursorText.decodeKey]
        cases text.decodeCursor c <;> rfl
  have hfew : ∀ l : List (JobId × Job), n < (l.take (n + 1)).length ↔ n < l.length := by
    intro l
    rw [List.length_take]
    omega
  rw [CursorText.getJobs, cursorPage, Db.listJobs, hselect]
  simp only [hfew, List.take_take, Nat.min_eq_left (Nat.le_succ n)]

theorem distinctBoundaries_listed_iff (hn : 1 ≤ n) :
    DistinctBoundaries recency n (db.listed filter) ↔
      ∀ k a b, 1 ≤ k → (db.listed filter)[k * n - 1]? = some a →
        (db.listed filter)[k * n]? = some b → a.2.createdAt ≠ b.2.createdAt := by
  refine forall₄_congr fun k a b hk => forall₂_congr fun ha hb => ?_
  obtain ⟨hka, rfl⟩ := List.getElem?_eq_some_iff.1 ha
  obtain ⟨hkb, rfl⟩ := List.getElem?_eq_some_iff.1 hb
  have hpos : 0 < k * n := Nat.mul_pos hk hn
  have hle := List.pairwise_iff_getElem.1 (@listed_sorted db filter) _ _ hka hkb (by omega)
  rw [hle.lt_iff_ne]
  exact not_congr OrderDual.toDual_inj

/-- **The listing is complete** exactly when the jobs on the two sides of each boundary between pages
were created at different instants. -/
theorem listing_complete_iff (hlawful : text.Lawful db) (hn : 1 ≤ n) :
    (∃ out, Follows (text.getJobs db filter n) none out ∧
      out.Perm (db.jobs.select fun _ job => filter.admits job)) ↔
      ∀ k a b, 1 ≤ k → (db.listed filter)[k * n - 1]? = some a →
        (db.listed filter)[k * n]? = some b → a.2.createdAt ≠ b.2.createdAt := by
  have hdecode : ∀ e ∈ db.listed filter,
      text.decodeKey (text.encodeCursor e) = some (recency e) := by
    intro e he
    rw [CursorText.decodeKey, hlawful.decode_encode he]
    rfl
  have hperm : (db.listed filter).Perm (db.jobs.select fun _ job => filter.admits job) :=
    List.perm_insertionSort _ _
  have hstart : beyond recency text.decodeKey (db.listed filter) none = db.listed filter :=
    List.filter_eq_self.2 fun _ _ => rfl
  have hiff : Follows (text.getJobs db filter n) none (db.listed filter) ↔
      DistinctBoundaries recency n (db.listed filter) := by
    have hread : Follows (cursorPage recency text.encodeCursor text.decodeKey n _) none _ ↔ _ :=
      follows_iff hn (@listed_sorted db filter) hdecode
    rwa [← getJobs_eq, hstart] at hread
  obtain ⟨out, hout, hsub⟩ : ∃ out, Follows (text.getJobs db filter n) none out ∧
      out.Sublist (db.listed filter) := by
    have hend : ∃ out,
        Follows (cursorPage recency text.encodeCursor text.decodeKey n _) none out ∧ _ :=
      exists_follows hn (@listed_sorted db filter) hdecode
    rwa [← getJobs_eq, hstart] at hend
  rw [← distinctBoundaries_listed_iff hn, ← hiff]
  constructor
  · rintro ⟨out', hout', hperm'⟩
    obtain rfl := hout.unique hout'
    rwa [hsub.eq_of_length (hperm'.trans hperm.symm).length_eq] at hout
  · intro hall
    exact ⟨_, hall, hperm⟩

/-- Cursors as the library writes them, at three rows. -/
def epochText : CursorText where
  isoformat := fun instant =>
    if instant = 0 then "1970-01-01T00:00:00+00:00"
    else if instant = seconds 1 then "1970-01-01T00:00:01+00:00" else ""
  fromisoformat := fun stamp =>
    if stamp = "1970-01-01T00:00:00+00:00" then some 0
    else if stamp = "1970-01-01T00:00:01+00:00" then some (seconds 1) else none
  urlsafeB64encode := fun raw =>
    if raw = "1970-01-01T00:00:00+00:00|00000000000000000000000001" then
      "MTk3MC0wMS0wMVQwMDowMDowMCswMDowMHwwMDAwMDAwMDAwMDAwMDAwMDAwMDAwMDAwMQ=="
    else if raw = "1970-01-01T00:00:00+00:00|00000000000000000000000002" then
      "MTk3MC0wMS0wMVQwMDowMDowMCswMDowMHwwMDAwMDAwMDAwMDAwMDAwMDAwMDAwMDAwMg=="
    else "MTk3MC0wMS0wMVQwMDowMDowMSswMDowMHwwMDAwMDAwMDAwMDAwMDAwMDAwMDAwMDAwMg=="
  urlsafeB64decode := fun token =>
    if token = "MTk3MC0wMS0wMVQwMDowMDowMCswMDowMHwwMDAwMDAwMDAwMDAwMDAwMDAwMDAwMDAwMQ==" then
      some "1970-01-01T00:00:00+00:00|00000000000000000000000001"
    else if token = "MTk3MC0wMS0wMVQwMDowMDowMCswMDowMHwwMDAwMDAwMDAwMDAwMDAwMDAwMDAwMDAwMg==" then
      some "1970-01-01T00:00:00+00:00|00000000000000000000000002"
    else some "1970-01-01T00:00:01+00:00|00000000000000000000000002"
  ulid := fun j => if j = 1 then "00000000000000000000000001" else "00000000000000000000000002"

/-- Two jobs, with the instants of their creation. -/
def twoJobs (first second : Instant) : Db where
  jobs := ((∅ : Table JobId Job).insert 1
      { taskProfileId := "chat", taskProfileVersion := "1", state := .queued, createdAt := first }
    ).insert 2
      { taskProfileId := "chat", taskProfileVersion := "1", state := .queued, createdAt := second }

theorem twoJobs_row {first second : Instant} {j : JobId} {job : Job}
    (h : (twoJobs first second).jobs.lookup j = some job) :
    (j = 1 ∧ job.createdAt = first) ∨ (j = 2 ∧ job.createdAt = second) := by
  rw [twoJobs] at h
  by_cases hj : j = 2
  · rw [hj, AList.lookup_insert] at h
    exact .inr ⟨hj, by rw [← Option.some.inj h]⟩
  · rw [AList.lookup_insert_ne hj] at h
    by_cases hj' : j = 1
    · rw [hj', AList.lookup_insert] at h
      exact .inl ⟨hj', by rw [← Option.some.inj h]⟩
    · rw [AList.lookup_insert_ne hj'] at h
      cases h

theorem twoJobs_lawful {second : Instant} (hsecond : second = 0 ∨ second = seconds 1) :
    epochText.Lawful (twoJobs 0 second) := by
  have hrow : ∀ j job, (twoJobs 0 second).jobs.lookup j = some job →
      (j = 1 ∧ job.createdAt = 0) ∨ (j = 2 ∧ job.createdAt = 0) ∨
        (j = 2 ∧ job.createdAt = seconds 1) := by
    intro j job h
    obtain hone | ⟨hj, hcreated⟩ := twoJobs_row h
    · exact .inl hone
    · exact .inr (hsecond.imp (fun h => ⟨hj, hcreated.trans h⟩) fun h => ⟨hj, hcreated.trans h⟩)
  constructor
  · intro j job h
    obtain ⟨-, hcreated⟩ | ⟨-, hcreated⟩ | ⟨-, hcreated⟩ := hrow j job h <;>
      rw [hcreated] <;> decide +kernel
  · intro j job h
    obtain ⟨hj, hcreated⟩ | ⟨hj, hcreated⟩ | ⟨hj, hcreated⟩ := hrow j job h <;>
      rw [CursorText.encodeCursor, CursorText.raw, hj, hcreated] <;> dsimp only <;> decide +kernel

/-- Of two jobs of one instant, pages of one job show one. -/
theorem listing_loses : epochText.Lawful (twoJobs 0 0) ∧
    ¬ ∃ out, Follows (epochText.getJobs (twoJobs 0 0) {} 1) none out ∧
      out.Perm ((twoJobs 0 0).jobs.select fun _ job => ({} : JobFilter).admits job) := by
  refine ⟨twoJobs_lawful (.inl rfl), ?_⟩
  rintro ⟨out, hout, hperm⟩
  have hfirst : epochText.getJobs (twoJobs 0 0) {} 1 none = (_, some
      "MTk3MC0wMS0wMVQwMDowMDowMCswMDowMHwwMDAwMDAwMDAwMDAwMDAwMDAwMDAwMDAwMg==") :=
    Prod.ext rfl (by decide +kernel)
  obtain ⟨rest, rfl, hrest⟩ := (follows_of_some hfirst).1 hout
  have hsecond : epochText.getJobs (twoJobs 0 0) {} 1 (some
      "MTk3MC0wMS0wMVQwMDowMDowMCswMDowMHwwMDAwMDAwMDAwMDAwMDAwMDAwMDAwMDAwMg==") = (_, none) :=
    Prod.ext rfl (by decide +kernel)
  rw [(follows_of_none hsecond).1 hrest] at hperm
  exact absurd hperm.length_eq (by decide +kernel)

/-- Of two instants, they show both. -/
theorem listing_complete_two :
    ∃ out, Follows (epochText.getJobs (twoJobs 0 (seconds 1)) {} 1) none out ∧
      out.Perm ((twoJobs 0 (seconds 1)).jobs.select fun _ job => ({} : JobFilter).admits job) := by
  refine (listing_complete_iff (twoJobs_lawful (.inr rfl)) le_rfl).2 fun k a b hk ha hb => ?_
  have hlength : ((twoJobs 0 (seconds 1)).listed {}).length = 2 := by decide +kernel
  obtain ⟨hlt, -⟩ := List.getElem?_eq_some_iff.1 hb
  obtain rfl : k = 1 := by omega
  have hcreated := congrArg (Option.map fun e : JobId × Job => e.2.createdAt) ha
  have hcreated' := congrArg (Option.map fun e : JobId × Job => e.2.createdAt) hb
  have hnewest : (((twoJobs 0 (seconds 1)).listed {})[0]?).map (fun e => e.2.createdAt) =
      some (seconds 1) := by
    decide +kernel
  have holdest : (((twoJobs 0 (seconds 1)).listed {})[1]?).map (fun e => e.2.createdAt) =
      some 0 := by
    decide +kernel
  have hnewer : a.2.createdAt = seconds 1 := Option.some.inj (hcreated.symm.trans hnewest)
  have holder : b.2.createdAt = 0 := Option.some.inj (hcreated'.symm.trans holdest)
  rw [hnewer, holder]
  decide

end Listing

end LoadCoach
